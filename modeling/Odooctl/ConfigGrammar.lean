import Odooctl.TrimmedLines

/-!
# The grammar of configuration files

Section headers, options with `=` or `:`, indented continuation lines, comment lines and empty
lines, read line by line. How option names are folded is left open. An option that is declared
twice in a section, a section that is opened twice, an option before any section and a line that
is nothing of all this are refused.
-/
namespace ConfigGrammar

open TrimmedLines

structure Entry where
  sect : Line
  option : Line
  values : List Line
  deriving DecidableEq

/-- Sections and entries stand with the newest first; `opened` says that the newest entry can
still be continued. -/
structure State where
  sections : List Line
  current : Option Line
  entries : List Entry
  opened : Bool
  indent : ℕ

structure Setting where
  sect : Line
  option : Line
  value : Line
  deriving DecidableEq

structure Document where
  sections : List Line
  settings : List Setting
  deriving DecidableEq

inductive Kind where
  | comment
  | blank
  | continuation (value : Line)
  | header (name : Line)
  | option (name value : Line)
  | malformed

def isMarker (c : Char) : Bool := c == '#' || c == ';'

def isDelimiter (c : Char) : Bool := c == '=' || c == ':'

def isComment (line : Line) : Bool := (strip line).head?.any isMarker

/-- The name of a header reaches to the last `]` of the line. -/
def headerName : Line → Option Line
  | [] => none
  | c :: cs =>
    if c = '[' then
      match (cs.rdropWhile (· != ']')).dropLast with
      | [] => none
      | d :: name => some (d :: name)
    else none

def optionKind (line : Line) : Kind :=
  match cut isDelimiter line with
  | none => .malformed
  | some (name, value) =>
    if rstrip name = [] then .malformed else .option (rstrip name) (strip value)

def entryKind (line : Line) : Kind :=
  match headerName line with
  | some name => .header name
  | none => optionKind line

def kind (s : State) (line : Line) : Kind :=
  if isComment line then .comment
  else if strip line = [] then .blank
  else if s.opened ∧ s.indent < indentOf line then .continuation (strip line)
  else entryKind (strip line)

def Entry.continued (e : Entry) (value : Line) : Entry := { e with values := e.values ++ [value] }

def Entry.setting (e : Entry) : Setting := ⟨e.sect, e.option, joined e.values⟩

def continuedNewest (value : Line) : List Entry → List Entry
  | [] => []
  | e :: es => e.continued value :: es

def State.continued (s : State) (value : Line) : State :=
  { s with entries := continuedNewest value s.entries }

def defaultSection : Line := ['D', 'E', 'F', 'A', 'U', 'L', 'T']

def State.entered (s : State) (name : Line) (indent : ℕ) : State where
  sections := if name = defaultSection then s.sections else name :: s.sections
  current := some name
  entries := s.entries
  opened := false
  indent := indent

def State.declared (s : State) (e : Entry) (indent : ℕ) : State :=
  { s with entries := e :: s.entries, opened := true, indent := indent }

def State.declares (s : State) (sect option : Line) : Bool :=
  s.entries.any fun e => e.sect == sect && e.option == option

variable (lower : Line → Line)

def step (s : State) (line : Line) : Option State :=
  match kind s line with
  | .comment => some s
  | .blank => some (if s.opened then s.continued [] else s)
  | .continuation value => some (s.continued value)
  | .header name => if s.sections.contains name then none else some (s.entered name (indentOf line))
  | .option name value =>
    match s.current with
    | none => none
    | some sect =>
      if s.declares sect (lower name) then none
      else some (s.declared ⟨sect, lower name, [value]⟩ (indentOf line))
  | .malformed => none

def run (s : State) (ls : List Line) : Option State := ls.foldlM (step lower) s

def initial : State := ⟨[], none, [], false, 0⟩

def State.document (s : State) : Document :=
  ⟨s.sections.reverse, (s.entries.map Entry.setting).reverse⟩

def parse (text : List Char) : Option Document :=
  (run lower initial (lines text)).map State.document

variable {lower} {s s' : State} {line : Line} {ls : List Line}

theorem run_cons (s : State) (line : Line) (ls : List Line) :
    run lower s (line :: ls) = (step lower s line).bind fun s' => run lower s' ls :=
  List.foldlM_cons

theorem run_cons_eq_some {t : State} (h : run lower s (line :: ls) = some t) :
    ∃ s', step lower s line = some s' ∧ run lower s' ls = some t := by
  rw [run_cons] at h
  exact Option.bind_eq_some_iff.mp h

/-! ## What one line can do -/

/-- The ways one line is read, each with what the line is. -/
inductive Stepped (lower : Line → Line) (s : State) (line : Line) : State → Prop
  | comment (hkind : kind s line = .comment) : Stepped lower s line s
  | blank (hkind : kind s line = .blank) :
      Stepped lower s line (if s.opened then s.continued [] else s)
  | continuation {value : Line} (hkind : kind s line = .continuation value) :
      Stepped lower s line (s.continued value)
  | header {name : Line} (hkind : kind s line = .header name) (hnew : name ∉ s.sections) :
      Stepped lower s line (s.entered name (indentOf line))
  | option {name value sect : Line} (hkind : kind s line = .option name value)
      (hcurrent : s.current = some sect) (hnew : s.declares sect (lower name) = false) :
      Stepped lower s line (s.declared ⟨sect, lower name, [value]⟩ (indentOf line))

theorem stepped_iff : Stepped lower s line s' ↔ step lower s line = some s' := by
  constructor
  · intro h
    cases h with
    | comment hkind => rw [step, hkind]
    | blank hkind => rw [step, hkind]
    | continuation hkind => rw [step, hkind]
    | header hkind hnew => simp only [step, hkind, List.contains_iff_mem, if_neg hnew]
    | option hkind hcurrent hnew => simp [step, hkind, hcurrent, hnew]
  · intro h
    rw [step] at h
    split at h
    case h_1 hkind => exact Option.some.inj h ▸ .comment hkind
    case h_2 hkind => exact Option.some.inj h ▸ .blank hkind
    case h_3 value hkind => exact Option.some.inj h ▸ .continuation hkind
    case h_4 name hkind =>
      split_ifs at h with hnew
      exact Option.some.inj h ▸ .header hkind (mt List.contains_iff_mem.mpr hnew)
    case h_5 name value hkind =>
      split at h
      · cases h
      case h_2 sect hcurrent =>
        split_ifs at h with hnew
        exact Option.some.inj h ▸ .option hkind hcurrent (Bool.eq_false_iff.mpr hnew)
    case h_6 => cases h

/-! ## What a line is read as -/

section Kinds

variable {value name : Line}

theorem kind_comment (h : isComment line = true) : kind s line = .comment := by
  rw [kind, if_pos h]

theorem kind_blank (h : strip line = []) : kind s line = .blank := by
  rw [kind, if_neg (by rw [isComment, h]; simp), if_pos h]

theorem kind_continuation (hmarker : isComment line = false) (hne : strip line ≠ [])
    (hopened : s.opened = true) (hindent : s.indent < indentOf line) :
    kind s line = .continuation (strip line) := by
  rw [kind, if_neg (by simp [hmarker]), if_neg hne, if_pos ⟨hopened, hindent⟩]

theorem kind_entry (hmarker : isComment line = false) (hne : strip line ≠ [])
    (hindent : ¬(s.opened = true ∧ s.indent < indentOf line)) :
    kind s line = entryKind (strip line) := by
  rw [kind, if_neg (by simp [hmarker]), if_neg hne, if_neg hindent]

/-- The four ways a line is read, with what was tested before. -/
theorem kind_cases (s : State) (line : Line) :
    isComment line = true ∨ strip line = [] ∨
      (isComment line = false ∧ strip line ≠ [] ∧
        ((s.opened = true ∧ s.indent < indentOf line) ∨
          ¬(s.opened = true ∧ s.indent < indentOf line))) := by
  cases hmarker : isComment line with
  | true => exact .inl rfl
  | false =>
    by_cases hne : strip line = []
    · exact .inr (.inl hne)
    · exact .inr (.inr ⟨rfl, hne, em _⟩)

theorem mem_of_headerName (h : headerName line = some name) {c : Char} (hc : c ∈ name) :
    c ∈ line := by
  cases line with
  | nil => cases h
  | cons d cs =>
    rw [headerName] at h
    split_ifs at h
    split at h
    · cases h
    case h_2 x rest hname =>
      rw [← Option.some.inj h, ← hname] at hc
      exact List.mem_cons_of_mem d ((List.rdropWhile_prefix _ cs).subset
        ((List.dropLast_sublist _).subset hc))

theorem optionKind_eq_option (h : optionKind line = .option name value) :
    ∃ key rest, cut isDelimiter line = some (key, rest) ∧ rstrip key ≠ [] ∧
      name = rstrip key ∧ value = strip rest := by
  rw [optionKind] at h
  split at h
  · cases h
  case h_2 key rest hcut =>
    split_ifs at h with hne
    cases h
    exact ⟨key, rest, hcut, hne, rfl, rfl⟩

theorem entryKind_eq_option (h : entryKind line = .option name value) :
    headerName line = none ∧ optionKind line = .option name value := by
  rw [entryKind] at h
  split at h
  · cases h
  case h_2 hheader => exact ⟨hheader, h⟩

theorem step_comment (lower : Line → Line) (s : State) (h : isComment line = true) :
    step lower s line = some s := by
  rw [step, kind_comment h]

theorem step_blank (lower : Line → Line) (s : State) (h : strip line = []) :
    step lower s line = some (if s.opened then s.continued [] else s) := by
  rw [step, kind_blank h]

theorem step_continuation (lower : Line → Line) (hmarker : isComment line = false)
    (hne : strip line ≠ []) (hopened : s.opened = true) (hindent : s.indent < indentOf line) :
    step lower s line = some (s.continued (strip line)) := by
  rw [step, kind_continuation hmarker hne hopened hindent]

theorem step_header (hkind : kind s line = .header name) (h : step lower s line = some s') :
    name ∉ s.sections ∧ s' = s.entered name (indentOf line) := by
  simp only [step, hkind, List.contains_iff_mem] at h
  split_ifs at h with hnew
  exact ⟨hnew, (Option.some.inj h).symm⟩

/-- What a line that is an entry can do. -/
theorem step_entry (hmarker : isComment line = false) (hne : strip line ≠ [])
    (hindent : ¬(s.opened = true ∧ s.indent < indentOf line))
    (h : step lower s line = some s') :
    (∃ name, headerName (strip line) = some name ∧ name ∉ s.sections ∧
      s' = s.entered name (indentOf line)) ∨
    (∃ name value sect, entryKind (strip line) = .option name value ∧ s.current = some sect ∧
      s.declares sect (lower name) = false ∧
      s' = s.declared ⟨sect, lower name, [value]⟩ (indentOf line)) := by
  have hkind := kind_entry hmarker hne hindent
  cases hheader : headerName (strip line) with
  | some name =>
    rw [entryKind, hheader] at hkind
    simp only [step, hkind, List.contains_iff_mem] at h
    split_ifs at h with hnew
    exact .inl ⟨name, rfl, hnew, (Option.some.inj h).symm⟩
  | none =>
    have hoption : entryKind (strip line) = optionKind (strip line) := by rw [entryKind, hheader]
    rw [hoption] at hkind ⊢
    rw [optionKind] at hkind ⊢
    cases hcut : cut isDelimiter (strip line) with
    | none =>
      rw [hcut] at hkind
      simp only [step, hkind] at h
      cases h
    | some found =>
      obtain ⟨key, rest⟩ := found
      rw [hcut] at hkind
      dsimp only at hkind ⊢
      split_ifs at hkind ⊢ with hnil
      · simp only [step, hkind] at h
        cases h
      · simp only [step, hkind] at h
        split at h
        · cases h
        case h_2 sect hcurrent =>
          split_ifs at h with hnew
          exact .inr ⟨_, _, sect, rfl, hcurrent, Bool.eq_false_iff.mpr hnew,
            (Option.some.inj h).symm⟩

end Kinds

/-! ## What a run keeps -/

section Runs

/-- The values read so far have lines, each without a newline and without blanks at its ends. -/
structure Wellformed (s : State) : Prop where
  newest : s.opened = true → s.entries ≠ []
  lined : ∀ e ∈ s.entries, e.values ≠ []
  clean : ∀ e ∈ s.entries, ∀ v ∈ e.values, Clean v

theorem wellformed_initial : Wellformed initial where
  newest h := by cases h
  lined e he := by cases he
  clean e he := by cases he

theorem clean_of_continuation {value : Line} (hline : '\n' ∉ line)
    (h : kind s line = .continuation value) : Clean value := by
  rcases kind_cases s line with hm | hne | ⟨hm, hne, ⟨hopened, hindent⟩ | hindent⟩
  · rw [kind_comment hm] at h
    cases h
  · rw [kind_blank hne] at h
    cases h
  · rw [kind_continuation hm hne hopened hindent] at h
    cases h
    exact Clean.strip hline
  · rw [kind_entry hm hne hindent, entryKind] at h
    split at h
    · cases h
    · rw [optionKind] at h
      split at h
      · cases h
      · split_ifs at h

theorem option_of_kind {name value : Line} (h : kind s line = .option name value) :
    isComment line = false ∧ strip line ≠ [] ∧ ¬(s.opened = true ∧ s.indent < indentOf line) ∧
      entryKind (strip line) = .option name value := by
  rcases kind_cases s line with hm | hne | ⟨hm, hne, ⟨hopened, hindent⟩ | hindent⟩
  · rw [kind_comment hm] at h
    cases h
  · rw [kind_blank hne] at h
    cases h
  · rw [kind_continuation hm hne hopened hindent] at h
    cases h
  · exact ⟨hm, hne, hindent, (kind_entry hm hne hindent).symm.trans h⟩

theorem mem_of_cut {p : Char → Bool} {cs key rest : Line} (h : cut p cs = some (key, rest))
    {c : Char} (hc : c ∈ rest) : c ∈ cs := by
  rcases cut_cases p cs with hall | ⟨a, d, b, rfl, ha, hd⟩
  · rw [cut_of_none hall] at h
    cases h
  · rw [cut_append ha hd] at h
    cases h
    exact List.mem_append_right _ (List.mem_cons_of_mem d hc)

theorem clean_of_option {name value : Line} (hline : '\n' ∉ line)
    (h : kind s line = .option name value) : Clean value := by
  obtain ⟨-, -, -, hentry⟩ := option_of_kind h
  obtain ⟨key, rest, hcut, -, -, rfl⟩ := optionKind_eq_option (entryKind_eq_option hentry).2
  exact Clean.strip fun hin => hline (mem_of_mem_strip (mem_of_cut hcut hin))

theorem Wellformed.continued {value : Line} (hw : Wellformed s) (hvalue : Clean value) :
    Wellformed (s.continued value) := by
  obtain ⟨sections, current, entries, opened, indent⟩ := s
  cases entries with
  | nil => exact hw
  | cons e es =>
    obtain ⟨-, hlined⟩ := List.forall_mem_cons.mp hw.lined
    obtain ⟨he, hclean⟩ := List.forall_mem_cons.mp hw.clean
    refine ⟨fun _ => List.cons_ne_nil _ _, ?_, ?_⟩
    · exact List.forall_mem_cons.mpr ⟨by simp [Entry.continued], hlined⟩
    · refine List.forall_mem_cons.mpr ⟨List.forall_mem_append.mpr ⟨he, ?_⟩, hclean⟩
      exact List.forall_mem_cons.mpr ⟨hvalue, by simp⟩

theorem Wellformed.step (hw : Wellformed s) (hline : '\n' ∉ line)
    (h : step lower s line = some s') : Wellformed s' := by
  cases stepped_iff.mpr h with
  | comment => exact hw
  | blank =>
    split_ifs
    · exact hw.continued Clean.nil
    · exact hw
  | continuation hkind => exact hw.continued (clean_of_continuation hline hkind)
  | header =>
    refine ⟨fun hopened => ?_, hw.lined, hw.clean⟩
    cases hopened
  | option hkind =>
    refine ⟨fun _ => List.cons_ne_nil _ _, ?_, ?_⟩
    · exact List.forall_mem_cons.mpr ⟨List.cons_ne_nil _ _, hw.lined⟩
    · refine List.forall_mem_cons.mpr ⟨List.forall_mem_cons.mpr ⟨?_, by simp⟩, hw.clean⟩
      exact clean_of_option hline hkind

theorem Wellformed.run {t : State} (hw : Wellformed s) (hlines : ∀ l ∈ ls, '\n' ∉ l)
    (h : run lower s ls = some t) : Wellformed t := by
  induction ls generalizing s with
  | nil => exact Option.some.inj h ▸ hw
  | cons line ls ih =>
    obtain ⟨hline, hrest⟩ := List.forall_mem_cons.mp hlines
    obtain ⟨s', hstep, hrun⟩ := run_cons_eq_some h
    exact ih (hw.step hline hstep) hrest hrun

/-- An entry as it stands later in a run. -/
structure Entry.Grown (e e' : Entry) : Prop where
  sect : e'.sect = e.sect
  option : e'.option = e.option
  values : e.values <+: e'.values

theorem Entry.Grown.refl (e : Entry) : e.Grown e := ⟨rfl, rfl, List.prefix_rfl⟩

theorem Entry.Grown.trans {e e' e'' : Entry} (h : e.Grown e') (h' : e'.Grown e'') :
    e.Grown e'' :=
  ⟨h'.sect.trans h.sect, h'.option.trans h.option, h.values.trans h'.values⟩

theorem Entry.Grown.getD {e e' : Entry} (h : e.Grown e') {k : ℕ} (hk : k < e.values.length) :
    e'.values.getD k [] = e.values.getD k [] := by
  obtain ⟨more, hmore⟩ := h.values
  rw [← hmore, List.getD_append _ _ _ _ hk]

/-- The entries in the order in which they were read. -/
def State.nth (s : State) (n : ℕ) : Option Entry := s.entries.reverse[n]?

theorem nth_newest {e : Entry} {es : List Entry} (h : s.entries = e :: es) :
    s.nth es.length = some e := by
  rw [State.nth, h, List.reverse_cons, ← List.length_reverse]
  exact List.getElem?_concat_length

theorem nth_cons {e x : Entry} {es : List Entry} {n : ℕ} (hs : s.entries = e :: es)
    (h : s.nth n = some x) :
    (n = es.length ∧ x = e) ∨ (n < es.length ∧ es.reverse[n]? = some x) := by
  rw [State.nth, hs, List.reverse_cons] at h
  rcases lt_trichotomy n es.length with hlt | rfl | hgt
  · rw [List.getElem?_append_left (by rwa [List.length_reverse])] at h
    exact .inr ⟨hlt, h⟩
  · rw [← List.length_reverse, List.getElem?_concat_length] at h
    exact .inl ⟨rfl, (Option.some.inj h).symm⟩
  · rw [List.getElem?_eq_none (by simp; omega)] at h
    cases h

theorem nth_of_older {e x : Entry} {es : List Entry} {n : ℕ} (hs : s.entries = e :: es)
    (hn : n < es.length) (h : es.reverse[n]? = some x) : s.nth n = some x := by
  rw [State.nth, hs, List.reverse_cons, List.getElem?_append_left (by rwa [List.length_reverse]), h]

/-- What a run has read stays: sections and entries keep their places, and only the lines of
entries grow. -/
structure State.Grown (s t : State) : Prop where
  sections : s.sections <:+ t.sections
  entries : ∀ n e, s.nth n = some e → ∃ e', t.nth n = some e' ∧ e.Grown e'

theorem State.Grown.refl (s : State) : s.Grown s :=
  ⟨List.suffix_rfl, fun _ e h => ⟨e, h, Entry.Grown.refl e⟩⟩

theorem State.Grown.trans {s t u : State} (h : s.Grown t) (h' : t.Grown u) : s.Grown u := by
  refine ⟨h.sections.trans h'.sections, fun n e hn => ?_⟩
  obtain ⟨e', hn', hgrown⟩ := h.entries n e hn
  obtain ⟨e'', hn'', hgrown'⟩ := h'.entries n e' hn'
  exact ⟨e'', hn'', hgrown.trans hgrown'⟩

theorem grown_continued (s : State) (value : Line) : s.Grown (s.continued value) := by
  refine ⟨List.suffix_rfl, fun n x hx => ?_⟩
  cases hentries : s.entries with
  | nil => simp [State.nth, hentries] at hx
  | cons e es =>
    have hlater : (s.continued value).entries = e.continued value :: es := by
      simp only [State.continued, hentries, continuedNewest]
    rcases nth_cons hentries hx with ⟨rfl, rfl⟩ | ⟨hn, hx⟩
    · exact ⟨_, nth_newest hlater, rfl, rfl, List.prefix_append _ _⟩
    · exact ⟨x, nth_of_older hlater hn hx, Entry.Grown.refl x⟩

theorem grown_declared (s : State) (e : Entry) (indent : ℕ) : s.Grown (s.declared e indent) := by
  refine ⟨List.suffix_rfl, fun n x hx => ⟨x, ?_, Entry.Grown.refl x⟩⟩
  have hn : n < s.entries.length := by
    by_contra hn
    rw [State.nth, List.getElem?_eq_none (by simpa using hn)] at hx
    cases hx
  exact nth_of_older (s := s.declared e indent) rfl hn hx

theorem grown_entered (s : State) (name : Line) (indent : ℕ) : s.Grown (s.entered name indent) := by
  refine ⟨?_, fun n x hx => ⟨x, hx, Entry.Grown.refl x⟩⟩
  rw [State.entered]
  dsimp only
  split_ifs
  · exact List.suffix_rfl
  · exact List.suffix_cons _ _

theorem step_grown (h : step lower s line = some s') : s.Grown s' := by
  cases stepped_iff.mpr h with
  | comment => exact State.Grown.refl s
  | blank =>
    split_ifs
    · exact grown_continued s []
    · exact State.Grown.refl s
  | continuation => exact grown_continued s _
  | header => exact grown_entered s _ _
  | option => exact grown_declared s _ _

theorem run_grown {t : State} (h : run lower s ls = some t) : s.Grown t := by
  induction ls generalizing s with
  | nil => exact Option.some.inj h ▸ State.Grown.refl s
  | cons line ls ih =>
    obtain ⟨s', hstep, hrun⟩ := run_cons_eq_some h
    exact (step_grown hstep).trans (ih hrun)

/-- A step opens at most the section that the line names. -/
theorem step_sections (h : step lower s line = some s') :
    s'.sections = s.sections ∨
      ∃ name, isComment line = false ∧ headerName (strip line) = some name ∧
        s'.sections = name :: s.sections := by
  rcases kind_cases s line with hm | hne | ⟨hm, hne, ⟨hopened, hindent⟩ | hindent⟩
  · have hsame := step_comment lower s hm
    exact .inl (by rw [← Option.some.inj (hsame.symm.trans h)])
  · have hsame := step_blank lower s hne
    rw [← Option.some.inj (hsame.symm.trans h)]
    split_ifs
    · exact .inl rfl
    · exact .inl rfl
  · have hsame := step_continuation lower hm hne hopened hindent
    exact .inl (by rw [← Option.some.inj (hsame.symm.trans h)]; rfl)
  · rcases step_entry hm hne hindent h with ⟨name, hheader, -, rfl⟩ | ⟨_, _, _, -, -, -, rfl⟩
    · rw [State.entered]
      dsimp only
      split_ifs
      · exact .inl rfl
      · exact .inr ⟨name, hm, hheader, rfl⟩
    · exact .inl rfl

theorem settings_getElem? (s : State) (n : ℕ) :
    s.document.settings[n]? = (s.nth n).map Entry.setting := by
  rw [State.document, State.nth, ← List.map_reverse, List.getElem?_map]

end Runs

end ConfigGrammar
