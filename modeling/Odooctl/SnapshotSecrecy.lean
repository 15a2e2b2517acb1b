import Odooctl.SnapshotReading

/-!
# Config snapshots carry no secret

Reading the snapshot gives every sensitive option the placeholder and every other option its own
value exactly where each line is kept.
-/
namespace SnapshotSecrecy

open TrimmedLines ConfigGrammar ConfigSnapshot SnapshotReading

variable {lower : Line → Line} {s t t' f f' : State} {line key value name : Line} {ls : List Line}

/-! ## The sections of a snapshot -/

section Sections

/-- What stands before a `=` in a section name is not sensitive. -/
def Unhinted (names : List Line) : Prop :=
  ∀ p m, '=' ∉ p → p ++ '=' :: m ∈ names → sensitive p = false

theorem sensitive_name {k : Line} (hk : lstrip key = '[' :: k) : sensitive k = sensitive key := by
  rw [← sensitive_lstrip key, hk, sensitive_cons foreign_bracket]

theorem not_mem_name {k : Line} {c : Char} (hk : lstrip key = '[' :: k) (h : c ∉ key) : c ∉ k :=
  fun hin => h (mem_of_mem_lstrip (by rw [hk]; exact List.mem_cons_of_mem _ hin))

theorem unhinted_name {p m : Line} (hmarker : isComment (redact_line line) = false)
    (h : headerName (strip (redact_line line)) = some (p ++ '=' :: m)) (hp : '=' ∉ p) :
    sensitive p = false := by
  have hequals : '=' ∈ p ++ '=' :: m := List.mem_append_right _ List.mem_cons_self
  have horiginal : isComment line = false := by
    cases hcomment : isComment line with
    | false => rfl
    | true =>
      rw [redact_comment hcomment] at hmarker
      cases hmarker
  rcases equals_cases line with ⟨hnot, -⟩ | ⟨key, value, rfl, hkey, -⟩
  · rw [redact_of_no_equals hnot horiginal] at h
    exact absurd (mem_of_mem_strip (mem_of_headerName h hequals)) hnot
  · rw [redact_assignment hkey value horiginal] at h
    by_cases hin : ']' ∈ written key value
    · have hplain : sensitive key = false := by
        cases hs : sensitive key with
        | false => rfl
        | true =>
          rw [written, if_pos hs] at hin
          exact absurd hin (by decide)
      have hspaced : '=' ∉ rstrip key ++ [' '] := by
        intro hmem
        rcases List.mem_append.mp hmem with hmem | hmem
        · exact hkey (mem_of_mem_rstrip hmem)
        · exact absurd hmem (by decide)
      rw [assigned_eq] at h
      obtain ⟨k, x, y, hk, -, -, hname⟩ := inside_shape h (List.mem_cons_of_mem _ hin)
      obtain ⟨rfl, -⟩ := equals_inj hp (not_mem_name hk hspaced) hname
      rw [sensitive_name hk, sensitive_concat (foreign_of_space space_blank)]
      cases hs : sensitive (rstrip key) with
      | false => rfl
      | true =>
        have hkeyed := sensitive_of_infix (List.rdropWhile_prefix isSpace key).isInfix hs
        exact hkeyed.symm.trans hplain
    · rw [headerName_assigned hin] at h
      exact absurd (mem_of_mem_strip (mem_of_headerName h hequals)) hkey

theorem unhinted_step (hu : Unhinted s.sections)
    (h : step lower s (redact_line line) = some t) : Unhinted t.sections := by
  rcases step_sections h with hsame | ⟨name, hmarker, hheader, hcons⟩
  · rwa [hsame]
  · rw [hcons]
    intro p m hp hin
    rcases List.mem_cons.mp hin with rfl | hin
    · exact unhinted_name hmarker hheader hp
    · exact hu p m hp hin

theorem unhinted_run (hu : Unhinted s.sections)
    (h : run lower s (ls.map redact_line) = some t) : Unhinted t.sections := by
  induction ls generalizing s with
  | nil => exact Option.some.inj h ▸ hu
  | cons line ls ih =>
    obtain ⟨s', hstep, hrun⟩ := run_cons_eq_some h
    exact ih (unhinted_step hu hstep) hrun

end Sections

/-! ## Where both readings end -/

section Endings

/-- Two states of the readings whose ends are the document and what it should be read as. -/
structure Ending (t t' f f' : State) : Prop where
  grown : t.Grown f
  grown' : t'.Grown f'
  wellformed : Wellformed f
  wellformed' : Wellformed f'
  unhinted : Unhinted f'.sections
  document : f'.document = mask f.document

theorem Ending.sections (h : Ending t t' f f') : f'.sections = f.sections :=
  List.reverse_injective (congrArg Document.sections h.document)

theorem mem_of_nth {e : Entry} {n : ℕ} (h : f.nth n = some e) : e ∈ f.entries :=
  List.mem_reverse.mp (List.mem_of_getElem? h)

theorem Ending.setting {e e' : Entry} {n : ℕ} (h : Ending t t' f f') (hn : f.nth n = some e)
    (hn' : f'.nth n = some e') : e'.setting = masked e.setting := by
  have hsettings := congrArg Document.settings h.document
  have hnth : f'.document.settings[n]? = (mask f.document).settings[n]? := by rw [hsettings]
  rw [settings_getElem?, mask, List.getElem?_map, settings_getElem?, hn, hn'] at hnth
  exact Option.some.inj hnth

theorem Ending.values {e e' : Entry} {n : ℕ} (h : Ending t t' f f') (hn : f.nth n = some e)
    (hn' : f'.nth n = some e') (k : ℕ) :
    e'.values.getD k [] =
      if sensitive e.option then [placeholder].getD k [] else e.values.getD k [] := by
  have hsetting := h.setting hn hn'
  have hclean := h.wellformed.clean e (mem_of_nth hn)
  have hclean' := h.wellformed'.clean e' (mem_of_nth hn')
  rw [masked] at hsetting
  split_ifs with hs
  · have hone : ∀ l ∈ [placeholder], Clean l := by simpa using clean_placeholder
    refine getD_of_joined hclean' hone ?_ k
    rw [joined_blanks clean_placeholder (by simp)]
    have hoption : sensitive e.setting.option = true := hs
    rw [if_pos hoption] at hsetting
    exact congrArg Setting.value hsetting
  · refine getD_of_joined hclean' hclean ?_ k
    have hoption : ¬sensitive e.setting.option = true := hs
    rw [if_neg hoption] at hsetting
    exact congrArg Setting.value hsetting

/-- The newest entries of both states agree line by line. -/
theorem Ending.newest {e e' : Entry} {es es' : List Entry} (h : Ending t t' f f')
    (ht : t.entries = e :: es) (ht' : t'.entries = e' :: es') (hlen : es'.length = es.length)
    {k : ℕ} (hk : k < e.values.length) (hk' : k < e'.values.length) :
    e'.values.getD k [] =
      if sensitive e.option then [placeholder].getD k [] else e.values.getD k [] := by
  obtain ⟨g, hg, hgrown⟩ := h.grown.entries _ e (nth_newest ht)
  obtain ⟨g', hg', hgrown'⟩ := h.grown'.entries _ e' (nth_newest ht')
  rw [hlen] at hg'
  rw [← hgrown.getD hk, ← hgrown'.getD hk', ← hgrown.option]
  exact h.values hg hg' k

theorem continued_agreed {e : Entry} {es : List Entry} {v v' : Line}
    (hs : s.entries = e :: es) (hlined : e.values ≠ []) (hv : v' ≠ [])
    (h : Ending (s.continued v) ((hide s).continued v') f f') :
    sensitive e.option = false ∧ v' = v := by
  have ht : (s.continued v).entries = e.continued v :: es := by
    simp only [State.continued, hs, continuedNewest]
  have ht' : ((hide s).continued v').entries = (hideEntry e).continued v' :: es.map hideEntry := by
    simp only [State.continued, hide, hs, List.map_cons, continuedNewest]
  have hlen : (hideEntry e).values.length = e.values.length := length_hiddenValues _ _
  have hpos : 0 < e.values.length := List.length_pos_iff.mpr hlined
  have hline := h.newest ht ht' (List.length_map _) (k := e.values.length)
    (by simp [Entry.continued]) (by simp [Entry.continued, hlen])
  have hleft : ((hideEntry e).continued v').values.getD e.values.length [] = v' := by
    rw [Entry.continued]
    dsimp only
    rw [List.getD_append_right _ _ _ _ (by omega), hlen, Nat.sub_self]
    rfl
  have hright : (e.continued v).values.getD e.values.length [] = v := by
    rw [Entry.continued]
    dsimp only
    rw [List.getD_append_right _ _ _ _ le_rfl, Nat.sub_self]
    rfl
  have hblank : [placeholder].getD e.values.length [] = [] := List.getD_eq_default _ _ hpos
  rw [hleft, hright, hblank] at hline
  split_ifs at hline with hsensitive
  · exact absurd hline hv
  · exact ⟨Bool.eq_false_iff.mpr hsensitive, hline⟩

theorem declared_agreed {sect option v v' : Line} {i i' : ℕ}
    (h : Ending (s.declared ⟨sect, option, [v]⟩ i)
      ((hide s).declared ⟨sect, option, [v']⟩ i') f f') :
    v' = if sensitive option then placeholder else v :=
  h.newest rfl rfl (List.length_map _) Nat.one_pos Nat.one_pos

end Endings

/-! ## A line that is not kept -/

section Parting

theorem keptLine_of_continuation (hw : Wellformed s) (hmarker : isComment line = false)
    (hne : strip line ≠ []) (hopened : s.opened = true) (hindent : s.indent < indentOf line)
    (hstep : step lower (hide s) (redact_line line) = some t')
    (h : Ending (s.continued (strip line)) t' f f') : KeptLine lower s line := by
  obtain ⟨e, es, hentries⟩ := List.exists_cons_of_ne_nil (hw.newest hopened)
  have hlined : e.values ≠ [] := hw.lined e (by rw [hentries]; exact List.mem_cons_self)
  rw [KeptLine, kind_continuation hmarker hne hopened hindent]
  intro e' he'
  rw [hentries] at he'
  obtain rfl := Option.some.inj he'
  rcases equals_cases line with ⟨hnot, hcut⟩ | ⟨key, value, rfl, hkey, hcut⟩
  · rw [redact_of_no_equals hnot hmarker] at hstep
    have hsame := step_continuation (s := hide s) lower hmarker hne hopened hindent
    rw [← Option.some.inj (hsame.symm.trans hstep)] at h
    have hagreed := continued_agreed hentries hlined hne h
    exact ⟨hagreed.1, by rw [hcut]; trivial⟩
  · rw [redact_assignment hkey value hmarker] at hstep
    have hblank : strip key = [] → s.indent = 0 := by
      intro hnil
      by_contra hpos
      rw [step_assigned_blank (s := hide s) hnil hpos hmarker] at hstep
      cases hstep
    have hkind := kind_assigned_continuation (s := hide s) (written key value) hopened
      hindent hmarker hblank
    have hsame : step lower (hide s) (assigned key (written key value)) = some _ :=
      stepped_iff.mp (.continuation hkind)
    rw [← Option.some.inj (hsame.symm.trans hstep)] at h
    have hagreed := continued_agreed hentries hlined (strip_assigned_ne_nil key _) h
    obtain ⟨hspaced, hshown⟩ := (spaced_iff hkey key value).mp hagreed.2.symm
    exact ⟨hagreed.1, by rw [hcut]; exact ⟨hspaced, hshown, hblank⟩⟩

theorem entered_sections {i : ℕ} (h : '=' ∈ name) :
    (s.entered name i).sections = name :: s.sections := by
  have hname : name ≠ defaultSection := fun heq => by
    rw [heq] at h
    exact absurd h (by decide)
  rw [State.entered]
  dsimp only
  rw [if_neg hname]

theorem keptHeader_of_ending (hmarker : isComment line = false) (hne : strip line ≠ [])
    (hindent : ¬(s.opened = true ∧ s.indent < indentOf line))
    (hheader : headerName (strip line) = some name)
    (hstep : step lower (hide s) (redact_line line) = some t')
    (h : Ending (s.entered name (indentOf line)) t' f f') : KeptHeader line := by
  rcases equals_cases line with ⟨-, hcut⟩ | ⟨key, value, rfl, hkey, hcut⟩
  · rw [KeptHeader, hcut]
    trivial
  rw [KeptHeader, hcut]
  intro hin
  obtain ⟨k, x, y, hk, rfl, hy, rfl⟩ := inside_shape hheader hin
  have hnot : '=' ∉ k := not_mem_name hk hkey
  have hequals : '=' ∈ k ++ '=' :: x := List.mem_append_right _ List.mem_cons_self
  have hsections := h.grown.sections
  rw [entered_sections hequals] at hsections
  -- a sensitive name stays in the document, and no reading of a snapshot has it
  have hplain : sensitive key = false := by
    rw [← sensitive_name hk]
    exact h.unhinted k x hnot (by
      rw [h.sections]
      exact hsections.subset List.mem_cons_self)
  have htext : strip key ≠ [] := key_of_entry (by rw [entryKind, hheader]; simp)
  rw [redact_assignment hkey _ hmarker, written, hplain, if_neg Bool.false_ne_true] at hstep
  have hkind : kind (hide s) (assigned key (strip (x ++ ']' :: y))) =
      .header ((rstrip k ++ [' ']) ++ '=' :: ' ' :: lstrip x) := by
    rw [kind_hide, kind_assigned_entry hmarker hindent htext, entryKind,
      headerName_assigned_inside hk hy]
  obtain ⟨-, rfl⟩ := step_header hkind hstep
  have hsections' := h.grown'.sections
  rw [entered_sections (List.mem_append_right _ List.mem_cons_self), h.sections] at hsections'
  have hsame := (List.suffix_of_suffix_length_le hsections hsections' le_rfl).eq_of_length rfl
  exact ⟨hplain, (inside_kept_iff hk hkey).mp (List.cons.inj hsame).1⟩

theorem keptOption_of_ending {v sect : Line} (hmarker : isComment line = false)
    (hne : strip line ≠ []) (hindent : ¬(s.opened = true ∧ s.indent < indentOf line))
    (hentry : entryKind (strip line) = .option name v) (hcurrent : s.current = some sect)
    (hnew : s.declares sect (lower name) = false)
    (hstep : step lower (hide s) (redact_line line) = some t')
    (h : Ending (s.declared ⟨sect, lower name, [v]⟩ (indentOf line)) t' f f') :
    KeptOption (lower name) v line := by
  have hnew' : (hide s).declares sect (lower name) = false := (declares_hide _ _ _).trans hnew
  rcases equals_cases line with ⟨hnot, hcut⟩ | ⟨key, value, rfl, hkey, -⟩
  · have hkind : kind (hide s) line = .option name v :=
      (kind_entry hmarker hne hindent).trans hentry
    have hsame := stepped_iff.mp (.option hkind hcurrent hnew')
    rw [redact_of_no_equals hnot hmarker] at hstep
    rw [← Option.some.inj (hsame.symm.trans hstep)] at h
    rw [KeptOption, hcut]
    intro hsensitive
    have hvalue := declared_agreed h
    rwa [if_pos hsensitive] at hvalue
  · have hread := (optionKind_redacted hkey (entryKind_eq_option hentry).2).2.2
    have hkind := kind_option_redacted (s := hide s) hmarker hindent hkey hentry
    have hsame := stepped_iff.mp (.option hkind hcurrent hnew')
    rw [redact_assignment hkey value hmarker] at hstep
    rw [← Option.some.inj (hsame.symm.trans hstep)] at h
    exact (keptOption_iff hkey (lower name) v hread).mpr (declared_agreed h)

/-- Readings that end alike have read this line alike. -/
theorem keptLine_of_ending (hw : Wellformed s) (hstep : step lower s line = some t)
    (hstep' : step lower (hide s) (redact_line line) = some t') (h : Ending t t' f f') :
    KeptLine lower s line := by
  rcases kind_cases s line with hmarker | hne | ⟨hmarker, hne, ⟨hopened, hindent⟩ | hindent⟩
  · rw [KeptLine, kind_comment hmarker]
    trivial
  · rw [KeptLine, kind_blank hne]
    trivial
  · have hsame := step_continuation lower hmarker hne hopened hindent
    rw [← Option.some.inj (hsame.symm.trans hstep)] at h
    exact keptLine_of_continuation hw hmarker hne hopened hindent hstep' h
  · rw [KeptLine, kind_entry hmarker hne hindent]
    rcases step_entry hmarker hne hindent hstep with ⟨name, hheader, -, rfl⟩ |
      ⟨name, v, sect, hentry, hcurrent, hnew, rfl⟩
    · rw [entryKind, hheader]
      exact keptHeader_of_ending hmarker hne hindent hheader hstep' h
    · rw [hentry]
      exact keptOption_of_ending hmarker hne hindent hentry hcurrent hnew hstep' h

end Parting

/-! ## The whole snapshot -/

section Snapshots

/-- The run over the rewritten lines ends in what it should exactly if every line is kept. -/
theorem run_kept_iff (hw : Wellformed s) (hu : Unhinted s.sections)
    (hlines : ∀ l ∈ ls, '\n' ∉ l) (hlines' : ∀ l ∈ ls.map redact_line, '\n' ∉ l)
    (hrun : run lower s ls = some f) :
    (run lower (hide s) (ls.map redact_line)).map State.document = some (mask f.document) ↔
      Kept lower s ls := by
  induction ls generalizing s with
  | nil =>
    obtain rfl : s = f := Option.some.inj hrun
    have hend : run lower (hide s) ([].map redact_line) = some (hide s) := rfl
    rw [hend, Option.map_some, document_hide hw]
    exact iff_of_true rfl trivial
  | cons line ls ih =>
    obtain ⟨hline, hrest⟩ := List.forall_mem_cons.mp hlines
    obtain ⟨hline', hrest'⟩ := List.forall_mem_cons.mp hlines'
    obtain ⟨t, hstep, hrun⟩ := run_cons_eq_some hrun
    have hwt : Wellformed t := hw.step hline hstep
    rw [Kept, hstep, List.map_cons]
    constructor
    · intro hdoc
      obtain ⟨f', hf', hdocument⟩ := Option.map_eq_some_iff.mp hdoc
      obtain ⟨t', hstep', hrun'⟩ := run_cons_eq_some hf'
      have hwhidden : Wellformed (hide s) := wellformed_hide hw
      have hunhinted : Unhinted f'.sections :=
        unhinted_run (s := hide s) hu (by rw [List.map_cons]; exact hf')
      have hending : Ending t t' f f' :=
        { grown := run_grown hrun
          grown' := run_grown hrun'
          wellformed := hwt.run hrest hrun
          wellformed' := hwhidden.run hlines' hf'
          unhinted := hunhinted
          document := hdocument }
      have hkept := keptLine_of_ending hw hstep hstep' hending
      have hsame := step_hide hw hkept hstep
      obtain rfl := Option.some.inj (hsame.symm.trans hstep')
      refine ⟨hkept, fun s' hs' => ?_⟩
      obtain rfl := Option.some.inj hs'
      have hut : Unhinted (hide t).sections := unhinted_step (s := hide s) hu hsame
      refine (ih hwt hut hrest hrest' hrun).mp ?_
      rw [hrun', Option.map_some, hdocument]
    · rintro ⟨hkept, hmore⟩
      have hsame := step_hide hw hkept hstep
      rw [run_cons, hsame, Option.bind_some]
      have hut : Unhinted (hide t).sections := unhinted_step (s := hide s) hu hsame
      exact (ih hwt hut hrest hrest' hrun).mpr (hmore t rfl)

theorem newline_not_mem_assigned (hkey : '\n' ∉ key) (hvalue : '\n' ∉ value) :
    '\n' ∉ assigned key value := by
  intro hin
  rw [assigned] at hin
  rcases List.mem_append.mp hin with hin | hin
  · exact hkey (mem_of_mem_rstrip hin)
  · rcases List.mem_cons.mp hin with hin | hin
    · exact absurd hin (by decide)
    · rcases List.mem_cons.mp hin with hin | hin
      · exact absurd hin (by decide)
      · rcases List.mem_cons.mp hin with hin | hin
        · exact absurd hin (by decide)
        · exact hvalue hin

theorem newline_not_mem_redact (h : '\n' ∉ line) : '\n' ∉ redact_line line := by
  by_cases hblank : strip line = []
  · rwa [redact_blank hblank]
  rcases equals_cases line with ⟨-, hcut⟩ | ⟨key, value, rfl, -, hcut⟩
  · rw [redact_line, if_neg hblank, hcut]
    dsimp only
    split_ifs
    · intro hin
      rcases List.mem_append.mp hin with hin | hin
      · exact h (List.mem_of_mem_take hin)
      · exact absurd hin (by decide)
    · exact h
  · have hkey : '\n' ∉ key := fun hin => h (List.mem_append_left _ hin)
    have hvalue : '\n' ∉ value := fun hin =>
      h (List.mem_append_right _ (List.mem_cons_of_mem _ hin))
    rw [redact_line, if_neg hblank, hcut]
    dsimp only
    split_ifs
    · exact newline_not_mem_assigned hkey (by decide)
    · exact h
    · exact newline_not_mem_assigned hkey fun hin => hvalue (mem_of_mem_strip hin)

theorem redact_line_ne_nil (h : line ≠ []) : redact_line line ≠ [] := by
  by_cases hblank : strip line = []
  · rwa [redact_blank hblank]
  rcases equals_cases line with ⟨-, hcut⟩ | ⟨key, value, rfl, -, hcut⟩
  · rw [redact_line, if_neg hblank, hcut]
    dsimp only
    split_ifs
    · simp
    · exact h
  · rw [redact_line, if_neg hblank, hcut]
    dsimp only
    split_ifs
    · simp [assigned]
    · exact h
    · simp [assigned]

/-- The text has no line break but the newline. -/
def Newlines (text : Line) : Prop := ∀ c ∈ text, isBreak c = true → c = '\n'

theorem splitlines_eq {text : Line} (h : Newlines text) : splitlines text = lines text := by
  induction text using splitlines.induct with
  | case1 => rfl
  | case2 cs _ => exact absurd (h '\r' List.mem_cons_self rfl) (by decide)
  | case3 c cs hnot hbreak ih =>
    have hc : c = '\n' := h c List.mem_cons_self hbreak
    rw [splitlines.eq_3 _ _ hnot, if_pos hbreak, lines, if_pos hc,
      ih fun x hx => h x (List.mem_cons_of_mem c hx)]
  | case4 c cs hnot hbreak ih =>
    have hc : c ≠ '\n' := fun heq => hbreak (by rw [heq]; rfl)
    rw [splitlines.eq_3 _ _ hnot, if_neg hbreak, lines, if_neg hc,
      ih fun x hx => h x (List.mem_cons_of_mem c hx)]

theorem lines_redact {text : Line} (h : Newlines text) :
    lines (redact_config_snapshot text) = (lines text).map redact_line := by
  have hall : ∀ l ∈ (lines text).map redact_line, '\n' ∉ l := by
    intro l hl
    obtain ⟨line, hline, rfl⟩ := List.mem_map.mp hl
    exact newline_not_mem_redact (not_mem_lines hline)
  rw [redact_config_snapshot, splitlines_eq h]
  split_ifs with hend
  · have hne : text ≠ [] := fun hnil => by
      rw [hnil] at hend
      cases hend
    exact lines_unlines hall fun hnil => lines_ne_nil hne (List.map_eq_nil_iff.mp hnil)
  · rw [List.append_nil]
    refine lines_intercalate hall fun hlast => ?_
    rw [List.getLast?_map, Option.map_eq_some_iff] at hlast
    obtain ⟨line, hline, hnil⟩ := hlast
    refine redact_line_ne_nil (fun hempty => ?_) hnil
    exact getLast_lines hend (by rw [hline, hempty])

def asciiLower (text : Line) : Line := text.map Char.toLower

def shopConfig : Line := "[options]\nadmin_passwd = x\n# port\ndb_port = 5432\n".toList

def colonConfig : Line := "[options]\nadmin_passwd: s3cret\n".toList

def colonDocument : Document :=
  ⟨["options".toList], [⟨"options".toList, "admin_passwd".toList, "s3cret".toList⟩]⟩

end Snapshots

end SnapshotSecrecy
