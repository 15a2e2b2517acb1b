import Mathlib.Tactic.SplitIfs
import Odooctl.ConfigSnapshot

/-!
# Reading a redacted configuration

The run of the grammar over the redacted lines, beside its run over the lines themselves. While
every line is kept, the first is the second with the sensitive values hidden; at the first line
that is not, the two readings part for good.
-/
namespace SnapshotReading

open TrimmedLines ConfigGrammar ConfigSnapshot

/-! ## Hidden states -/

/-- A sensitive value has the placeholder and then only blank lines. -/
def hiddenValues (option : Line) (values : List Line) : List Line :=
  if sensitive option then (values.take 1).map (fun _ => placeholder) ++
    (values.drop 1).map fun _ => []
  else values

def hideEntry (e : Entry) : Entry := { e with values := hiddenValues e.option e.values }

def hide (s : State) : State := { s with entries := s.entries.map hideEntry }

variable {lower : Line → Line} {s s' t t' : State} {line key value name : Line} {ls : List Line}

section Hidden

theorem kind_hide (s : State) (line : Line) : kind (hide s) line = kind s line := rfl

theorem length_hiddenValues (option : Line) (values : List Line) :
    (hiddenValues option values).length = values.length := by
  rw [hiddenValues]
  split_ifs
  · simp
    omega
  · rfl

theorem hiddenValues_one (option v : Line) :
    hiddenValues option [v] = [if sensitive option then placeholder else v] := by
  rw [hiddenValues]
  split_ifs <;> rfl

theorem hiddenValues_concat {option v : Line} {values : List Line} (hne : values ≠ [])
    (hv : sensitive option = true → v = []) :
    hiddenValues option (values ++ [v]) = hiddenValues option values ++ [v] := by
  obtain ⟨x, xs, rfl⟩ := List.exists_cons_of_ne_nil hne
  rw [hiddenValues, hiddenValues]
  split_ifs with h
  · rw [hv h]
    simp
  · rfl

theorem clean_placeholder : Clean placeholder := ⟨by decide, strip_placeholder⟩

theorem setting_hideEntry {e : Entry} (h : e.values ≠ []) :
    (hideEntry e).setting = masked e.setting := by
  obtain ⟨sect, option, values⟩ := e
  obtain ⟨x, xs, rfl⟩ := List.exists_cons_of_ne_nil h
  cases hsensitive : sensitive option with
  | true =>
    have hjoined : joined (placeholder :: List.replicate xs.length []) = placeholder :=
      joined_blanks clean_placeholder fun m hm => (List.mem_replicate.mp hm).2
    simp [hideEntry, Entry.setting, masked, hiddenValues, hsensitive, hjoined]
  | false => simp [hideEntry, Entry.setting, masked, hiddenValues, hsensitive]

theorem document_hide (hw : Wellformed s) : (hide s).document = mask s.document := by
  have h : (s.entries.map hideEntry).map Entry.setting =
      (s.entries.map Entry.setting).map masked := by
    rw [List.map_map, List.map_map]
    exact List.map_congr_left fun e he => setting_hideEntry (hw.lined e he)
  rw [State.document, State.document, mask, hide]
  dsimp only
  rw [h, List.map_reverse]

theorem wellformed_hide (hw : Wellformed s) : Wellformed (hide s) where
  newest hopened hnil := hw.newest hopened (List.map_eq_nil_iff.mp hnil)
  lined x hx := by
    obtain ⟨e, he, rfl⟩ := List.mem_map.mp hx
    rw [← List.length_pos_iff, hideEntry, length_hiddenValues, List.length_pos_iff]
    exact hw.lined e he
  clean x hx v hv := by
    obtain ⟨e, he, rfl⟩ := List.mem_map.mp hx
    have hv : v ∈ hiddenValues e.option e.values := hv
    rw [hiddenValues] at hv
    split_ifs at hv
    · rcases List.mem_append.mp hv with hv | hv
      · obtain ⟨-, -, rfl⟩ := List.mem_map.mp hv
        exact clean_placeholder
      · obtain ⟨-, -, rfl⟩ := List.mem_map.mp hv
        exact Clean.nil
    · exact hw.clean _ he v hv

theorem hide_continued (hw : Wellformed s) {v : Line}
    (hv : ∀ e ∈ s.entries.head?, sensitive e.option = true → v = []) :
    hide (s.continued v) = (hide s).continued v := by
  obtain ⟨sections, current, entries, opened, indent⟩ := s
  cases entries with
  | nil => rfl
  | cons e es =>
    have h := hiddenValues_concat (hw.lined e List.mem_cons_self) (hv e rfl)
    simp [hide, State.continued, continuedNewest, Entry.continued, hideEntry, h]

theorem declares_hide (s : State) (sect option : Line) :
    (hide s).declares sect option = s.declares sect option := by
  rw [State.declares, State.declares, hide]
  simp [hideEntry, List.any_map, Function.comp_def]

theorem hide_declared (s : State) (e : Entry) (indent : ℕ) :
    hide (s.declared e indent) = (hide s).declared (hideEntry e) indent := rfl

theorem nth_hide (s : State) (n : ℕ) : (hide s).nth n = (s.nth n).map hideEntry := by
  rw [State.nth, State.nth, hide]
  dsimp only
  rw [← List.map_reverse, List.getElem?_map]

end Hidden

/-! ## A continued value -/

section Continuations

/-- The rewritten line stays a continuation where its key has a text, or no indent is asked. -/
theorem kind_assigned_continuation (shown : Line) (hopened : s.opened = true)
    (hindent : s.indent < indentOf (key ++ '=' :: value))
    (hmarker : isComment (key ++ '=' :: value) = false) (hkey : strip key = [] → s.indent = 0) :
    kind s (assigned key shown) = .continuation (strip (assigned key shown)) := by
  refine kind_continuation ?_ (strip_assigned_ne_nil key shown) hopened ?_
  · rw [isComment_assigned key value, hmarker]
  · by_cases hnil : strip key = []
    · rw [indentOf_assigned_blank hnil, hkey hnil]
      exact Nat.one_pos
    · rwa [indentOf_assigned hnil value]

theorem blank_not_mem {c : Char} (hc : isSpace c = false) (h : strip key = []) : c ∉ key := by
  intro hin
  have hblank := strip_eq_nil_iff.mp h c hin
  rw [hc] at hblank
  cases hblank

theorem step_assigned_blank {shown : Line} (h : strip key = []) (hindent : s.indent ≠ 0)
    (hmarker : isComment (key ++ '=' :: value) = false) :
    step lower s (assigned key shown) = none := by
  have hkind : kind s (assigned key shown) = .malformed := by
    rw [kind_entry ((isComment_assigned key value shown).trans hmarker)
      (strip_assigned_ne_nil key shown)
      (by rw [indentOf_assigned_blank h]; omega), entryKind]
    have hheader : headerName (strip (assigned key shown)) = none := by
      rw [strip_assigned, padded, if_pos h]
      exact headerName_lead (by decide)
    rw [hheader]
    dsimp only
    rw [optionKind_assigned (blank_not_mem equals_text h) (blank_not_mem (by decide) h), if_pos h]
  rw [step, hkind]

end Continuations

/-! ## Kept lines -/

section KeptLines

theorem step_continued (hw : Wellformed s) (hmarker : isComment line = false)
    (hne : strip line ≠ []) (hopened : s.opened = true) (hindent : s.indent < indentOf line)
    (hkept : KeptLine lower s line) :
    step lower (hide s) (redact_line line) = some (hide (s.continued (strip line))) := by
  obtain ⟨e, es, hentries⟩ := List.exists_cons_of_ne_nil (hw.newest hopened)
  have hkind := kind_continuation (s := s) hmarker hne hopened hindent
  rw [KeptLine, hkind] at hkept
  obtain ⟨hoption, hline⟩ := hkept e (by rw [hentries]; rfl)
  have hplain : ∀ e' ∈ s.entries.head?, sensitive e'.option = true → strip line = [] := by
    intro e' he' hsensitive
    rw [hentries] at he'
    rw [← Option.some.inj he', hoption] at hsensitive
    cases hsensitive
  have hredacted : kind (hide s) (redact_line line) = .continuation (strip line) := by
    rcases equals_cases line with ⟨hnot, -⟩ | ⟨key, value, rfl, hkey, hcut⟩
    · rw [redact_of_no_equals hnot hmarker, kind_hide, hkind]
    · rw [hcut] at hline
      obtain ⟨hspaced, hshown, hblank⟩ := hline
      rw [redact_assignment hkey value hmarker, kind_hide,
        kind_assigned_continuation _ hopened hindent hmarker hblank,
        (spaced_iff hkey key value).mpr ⟨hspaced, hshown⟩]
  rw [hide_continued hw hplain]
  exact stepped_iff.mp (.continuation hredacted)

theorem headerName_redacted (hkey : '=' ∉ key) (hkept : KeptHeader (key ++ '=' :: value))
    (h : headerName (strip (key ++ '=' :: value)) = some name) :
    headerName (strip (assigned key (written key value))) = some name := by
  rw [KeptHeader, cut_equals hkey] at hkept
  by_cases hin : ']' ∈ value
  · obtain ⟨hplain, hbefore, hafter⟩ := hkept hin
    obtain ⟨k, x, y, hk, rfl, hy, rfl⟩ := inside_shape h hin
    rw [written, hplain, if_neg Bool.false_ne_true, headerName_assigned_inside hk hy,
      (inside_kept_iff hk hkey).mpr ⟨hbefore, hafter⟩]
  · have hshown : ']' ∉ written key value := by
      rw [written]
      split_ifs
      · decide
      · exact fun hmem => hin (mem_of_mem_strip hmem)
    rw [headerName_assigned hshown, ← headerName_assignment hin, h]

theorem headerName_redacted_none (h : headerName (strip (key ++ '=' :: value)) = none) :
    headerName (strip (assigned key (written key value))) = none := by
  by_cases hin : ']' ∈ value
  · cases hshown : headerName (strip (assigned key (written key value))) with
    | none => rfl
    | some name =>
      obtain ⟨more, hmore⟩ := lead_of_headerName hshown
      obtain ⟨k, hk⟩ : ∃ k, lstrip key = '[' :: k := by
        rw [strip_assigned] at hmore
        have hhead := head_padded key
        cases hkey : lstrip key with
        | nil =>
          rw [hkey, List.head?_nil, List.head?_eq_none_iff] at hhead
          rw [hhead] at hmore
          exact absurd (List.cons.inj hmore).1 (by decide)
        | cons c k =>
          obtain ⟨d, ds, hds⟩ : ∃ d ds, padded key = d :: ds := by
            cases hpadded : padded key with
            | nil =>
              rw [hkey, hpadded] at hhead
              cases hhead
            | cons d ds => exact ⟨d, ds, rfl⟩
          rw [hds] at hmore
          rw [hds, hkey] at hhead
          exact ⟨k, by rw [← Option.some.inj hhead, (List.cons.inj hmore).1]⟩
      obtain ⟨x, y, rfl, hy⟩ := last_bracket hin
      rw [headerName_inside hk hy] at h
      cases h
  · have hshown : ']' ∉ written key value := by
      rw [written]
      split_ifs
      · decide
      · exact fun hmem => hin (mem_of_mem_strip hmem)
    rw [headerName_assigned hshown, ← headerName_assignment hin, h]

/-- A line that is an entry has a text before its `=`. -/
theorem key_of_entry (h : entryKind (strip (key ++ '=' :: value)) ≠ .malformed) :
    strip key ≠ [] := by
  intro hnil
  apply h
  have hheader : headerName (strip (key ++ '=' :: value)) = none := by
    rw [strip_assignment, lstrip_eq_nil_iff.mpr (strip_eq_nil_iff.mp hnil)]
    exact headerName_lead (by decide)
  rw [entryKind, hheader]
  dsimp only
  rw [optionKind_assignment (blank_not_mem equals_text hnil) (blank_not_mem (by decide) hnil),
    if_pos hnil]

theorem kind_assigned_entry {shown : Line} (hmarker : isComment (key ++ '=' :: value) = false)
    (hindent : ¬(s.opened = true ∧ s.indent < indentOf (key ++ '=' :: value)))
    (hkey : strip key ≠ []) :
    kind s (assigned key shown) = entryKind (strip (assigned key shown)) := by
  refine kind_entry ?_ (strip_assigned_ne_nil key shown) ?_
  · rw [isComment_assigned key value, hmarker]
  · rwa [indentOf_assigned hkey value]

/-- An option of a rewritten line has the same name, and this value. -/
def shownOption (key value : Line) : Line × Line :=
  match cut isColon key with
  | none => (strip key, written key value)
  | some (name, rest) => (strip name, strip (assigned rest (written key value)))

theorem optionKind_redacted (hkey : '=' ∉ key) {v : Line}
    (h : optionKind (strip (key ++ '=' :: value)) = .option name v) :
    name = (shownOption key value).1 ∧
      optionKind (strip (assigned key (written key value))) =
        .option name (shownOption key value).2 ∧
      ((cut isColon key = none ∧ v = strip value) ∨
        ∃ first rest, cut isColon key = some (first, rest) ∧ '=' ∉ rest ∧
          v = strip (rest ++ '=' :: value)) := by
  rcases colon_cases key with ⟨hcolon, hcut⟩ | ⟨first, rest, rfl, hcolon, hcut⟩
  · rw [optionKind_assignment hkey hcolon] at h
    split_ifs at h with hnil
    cases h
    rw [shownOption, hcut]
    refine ⟨rfl, ?_, .inl ⟨rfl, rfl⟩⟩
    rw [optionKind_assigned hkey hcolon, if_neg hnil, strip_written]
  · have hfirst : '=' ∉ first := fun h => hkey (List.mem_append_left _ h)
    have hrest : '=' ∉ rest := fun h =>
      hkey (List.mem_append_right _ (List.mem_cons_of_mem _ h))
    rw [List.append_assoc, List.cons_append, optionKind_colon hfirst hcolon] at h
    split_ifs at h with hnil
    cases h
    rw [shownOption, hcut]
    refine ⟨rfl, ?_, .inr ⟨first, rest, rfl, hrest, rfl⟩⟩
    rw [assigned_colon, optionKind_colon hfirst hcolon, if_neg hnil]

theorem strip_assigned_ne_placeholder (key shown : Line) :
    strip (assigned key shown) ≠ placeholder := by
  intro h
  have hin : '=' ∈ strip (assigned key shown) := by
    rw [strip_assigned]
    exact List.mem_append_right _ List.mem_cons_self
  rw [h] at hin
  exact absurd hin (by decide)

theorem keptOption_iff (hkey : '=' ∉ key) (option v : Line)
    (hread : (cut isColon key = none ∧ v = strip value) ∨
      ∃ first rest, cut isColon key = some (first, rest) ∧ '=' ∉ rest ∧
        v = strip (rest ++ '=' :: value)) :
    KeptOption option v (key ++ '=' :: value) ↔
      (shownOption key value).2 = if sensitive option then placeholder else v := by
  rw [KeptOption, cut_equals hkey]
  dsimp only
  rcases hread with ⟨hcut, rfl⟩ | ⟨first, rest, hcut, hrest, rfl⟩
  · rw [shownOption, hcut, written]
    dsimp only
    cases sensitive option <;> cases sensitive key <;> simp [eq_comm]
  · rw [shownOption, hcut]
    dsimp only
    cases sensitive option with
    | false =>
      rw [if_neg Bool.false_ne_true, eq_comm (a := strip (assigned _ _)), spaced_iff hrest]
      simp
    | true => simp [strip_assigned_ne_placeholder]

theorem step_entered (hmarker : isComment line = false) (hne : strip line ≠ [])
    (hindent : ¬(s.opened = true ∧ s.indent < indentOf line))
    (hheader : headerName (strip line) = some name) (hnew : name ∉ s.sections)
    (hkept : KeptHeader line) :
    step lower (hide s) (redact_line line) = some (hide (s.entered name (indentOf line))) := by
  have hentry : entryKind (strip line) = .header name := by rw [entryKind, hheader]
  rcases equals_cases line with ⟨hnot, -⟩ | ⟨key, value, rfl, hkey, -⟩
  · have hkind := (kind_entry hmarker hne hindent).trans hentry
    rw [redact_of_no_equals hnot hmarker]
    exact stepped_iff.mp (.header hkind hnew)
  · have htext : strip key ≠ [] := key_of_entry (by rw [hentry]; simp)
    have hkind : kind (hide s) (assigned key (written key value)) = .header name := by
      rw [kind_hide, kind_assigned_entry hmarker hindent htext, entryKind,
        headerName_redacted hkey hkept hheader]
    rw [redact_assignment hkey value hmarker, ← indentOf_assigned htext value (written key value)]
    exact stepped_iff.mp (.header hkind hnew)

theorem kind_option_redacted {v : Line} (hmarker : isComment (key ++ '=' :: value) = false)
    (hindent : ¬(s.opened = true ∧ s.indent < indentOf (key ++ '=' :: value)))
    (hkey : '=' ∉ key) (hentry : entryKind (strip (key ++ '=' :: value)) = .option name v) :
    kind s (assigned key (written key value)) = .option name (shownOption key value).2 := by
  obtain ⟨hheader, hoption⟩ := entryKind_eq_option hentry
  have htext : strip key ≠ [] := key_of_entry (by rw [hentry]; simp)
  rw [kind_assigned_entry hmarker hindent htext, entryKind, headerName_redacted_none hheader]
  exact (optionKind_redacted hkey hoption).2.1

theorem step_declared {v sect : Line} (hmarker : isComment line = false) (hne : strip line ≠ [])
    (hindent : ¬(s.opened = true ∧ s.indent < indentOf line))
    (hentry : entryKind (strip line) = .option name v) (hcurrent : s.current = some sect)
    (hnew : s.declares sect (lower name) = false) (hkept : KeptOption (lower name) v line) :
    step lower (hide s) (redact_line line) =
      some (hide (s.declared ⟨sect, lower name, [v]⟩ (indentOf line))) := by
  have hnew' : (hide s).declares sect (lower name) = false := (declares_hide _ _ _).trans hnew
  rw [hide_declared, hideEntry]
  dsimp only
  rw [hiddenValues_one]
  rcases equals_cases line with ⟨hnot, hcut⟩ | ⟨key, value, rfl, hkey, -⟩
  · have hkind : kind (hide s) line = .option name v :=
      (kind_entry hmarker hne hindent).trans hentry
    have hshown : (if sensitive (lower name) = true then placeholder else v) = v := by
      rw [KeptOption, hcut] at hkept
      split_ifs with hsensitive
      · exact (hkept hsensitive).symm
      · rfl
    rw [redact_of_no_equals hnot hmarker, hshown]
    exact stepped_iff.mp (.option hkind hcurrent hnew')
  · have htext : strip key ≠ [] := key_of_entry (by rw [hentry]; simp)
    have hread := (optionKind_redacted hkey (entryKind_eq_option hentry).2).2.2
    have hkind := kind_option_redacted (s := hide s) hmarker hindent hkey hentry
    rw [(keptOption_iff hkey (lower name) v hread).mp hkept] at hkind
    rw [redact_assignment hkey value hmarker, ← indentOf_assigned htext value (written key value)]
    exact stepped_iff.mp (.option hkind hcurrent hnew')

/-- A kept line is read over the hidden state as the line itself over the state. -/
theorem step_hide (hw : Wellformed s) (hkept : KeptLine lower s line)
    (h : step lower s line = some s') :
    step lower (hide s) (redact_line line) = some (hide s') := by
  rcases kind_cases s line with hmarker | hne | ⟨hmarker, hne, ⟨hopened, hindent⟩ | hindent⟩
  · have hsame := step_comment lower s hmarker
    rw [← Option.some.inj (hsame.symm.trans h)]
    exact step_comment lower (hide s) (redact_comment hmarker)
  · have hsame := step_blank lower s hne
    rw [← Option.some.inj (hsame.symm.trans h), redact_blank hne, step_blank lower (hide s) hne,
      apply_ite hide, hide_continued hw fun _ _ _ => rfl]
    rfl
  · have hsame := step_continuation lower hmarker hne hopened hindent
    rw [← Option.some.inj (hsame.symm.trans h)]
    exact step_continued hw hmarker hne hopened hindent hkept
  · have hkind := kind_entry hmarker hne hindent
    rw [KeptLine, hkind] at hkept
    rcases step_entry hmarker hne hindent h with ⟨name, hheader, hnew, rfl⟩ |
      ⟨name, v, sect, hentry, hcurrent, hnew, rfl⟩
    · rw [entryKind, hheader] at hkept
      exact step_entered hmarker hne hindent hheader hnew hkept
    · rw [hentry] at hkept
      exact step_declared hmarker hne hindent hentry hcurrent hnew hkept

end KeptLines

end SnapshotReading
