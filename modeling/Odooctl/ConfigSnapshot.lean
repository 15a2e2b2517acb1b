import Mathlib.Data.List.Infix
import Odooctl.CheckedLists
import Odooctl.ConfigGrammar

/-!
# Redacted configuration snapshots

`services/backup.py`: the `odoo.conf` of a backup, with the values of sensitive options replaced
line by line. What a reader of the snapshot gets is the configuration grammar's reading of it.
-/
namespace ConfigSnapshot

open TrimmedLines ConfigGrammar

/-! ## Sensitive keys -/

/-- Two characters are the same letter for `re.IGNORECASE`. -/
def folded (c : Char) : Char :=
  if 'A'.toNat ≤ c.toNat ∧ c.toNat ≤ 'Z'.toNat then Char.ofNat (c.toNat + 32)
  else if c.toNat = 0x130 ∨ c.toNat = 0x131 then 'i'
  else if c.toNat = 0x17F then 's'
  else if c.toNat = 0x212A then 'k'
  else c

def SENSITIVE_CONFIG_KEYS : List Line :=
  ["password".toList, "passwd".toList, "admin_passwd".toList, "secret".toList, "token".toList,
    "apikey".toList, "api_key".toList, "api-key".toList, "smtp".toList, "oauth".toList,
    "webhook".toList, "license".toList]

def sensitive (text : Line) : Bool :=
  SENSITIVE_CONFIG_KEYS.any fun word => decide (word <:+: text.map folded)

/-! ## The snapshot -/

def isBreak (c : Char) : Bool :=
  [0x0A, 0x0B, 0x0C, 0x0D, 0x1C, 0x1D, 0x1E, 0x85, 0x2028, 0x2029].contains c.toNat

def splitlines : List Char → List Line
  | [] => []
  | '\r' :: '\n' :: cs => [] :: splitlines cs
  | c :: cs =>
    if isBreak c then [] :: splitlines cs
    else (c :: (splitlines cs).headD []) :: (splitlines cs).tail

def placeholder : Line := "***REDACTED***".toList

def isEquals (c : Char) : Bool := c == '='

def assigned (key value : Line) : Line := rstrip key ++ ' ' :: '=' :: ' ' :: value

def redact_line (line : Line) : Line :=
  let stripped := strip line
  if stripped = [] then line
  else
    match cut isEquals line with
    | none =>
      if stripped.head?.any isMarker ∧ sensitive stripped then
        line.take (line.findIdx isMarker + 1) ++ ' ' :: placeholder
      else line
    | some (key, value) =>
      if sensitive key then assigned key placeholder
      else if stripped.head?.any isMarker then line
      else assigned key (strip value)

def redact_config_snapshot (text : List Char) : List Char :=
  ['\n'].intercalate ((splitlines text).map redact_line) ++
    if text.getLast? = some '\n' then ['\n'] else []

/-! ## What a snapshot should be read as -/

def masked (s : Setting) : Setting :=
  if sensitive s.option then { s with value := placeholder } else s

/-- Every sensitive option has the placeholder, every other one its own value. -/
def mask (doc : Document) : Document := { doc with settings := doc.settings.map masked }

example : redact_line "db_password: x".toList = "db_password: x".toList ∧
    redact_line "Db_Password=x".toList = "Db_Password = ***REDACTED***".toList ∧
    redact_line "# old admin_passwd: x".toList = "# ***REDACTED***".toList := by
  decide +kernel

/-! ## Which lines are read as before -/

def isColon (c : Char) : Bool := c == ':'

/-- One blank on each side of the `=`, or nothing there at all. -/
structure Spaced (key value : Line) : Prop where
  before : strip key = [] ∨ lstrip key = strip key ++ [' ']
  after : strip value = [] ∨ rstrip value = ' ' :: strip value

def Shown (key value : Line) : Prop := sensitive key = true → strip value = placeholder

def KeptContinuation (indent : ℕ) (option line : Line) : Prop :=
  sensitive option = false ∧
    match cut isEquals line with
    | none => True
    | some (key, value) => Spaced key value ∧ Shown key value ∧ (strip key = [] → indent = 0)

/-- A `=` counts only inside the name. -/
def KeptHeader (line : Line) : Prop :=
  match cut isEquals line with
  | none => True
  | some (key, value) =>
    ']' ∈ value →
      sensitive key = false ∧ lstrip key = strip key ++ [' '] ∧ value = ' ' :: lstrip value

def KeptOption (option shown line : Line) : Prop :=
  match cut isEquals line with
  | none => sensitive option = true → shown = placeholder
  | some (key, value) =>
    match cut isColon key with
    | none => sensitive option = sensitive key ∨ shown = placeholder
    | some (_, rest) => sensitive option = false ∧ Spaced rest value ∧ Shown key value

variable (lower : Line → Line)

def KeptLine (s : State) (line : Line) : Prop :=
  match kind s line with
  | .continuation _ => ∀ e ∈ s.entries.head?, KeptContinuation s.indent e.option line
  | .header _ => KeptHeader line
  | .option name value => KeptOption (lower name) value line
  | _ => True

/-- Every line is kept where the lines before it lead. -/
def Kept : State → List Line → Prop
  | _, [] => True
  | s, line :: ls => KeptLine lower s line ∧ ∀ s' ∈ step lower s line, Kept s' ls

variable {lower} {s s' : State} {line key value rest shown : Line} {ls : List Line}

/-! ## Assignments -/

section Assignments

theorem space_blank : isSpace ' ' = true := rfl

theorem equals_text : isSpace '=' = false := rfl

theorem strip_assignment (key value : Line) :
    strip (key ++ '=' :: value) = lstrip key ++ '=' :: rstrip value :=
  strip_append key equals_text value

/-- The key as it is written before a `=`. -/
def padded (key : Line) : Line := if strip key = [] then [] else strip key ++ [' ']

theorem lstrip_padded (key : Line) : lstrip (rstrip key ++ [' ']) = padded key := by
  rw [lstrip_concat_space space_blank, lstrip_rstrip, padded]

theorem rstrip_padded (key : Line) : rstrip (padded key) = strip key := by
  rw [padded]
  split_ifs with h
  · rw [h]; rfl
  · rw [rstrip_concat_space space_blank, rstrip_strip]

theorem strip_assigned (key value : Line) :
    strip (assigned key value) = padded key ++ '=' :: rstrip (' ' :: value) := by
  have h : assigned key value = (rstrip key ++ [' ']) ++ '=' :: ' ' :: value := by
    simp [assigned]
  rw [h, strip_assignment, lstrip_padded]

theorem not_mem_padded {c : Char} (hc : c ≠ ' ') (h : c ∉ key) : c ∉ padded key := by
  rw [padded]
  split_ifs
  · simp
  · intro hin
    rcases List.mem_append.mp hin with hin | hin
    · exact h (mem_of_mem_strip hin)
    · exact hc (List.mem_singleton.mp hin)

theorem cut_equals (h : '=' ∉ key) (value : Line) :
    cut isEquals (key ++ '=' :: value) = some (key, value) := by
  refine cut_append (fun x hx => ?_) rfl value
  exact beq_eq_false_iff_ne.mpr fun heq => h (heq ▸ hx)

theorem equals_inj {a a' b b' : Line} (ha : '=' ∉ a) (ha' : '=' ∉ a')
    (h : a ++ '=' :: b = a' ++ '=' :: b') : a = a' ∧ b = b' := by
  have hcut := congrArg (cut isEquals) h
  rw [cut_equals ha, cut_equals ha'] at hcut
  exact Prod.mk.inj (Option.some.inj hcut)

theorem equals_cases (line : Line) :
    ('=' ∉ line ∧ cut isEquals line = none) ∨
      ∃ key value, line = key ++ '=' :: value ∧ '=' ∉ key ∧
        cut isEquals line = some (key, value) := by
  rcases cut_cases isEquals line with h | ⟨a, c, b, rfl, ha, hc⟩
  · exact .inl ⟨fun hin => by simpa [isEquals] using h '=' hin, cut_of_none h⟩
  · rw [isEquals, beq_iff_eq] at hc
    subst hc
    have hnot : '=' ∉ a := fun hin => by simpa [isEquals] using ha '=' hin
    exact .inr ⟨a, b, rfl, hnot, cut_equals hnot b⟩

theorem colon_cases (key : Line) :
    (':' ∉ key ∧ cut isColon key = none) ∨
      ∃ name rest, key = name ++ ':' :: rest ∧ ':' ∉ name ∧
        cut isColon key = some (name, rest) := by
  rcases cut_cases isColon key with h | ⟨a, c, b, rfl, ha, hc⟩
  · exact .inl ⟨fun hin => by simpa [isColon] using h ':' hin, cut_of_none h⟩
  · have hcut := cut_append ha hc b
    rw [isColon, beq_iff_eq] at hc
    subst hc
    exact .inr ⟨a, b, rfl, fun hin => by simpa [isColon] using ha ':' hin, hcut⟩

/-- The value that is written for a key. -/
def written (key value : Line) : Line := if sensitive key then placeholder else strip value

theorem strip_placeholder : strip placeholder = placeholder := by decide

theorem strip_written (key value : Line) : strip (written key value) = written key value := by
  rw [written]
  split_ifs
  · exact strip_placeholder
  · exact strip_strip value

theorem rstrip_space_of_strip (h : strip value = value) :
    rstrip (' ' :: value) = if value = [] then [] else ' ' :: value := by
  have hself : rstrip value = value := by rw [← h, rstrip_strip]
  rw [rstrip_space_cons space_blank, hself]

theorem rstrip_eq_nil_of_strip (h : strip value = []) : rstrip value = [] :=
  rstrip_eq_nil_iff.mpr (strip_eq_nil_iff.mp h)

theorem strip_of_rstrip (h : rstrip value = ' ' :: shown) : strip value = lstrip shown := by
  rw [← lstrip_rstrip, h, lstrip_cons_space space_blank]

/-- Where the key and the value are spaced, and nothing is hidden, the line keeps its text. -/
theorem after_iff (key value : Line) :
    rstrip value = rstrip (' ' :: written key value) ↔
      (strip value = [] ∨ rstrip value = ' ' :: strip value) ∧ Shown key value := by
  rw [rstrip_space_of_strip (strip_written key value), written, Shown]
  cases hkey : sensitive key with
  | false =>
    simp only [Bool.false_eq_true, if_false, false_implies, and_true]
    constructor
    · intro h
      split_ifs at h with hnil
      · exact .inl hnil
      · exact .inr h
    · rintro (h | h)
      · rw [if_pos h, rstrip_eq_nil_of_strip h]
      · split_ifs with hnil
        · exact rstrip_eq_nil_of_strip hnil
        · exact h
  | true =>
    have hne : placeholder ≠ [] := by decide
    simp only [if_true, if_neg hne, forall_const]
    constructor
    · intro h
      have hvalue : strip value = placeholder := by
        rw [strip_of_rstrip h]
        decide
      exact ⟨.inr (h.trans (by rw [hvalue])), hvalue⟩
    · rintro ⟨h | h, hvalue⟩
      · exact absurd (h.symm.trans hvalue).symm hne
      · rw [h, hvalue]

theorem before_iff (key : Line) :
    lstrip key = padded key ↔ strip key = [] ∨ lstrip key = strip key ++ [' '] := by
  rw [padded]
  split_ifs with h
  · exact iff_of_true (lstrip_eq_nil_iff.mpr (strip_eq_nil_iff.mp h)) (.inl h)
  · simp [h]

theorem spaced_iff (hkey : '=' ∉ key) (other value : Line) :
    strip (key ++ '=' :: value) = strip (assigned key (written other value)) ↔
      Spaced key value ∧ Shown other value := by
  have hleft : '=' ∉ lstrip key := fun h => hkey (mem_of_mem_lstrip h)
  have hright : '=' ∉ padded key := not_mem_padded (by decide) hkey
  rw [strip_assignment, strip_assigned]
  constructor
  · intro h
    obtain ⟨hbefore, hafter⟩ := equals_inj hleft hright h
    obtain ⟨hspaced, hshown⟩ := (after_iff other value).mp hafter
    exact ⟨⟨(before_iff key).mp hbefore, hspaced⟩, hshown⟩
  · rintro ⟨hspaced, hshown⟩
    rw [(before_iff key).mpr hspaced.before, (after_iff other value).mpr ⟨hspaced.after, hshown⟩]

end Assignments

/-! ## What a rewritten line is read as -/

section Rewritten

theorem head_padded (key : Line) : (padded key).head? = (lstrip key).head? := by
  rw [padded]
  split_ifs with h
  · rw [lstrip_eq_nil_iff.mpr (strip_eq_nil_iff.mp h)]
  · rw [← head_strip]
    obtain ⟨c, cs, hcs⟩ := List.exists_cons_of_ne_nil h
    rw [hcs]
    rfl

theorem isComment_assigned (key value shown : Line) :
    isComment (assigned key shown) = isComment (key ++ '=' :: value) := by
  have h : (strip (assigned key shown)).head? = (strip (key ++ '=' :: value)).head? := by
    rw [strip_assigned, strip_assignment, List.head?_append, List.head?_append, head_padded]
    rfl
  rw [isComment, isComment, h]

theorem strip_assignment_ne_nil (key value : Line) : strip (key ++ '=' :: value) ≠ [] := by
  rw [strip_assignment]
  simp

theorem strip_assigned_ne_nil (key shown : Line) : strip (assigned key shown) ≠ [] := by
  rw [strip_assigned]
  simp

theorem indentOf_assigned (h : strip key ≠ []) (value shown : Line) :
    indentOf (assigned key shown) = indentOf (key ++ '=' :: value) := by
  rcases spaces_or_lead key with hs | ⟨a, c, b, rfl, ha, hc⟩
  · exact absurd (strip_of_spaces hs) h
  · rw [assigned, rstrip_append a hc, List.append_assoc, List.append_assoc, List.cons_append,
      List.cons_append]
    exact indentOf_eq hc a _ _

theorem indentOf_assigned_blank (h : strip key = []) (shown : Line) :
    indentOf (assigned key shown) = 1 := by
  have hnil : rstrip key = [] := rstrip_eq_nil_iff.mpr (strip_eq_nil_iff.mp h)
  rw [assigned, hnil, List.nil_append]
  exact indentOf_lead (a := [' ']) (by simp [space_blank]) equals_text

theorem redact_assignment (hkey : '=' ∉ key) (value : Line)
    (hmarker : isComment (key ++ '=' :: value) = false) :
    redact_line (key ++ '=' :: value) = assigned key (written key value) := by
  rw [isComment] at hmarker
  rw [redact_line, if_neg (strip_assignment_ne_nil key value), cut_equals hkey, written]
  dsimp only
  rw [hmarker, if_neg Bool.false_ne_true]
  split_ifs <;> rfl

theorem redact_of_no_equals (hline : '=' ∉ line) (hmarker : isComment line = false) :
    redact_line line = line := by
  have hcut : cut isEquals line = none :=
    cut_of_none fun x hx => beq_eq_false_iff_ne.mpr fun heq => hline (heq ▸ hx)
  rw [isComment] at hmarker
  rw [redact_line, hcut]
  simp [hmarker]

theorem redact_blank (h : strip line = []) : redact_line line = line := by
  rw [redact_line, if_pos h]

theorem isMarker_of_space {c : Char} (h : isSpace c = true) : isMarker c = false := by
  cases hc : isMarker c with
  | false => rfl
  | true =>
    rw [isMarker, Bool.or_eq_true, beq_iff_eq, beq_iff_eq] at hc
    rcases hc with rfl | rfl
    · exact absurd h (by decide)
    · exact absurd h (by decide)

theorem take_marker {a : Line} {c : Char} (ha : ∀ x ∈ a, isSpace x = true)
    (hc : isMarker c = true) (b : Line) :
    (a ++ c :: b).take ((a ++ c :: b).findIdx isMarker + 1) = a ++ [c] := by
  have hidx : (a ++ c :: b).findIdx isMarker = a.length := by
    rw [List.findIdx_append, List.findIdx_cons, hc]
    have hnone : a.findIdx isMarker = a.length :=
      List.findIdx_eq_length.mpr fun x hx => isMarker_of_space (ha x hx)
    rw [hnone]
    simp
  rw [hidx, List.take_append, List.take_of_length_le (Nat.le_succ _)]
  simp

/-- A comment stays one: its marker is written before the placeholder. -/
theorem redact_comment (h : isComment line = true) : isComment (redact_line line) = true := by
  have hne : strip line ≠ [] := by
    intro hnil
    rw [isComment, hnil] at h
    cases h
  have hhead : (strip line).head?.any isMarker = true := h
  rcases equals_cases line with ⟨-, hcut⟩ | ⟨key, value, rfl, -, hcut⟩
  · rw [redact_line, if_neg hne, hcut]
    dsimp only
    split_ifs with hsensitive
    · rcases spaces_or_lead line with hs | ⟨a, c, b, rfl, ha, hc⟩
      · exact absurd (strip_of_spaces hs) hne
      · have hmarker : isMarker c = true := by
          rw [head_strip, lstrip_lead ha hc] at hhead
          exact hhead
        rw [take_marker ha hmarker, isComment, head_strip, List.append_assoc, List.singleton_append,
          lstrip_lead ha hc]
        exact hmarker
    · exact h
  · rw [redact_line, if_neg hne, hcut]
    dsimp only
    split_ifs
    · rw [isComment_assigned key value, h]
    · exact h

theorem assigned_eq (key shown : Line) :
    assigned key shown = (rstrip key ++ [' ']) ++ '=' :: ' ' :: shown := by
  rw [assigned, List.append_assoc, List.singleton_append]

theorem strip_rstrip_space (key : Line) : strip (rstrip key ++ [' ']) = strip key := by
  rw [← lstrip_rstrip, rstrip_concat_space space_blank, rstrip_rstrip, lstrip_rstrip]

theorem strip_space_cons (value : Line) : strip (' ' :: value) = strip value := by
  rw [strip, lstrip_cons_space space_blank]
  rfl

theorem optionKind_strip {name : Line} {d : Char} (hname : ∀ x ∈ name, isDelimiter x = false)
    (hd : isDelimiter d = true) (hspace : isSpace d = false) (value : Line) :
    optionKind (strip (name ++ d :: value)) =
      if strip name = [] then .malformed else .option (strip name) (strip value) := by
  have hcut : cut isDelimiter (strip (name ++ d :: value)) = some (lstrip name, rstrip value) := by
    rw [strip_append name hspace]
    exact cut_append (fun x hx => hname x (mem_of_mem_lstrip hx)) hd _
  rw [optionKind, hcut]
  dsimp only
  rw [strip_rstrip]
  rfl

theorem not_delimiter {x : Char} (hequals : '=' ∉ key) (hcolon : ':' ∉ key) (hx : x ∈ key) :
    isDelimiter x = false := by
  rw [isDelimiter, Bool.or_eq_false_iff, beq_eq_false_iff_ne, beq_eq_false_iff_ne]
  exact ⟨fun h => hequals (h ▸ hx), fun h => hcolon (h ▸ hx)⟩

theorem optionKind_assignment (hequals : '=' ∉ key) (hcolon : ':' ∉ key) (value : Line) :
    optionKind (strip (key ++ '=' :: value)) =
      if strip key = [] then .malformed else .option (strip key) (strip value) :=
  optionKind_strip (fun _ hx => not_delimiter hequals hcolon hx) rfl rfl value

theorem optionKind_assigned (hequals : '=' ∉ key) (hcolon : ':' ∉ key) (shown : Line) :
    optionKind (strip (assigned key shown)) =
      if strip key = [] then .malformed else .option (strip key) (strip shown) := by
  have hmem : ∀ {c}, c ≠ ' ' → c ∉ key → c ∉ rstrip key ++ [' '] := by
    intro c hc hnot hin
    rcases List.mem_append.mp hin with hin | hin
    · exact hnot (mem_of_mem_rstrip hin)
    · exact hc (List.mem_singleton.mp hin)
  rw [assigned_eq, optionKind_assignment (hmem (by decide) hequals) (hmem (by decide) hcolon),
    strip_rstrip_space, strip_space_cons]

theorem assigned_colon (name rest shown : Line) :
    assigned (name ++ ':' :: rest) shown = name ++ ':' :: assigned rest shown := by
  rw [assigned, rstrip_append name (by decide), List.append_assoc, List.cons_append, assigned]

theorem optionKind_colon {name : Line} (hequals : '=' ∉ name) (hcolon : ':' ∉ name)
    (value : Line) :
    optionKind (strip (name ++ ':' :: value)) =
      if strip name = [] then .malformed else .option (strip name) (strip value) :=
  optionKind_strip (fun _ hx => not_delimiter hequals hcolon hx) rfl rfl value

/-! ### Headers -/

theorem headerName_append {u w : Line} (hw : ']' ∉ w) (hu : u ≠ []) :
    headerName (u ++ w) = headerName u := by
  obtain ⟨c, cs, rfl⟩ := List.exists_cons_of_ne_nil hu
  have hdrop : (cs ++ w).rdropWhile (· != ']') = cs.rdropWhile (· != ']') := by
    induction w using List.reverseRecOn with
    | nil => rw [List.append_nil]
    | append_singleton w x ih =>
      have hx : x ≠ ']' := fun h => hw (by simp [h])
      rw [← List.append_assoc, List.rdropWhile_concat_pos _ _ _ (by simpa using hx),
        ih (fun h => hw (List.mem_append_left _ h))]
  rw [List.cons_append, headerName, headerName, hdrop]

theorem headerName_bracket {x y : Line} (hx : x ≠ []) (hy : ']' ∉ y) :
    headerName ('[' :: (x ++ ']' :: y)) = some x := by
  have hone : ('[' :: (x ++ ']' :: y) : Line) = ('[' :: (x ++ [']'])) ++ y := by simp
  rw [hone, headerName_append hy (List.cons_ne_nil _ _), headerName, if_pos rfl,
    List.rdropWhile_concat_neg _ _ _ (by simp), List.dropLast_concat]
  obtain ⟨c, cs, rfl⟩ := List.exists_cons_of_ne_nil hx
  rfl

theorem headerName_lead {c : Char} {cs : Line} (h : c ≠ '[') : headerName (c :: cs) = none := by
  rw [headerName, if_neg h]

theorem lead_of_headerName {name cs : Line} (h : headerName cs = some name) :
    ∃ rest, cs = '[' :: rest := by
  cases cs with
  | nil => cases h
  | cons c cs =>
    by_cases hc : c = '['
    · exact ⟨cs, by rw [hc]⟩
    · rw [headerName_lead hc] at h
      cases h

theorem last_bracket (h : ']' ∈ value) : ∃ x y, value = x ++ ']' :: y ∧ ']' ∉ y := by
  obtain ⟨as, bs, heq, hnot⟩ := List.eq_append_cons_of_mem (List.mem_reverse.mpr h)
  refine ⟨bs.reverse, as.reverse, ?_, by simpa using hnot⟩
  rw [← List.reverse_reverse value, heq]
  simp

theorem lstrip_eq (key : Line) :
    ∃ blanks, lstrip key = strip key ++ blanks ∧ ∀ c ∈ blanks, isSpace c = true :=
  ⟨(lstrip key).rtakeWhile isSpace, List.rdropWhile_append_rtakeWhile.symm,
    fun _ hc => List.mem_rtakeWhile_imp hc⟩

/-- Without a `]` after the `=`, the header is all before it. -/
theorem headerName_assignment (h : ']' ∉ value) :
    headerName (strip (key ++ '=' :: value)) = headerName (strip key) := by
  rw [strip_assignment]
  by_cases hnil : strip key = []
  · rw [hnil, lstrip_eq_nil_iff.mpr (strip_eq_nil_iff.mp hnil)]
    rfl
  · obtain ⟨blanks, hblanks, hall⟩ := lstrip_eq key
    rw [hblanks, List.append_assoc]
    refine headerName_append ?_ hnil
    intro hin
    rcases List.mem_append.mp hin with hin | hin
    · exact absurd (hall _ hin) (by decide)
    · rcases List.mem_cons.mp hin with hin | hin
      · exact absurd hin (by decide)
      · exact h (mem_of_mem_rstrip hin)

theorem headerName_assigned (h : ']' ∉ shown) :
    headerName (strip (assigned key shown)) = headerName (strip key) := by
  rw [assigned_eq, headerName_assignment, strip_rstrip_space]
  exact fun hin => h (List.mem_of_ne_of_mem (by decide) hin)

theorem headerName_inside {k x y : Line} (hk : lstrip key = '[' :: k) (hy : ']' ∉ y) :
    headerName (strip (key ++ '=' :: (x ++ ']' :: y))) = some (k ++ '=' :: x) := by
  have hshape : strip (key ++ '=' :: (x ++ ']' :: y)) =
      '[' :: ((k ++ '=' :: x) ++ ']' :: rstrip y) := by
    rw [strip_assignment, hk, rstrip_append x (by decide)]
    simp
  rw [hshape, headerName_bracket (by simp) (fun h => hy (mem_of_mem_rstrip h))]

theorem headerName_assigned_inside {k x y : Line} (hk : lstrip key = '[' :: k) (hy : ']' ∉ y) :
    headerName (strip (assigned key (strip (x ++ ']' :: y)))) =
      some ((rstrip k ++ [' ']) ++ '=' :: ' ' :: lstrip x) := by
  have hkey : lstrip (rstrip key ++ [' ']) = '[' :: (rstrip k ++ [' ']) := by
    have hstrip : strip key = '[' :: rstrip k := by
      rw [strip, hk, rstrip_cons (by decide)]
    rw [lstrip_padded, padded, hstrip, if_neg (List.cons_ne_nil _ _), List.cons_append]
  rw [assigned_eq, strip_append x (by decide), ← List.cons_append,
    headerName_inside hkey (fun h => hy (mem_of_mem_rstrip h))]

theorem inside_shape {name : Line} (h : headerName (strip (key ++ '=' :: value)) = some name)
    (hin : ']' ∈ value) :
    ∃ k x y, lstrip key = '[' :: k ∧ value = x ++ ']' :: y ∧ ']' ∉ y ∧ name = k ++ '=' :: x := by
  obtain ⟨more, hmore⟩ := lead_of_headerName h
  obtain ⟨k, hk⟩ : ∃ k, lstrip key = '[' :: k := by
    rw [strip_assignment] at hmore
    cases hkey : lstrip key with
    | nil =>
      rw [hkey] at hmore
      exact absurd (List.cons.inj hmore).1 (by decide)
    | cons c k =>
      rw [hkey] at hmore
      exact ⟨k, by rw [(List.cons.inj hmore).1]⟩
  obtain ⟨x, y, rfl, hy⟩ := last_bracket hin
  rw [headerName_inside hk hy] at h
  exact ⟨k, x, y, hk, rfl, hy, (Option.some.inj h).symm⟩

theorem inside_kept_iff {k x y : Line} (hk : lstrip key = '[' :: k) (hkey : '=' ∉ key) :
    k ++ '=' :: x = (rstrip k ++ [' ']) ++ '=' :: ' ' :: lstrip x ↔
      lstrip key = strip key ++ [' '] ∧ x ++ ']' :: y = ' ' :: lstrip (x ++ ']' :: y) := by
  have hstrip : strip key = '[' :: rstrip k := by
    rw [strip, hk, rstrip_cons (by decide)]
  have hleft : '=' ∉ k := fun h =>
    hkey (mem_of_mem_lstrip (by rw [hk]; exact List.mem_cons_of_mem _ h))
  have hright : '=' ∉ rstrip k ++ [' '] := by
    intro hin
    rcases List.mem_append.mp hin with hin | hin
    · exact hleft (mem_of_mem_rstrip hin)
    · exact absurd hin (by decide)
  rw [hstrip, hk, lstrip_append x (by decide), List.cons_append, List.cons.injEq,
    ← List.cons_append, List.append_cancel_right_eq]
  constructor
  · intro h
    obtain ⟨hbefore, hafter⟩ := equals_inj hleft hright h
    exact ⟨⟨rfl, hbefore⟩, hafter⟩
  · rintro ⟨⟨-, hbefore⟩, hafter⟩
    rw [← hbefore, ← hafter]

end Rewritten

/-! ## Sensitive texts -/

section Sensitive

theorem words_plain : ∀ w ∈ SENSITIVE_CONFIG_KEYS,
    w ≠ [] ∧ ∀ c ∈ w, isSpace c = false ∧ c ≠ '[' := by
  have hall : ∀ w ∈ SENSITIVE_CONFIG_KEYS,
      w ≠ [] ∧ w.all (fun c => decide (isSpace c = false ∧ c ≠ '[')) = true := by decide
  exact fun w hw => ⟨(hall w hw).1, CheckedLists.forall_of_all (hall w hw).2⟩

theorem sensitive_of_infix {a b : Line} (h : a <:+: b) (ha : sensitive a = true) :
    sensitive b = true := by
  rw [sensitive, List.any_eq_true] at ha ⊢
  obtain ⟨w, hw, hin⟩ := ha
  exact ⟨w, hw, decide_eq_true ((of_decide_eq_true hin).trans (h.map folded))⟩

/-- A character of none of the words. -/
def Foreign (c : Char) : Prop := ∀ w ∈ SENSITIVE_CONFIG_KEYS, folded c ∉ w

theorem foreign_of_space {c : Char} (h : isSpace c = true) : Foreign c := by
  have hfolded : folded c = c := by
    have hcases : 9 ≤ c.toNat ∧ c.toNat ≤ 13 ∨ 28 ≤ c.toNat ∧ c.toNat ≤ 32 ∨
        0x2000 ≤ c.toNat ∧ c.toNat ≤ 0x200A ∨ c.toNat = 0x85 ∨ c.toNat = 0xA0 ∨
        c.toNat = 0x1680 ∨ c.toNat = 0x2028 ∨ c.toNat = 0x2029 ∨ c.toNat = 0x202F ∨
        c.toNat = 0x205F ∨ c.toNat = 0x3000 := by
      simp only [isSpace, Bool.or_eq_true, decide_eq_true_eq, List.contains_iff_mem,
        List.mem_cons, List.not_mem_nil, or_false] at h
      omega
    have hA : 'A'.toNat = 65 := rfl
    have hZ : 'Z'.toNat = 90 := rfl
    rw [folded, if_neg (by omega), if_neg (by omega), if_neg (by omega), if_neg (by omega)]
  intro w hw hin
  rw [hfolded] at hin
  exact absurd h (by rw [((words_plain w hw).2 c hin).1]; decide)

theorem foreign_bracket : Foreign '[' := fun w hw hin => ((words_plain w hw).2 '[' hin).2 rfl

theorem sensitive_cons {c : Char} (hc : Foreign c) (cs : Line) :
    sensitive (c :: cs) = sensitive cs := by
  refine Bool.eq_iff_iff.mpr ⟨fun h => ?_, sensitive_of_infix (List.suffix_cons c cs).isInfix⟩
  rw [sensitive, List.any_eq_true] at h ⊢
  obtain ⟨w, hw, hin⟩ := h
  refine ⟨w, hw, decide_eq_true ?_⟩
  rcases List.infix_cons_iff.mp (of_decide_eq_true hin) with hpre | hin
  · obtain ⟨d, ds, rfl⟩ := List.exists_cons_of_ne_nil (words_plain w hw).1
    obtain ⟨rfl, -⟩ := List.cons_prefix_cons.mp hpre
    exact absurd List.mem_cons_self (hc _ hw)
  · exact hin

theorem sensitive_concat {c : Char} (hc : Foreign c) (cs : Line) :
    sensitive (cs ++ [c]) = sensitive cs := by
  refine Bool.eq_iff_iff.mpr ⟨fun h => ?_, sensitive_of_infix (List.prefix_append cs [c]).isInfix⟩
  rw [sensitive, List.any_eq_true] at h ⊢
  obtain ⟨w, hw, hin⟩ := h
  refine ⟨w, hw, decide_eq_true ?_⟩
  have hin := of_decide_eq_true hin
  rw [List.map_append, List.map_singleton] at hin
  rcases List.infix_concat_iff.mp hin with hsuf | hin
  · rcases List.suffix_concat_iff.mp hsuf with hnil | ⟨init, rfl, -⟩
    · exact absurd hnil (words_plain w hw).1
    · exact absurd (List.mem_append_right init List.mem_cons_self) (hc _ hw)
  · exact hin

theorem sensitive_lstrip (cs : Line) : sensitive (lstrip cs) = sensitive cs := by
  induction cs with
  | nil => rfl
  | cons c cs ih =>
    cases hc : isSpace c with
    | true => rw [lstrip_cons_space hc, ih, sensitive_cons (foreign_of_space hc)]
    | false => rw [lstrip_cons hc]

end Sensitive

end ConfigSnapshot
