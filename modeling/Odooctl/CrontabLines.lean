import Mathlib.Data.List.Count
import Mathlib.Data.List.TakeWhile
import Mathlib.Data.Nat.Notation

/-!
# The lines of a crontab

How cron reads one line: fields separated by blanks, the schedule first, in a system crontab the
user next, and then the command, up to its first `%` without a backslash. Which schedules
it accepts is left open.
-/
namespace CrontabLines

def isBlank (c : Char) : Bool := c == ' ' || c == '\t'

def skip (cs : List Char) : List Char := cs.dropWhile isBlank

def words : List Char → List (List Char)
  | [] => []
  | c :: cs =>
    if isBlank c then words cs
    else if cs.head?.all isBlank then [c] :: words cs
    else (c :: (words cs).headD []) :: (words cs).tail

/-- As many fields as are asked for, and what follows them. -/
def fields : ℕ → List Char → Option (List (List Char) × List Char)
  | 0, cs => some ([], cs)
  | n + 1, cs =>
    if skip cs = [] then none
    else do
      let (found, rest) ← fields n ((skip cs).dropWhile fun c => !isBlank c)
      return ((skip cs).takeWhile (fun c => !isBlank c) :: found, rest)

/-- `NAME = value`. -/
def isSetting (line : List Char) : Bool :=
  (skip (line.dropWhile fun c => !isBlank c && c != '=')).head? == some '='

structure Entry where
  schedule : List (List Char)
  user : Option (List Char)
  command : List Char
  deriving DecidableEq, Repr

/-- A nickname such as `@daily` is a schedule of one field. -/
def scheduleLength (line : List Char) : ℕ := if (skip line).head? = some '@' then 1 else 5

variable (accepts : List (List Char) → Bool)

def readEntry (system : Bool) (line : List Char) : Option Entry :=
  if (skip line).head? = some '#' ∨ isSetting (skip line) = true then none
  else do
    let (schedule, rest) ← fields (scheduleLength line) line
    if accepts schedule = false then none
    else if system then do
      let (user, rest) ← fields 1 rest
      return ⟨schedule, user.head?, skip rest⟩
    else return ⟨schedule, none, skip rest⟩

/-- A text of several lines is no line. -/
def oneLine (text : List Char) : Option (List Char) :=
  if text.getLast? = some '\n' ∧ '\n' ∉ text.dropLast then some text.dropLast else none

/-- The command, without the backslash before a `%`. What follows the first other `%` is its
standard input. -/
def command : List Char → List Char
  | [] => []
  | '\\' :: '%' :: cs => '%' :: command cs
  | '%' :: _ => []
  | c :: cs => c :: command cs

/-! ## Fields -/

section Fields

variable {cs rest text w : List Char} {ws : List (List Char)} {n : ℕ}

theorem skip_of_head (h : ∀ c, cs.head? = some c → isBlank c = false) : skip cs = cs := by
  cases cs with
  | nil => rfl
  | cons c cs => simp [skip, h c rfl]

theorem skip_blanks (h : ∀ c ∈ cs, isBlank c = true) : skip (cs ++ rest) = skip rest :=
  List.dropWhile_append_of_pos h

theorem skip_append (h : skip cs ≠ []) : skip (cs ++ rest) = skip cs ++ rest := by
  induction cs with
  | nil => exact absurd rfl h
  | cons c cs ih =>
    by_cases hc : isBlank c = true
    · simp only [skip, List.cons_append, List.dropWhile_cons, hc, if_true] at h ⊢
      exact ih h
    · simp [skip, hc]

/-- A blank, and a text that begins with none. -/
theorem skip_next {c : Char} (h : isBlank c = false) : skip (' ' :: c :: cs) = c :: cs := by
  have hrest : skip (c :: cs) = c :: cs := by
    apply skip_of_head
    intro d hd
    cases hd
    exact h
  exact hrest

theorem words_cons_of_blank {c : Char} (h : isBlank c = true) : words (c :: cs) = words cs := by
  rw [words, if_pos h]

/-- The first word of a text and what follows it. -/
theorem words_eq_cons (h : words cs = w :: ws) : ∃ blanks rest, cs = blanks ++ (w ++ rest) ∧
    (∀ c ∈ blanks, isBlank c = true) ∧ w ≠ [] ∧ (∀ c ∈ w, isBlank c = false) ∧
    rest.head?.all isBlank = true ∧ words rest = ws := by
  induction cs generalizing w ws with
  | nil => cases h
  | cons c cs ih =>
    by_cases hc : isBlank c = true
    · rw [words_cons_of_blank hc] at h
      obtain ⟨blanks, rest, rfl, hblanks, hfound⟩ := ih h
      exact ⟨c :: blanks, rest, rfl, List.forall_mem_cons.mpr ⟨hc, hblanks⟩, hfound⟩
    · rw [words, if_neg hc] at h
      have hword : isBlank c = false := by simpa using hc
      split at h
      · next hend =>
        cases h
        exact ⟨[], cs, rfl, by simp, by simp, by simpa using hword, hend, rfl⟩
      · next hmore =>
        obtain ⟨rfl, rfl⟩ := List.cons.inj h
        cases cs with
        | nil => simp at hmore
        | cons d ds =>
          have hd : isBlank d = false := by simpa using hmore
          have hne : words (d :: ds) ≠ [] := by
            rw [words, hd]
            simp only [Bool.false_eq_true, if_false]
            split <;> exact List.cons_ne_nil _ _
          obtain ⟨w', ws', hwords⟩ := List.exists_cons_of_ne_nil hne
          obtain ⟨blanks, rest, hcs, hblanks, hne', hnone, hend, hrest⟩ := ih hwords
          have hnil : blanks = [] := by
            cases blanks with
            | nil => rfl
            | cons b blanks =>
              obtain ⟨rfl, -⟩ := List.cons.inj hcs
              rw [hblanks _ List.mem_cons_self] at hd
              cases hd
          subst hnil
          rw [hwords]
          refine ⟨[], rest, ?_, by simp, by simp, ?_, hend, hrest⟩
          · simp [hcs]
          · exact List.forall_mem_cons.mpr ⟨hword, hnone⟩

theorem skip_of_words_nil (h : words cs = []) : ∀ c ∈ cs, isBlank c = true := by
  induction cs with
  | nil => simp
  | cons c cs ih =>
    by_cases hc : isBlank c = true
    · rw [words_cons_of_blank hc] at h
      exact List.forall_mem_cons.mpr ⟨hc, ih h⟩
    · rw [words, if_neg hc] at h
      split at h <;> cases h

theorem skip_word (hw : w ≠ []) (h : ∀ c ∈ w, isBlank c = false) :
    skip (w ++ rest) = w ++ rest := by
  obtain ⟨c, w, rfl⟩ := List.exists_cons_of_ne_nil hw
  exact skip_of_head fun d hd => h d (by
    rw [List.cons_append, List.head?_cons, Option.some_inj] at hd
    exact hd ▸ List.mem_cons_self)

/-- A field is a word up to the next blank. -/
theorem span_word (h : ∀ c ∈ w, isBlank c = false) (hrest : rest.head?.all isBlank = true) :
    (w ++ rest).takeWhile (fun c => !isBlank c) = w ∧
      (w ++ rest).dropWhile (fun c => !isBlank c) = rest := by
  have hword : ∀ c ∈ w, (!isBlank c) = true := by
    intro c hc
    rw [h c hc]
    rfl
  rw [List.takeWhile_append_of_pos hword, List.dropWhile_append_of_pos hword]
  cases rest with
  | nil => simp
  | cons c rest =>
    have hc : isBlank c = true := by simpa using hrest
    simp [hc]

theorem fields_skip (n : ℕ) (h : skip cs = skip rest) :
    fields (n + 1) cs = fields (n + 1) rest := by
  rw [fields, fields, h]

/-- All the words of a text are read as fields, before a blank and more text. -/
theorem fields_words (text rest : List Char) : ∃ left,
    fields (words text).length (text ++ ' ' :: rest) = some (words text, left) ∧
      skip left = skip rest := by
  generalize hws : words text = ws
  induction ws generalizing text with
  | nil =>
    refine ⟨text ++ ' ' :: rest, rfl, ?_⟩
    rw [skip_blanks (skip_of_words_nil hws)]
    rfl
  | cons w ws ih =>
    obtain ⟨blanks, more, rfl, hblanks, hne, hword, hend, hmore⟩ := words_eq_cons hws
    obtain ⟨left, hleft, hskip⟩ := ih more hmore
    have hhead : (more ++ ' ' :: rest).head?.all isBlank = true := by
      cases more with
      | nil => rfl
      | cons c more => exact hend
    obtain ⟨htake, hdrop⟩ := span_word hword hhead
    have htext : skip (blanks ++ (w ++ more) ++ ' ' :: rest) = w ++ (more ++ ' ' :: rest) := by
      rw [List.append_assoc, List.append_assoc, skip_blanks hblanks, skip_word hne hword]
    refine ⟨left, ?_, hskip⟩
    have hnil : w ++ (more ++ ' ' :: rest) ≠ [] := by simp
    rw [List.length_cons, fields, htext, if_neg hnil, htake, hdrop, hleft]
    rfl

theorem fields_length {found : List (List Char)} (h : fields n cs = some (found, rest)) :
    found.length = n := by
  induction n generalizing cs found with
  | zero =>
    cases h
    rfl
  | succ n ih =>
    rw [fields] at h
    split at h
    · cases h
    · cases hmore : fields n ((skip cs).dropWhile fun c => !isBlank c) with
      | none => simp [hmore] at h
      | some more =>
        obtain ⟨found', rest'⟩ := more
        simp only [hmore] at h
        cases h
        rw [List.length_cons, ih hmore]

end Fields

/-! ## A line made of its parts -/

section Lines

variable {accepts} {line cmd user : List Char} {c : Char} {cs : List Char} {entry : Entry}

/-- Cron takes the text as a schedule; `tail` follows it on the line. -/
structure Timed (accepts : List (List Char) → Bool) (text tail : List Char) : Prop where
  comment : (skip text).head? ≠ some '#'
  setting : isSetting (skip (text ++ tail)) = false
  length : (words text).length = scheduleLength text
  accepted : accepts (words text) = true

theorem skip_ne_nil_of_words {text : List Char} (h : words text ≠ []) : skip text ≠ [] := by
  intro hskip
  apply h
  generalize hws : words text = ws
  cases ws with
  | nil => rfl
  | cons w ws =>
    obtain ⟨blanks, rest, rfl, hblanks, hne, hword, -⟩ := words_eq_cons hws
    rw [skip_blanks hblanks, skip_word hne hword] at hskip
    exact absurd (List.append_eq_nil_iff.mp hskip).1 hne

/-- What follows a blank does not turn a line into a setting. -/
theorem isSetting_append (hc : isBlank c = false) (heq : c ≠ '=') :
    isSetting (line ++ ' ' :: c :: cs) = isSetting line := by
  unfold isSetting
  have hskip : skip (' ' :: c :: cs) = c :: cs := skip_next hc
  have hother : ((c :: cs).head? == some '=') = false := by simpa using heq
  rw [List.dropWhile_append]
  split
  · next hall =>
    have hnil : line.dropWhile (fun c => !isBlank c && c != '=') = [] := by simpa using hall
    have hstop : (' ' :: c :: cs).dropWhile (fun c => !isBlank c && c != '=') = ' ' :: c :: cs := by
      rfl
    rw [hnil, hstop, hskip, hother]
    rfl
  · by_cases hblanks : skip (line.dropWhile fun c => !isBlank c && c != '=') = []
    · have hmore : ∀ d ∈ line.dropWhile (fun c => !isBlank c && c != '='), isBlank d = true :=
        List.dropWhile_eq_nil_iff.mp hblanks
      rw [skip_blanks hmore, hskip, hother, hblanks]
      rfl
    · rw [skip_append hblanks]
      obtain ⟨d, ds, hd⟩ := List.exists_cons_of_ne_nil hblanks
      rw [hd]
      rfl

theorem scheduleLength_append {text tail : List Char} (h : words text ≠ []) :
    scheduleLength (text ++ tail) = scheduleLength text := by
  obtain ⟨c, cs, hskip⟩ := List.exists_cons_of_ne_nil (skip_ne_nil_of_words h)
  unfold scheduleLength
  rw [skip_append (skip_ne_nil_of_words h), hskip]
  rfl

theorem words_ne_nil_of_timed {text tail : List Char} (h : Timed accepts text tail) :
    words text ≠ [] := by
  intro hnil
  have hlength := h.length
  rw [hnil, scheduleLength] at hlength
  split at hlength <;> cases hlength

/-- A schedule, and the command after it. -/
theorem readEntry_timed {text : List Char} (h : Timed accepts text [])
    (hc : isBlank c = false) (heq : c ≠ '=') :
    readEntry accepts false (text ++ ' ' :: c :: cs) = some ⟨words text, none, c :: cs⟩ := by
  have hne := words_ne_nil_of_timed h
  obtain ⟨left, hleft, hskip⟩ := fields_words text (c :: cs)
  have hcommand : skip left = c :: cs := hskip.trans (skip_next hc)
  have hsetting := h.setting
  rw [List.append_nil] at hsetting
  obtain ⟨d, ds, hd⟩ := List.exists_cons_of_ne_nil (skip_ne_nil_of_words hne)
  have hcomment : (skip (text ++ ' ' :: c :: cs)).head? ≠ some '#' := by
    have hold := h.comment
    rw [skip_append (skip_ne_nil_of_words hne), hd]
    rw [hd] at hold
    exact hold
  have hplain : isSetting (skip (text ++ ' ' :: c :: cs)) = false := by
    rw [skip_append (skip_ne_nil_of_words hne), isSetting_append hc heq]
    exact hsetting
  simp [readEntry, hcomment, hplain, scheduleLength_append hne, ← h.length, hleft, h.accepted,
    hcommand]

/-- A schedule, the user and the command. -/
theorem readEntry_user {text : List Char} (h : Timed accepts text (' ' :: user))
    (hne : user ≠ []) (huser : ∀ d ∈ user, isBlank d = false) (hc : isBlank c = false)
    (heq : c ≠ '=') : readEntry accepts true (text ++ ' ' :: (user ++ ' ' :: c :: cs)) =
      some ⟨words text, some user, c :: cs⟩ := by
  have hwords := words_ne_nil_of_timed h
  obtain ⟨left, hleft, hskip⟩ := fields_words text (user ++ ' ' :: c :: cs)
  have hspan : _ = user ∧ _ = ' ' :: c :: cs := span_word huser rfl
  obtain ⟨htake, hdrop⟩ := hspan
  have hfields : fields 1 left = some ([user], ' ' :: c :: cs) := by
    have hnil : user ++ ' ' :: c :: cs ≠ [] := by simp
    rw [fields_skip 0 hskip, fields, skip_word hne huser, if_neg hnil, htake, hdrop]
    rfl
  have hcommand : skip (' ' :: c :: cs) = c :: cs := skip_next hc
  obtain ⟨d, ds, hd⟩ := List.exists_cons_of_ne_nil (skip_ne_nil_of_words hwords)
  have hcomment : (skip (text ++ ' ' :: (user ++ ' ' :: c :: cs))).head? ≠ some '#' := by
    have hold := h.comment
    rw [skip_append (skip_ne_nil_of_words hwords), hd]
    rw [hd] at hold
    exact hold
  have hplain : isSetting (skip (text ++ ' ' :: (user ++ ' ' :: c :: cs))) = false := by
    have hline : text ++ ' ' :: (user ++ ' ' :: c :: cs) =
        text ++ ' ' :: user ++ ' ' :: c :: cs := by simp
    have hsetting := h.setting
    rw [skip_append (skip_ne_nil_of_words hwords)] at hsetting
    rw [hline, List.append_assoc, skip_append (skip_ne_nil_of_words hwords), ← List.append_assoc,
      isSetting_append hc heq]
    exact hsetting
  simp [readEntry, hcomment, hplain, scheduleLength_append hwords, ← h.length, hleft, h.accepted,
    hfields, hcommand]

/-- What the entry of a line says of the line. -/
theorem readEntry_eq_some {system : Bool} (h : readEntry accepts system line = some entry) :
    (skip line).head? ≠ some '#' ∧ isSetting (skip line) = false ∧
      accepts entry.schedule = true ∧ ∃ rest,
        fields (scheduleLength line) line = some (entry.schedule, rest) ∧
        (system = true → ∃ found left, fields 1 rest = some (found, left) ∧
          entry.user = found.head?) := by
  unfold readEntry at h
  split at h
  · cases h
  next hentry =>
  rw [not_or, Bool.not_eq_true] at hentry
  cases hfields : fields (scheduleLength line) line with
  | none => simp [hfields] at h
  | some found =>
    obtain ⟨schedule, rest⟩ := found
    simp only [hfields, Option.bind_eq_bind, Option.bind_some] at h
    split at h
    · cases h
    next haccepts =>
    rw [Bool.not_eq_false] at haccepts
    cases system with
    | false =>
      cases h
      exact ⟨hentry.1, hentry.2, haccepts, rest, rfl, fun hno => by cases hno⟩
    | true =>
      cases huser : fields 1 rest with
      | none => simp [huser] at h
      | some more =>
        obtain ⟨user, left⟩ := more
        simp only [huser, Option.bind_some, if_true] at h
        cases h
        exact ⟨hentry.1, hentry.2, haccepts, rest, rfl, fun _ => ⟨user, left, huser, rfl⟩⟩

theorem timed_of_entry {system : Bool} {text tail : List Char} (hc : isBlank c = false)
    (heq : c ≠ '=') (h : readEntry accepts system (text ++ (tail ++ ' ' :: c :: cs)) = some entry)
    (hschedule : entry.schedule = words text) : Timed accepts text tail := by
  obtain ⟨hcomment, hsetting, haccepts, rest, hfields, -⟩ := readEntry_eq_some h
  rw [hschedule] at haccepts hfields
  have hlength := fields_length hfields
  have hne : words text ≠ [] := by
    intro hnil
    rw [hnil, scheduleLength] at hlength
    split at hlength <;> cases hlength
  rw [scheduleLength_append hne] at hlength
  obtain ⟨d, ds, hd⟩ := List.exists_cons_of_ne_nil (skip_ne_nil_of_words hne)
  rw [skip_append (skip_ne_nil_of_words hne)] at hcomment hsetting
  constructor
  · rw [hd] at hcomment ⊢
    exact hcomment
  · rw [← List.append_assoc, isSetting_append hc heq] at hsetting
    rw [skip_append (skip_ne_nil_of_words hne)]
    exact hsetting
  · exact hlength
  · exact haccepts

/-- The user that is read has no blank. -/
theorem user_of_entry (h : readEntry accepts true line = some entry)
    (huser : entry.user = some user) : ∀ d ∈ user, isBlank d = false := by
  obtain ⟨-, -, -, rest, -, hread⟩ := readEntry_eq_some h
  obtain ⟨found, left, hfound, hhead⟩ := hread rfl
  rw [fields] at hfound
  split at hfound
  · cases hfound
  cases hfound
  rw [huser] at hhead
  cases hhead
  intro d hd
  have hword := List.mem_takeWhile_imp hd
  simpa using hword

theorem oneLine_iff {text : List Char} :
    oneLine (text ++ ['\n']) = some line ↔ line = text ∧ '\n' ∉ text := by
  unfold oneLine
  simp only [List.getLast?_append, List.getLast?_singleton, Option.some_or, List.dropLast_concat,
    true_and]
  constructor
  · intro h
    split at h
    · next hone =>
      cases h
      exact ⟨rfl, hone⟩
    · cases h
  · intro h
    obtain ⟨rfl, hone⟩ := h
    rw [if_pos hone]

/-! ## The command -/

theorem command_of_plain (h : '%' ∉ cs) : command cs = cs := by
  fun_induction command cs with
  | case1 => rfl
  | case2 cs ih => simp at h
  | case3 cs => simp at h
  | case4 c cs _ _ ih =>
    rw [ih fun hcs => h (List.mem_cons_of_mem c hcs)]

theorem command_count_le (x : Char) : (command cs).count x ≤ cs.count x := by
  fun_induction command cs with
  | case1 => rfl
  | case2 cs ih =>
    simp only [List.count_cons]
    omega
  | case3 cs => simp
  | case4 c cs _ _ ih =>
    simp only [List.count_cons]
    omega

/-- A `%` takes itself or its backslash from the command. -/
theorem command_loses (h : '%' ∈ cs) :
    (command cs).count '%' < cs.count '%' ∨ (command cs).count '\\' < cs.count '\\' := by
  fun_induction command cs with
  | case1 => cases h
  | case2 cs ih =>
    have hle : (command cs).count '\\' ≤ cs.count '\\' := command_count_le _
    right
    simp only [List.count_cons]
    simp
    omega
  | case3 cs =>
    left
    simp
  | case4 c cs _ hplain ih =>
    have hc : c ≠ '%' := by
      rintro rfl
      exact hplain rfl
    have hmore : '%' ∈ cs := by
      rcases List.mem_cons.mp h with hhead | hmore
      · exact absurd hhead.symm hc
      · exact hmore
    rcases ih hmore with hpercent | hbackslash
    · left
      simp only [List.count_cons]
      omega
    · right
      simp only [List.count_cons]
      omega

end Lines

end CrontabLines
