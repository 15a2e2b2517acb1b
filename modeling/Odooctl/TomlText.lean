import Mathlib.Data.List.Nodup
import Odooctl.CheckedLists
import Odooctl.PythonJson

/-!
# TOML texts

The part of TOML 1.0 in which a value is a basic string or an inline table of such strings: bare
and quoted keys, headers of one key, and no comments. A text with anything else is not read. The
newlines are those of a file that is opened as a text.
-/
namespace TomlText

open PythonJson

/-! ## Lines -/

/-- `\r\n` and `\r` are read as `\n`; the flag says that a `\r` comes right before. -/
def newlines : Bool → List Char → List Char
  | _, [] => []
  | afterReturn, c :: cs =>
    if c = '\n' ∧ afterReturn then newlines false cs
    else if c = '\r' then '\n' :: newlines true cs
    else c :: newlines false cs

def lines : List Char → List (List Char)
  | [] => [[]]
  | c :: cs =>
    if c = '\n' then [] :: lines cs else (c :: (lines cs).headD []) :: (lines cs).tail

def isNewline (c : Char) : Bool := c = '\n' || c = '\r'

def firstLine (cs : List Char) : List Char := cs.takeWhile fun c => !isNewline c

/-! ## Strings -/

/-- The control characters that a basic string cannot hold. -/
def isIllegal (c : Char) : Bool := c.toNat < 32 && c ≠ '\t' || c.toNat = 127

def simpleEscape (c : Char) : Option Char :=
  if c = 'b' then some '\x08'
  else if c = 't' then some '\t'
  else if c = 'n' then some '\n'
  else if c = 'f' then some '\x0c'
  else if c = 'r' then some '\r'
  else if c = '"' then some '"'
  else if c = '\\' then some '\\'
  else none

inductive Mode where
  | plain
  | escape
  | hex (left code : ℕ)

def hexValue (c : Char) : Option ℕ :=
  if '0' ≤ c ∧ c ≤ '9' then some (c.toNat - 48)
  else if 'a' ≤ c ∧ c ≤ 'f' then some (c.toNat - 87)
  else if 'A' ≤ c ∧ c ≤ 'F' then some (c.toNat - 55)
  else none

/-- What follows the opening quote: the characters of the string, and the rest. -/
def chars : Mode → List Char → Option (List Char × List Char)
  | _, [] => none
  | .plain, c :: cs =>
    if c = '"' then some ([], cs)
    else if c = '\\' then chars .escape cs
    else if isIllegal c then none
    else (chars .plain cs).map fun r => (c :: r.1, r.2)
  | .escape, c :: cs =>
    if c = 'u' then chars (.hex 4 0) cs
    else if c = 'U' then chars (.hex 8 0) cs
    else (simpleEscape c).bind fun d => (chars .plain cs).map fun r => (d :: r.1, r.2)
  | .hex left code, c :: cs =>
    (hexValue c).bind fun d =>
      if 1 < left then chars (.hex (left - 1) (16 * code + d)) cs
      else if (16 * code + d).isValidChar then
        (chars .plain cs).map fun r => (Char.ofNat (16 * code + d) :: r.1, r.2)
      else none

def value : List Char → Option (String × List Char)
  | '"' :: cs => (chars .plain cs).map fun r => (String.ofList r.1, r.2)
  | _ => none

/-! ## Keys and tables -/

def skip (cs : List Char) : List Char := cs.dropWhile fun c => c = ' ' || c = '\t'

def isBare (c : Char) : Bool := c.isAlphanum || c = '_' || c = '-'

def key (cs : List Char) : Option (String × List Char) :=
  if cs.head? = some '"' then value cs
  else if cs.takeWhile isBare = [] then none
  else some (String.ofList (cs.takeWhile isBare), cs.dropWhile isBare)

/-- What follows a character that must come next, blanks apart. -/
def after (c : Char) (cs : List Char) : Option (List Char) :=
  match skip cs with
  | d :: cs => if d = c then some (skip cs) else none
  | [] => none

def member (cs : List Char) : Option ((String × Json) × List Char) := do
  let (k, cs) ← key cs
  let (v, cs) ← value (← after '=' cs)
  return ((k, .str v), cs)

/-- The members of an inline table that is not empty; the bound is the length of the text. -/
def members : ℕ → List Char → Option (Items × List Char)
  | 0, _ => none
  | n + 1, cs => do
    let (m, cs) ← member cs
    match after ',' cs with
    | some cs => (members n cs).map fun r => (m :: r.1, r.2)
    | none => (after '}' cs).map fun cs => ([m], cs)

/-- What follows the opening brace. -/
def table (cs : List Char) : Option (Json × List Char) :=
  match after '}' cs with
  | some cs => some (.dict [], cs)
  | none => do
    let (items, cs) ← members cs.length (skip cs)
    if (items.map Prod.fst).Nodup then some (.dict items, cs) else none

def item : List Char → Option (Json × List Char)
  | '{' :: cs => table cs
  | cs => (value cs).map fun r => (.str r.1, r.2)

/-! ## Documents -/

inductive Line where
  | blank
  | header (name : String)
  | pair (key : String) (item : Json)

def header (cs : List Char) : Option Line := do
  let (k, cs) ← key (skip cs)
  let cs ← after ']' cs
  if cs = [] then some (.header k) else none

def pair (cs : List Char) : Option Line := do
  let (k, cs) ← key cs
  let (v, cs) ← item (← after '=' cs)
  if skip cs = [] then some (.pair k v) else none

def line (cs : List Char) : Option Line :=
  match skip cs with
  | [] => some .blank
  | c :: cs => if c = '[' then header cs else pair (c :: cs)

/-- The finished items, and the table that is open. -/
def flush (done : Items) : Option (String × Items) → Items
  | none => done
  | some (name, items) => done ++ [(name, .dict items)]

def assemble (done : Items) : Option (String × Items) → List Line → Option Items
  | current, [] => some (flush done current)
  | current, .blank :: ls => assemble done current ls
  | current, .header name :: ls =>
    if name ∈ (flush done current).map Prod.fst then none
    else assemble (flush done current) (some (name, [])) ls
  | none, .pair k v :: ls =>
    if k ∈ done.map Prod.fst then none else assemble (done ++ [(k, v)]) none ls
  | some (name, items), .pair k v :: ls =>
    if k ∈ items.map Prod.fst then none else assemble done (some (name, items ++ [(k, v)])) ls

/-- `tomllib.loads(path.read_text())`; `None` where it raises. -/
def loads (text : List Char) : Option Items :=
  ((lines (newlines false text)).mapM line).bind (assemble [] none)

/-! ## Writing strings -/

def escapeChar (c : Char) : List Char :=
  if c = '\\' then ['\\', '\\'] else if c = '"' then ['\\', '"'] else [c]

/-- A basic string without other escapes than those of the backslash and the quote. -/
def quote (v : String) : List Char := '"' :: (v.toList.flatMap escapeChar ++ ['"'])

/-- Whether every character may stand in a basic string. -/
def readable (v : String) : Bool := v.toList.all fun c => !isIllegal c

section Strings

variable {l rest : List Char} {c : Char} {v : String}

theorem firstLine_append (h : ∀ c ∈ l, isNewline c = false) :
    firstLine (l ++ rest) = l ++ firstLine rest :=
  List.takeWhile_append_of_pos fun c hc => by rw [h c hc]; rfl

theorem illegal_of_newline (h : isNewline c = true) : isIllegal c = true := by
  rw [isNewline, Bool.or_eq_true, decide_eq_true_eq, decide_eq_true_eq] at h
  rcases h with rfl | rfl <;> rfl

theorem not_newline (h : isIllegal c = false) : isNewline c = false := by
  cases hc : isNewline c with
  | false => rfl
  | true => rw [illegal_of_newline hc] at h; cases h

theorem escape_not_newline (h : isIllegal c = false) : ∀ d ∈ escapeChar c, isNewline d = false := by
  rw [escapeChar]
  split
  · exact CheckedLists.forall_of_all (by decide)
  · split
    · exact CheckedLists.forall_of_all (by decide)
    · intro d hd
      rw [List.mem_singleton.mp hd]
      exact not_newline h

theorem chars_escape (c : Char) (h : isIllegal c = false) (cs : List Char) :
    chars .plain (escapeChar c ++ cs) = (chars .plain cs).map fun r => (c :: r.1, r.2) := by
  rw [escapeChar]
  split
  · next heq =>
    subst heq
    rfl
  · next hback =>
    split
    · next heq =>
      subst heq
      rfl
    · next hquote =>
      rw [List.singleton_append, chars, if_neg hquote, if_neg hback, h, if_neg Bool.false_ne_true]

/-- A string is read as it was written, or its line is cut or refused where it is not readable. -/
theorem chars_firstLine (l rest : List Char) :
    chars .plain (firstLine (l.flatMap escapeChar ++ '"' :: rest)) =
      if l.all fun c => !isIllegal c then some (l, firstLine rest) else none := by
  induction l with
  | nil => rfl
  | cons c l ih =>
    rw [List.flatMap_cons, List.append_assoc, List.all_cons]
    cases hc : isIllegal c with
    | false =>
      rw [firstLine_append (escape_not_newline hc), chars_escape c hc, ih]
      cases l.all fun c => !isIllegal c <;> rfl
    | true =>
      have hback : c ≠ '\\' := by
        rintro rfl
        cases hc
      have hquote : c ≠ '"' := by
        rintro rfl
        cases hc
      rw [escapeChar, if_neg hback, if_neg hquote, List.singleton_append, firstLine,
        List.takeWhile_cons]
      cases isNewline c with
      | true => rfl
      | false =>
        simp only [Bool.not_false, if_true]
        rw [chars, if_neg hquote, if_neg hback, hc]
        rfl

/-- A written value, in the line that it begins. -/
theorem value_firstLine (v : String) (rest : List Char) :
    value (firstLine (quote v ++ rest)) =
      if readable v then some (v, firstLine rest) else none := by
  have hquote : firstLine (quote v ++ rest) =
      '"' :: firstLine (v.toList.flatMap escapeChar ++ '"' :: rest) := by
    rw [quote, List.cons_append, List.append_assoc]
    rfl
  rw [hquote, value, chars_firstLine, readable]
  split
  · simp
  · rfl

theorem key_firstLine (v : String) (rest : List Char) :
    key (firstLine (quote v ++ rest)) = if readable v then some (v, firstLine rest) else none := by
  have hhead : (firstLine (quote v ++ rest)).head? = some '"' := rfl
  rw [key, if_pos hhead, value_firstLine]

theorem quote_not_newline (h : readable v = true) : ∀ c ∈ quote v, isNewline c = false := by
  intro c hc
  rcases List.mem_cons.mp hc with rfl | hc
  · rfl
  · rcases List.mem_append.mp hc with hc | hc
    · obtain ⟨d, hd, hc⟩ := List.mem_flatMap.mp hc
      have hlegal := List.all_eq_true.mp h d hd
      exact escape_not_newline (by simpa using hlegal) c hc
    · rw [List.mem_singleton.mp hc]
      rfl

end Strings

/-! ## Lines of a text -/

section Lines

variable {l r : List Char}

theorem lines_cons_newline (cs : List Char) : lines ('\n' :: cs) = [] :: lines cs := rfl

theorem lines_ne_nil (cs : List Char) : lines cs ≠ [] := by
  cases cs with
  | nil => exact List.cons_ne_nil _ _
  | cons c cs =>
    rw [lines]
    split <;> exact List.cons_ne_nil _ _

theorem lines_append (l r : List Char) : lines (l ++ '\n' :: r) = lines l ++ lines r := by
  induction l with
  | nil => rfl
  | cons c l ih =>
    rw [List.cons_append, lines, lines, ih]
    split
    · rfl
    · obtain ⟨first, rest, heq⟩ := List.exists_cons_of_ne_nil (lines_ne_nil l)
      rw [heq]
      rfl

theorem newlines_append_of {afterReturn : Bool} (hnil : l = [] → afterReturn = false)
    (h : l.getLast? ≠ some '\r') :
    newlines afterReturn (l ++ '\n' :: r) =
      newlines afterReturn l ++ '\n' :: newlines false r := by
  induction l generalizing afterReturn with
  | nil =>
    rw [hnil rfl]
    rfl
  | cons c l ih =>
    have hlast : l.getLast? ≠ some '\r' := by
      intro hl
      rw [List.getLast?_cons, hl] at h
      exact h rfl
    rw [List.cons_append, newlines, newlines]
    split
    · exact ih (fun _ => rfl) hlast
    · split
      · next hreturn =>
        rw [ih ?_ hlast, List.cons_append]
        rintro rfl
        rw [hreturn] at h
        exact absurd rfl h
      · rw [ih (fun _ => rfl) hlast, List.cons_append]

theorem newlines_append (h : l.getLast? ≠ some '\r') :
    newlines false (l ++ '\n' :: r) = newlines false l ++ '\n' :: newlines false r :=
  newlines_append_of (fun _ => rfl) h

/-- A text whose line does not end in a carriage return begins with the lines of that line. -/
theorem lines_newlines_append (h : l.getLast? ≠ some '\r') :
    lines (newlines false (l ++ '\n' :: r)) =
      lines (newlines false l) ++ lines (newlines false r) := by
  rw [newlines_append h, lines_append]

theorem newlines_cons_newline {c : Char} (h : isNewline c = true) (cs : List Char) :
    ∃ afterReturn, newlines false (c :: cs) = '\n' :: newlines afterReturn cs := by
  rw [isNewline, Bool.or_eq_true, decide_eq_true_eq, decide_eq_true_eq] at h
  rcases h with rfl | rfl
  · exact ⟨false, rfl⟩
  · exact ⟨true, rfl⟩

theorem newlines_cons {c : Char} (h : isNewline c = false) (cs : List Char) :
    newlines false (c :: cs) = c :: newlines false cs := by
  rw [isNewline, Bool.or_eq_false_iff, decide_eq_false_iff_not, decide_eq_false_iff_not] at h
  rw [newlines, if_neg fun heq => h.1 heq.1, if_neg h.2]

theorem lines_cons {c : Char} (h : isNewline c = false) (cs : List Char) :
    lines (c :: cs) = (c :: (lines cs).headD []) :: (lines cs).tail := by
  rw [isNewline, Bool.or_eq_false_iff, decide_eq_false_iff_not] at h
  rw [lines, if_neg h.1]

theorem lines_newlines_head (l : List Char) :
    (lines (newlines false l)).head? = some (firstLine l) := by
  induction l with
  | nil => rfl
  | cons c l ih =>
    rw [firstLine, List.takeWhile_cons]
    cases hc : isNewline c with
    | true =>
      obtain ⟨afterReturn, hnew⟩ := newlines_cons_newline hc l
      rw [hnew, lines_cons_newline]
      rfl
    | false =>
      rw [newlines_cons hc, lines_cons hc, List.headD_eq_head?_getD, ih]
      rfl

theorem lines_newlines_self (h : ∀ c ∈ l, isNewline c = false) :
    lines (newlines false l) = [l] := by
  induction l with
  | nil => rfl
  | cons c l ih =>
    obtain ⟨hc, hl⟩ := List.forall_mem_cons.mp h
    rw [newlines_cons hc, lines_cons hc, ih hl]
    rfl

/-! ## Texts of whole lines -/

/-- Every line with its newline. -/
def unlines (ls : List (List Char)) : List Char := ls.flatMap fun l => l ++ ['\n']

variable {ls : List (List Char)}

theorem unlines_cons (l : List Char) (ls : List (List Char)) :
    unlines (l :: ls) = l ++ '\n' :: unlines ls := by
  rw [unlines, List.flatMap_cons, List.append_assoc]
  rfl

/-- A join of lines is the text without its last newline. -/
theorem intercalate_concat (ls : List (List Char)) (l : List Char) :
    ['\n'].intercalate (ls ++ [l]) = unlines ls ++ l := by
  induction ls with
  | nil => exact List.intercalate_singleton
  | cons k ls ih =>
    have hne : ls ++ [l] ≠ [] := List.append_ne_nil_of_right_ne_nil ls (List.cons_ne_nil l [])
    rw [List.cons_append, List.intercalate_cons_of_ne_nil hne, ih, unlines_cons,
      List.append_assoc, List.append_assoc]
    rfl

theorem unlines_concat (ls : List (List Char)) (l : List Char) :
    unlines (ls ++ [l]) = unlines ls ++ l ++ ['\n'] := by
  rw [unlines, List.flatMap_append, List.flatMap_singleton, List.append_assoc]
  rfl

theorem firstLine_self (h : ∀ c ∈ l, isNewline c = false) : firstLine l = l := by
  rw [← List.append_nil l, firstLine_append h]
  rfl

theorem getLast?_ne_return (h : ∀ c ∈ l, isNewline c = false) : l.getLast? ≠ some '\r' := by
  intro hl
  have hc := h _ (List.mem_of_getLast? hl)
  cases hc

theorem lines_unlines (h : ∀ l ∈ ls, ∀ c ∈ l, isNewline c = false) :
    lines (newlines false (unlines ls)) = ls ++ [[]] := by
  induction ls with
  | nil => rfl
  | cons l ls ih =>
    obtain ⟨hl, hls⟩ := List.forall_mem_cons.mp h
    rw [unlines_cons, lines_newlines_append (getLast?_ne_return hl), lines_newlines_self hl, ih hls]
    rfl

theorem firstLine_mem_lines (h : ∀ l ∈ ls, l.getLast? ≠ some '\r') (hl : l ∈ ls) :
    firstLine l ∈ lines (newlines false (unlines ls)) := by
  induction ls with
  | nil => cases hl
  | cons k ls ih =>
    obtain ⟨hk, hls⟩ := List.forall_mem_cons.mp h
    rw [unlines_cons, lines_newlines_append hk, List.mem_append]
    rcases List.mem_cons.mp hl with rfl | hl
    · exact .inl (List.mem_of_head? (lines_newlines_head l))
    · exact .inr (ih hls hl)

theorem exists_of_mapM {α β : Type*} {f : α → Option β} {as : List α} {bs : List β}
    (h : as.mapM f = some bs) {a : α} (ha : a ∈ as) : ∃ b, f a = some b := by
  induction as generalizing bs with
  | nil => cases ha
  | cons a' as ih =>
    rw [List.mapM_cons, Option.bind_eq_bind, Option.bind_eq_some_iff] at h
    obtain ⟨b, hb, h⟩ := h
    rw [Option.bind_eq_bind, Option.bind_eq_some_iff] at h
    obtain ⟨bs', hbs, -⟩ := h
    rcases List.mem_cons.mp ha with rfl | ha
    · exact ⟨b, hb⟩
    · exact ih hbs ha

/-- One line that is not read, of which only the first physical line counts. -/
theorem loads_unlines_none (h : ∀ l ∈ ls, l.getLast? ≠ some '\r') (hl : l ∈ ls)
    (hnone : line (firstLine l) = none) : loads (unlines ls) = none := by
  rw [loads]
  cases hread : (lines (newlines false (unlines ls))).mapM line with
  | none => rfl
  | some bs =>
    obtain ⟨b, hb⟩ := exists_of_mapM hread (firstLine_mem_lines h hl)
    rw [hnone] at hb
    cases hb

theorem loads_unlines {parsed : List Line} (h : ∀ l ∈ ls, ∀ c ∈ l, isNewline c = false)
    (hread : ls.mapM line = some parsed) :
    loads (unlines ls) = assemble [] none (parsed ++ [.blank]) := by
  rw [loads, lines_unlines h, List.mapM_append, hread]
  rfl

end Lines

/-! ## Members and tables as they are written -/

section Written

variable {k rest : List Char} {v name : String} {done items pairs : Items}

theorem isBare_not_newline {c : Char} (h : isBare c = true) : isNewline c = false := by
  cases hc : isNewline c with
  | false => rfl
  | true =>
    rw [isNewline, Bool.or_eq_true, decide_eq_true_eq, decide_eq_true_eq] at hc
    rcases hc with rfl | rfl <;> cases h

theorem key_bare (hne : k ≠ []) (h : ∀ c ∈ k, isBare c = true) :
    key (k ++ ' ' :: rest) = some (String.ofList k, ' ' :: rest) := by
  obtain ⟨c, k, rfl⟩ := List.exists_cons_of_ne_nil hne
  have hquote : (c :: k ++ ' ' :: rest).head? ≠ some '"' := by
    intro heq
    have hc := h c List.mem_cons_self
    rw [Option.some.inj heq] at hc
    cases hc
  have htake : (c :: k ++ ' ' :: rest).takeWhile isBare = c :: k := by
    rw [List.takeWhile_append_of_pos h]
    exact List.append_nil _
  have hdrop : (c :: k ++ ' ' :: rest).dropWhile isBare = ' ' :: rest := by
    rw [List.dropWhile_append_of_pos h]
    rfl
  rw [key, if_neg hquote, htake, hdrop, if_neg (List.cons_ne_nil c k)]

theorem member_firstLine (hne : k ≠ []) (h : ∀ c ∈ k, isBare c = true) (v : String)
    (rest : List Char) :
    member (firstLine (k ++ ' ' :: '=' :: ' ' :: (quote v ++ rest))) =
      if readable v then some ((String.ofList k, .str v), firstLine rest) else none := by
  have hline : firstLine (k ++ ' ' :: '=' :: ' ' :: (quote v ++ rest)) =
      k ++ ' ' :: '=' :: ' ' :: firstLine (quote v ++ rest) := by
    rw [firstLine_append fun c hc => isBare_not_newline (h c hc)]
    rfl
  have hafter : after '=' (' ' :: '=' :: ' ' :: firstLine (quote v ++ rest)) =
      some (firstLine (quote v ++ rest)) := rfl
  rw [member, hline, key_bare hne h]
  simp only [Option.bind_eq_bind, Option.bind_some, hafter, value_firstLine]
  split <;> rfl

section Members

variable {cs cs' : List Char} {m : String × Json}

theorem members_none (h : member cs = none) (n : ℕ) : members (n + 1) cs = none := by
  rw [members, h]
  rfl

theorem members_next (h : member cs = some (m, rest)) (hcomma : after ',' rest = some cs') (n : ℕ) :
    members (n + 1) cs = (members n cs').map fun r => (m :: r.1, r.2) := by
  rw [members, h]
  simp only [Option.bind_eq_bind, Option.bind_some, hcomma]

theorem members_last (h : member cs = some (m, rest)) (hcomma : after ',' rest = none)
    (hbrace : after '}' rest = some cs') (n : ℕ) : members (n + 1) cs = some ([m], cs') := by
  rw [members, h]
  simp only [Option.bind_eq_bind, Option.bind_some, hcomma, hbrace, Option.map_some]

end Members

/-- The members of an open table are taken in their order. -/
theorem assemble_pairs (h : ((items ++ pairs).map Prod.fst).Nodup) :
    assemble done (some (name, items)) (pairs.map (fun p => .pair p.1 p.2) ++ [.blank]) =
      some (done ++ [(name, .dict (items ++ pairs))]) := by
  induction pairs generalizing items with
  | nil =>
    rw [List.append_nil]
    rfl
  | cons p pairs ih =>
    have hcons : items ++ p :: pairs = (items ++ [p]) ++ pairs := by
      rw [List.append_assoc, List.singleton_append]
    have hp : p.1 ∉ items.map Prod.fst := by
      rw [List.map_append, List.map_cons, List.nodup_middle, List.nodup_cons] at h
      exact fun hmem => h.1 (List.mem_append_left _ hmem)
    rw [hcons] at h ⊢
    rw [List.map_cons, List.cons_append, assemble, if_neg hp, ih h]

end Written

end TomlText
