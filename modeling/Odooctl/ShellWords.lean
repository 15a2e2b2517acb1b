import Mathlib.Data.List.Count
import Mathlib.Data.List.TakeWhile
import Mathlib.Data.Nat.Notation
import Mathlib.Tactic.SplitIfs
import Odooctl.CheckedLists

/-!
# The words of a shell command line

Token recognition and quoting of the POSIX shell for lists of simple commands joined by `&&`,
one character at a time, and `shlex.quote` of Python. A text with any other operator, with an
expansion or with a line continuation is not read.
-/
namespace ShellWords

/-- The characters of a word, each with whether it was quoted. -/
abbrev Word := List (Char × Bool)

def Word.text (w : Word) : List Char := w.map Prod.fst

inductive Token where
  | word (w : Word)
  | and_if
  deriving DecidableEq, Repr

def Token.text : Token → List Char
  | .word w => w.text
  | .and_if => []

inductive Mode where
  | bare
  | single
  | double
  | escape
  | escapeDouble
  | ampersand
  | comment
  deriving DecidableEq, Repr

/-- Between two words there is no current word. -/
structure State where
  mode : Mode
  current : Option Word
  deriving DecidableEq, Repr

def start : State := ⟨.bare, none⟩

def State.flush (s : State) : List Token :=
  match s.current with
  | none => []
  | some w => [.word w]

def State.push (s : State) (c : Char) (quoted : Bool) : State :=
  { s with current := some (s.current.getD [] ++ [(c, quoted)]) }

def State.enter (s : State) (mode : Mode) : State := ⟨mode, some (s.current.getD [])⟩

def isBlank (c : Char) : Bool := c == ' ' || c == '\t'

/-- Operators and expansions. -/
def special : List Char :=
  ['\n', '|', ';', '<', '>', '(', ')', '$', '\u0060', '*', '?', '[', '~']

/-- Between double quotes a backslash quotes these. -/
def escapable : List Char := ['$', '\u0060', '"', '\\']

def step (s : State) (c : Char) : Option (List Token × State) :=
  match s.mode with
  | .bare =>
    if isBlank c then some (s.flush, start)
    else if c = '&' then some (s.flush, ⟨.ampersand, none⟩)
    else if c = '#' ∧ s.current = none then some ([], ⟨.comment, none⟩)
    else if c = '\'' then some ([], s.enter .single)
    else if c = '"' then some ([], s.enter .double)
    else if c = '\\' then some ([], s.enter .escape)
    else if c ∈ special then none
    else some ([], s.push c false)
  | .single =>
    if c = '\'' then some ([], s.enter .bare) else some ([], s.push c true)
  | .double =>
    if c = '"' then some ([], s.enter .bare)
    else if c = '$' ∨ c = '\u0060' then none
    else if c = '\\' then some ([], s.enter .escapeDouble)
    else some ([], s.push c true)
  | .escape => if c = '\n' then none else some ([], (s.push c true).enter .bare)
  | .escapeDouble =>
    if c = '\n' then none
    else if c ∈ escapable then some ([], (s.push c true).enter .double)
    else some ([], ((s.push '\\' true).push c true).enter .double)
  | .ampersand => if c = '&' then some ([.and_if], start) else none
  | .comment => if c = '\n' then none else some ([], s)

def finish (s : State) : Option (List Token) :=
  match s.mode with
  | .bare => some s.flush
  | .comment => some []
  | _ => none

def lex (s : State) : List Char → Option (List Token)
  | [] => finish s
  | c :: cs => do
    let (ts, t) ← step s c
    let rest ← lex t cs
    return ts ++ rest

/-! ## Commands -/

/-- The words between two `&&`. -/
def groups : List Token → List (List Word)
  | [] => [[]]
  | .and_if :: ts => [] :: groups ts
  | .word w :: ts => (w :: (groups ts).headD []) :: (groups ts).tail

structure Simple where
  assignments : List (List Char)
  argv : List (List Char)
  deriving DecidableEq, Repr

def isNameChar (c : Char) : Bool := c.isAlphanum || c == '_'

def isName (name : List Char) : Bool :=
  name.all isNameChar && name.head?.any fun c => !c.isDigit

/-- `NAME=` stands at the head of the word, without quotes. -/
def isAssignment (w : Word) : Bool :=
  let head := w.takeWhile fun p => p != ('=', false)
  decide (head.length < w.length) && head.all (fun p => !p.2) && isName (Word.text head)

def reserved : List (List Char) :=
  ["if", "then", "else", "elif", "fi", "do", "done", "case", "esac", "while", "until", "for",
    "\x7b", "\x7d", "!", "in"].map String.toList

def isReserved (w : Word) : Bool := w.all (fun p => !p.2) && reserved.contains w.text

def simple (ws : List Word) : Option Simple :=
  if ws.head?.any isReserved then none
  else some ⟨(ws.takeWhile isAssignment).map Word.text, (ws.dropWhile isAssignment).map Word.text⟩

/-- The commands of a line; an empty one is a syntax error. -/
def commands (line : List Char) : Option (List Simple) := do
  let ts ← lex start line
  if [] ∈ groups ts then none
  else (groups ts).mapM simple

/-! ## Quoting -/

def isSafe (c : Char) : Bool :=
  c.isAlphanum || ['_', '@', '%', '+', '=', ':', ',', '.', '/', '-'].contains c

def isPlain (s : List Char) : Bool := !s.isEmpty && s.all isSafe

/-- A quote is quoted by double quotes. -/
def escaped (c : Char) : List Char := if c = '\'' then ['\'', '"', '\'', '"', '\''] else [c]

/-- `shlex.quote`. -/
def quote (s : List Char) : List Char :=
  if isPlain s then s else '\'' :: (s.flatMap escaped ++ ['\''])

/-- `shlex.join`. -/
def join : List (List Char) → List Char
  | [] => []
  | [s] => quote s
  | s :: ss => quote s ++ ' ' :: join ss

/-- Commands joined by `&&`. -/
def chain : List (List (List Char)) → List Char
  | [] => []
  | [ss] => join ss
  | ss :: rest => join ss ++ " && ".toList ++ chain rest

theorem join_pair (s t : List Char) : join [s, t] = quote s ++ ' ' :: quote t := rfl

theorem chain_single (ss : List (List Char)) : chain [ss] = join ss := rfl

theorem chain_cons (ss ss' : List (List Char)) (rest : List (List (List Char))) :
    chain (ss :: ss' :: rest) = join ss ++ " && ".toList ++ chain (ss' :: rest) := rfl

/-- The word that a quoted text is read as. -/
def quotedWord (s : List Char) : Word := s.map fun c => (c, !isPlain s)

@[simp] theorem quotedWord_text (s : List Char) : Word.text (quotedWord s) = s := by
  simp [Word.text, quotedWord, Function.comp_def]

section Lexing

variable {s t : State} {c : Char} {cs rest : List Char} {w : Word}

theorem lex_silent (h : step s c = some ([], t)) : lex s (c :: cs) = lex t cs := by
  simp [lex, h]

theorem lex_emit {ts : List Token} (h : step s c = some (ts, t)) :
    lex s (c :: cs) = (lex t cs).map (ts ++ ·) := by
  cases hrest : lex t cs <;> simp [lex, h, hrest]

theorem step_safe (h : isSafe c = true) : step ⟨.bare, s.current⟩ c = some ([], ⟨.bare,
    some (s.current.getD [] ++ [(c, false)])⟩) := by
  have hne : ∀ d, isSafe d = false → c ≠ d := by
    rintro d hd rfl
    rw [h] at hd
    cases hd
  have hblank : isBlank c = false := by
    simp [isBlank, hne ' ' (by decide), hne '\t' (by decide)]
  have hspecial : c ∉ special := by
    intro hc
    have houtside : ∀ d ∈ special, isSafe d = false := CheckedLists.forall_of_all (by decide)
    exact hne c (houtside c hc) rfl
  simp [step, hblank, hspecial, hne '&' (by decide), hne '#' (by decide), hne '\'' (by decide),
    hne '"' (by decide), hne '\\' (by decide), State.push]

theorem lex_safe (h : cs.all isSafe = true) : lex ⟨.bare, some w⟩ (cs ++ rest) =
    lex ⟨.bare, some (w ++ cs.map fun c => (c, false))⟩ rest := by
  induction cs generalizing w with
  | nil => simp
  | cons c cs ih =>
    rw [List.all_cons, Bool.and_eq_true] at h
    rw [List.cons_append, lex_silent (step_safe (s := ⟨.bare, some w⟩) h.1)]
    simp only [Option.getD_some]
    rw [ih h.2]
    simp

theorem lex_escaped : lex ⟨.single, some w⟩ (escaped c ++ rest) =
    lex ⟨.single, some (w ++ [(c, true)])⟩ rest := by
  by_cases hc : c = '\''
  · subst hc
    have hclose : step ⟨.single, some w⟩ '\'' = some ([], ⟨.bare, some w⟩) := rfl
    have hopen : step ⟨.bare, some w⟩ '"' = some ([], ⟨.double, some w⟩) := rfl
    have hpush : step ⟨.double, some w⟩ '\'' =
        some ([], ⟨.double, some (w ++ [('\'', true)])⟩) := rfl
    have hclose' : step ⟨.double, some (w ++ [('\'', true)])⟩ '"' =
        some ([], ⟨.bare, some (w ++ [('\'', true)])⟩) := rfl
    have hopen' : step ⟨.bare, some (w ++ [('\'', true)])⟩ '\'' =
        some ([], ⟨.single, some (w ++ [('\'', true)])⟩) := rfl
    change lex _ ('\'' :: '"' :: '\'' :: '"' :: '\'' :: rest) = _
    rw [lex_silent hclose, lex_silent hopen, lex_silent hpush, lex_silent hclose',
      lex_silent hopen']
  · have hstep : step ⟨.single, some w⟩ c = some ([], ⟨.single, some (w ++ [(c, true)])⟩) := by
      simp [step, hc, State.push]
    rw [escaped, if_neg hc, List.singleton_append, lex_silent hstep]

theorem lex_single : lex ⟨.single, some w⟩ (cs.flatMap escaped ++ rest) =
    lex ⟨.single, some (w ++ cs.map fun c => (c, true))⟩ rest := by
  induction cs generalizing w with
  | nil => simp
  | cons c cs ih =>
    rw [List.flatMap_cons, List.append_assoc, lex_escaped, ih]
    simp

theorem lex_quote (text : List Char) : lex start (quote text ++ rest) =
    lex ⟨.bare, some (quotedWord text)⟩ rest := by
  by_cases hplain : isPlain text = true
  · cases text with
    | nil => cases hplain
    | cons c cs =>
      have hsafe : (c :: cs).all isSafe = true := (Bool.and_eq_true_iff.mp hplain).2
      rw [List.all_cons, Bool.and_eq_true] at hsafe
      have hstep : step start c = some ([], ⟨.bare, some [(c, false)]⟩) :=
        step_safe (s := start) hsafe.1
      rw [quote, if_pos hplain, List.cons_append, lex_silent hstep, lex_safe hsafe.2]
      simp [quotedWord, hplain]
  · have hopen : step start '\'' = some ([], ⟨.single, some []⟩) := rfl
    have hclose : step ⟨.single, some (text.map fun c => (c, true))⟩ '\'' =
        some ([], ⟨.bare, some (text.map fun c => (c, true))⟩) := rfl
    rw [quote, if_neg hplain, List.cons_append, lex_silent hopen, List.append_assoc, lex_single,
      List.nil_append, List.singleton_append, lex_silent hclose]
    simp [quotedWord, hplain]

/-- The word is over. -/
def Ends (rest : List Char) : Prop := rest = [] ∨ rest.head? = some ' '

theorem lex_ends (h : Ends rest) : lex ⟨.bare, some w⟩ rest =
    (lex start rest).map (.word w :: ·) := by
  cases rest with
  | nil => rfl
  | cons c cs =>
    obtain rfl : c = ' ' := by simpa [Ends] using h
    have hemit : step ⟨.bare, some w⟩ ' ' = some ([.word w], start) := rfl
    have hskip : step start ' ' = some ([], start) := rfl
    rw [lex_emit hemit, lex_silent hskip]
    rfl

theorem lex_join (words : List (List Char)) (h : Ends rest) : lex start (join words ++ rest) =
    (lex start rest).map (words.map (fun s => Token.word (quotedWord s)) ++ ·) := by
  induction words with
  | nil => simp [join]
  | cons text words ih =>
    cases words with
    | nil =>
      rw [join, lex_quote, lex_ends h]
      rfl
    | cons text' words =>
      have hskip : step start ' ' = some ([], start) := rfl
      change lex start (quote text ++ (' ' :: join (text' :: words)) ++ rest) = _
      rw [List.append_assoc, lex_quote, lex_ends (Or.inr rfl), List.cons_append,
        lex_silent hskip, ih, Option.map_map]
      rfl

/-- The tokens of a chain. -/
def chainTokens : List (List (List Char)) → List Token
  | [] => []
  | [ss] => ss.map fun s => .word (quotedWord s)
  | ss :: rest => ss.map (fun s => .word (quotedWord s)) ++ .and_if :: chainTokens rest

theorem lex_and_if : lex start (" && ".toList ++ rest) = (lex start rest).map (.and_if :: ·) := by
  have hskip : step start ' ' = some ([], start) := rfl
  have hfirst : step start '&' = some ([], ⟨.ampersand, none⟩) := rfl
  have hsecond : step ⟨.ampersand, none⟩ '&' = some ([.and_if], start) := rfl
  change lex start (' ' :: '&' :: '&' :: ' ' :: rest) = _
  rw [lex_silent hskip, lex_silent hfirst, lex_emit hsecond, lex_silent hskip]
  rfl

theorem lex_chain (list : List (List (List Char))) :
    lex start (chain list) = some (chainTokens list) := by
  induction list with
  | nil => rfl
  | cons ss list ih =>
    cases list with
    | nil =>
      have hjoin : lex start (join ss ++ []) = (lex start []).map _ := lex_join ss (Or.inl rfl)
      rw [List.append_nil] at hjoin
      change lex start (join ss) = _
      rw [hjoin]
      change some (_ ++ []) = _
      rw [List.append_nil]
      rfl
    | cons ss' list =>
      change lex start (join ss ++ " && ".toList ++ chain (ss' :: list)) = _
      rw [List.append_assoc, lex_join ss (Or.inr rfl), lex_and_if, ih]
      rfl

end Lexing

/-! ## The commands of a chain -/

theorem groups_words (ws : List Word) (ts : List Token) : groups (ws.map Token.word ++ ts) =
    (ws ++ (groups ts).headD []) :: (groups ts).tail := by
  induction ws with
  | nil => cases ts with
    | nil => rfl
    | cons t ts => cases t <;> rfl
  | cons w ws ih =>
    rw [List.map_cons, List.cons_append, groups, ih]
    rfl

theorem groups_chain {list : List (List (List Char))} (h : list ≠ []) :
    groups (chainTokens list) = list.map fun ss => ss.map quotedWord := by
  induction list with
  | nil => exact absurd rfl h
  | cons ss list ih =>
    have hwords : ss.map (fun s => Token.word (quotedWord s)) =
        (ss.map quotedWord).map Token.word := (List.map_map ..).symm
    cases list with
    | nil =>
      have hgroups := groups_words (ss.map quotedWord) []
      rw [List.append_nil] at hgroups
      change groups (ss.map fun s => Token.word (quotedWord s)) = _
      rw [hwords, hgroups]
      simp [groups]
    | cons ss' list =>
      change groups (ss.map (fun s => Token.word (quotedWord s)) ++
        .and_if :: chainTokens (ss' :: list)) = _
      rw [hwords, groups_words, groups, ih (List.cons_ne_nil _ _)]
      simp

/-- Quoted commands are read as they are, up to what the shell makes of their first words. -/
theorem commands_chain {list : List (List (List Char))} (hne : list ≠ []) (h : [] ∉ list) :
    commands (chain list) = list.mapM fun ss => simple (ss.map quotedWord) := by
  have hgroups : [] ∉ groups (chainTokens list) := by
    rw [groups_chain hne]
    intro hmem
    obtain ⟨ss, hss, hnil⟩ := List.mem_map.mp hmem
    rw [List.map_eq_nil_iff] at hnil
    exact h (hnil ▸ hss)
  simp only [commands, lex_chain, Option.bind_eq_bind, Option.bind_some, hgroups, if_false]
  rw [groups_chain hne, List.mapM_map]
  rfl

/-- The shell takes the first word of a command as something else than its name. -/
def taken (s : List Char) : Bool :=
  isPlain s &&
    (reserved.contains s || (decide ('=' ∈ s) && isName (s.takeWhile fun c => c != '=')))

theorem isReserved_quotedWord (s : List Char) :
    isReserved (quotedWord s) = (isPlain s && reserved.contains s) := by
  unfold isReserved
  rw [quotedWord_text]
  cases hplain : isPlain s with
  | true => simp [quotedWord, hplain]
  | false =>
    cases s with
    | nil => rfl
    | cons c cs => simp [quotedWord, hplain]

theorem length_takeWhile_lt {c : Char} (s : List Char) :
    (s.takeWhile fun d => d != c).length < s.length ↔ c ∈ s := by
  induction s with
  | nil => simp
  | cons d s ih =>
    by_cases hd : d = c
    · simp [hd]
    · simp [hd, Ne.symm hd, ih]

theorem isAssignment_quotedWord (s : List Char) : isAssignment (quotedWord s) =
    (isPlain s && (decide ('=' ∈ s) && isName (s.takeWhile fun c => c != '='))) := by
  unfold isAssignment quotedWord
  rw [List.takeWhile_map]
  cases hplain : isPlain s with
  | true =>
    have hsame : ((fun p : Char × Bool => p != ('=', false)) ∘ fun c => (c, !true)) =
        fun c => c != '=' := by
      funext c
      simp [bne, BEq.beq]
    have hlength := length_takeWhile_lt (c := '=') s
    have hall : ((s.takeWhile fun c => c != '=').all fun _ => true) = true := by simp
    rw [hsame]
    simp [Word.text, Function.comp_def, hlength, hall]
  | false =>
    have hall : ((fun p : Char × Bool => p != ('=', false)) ∘ fun c => (c, !false)) =
        fun _ => true := by
      funext c
      simp [bne, BEq.beq]
    have hself : s.takeWhile (fun _ => true) = s := List.takeWhile_eq_self_iff.mpr fun _ _ => rfl
    rw [hall, hself]
    simp

theorem taken_eq (s : List Char) :
    taken s = (isReserved (quotedWord s) || isAssignment (quotedWord s)) := by
  rw [isReserved_quotedWord, isAssignment_quotedWord, taken, ← Bool.and_or_distrib_left]

theorem simple_quoted {s : List Char} (ss : List (List Char)) (h : taken s = false) :
    simple ((s :: ss).map quotedWord) = some ⟨[], s :: ss⟩ := by
  rw [taken_eq, Bool.or_eq_false_iff] at h
  have htext : (ss.map quotedWord).map Word.text = ss := by
    rw [List.map_map]
    simp [Function.comp_def]
  simp [simple, h.1, h.2, htext, -List.map_map]

theorem taken_of_simple {s : List Char} {ss argv : List (List Char)}
    (h : simple ((s :: ss).map quotedWord) = some ⟨[], argv⟩) :
    taken s = false ∧ argv = s :: ss := by
  unfold simple at h
  split at h
  · cases h
  next hreserved =>
  rw [Bool.not_eq_true] at hreserved
  have hnone : isAssignment (quotedWord s) = false := by
    by_cases hassign : isAssignment (quotedWord s) = true
    · simp [hassign] at h
    · simpa using hassign
  have htaken : taken s = false := by
    rw [taken_eq, hnone, Bool.or_false]
    exact hreserved
  refine ⟨htaken, ?_⟩
  have hsimple := simple_quoted ss htaken
  unfold simple at hsimple
  rw [if_neg (by rw [hreserved]; exact Bool.false_ne_true)] at hsimple
  rw [hsimple] at h
  cases h
  rfl

/-! ## A reading adds no character -/

section Counting

variable {s t : State} {c x : Char} {cs : List Char} {ts : List Token}

/-- What has been read of the word. -/
def held (x : Char) (s : State) : ℕ := (Word.text (s.current.getD [])).count x

/-- A backslash between double quotes is read before it is known to be a character. -/
def owed (x : Char) (mode : Mode) : ℕ := if mode = .escapeDouble ∧ '\\' = x then 1 else 0

def pending (x : Char) (s : State) : ℕ := held x s + owed x s.mode

@[simp] theorem held_push (quoted : Bool) : held x (s.push c quoted) =
    held x s + if c = x then 1 else 0 := by
  simp [held, State.push, Word.text, List.count_singleton]

@[simp] theorem held_enter (mode : Mode) : held x (s.enter mode) = held x s := rfl

@[simp] theorem held_none (mode : Mode) : held x ⟨mode, none⟩ = 0 := rfl

@[simp] theorem push_mode (quoted : Bool) : (s.push c quoted).mode = s.mode := rfl

@[simp] theorem enter_mode (mode : Mode) : (s.enter mode).mode = mode := rfl

theorem count_flush : (s.flush.flatMap Token.text).count x = held x s := by
  cases hcurrent : s.current <;> simp [State.flush, held, hcurrent, Token.text, Word.text]

theorem step_count (h : step s c = some (ts, t)) :
    (ts.flatMap Token.text).count x + pending x t ≤ pending x s + if c = x then 1 else 0 := by
  unfold step at h
  unfold pending
  cases hmode : s.mode with
  | bare | single | escape | escapeDouble | ampersand | comment =>
    simp only [hmode] at h
    split_ifs at h
    all_goals
      cases h
      simp [count_flush, start, owed, hmode, Token.text]
  | double =>
    simp only [hmode] at h
    split_ifs at h with hclose hexpansion hbackslash
    · cases h
      simp [owed]
    · cases h
      rw [hbackslash]
      simp [owed]
    · cases h
      simp [owed, hmode]

theorem lex_count (h : lex s cs = some ts) :
    (ts.flatMap Token.text).count x ≤ pending x s + cs.count x := by
  induction cs generalizing s ts with
  | nil =>
    rw [lex, finish] at h
    split at h
    · cases h
      rw [count_flush]
      exact Nat.le_add_right _ _
    · cases h
      simp
    · cases h
  | cons c cs ih =>
    cases hstep : step s c with
    | none => simp [lex, hstep] at h
    | some next =>
      obtain ⟨ts', t⟩ := next
      rw [lex_emit hstep, Option.map_eq_some_iff] at h
      obtain ⟨rest, hrest, rfl⟩ := h
      have hnow := step_count (x := x) hstep
      have hlater := ih hrest
      rw [List.flatMap_append, List.count_append, List.count_cons]
      simp only [beq_iff_eq]
      omega

theorem groups_count (ts : List Token) :
    ((groups ts).flatten.flatMap Word.text).count x = (ts.flatMap Token.text).count x := by
  induction ts with
  | nil => rfl
  | cons token ts ih =>
    cases token with
    | and_if =>
      rw [groups, List.flatten_cons, List.nil_append, ih]
      rfl
    | word w =>
      have hsplit : ((groups ts).headD [] ++ (groups ts).tail.flatten) = (groups ts).flatten := by
        cases groups ts <;> rfl
      rw [groups, List.flatten_cons, List.cons_append, hsplit, List.flatMap_cons,
        List.flatMap_cons, List.count_append, List.count_append, ih]
      rfl

def Simple.text (command : Simple) : List Char :=
  command.assignments.flatten ++ command.argv.flatten

theorem simple_text {ws : List Word} {command : Simple} (h : simple ws = some command) :
    command.text = ws.flatMap Word.text := by
  unfold simple at h
  split at h
  · cases h
  · cases h
    rw [Simple.text, ← List.flatten_append, ← List.map_append, List.takeWhile_append_dropWhile,
      List.flatMap]

theorem simples_text {list : List (List Word)} {found : List Simple}
    (h : list.mapM simple = some found) :
    found.flatMap Simple.text = list.flatten.flatMap Word.text := by
  induction list generalizing found with
  | nil =>
    cases h
    rfl
  | cons ws list ih =>
    cases hcommand : simple ws with
    | none => simp [List.mapM_cons, hcommand] at h
    | some command =>
      cases hrest : list.mapM simple with
      | none => simp [List.mapM_cons, hcommand, hrest] at h
      | some rest =>
        simp only [List.mapM_cons, hcommand, hrest] at h
        cases h
        rw [List.flatMap_cons, simple_text hcommand, ih hrest, List.flatten_cons,
          List.flatMap_append]

theorem commands_count {found : List Simple} (h : commands cs = some found) :
    (found.flatMap Simple.text).count x ≤ cs.count x := by
  unfold commands at h
  cases hlex : lex start cs with
  | none => simp [hlex] at h
  | some ts =>
    simp only [hlex, Option.bind_eq_bind, Option.bind_some] at h
    split at h
    · cases h
    · rw [simples_text h, groups_count]
      have hcount := lex_count (x := x) hlex
      have hstart : pending x start = 0 := by simp [pending, start, owed]
      omega

/-- A character that quoting and joining do not add. -/
def Foreign (x : Char) : Prop := x ∉ ['\'', '"', ' ', '&']

instance (x : Char) : Decidable (Foreign x) := inferInstanceAs (Decidable (x ∉ _))

theorem escaped_count (hx : Foreign x) : (escaped c).count x = [c].count x := by
  unfold escaped
  split
  · next hc =>
    have hquotes : x ≠ '\'' ∧ x ≠ '"' := by
      constructor
      · rintro rfl
        exact hx (by decide)
      · rintro rfl
        exact hx (by decide)
    simp [hc, Ne.symm hquotes.1, Ne.symm hquotes.2]
  · rfl

theorem quote_count (hx : Foreign x) (text : List Char) : (quote text).count x = text.count x := by
  have hsingle : '\'' ≠ x := by
    rintro rfl
    exact hx (by decide)
  have hescaped : (text.flatMap escaped).count x = text.count x := by
    induction text with
    | nil => rfl
    | cons c text ih =>
      rw [List.flatMap_cons, List.count_append, escaped_count hx, ih, ← List.count_append,
        List.singleton_append]
  unfold quote
  split
  · rfl
  · simp [hescaped, hsingle]

theorem join_count (hx : Foreign x) (words : List (List Char)) :
    (join words).count x = words.flatten.count x := by
  have hblank : ' ' ≠ x := by
    rintro rfl
    exact hx (by decide)
  induction words with
  | nil => rfl
  | cons text words ih =>
    cases words with
    | nil => simp [join, quote_count hx]
    | cons text' words =>
      change (quote text ++ ' ' :: join (text' :: words)).count x = _
      rw [List.count_append, List.count_cons_of_ne hblank, quote_count hx, ih, ← List.count_append]
      rfl

theorem chain_count (hx : Foreign x) (list : List (List (List Char))) :
    (chain list).count x = list.flatten.flatten.count x := by
  have hand : (" && ".toList).count x = 0 := by
    rw [List.count_eq_zero]
    intro hmem
    have hadded : ∀ d ∈ " && ".toList, ¬ Foreign d := CheckedLists.forall_of_all (by decide)
    exact hadded x hmem hx
  induction list with
  | nil => rfl
  | cons ss list ih =>
    cases list with
    | nil => simp [chain, join_count hx]
    | cons ss' list =>
      change (join ss ++ " && ".toList ++ chain (ss' :: list)).count x = _
      rw [List.count_append, List.count_append, hand, Nat.add_zero, join_count hx, ih,
        ← List.count_append, ← List.flatten_append]
      rfl

end Counting

end ShellWords
