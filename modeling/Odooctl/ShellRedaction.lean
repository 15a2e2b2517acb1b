import Odooctl.PiecewiseReplacement
import Odooctl.PythonText

/-!
# Redaction of a command's output

`redact` and `run` of `utils/shell.py`. An environment is a dictionary in its order, and one that
is `None` is the empty one: both `or` and `if env` treat them alike.
-/
namespace ShellRedaction

open TextReplacement

abbrev Env := List (String × String)

def SENSITIVE_MARKERS : List String := ["PASSWORD", "SECRET", "TOKEN", "KEY", "PASSWD"]

def DEFAULT_REDACTION_MIN_SECRET_LENGTH : ℕ := 6

def DEFAULT_REDACTION_IGNORE_VALUES : List String :=
  ["odoo", "admin", "postgres", "password", "secret", "changeme"]

def placeholder : String := "***REDACTED***"

/-- `text.replace(old, new)` for an `old` that is not empty. -/
def replaceText (text old new : String) : String :=
  String.ofList (replace old.toList new.toList text.toList)

section Redact

variable (upper : String → String) (environ : Env)

/-- Whether the loop of `redact` replaces the value of an item. -/
def isSecret (min_secret_length : ℕ) (ignore_values : List String) (item : String × String) :
    Bool :=
  item.2 ≠ "" && SENSITIVE_MARKERS.any (PythonText.containsText (upper item.1)) &&
    min_secret_length ≤ item.2.length && item.2 ∉ ignore_values.filter (· ≠ "")

def redact_with (min_secret_length : ℕ) (ignore_values : List String) (text : String)
    (env : Env) : String :=
  (if env = [] then environ else env).foldl
    (fun redacted item =>
      if isSecret upper min_secret_length ignore_values item then
        replaceText redacted item.2 placeholder
      else redacted) text

def redact (text : String) (env : Env) : String :=
  redact_with upper environ DEFAULT_REDACTION_MIN_SECRET_LENGTH DEFAULT_REDACTION_IGNORE_VALUES
    text env

end Redact

structure CommandResult where
  args : List String
  returncode : ℤ
  stdout : String
  stderr : String
  deriving DecidableEq, Repr

structure CommandError where
  message : String
  result : CommandResult
  deriving DecidableEq, Repr

/-- What a process writes until it ends: line by line with both streams in one, and each of the
two streams. -/
structure Output where
  lines : List String
  stdout : String
  stderr : String
  returncode : ℤ
  deriving DecidableEq, Repr

/-- `merged_env[name] = value`. -/
def setVariable (env : Env) (item : String × String) : Env :=
  if item.1 ∈ env.map Prod.fst then env.map fun i => if i.1 = item.1 then item else i
  else env ++ [item]

section Run

variable (upper : String → String) (environ : Env)

def merged_env (env : Env) (unset_env : List String) : Env :=
  env.foldl setVariable (environ.filter fun item => item.1 ∉ unset_env)

def commandError (result : CommandResult) (env : Env) : CommandError :=
  let args := " ".intercalate result.args
  let message := s!"Command failed ({result.returncode}): {args}\n{result.stderr}"
  { message := redact upper environ message env, result }

/-- What is printed while the command runs, and what the call returns or raises. -/
def run (args : List String) (check : Bool) (env : Env) (unset_env : List String) (stream : Bool)
    (output : Output) : List String × Except CommandError CommandResult :=
  let merged := merged_env environ env unset_env
  let printed :=
    if stream then output.lines.map fun line => redact upper environ line merged else []
  let result : CommandResult :=
    if stream then ⟨args, output.returncode, String.join printed, ""⟩
    else ⟨args, output.returncode, redact upper environ output.stdout merged,
      redact upper environ output.stderr merged⟩
  (printed,
    if check && result.returncode ≠ 0 then .error (commandError upper environ result merged)
    else .ok result)

end Run

section Masking

variable (upper : String → String) (environ : Env)

/-- The values that `redact` replaces, in its order. -/
def secrets (env : Env) : List String :=
  ((if env = [] then environ else env).filter (isSecret upper DEFAULT_REDACTION_MIN_SECRET_LENGTH
    DEFAULT_REDACTION_IGNORE_VALUES)).map Prod.snd

abbrev secretTexts (env : Env) : List (List Char) := (secrets upper environ env).map String.toList

/-- `redact` on letters that remember their places in the text. -/
def redactCells (text : String) (env : Env) : List (Cell Char) :=
  hideAll placeholder.toList (secretTexts upper environ env) (placed text.toList 0)

theorem toList_replaceText (text old new : String) :
    (replaceText text old new).toList = replace old.toList new.toList text.toList :=
  String.toList_ofList

theorem toList_redact (text : String) (env : Env) :
    (redact upper environ text env).toList =
      replaceAll placeholder.toList (secretTexts upper environ env) text.toList := by
  rw [redact, redact_with, secretTexts, secrets]
  generalize (if env = [] then environ else env) = items
  induction items generalizing text with
  | nil => rfl
  | cons item items ih =>
    rw [List.foldl_cons, List.filter_cons]
    split
    · rw [ih, toList_replaceText]
      rfl
    · exact ih text

theorem map_redactCells (text : String) (env : Env) :
    (redactCells upper environ text env).map Prod.fst =
      (redact upper environ text env).toList := by
  rw [redactCells, map_hideAll, map_placed, toList_redact]

theorem secretTexts_ne_nil (env : Env) : ∀ w ∈ secretTexts upper environ env, w ≠ [] := by
  intro w hw
  obtain ⟨v, hv, rfl⟩ := List.mem_map.mp hw
  obtain ⟨item, hitem, rfl⟩ := List.mem_map.mp hv
  have hsecret := (List.mem_filter.mp hitem).2
  simp only [isSecret, Bool.and_eq_true, decide_eq_true_eq] at hsecret
  intro hnil
  exact hsecret.1.1.1 (String.toList_eq_nil_iff.mp hnil)

theorem placeholder_ne_nil : placeholder.toList ≠ [] := by decide

/-! ## Secrets in a text -/

/-- Nothing of any occurrence of a secret is left. -/
def Hidden (text : String) (env : Env) : Prop :=
  ∀ v ∈ secrets upper environ env, ∀ q, OccursAt v.toList text.toList q →
    Gone q v.toList.length (redactCells upper environ text env)

/-- Each match takes an occurrence of a secret whole or not at all. -/
def ApartSecrets (text : String) (env : Env) : Prop :=
  Apart placeholder.toList text.toList (fun _ _ => False) (fun _ => False)
    (secretTexts upper environ env)

/-- In the order of the environment each secret contains those that overlap it later on. -/
theorem apartSecrets_of_nested (text : String) (env : Env)
    (hstar : ∀ v ∈ secrets upper environ env, '*' ∉ v.toList)
    (h : Nested text.toList (secretTexts upper environ env)) :
    ApartSecrets upper environ text env := by
  refine apart_of_nested (secretTexts_ne_nil upper environ env) ?_ h
  intro w hw c hc
  obtain ⟨v, hv, rfl⟩ := List.mem_map.mp hw
  have hne : some '*' ≠ some c := fun heq => hstar v hv (Option.some.inj heq ▸ hc)
  exact ⟨hne, hne⟩

def tokens : Env := [("A_TOKEN", "abcdefgh"), ("B_TOKEN", "abcdef")]

/-- No secret crosses the end of a line. -/
def UncrossedLines (lines : List String) (env : Env) : Prop :=
  UncrossedEnds placeholder.toList (secretTexts upper environ env) (lines.map String.toList)

theorem join_redacted (lines : List String) (env : Env)
    (h : UncrossedLines upper environ lines env) :
    String.join (lines.map fun line => redact upper environ line env) =
      redact upper environ (String.join lines) env := by
  have hlines := replaceAll_flatten placeholder_ne_nil (secretTexts_ne_nil upper environ env) h
  have hredact := toList_redact upper environ
  rw [← String.toList_inj, String.toList_join, hredact, String.toList_join, List.flatMap_def,
    List.flatMap_def, hlines, List.map_map, List.map_map]
  exact congrArg List.flatten (List.map_congr_left fun line _ => hredact line env)

theorem uncrossedLines_of_no_newline (lines : List String) (env : Env)
    (hsecrets : ∀ v ∈ secrets upper environ env, '\n' ∉ v.toList)
    (hlines : ∀ line ∈ lines.dropLast, line.toList.getLast? = some '\n') :
    UncrossedLines upper environ lines env := by
  refine uncrossedEnds_of_letter (List.forall_mem_map.mpr hsecrets) ?_
  rw [← List.map_dropLast]
  exact List.forall_mem_map.mpr hlines

/-- No secret that redacting the whole of the output takes out shows in the lines. -/
def StreamRedacted (lines printed : List String) (env : Env) : Prop :=
  ∀ v ∈ secrets upper environ env, v.toList <:+: (String.join lines).toList →
    ¬ v.toList <:+: (redact upper environ (String.join lines) env).toList →
    ¬ v.toList <:+: (String.join printed).toList

def login : Output := ⟨["login hunter22\n", "ok\n"], "", "", 0⟩

def certificate : Env := [("TLS_KEY", "abc\ndef")]

end Masking

end ShellRedaction
