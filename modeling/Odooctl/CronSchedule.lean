import Odooctl.CheckedLists
import Odooctl.CrontabLines
import Odooctl.PythonText
import Odooctl.ShellWords
import Mathlib.Tactic.SplitIfs

/-!
# Scheduled commands as crontab lines

`build_spec` and `render_cron` of `commands/schedule.py`, and what cron and then the shell read
in a rendered line: `cd` to the project, the environment file between `set -a` and `set +a`, and
the program.
-/
namespace CronSchedule

open CrontabLines (Timed readEntry oneLine words)
open PythonText (quoted)
open ShellWords (Simple quote join chain commands quotedWord simple)

/-! ## The specification -/

structure AbsolutePath where
  text : String
  absolute : text.toList.head? = some '/'
  deriving DecidableEq

/-- Home directories and links: `Path(value).expanduser()` and `(root / value).resolve()`. -/
structure Host where
  expanduser : String → Except String String
  resolve : AbsolutePath → String → AbsolutePath

structure ProjectContext where
  root : AbsolutePath
  config_path : AbsolutePath
  project_name : String
  environments : List String
  pitr_enabled : Bool
  pitr_environment : String

structure ScheduleSpec where
  command : String
  environment : String
  project_root : AbsolutePath
  config_path : AbsolutePath
  interval : String
  user : Option String
  odooctl_bin : String
  environment_file : Option AbsolutePath
  project_name : String
  deriving DecidableEq

def SCHEDULE_COMMANDS : List String :=
  ["backup", "backup-remote-verify", "dr-drill", "doctor", "sync", "pitr-base", "pitr-reconcile"]

def command_tokens (command environment : String) : Except String (List String) :=
  if command = "backup" then .ok ["backup", environment, "--verify"]
  else if command = "backup-remote-verify" then .ok ["backup-remote", "verify", environment]
  else if command = "dr-drill" then .ok ["dr", "drill", environment]
  else if command = "doctor" then .ok ["doctor"]
  else if command = "sync" then .ok ["sync", environment]
  else if command = "pitr-base" then .ok ["pitr", "base", "create", environment]
  else if command = "pitr-reconcile" then .ok ["pitr", "retention", "reconcile", environment]
  else .error s!"Unsupported schedule command: {command}"

def invocation_tokens (spec : ScheduleSpec) : Except String (List String) := do
  let tokens ← command_tokens spec.command spec.environment
  return spec.odooctl_bin :: "--project-dir" :: spec.project_root.text ::
    (tokens ++ ["--config", spec.config_path.text])

def invocation (tokens : List String) : List Char := join (tokens.map String.toList)

def resolve_environment_file (host : Host) (ctx : ProjectContext) :
    Option String → Except String (Option AbsolutePath)
  | none => .ok none
  | some file => do
    let candidate ← host.expanduser file
    if h : candidate.toList.head? = some '/' then return some ⟨candidate, h⟩
    else return some (host.resolve ctx.root candidate)

/-- `command.startswith("pitr-")`. -/
def isPitr (command : String) : Bool := "pitr-".toList.isPrefixOf command.toList

def build_spec (host : Host) (ctx : ProjectContext) (command environment interval : String)
    (user : Option String) (odooctl_bin : String) (environment_file : Option String) :
    Except String ScheduleSpec := do
  if command ∉ SCHEDULE_COMMANDS then
    .error ("schedule command must be one of: " ++ ", ".intercalate SCHEDULE_COMMANDS)
  else if environment ∉ ctx.environments then .error s!"Unknown environment: {environment}"
  else if isPitr command = true ∧ ctx.pitr_enabled = false then
    .error "PITR scheduling requires pitr.enabled: true"
  else if isPitr command = true ∧ environment ≠ ctx.pitr_environment then
    .error ("PITR is bound to environment " ++ quoted ctx.pitr_environment ++ ", not " ++
      quoted environment)
  else
    let resolved ← resolve_environment_file host ctx environment_file
    return {
      command := command
      environment := environment
      project_root := ctx.root
      config_path := ctx.config_path
      interval := interval
      user := user
      odooctl_bin := odooctl_bin
      environment_file := resolved
      project_name := ctx.project_name }

/-! ## The line -/

def cron_expression (interval : String) : String :=
  if interval = "hourly" then "0 * * * *"
  else if interval = "daily" then "0 2 * * *"
  else if interval = "weekly" then "0 2 * * 0"
  else interval

def environment_load : Option AbsolutePath → List Char
  | some file => "set -a && . ".toList ++ quote file.text.toList ++ " && set +a && ".toList
  | none => []

def cd_and_run (spec : ScheduleSpec) (tokens : List String) : List Char :=
  "cd ".toList ++ quote spec.project_root.text.toList ++ " && ".toList ++
    environment_load spec.environment_file ++ invocation tokens

/-- An empty user is none. -/
def userField (spec : ScheduleSpec) : Option (List Char) :=
  if spec.user.getD "" = "" then none else some (spec.user.getD "").toList

def render_cron (spec : ScheduleSpec) : Except String (List Char) := do
  let tokens ← invocation_tokens spec
  match userField spec with
  | some user => return (cron_expression spec.interval).toList ++ ' ' :: user ++
      ' ' :: cd_and_run spec tokens ++ ['\n']
  | none => return (cron_expression spec.interval).toList ++ ' ' :: cd_and_run spec tokens ++ ['\n']

/-! ## What is read -/

/-- What the shell does for one command. Which file it is that a program's name stands for is not
looked up. -/
inductive Step where
  | cd (directory : List Char)
  | allexport (on : Bool)
  | load (file : List Char)
  | program (assignments argv : List (List Char))
  deriving DecidableEq, Repr

/-- The utilities that a shell does not look up as programs. -/
def builtins : List (List Char) :=
  ["break", ":", "continue", ".", "eval", "exec", "exit", "export", "readonly", "return", "set",
    "shift", "times", "trap", "unset", "alias", "bg", "cd", "command", "fc", "fg", "getopts",
    "hash", "jobs", "kill", "read", "type", "ulimit", "umask", "unalias", "wait"].map String.toList

/-- Of the built-in utilities only the uses here are read. -/
def builtinStep (name : List Char) (arguments : List (List Char)) : Option Step :=
  match arguments with
  | [argument] =>
    if name = "cd".toList ∧ argument.head? = some '/' then some (.cd argument)
    else if name = ".".toList ∧ argument.head? = some '/' then some (.load argument)
    else if name = "set".toList ∧ argument = "-a".toList then some (.allexport true)
    else if name = "set".toList ∧ argument = "+a".toList then some (.allexport false)
    else none
  | _ => none

def stepOf (command : Simple) : Option Step :=
  match command.argv with
  | [] => none
  | name :: arguments =>
    if name ∉ builtins then some (.program command.assignments command.argv)
    else if command.assignments = [] then builtinStep name arguments
    else none

structure Reading where
  schedule : List (List Char)
  user : Option (List Char)
  steps : List Step
  deriving DecidableEq, Repr

/-- A line with a user is one of a system crontab. -/
def reading (accepts : List (List Char) → Bool) (system : Bool) (text : List Char) :
    Option Reading := do
  let line ← oneLine text
  let entry ← readEntry accepts system line
  let found ← commands (CrontabLines.command entry.command)
  let steps ← found.mapM stepOf
  return ⟨entry.schedule, entry.user, steps⟩

def loadSteps : Option AbsolutePath → List Step
  | some file => [.allexport true, .load file.text.toList, .allexport false]
  | none => []

/-- At the times of the interval, as the user: the program with its arguments in the project
root, with the environment file loaded, and nothing else. -/
def intended (spec : ScheduleSpec) (tokens : List String) : Reading where
  schedule := words (cron_expression spec.interval).toList
  user := userField spec
  steps := .cd spec.project_root.text.toList ::
    (loadSteps spec.environment_file ++ [.program [] (tokens.map String.toList)])

def RunsIntended (accepts : List (List Char) → Bool) (spec : ScheduleSpec) : Prop :=
  ∃ tokens text, invocation_tokens spec = .ok tokens ∧ render_cron spec = .ok text ∧
    reading accepts (userField spec).isSome text = some (intended spec tokens)

/-! ## The commands of a line -/

def loadCommands : Option AbsolutePath → List (List (List Char))
  | some file => [[['s', 'e', 't'], ['-', 'a']], [['.'], file.text.toList],
      [['s', 'e', 't'], ['+', 'a']]]
  | none => []

def shellCommands (spec : ScheduleSpec) (tokens : List String) : List (List (List Char)) :=
  [['c', 'd'], spec.project_root.text.toList] ::
    (loadCommands spec.environment_file ++ [tokens.map String.toList])

theorem quote_names : quote ['c', 'd'] = ['c', 'd'] ∧ quote ['s', 'e', 't'] = ['s', 'e', 't'] ∧
    quote ['-', 'a'] = ['-', 'a'] ∧ quote ['.'] = ['.'] ∧
    quote ['+', 'a'] = ['+', 'a'] := by decide

theorem load_texts : "cd ".toList = ['c', 'd'] ++ [' '] ∧
    "set -a && . ".toList =
      ['s', 'e', 't'] ++ ' ' :: ['-', 'a'] ++ " && ".toList ++ ['.'] ++ [' '] ∧
    " && set +a && ".toList =
      " && ".toList ++ ['s', 'e', 't'] ++ ' ' :: ['+', 'a'] ++ " && ".toList := by decide

theorem environment_load_none : environment_load none = [] := rfl

theorem environment_load_some (file : AbsolutePath) : environment_load (some file) =
    "set -a && . ".toList ++ quote file.text.toList ++ " && set +a && ".toList := rfl

theorem cd_and_run_eq (spec : ScheduleSpec) (tokens : List String) :
    cd_and_run spec tokens = chain (shellCommands spec tokens) := by
  obtain ⟨hcd, hset, hon, hdot, hoff⟩ := quote_names
  obtain ⟨htext, hload, hdone⟩ := load_texts
  unfold cd_and_run shellCommands invocation
  rw [htext]
  cases spec.environment_file with
  | none =>
    rw [environment_load_none, loadCommands, List.nil_append, ShellWords.chain_cons,
      ShellWords.join_pair, ShellWords.chain_single, hcd]
    simp only [List.append_assoc, List.cons_append, List.nil_append, List.append_nil]
  | some file =>
    rw [environment_load_some, loadCommands, hload, hdone]
    simp only [List.cons_append, List.nil_append, ShellWords.chain_cons, ShellWords.join_pair,
      ShellWords.chain_single, hcd, hset, hon, hdot, hoff, List.append_assoc]

theorem shellCommands_nonempty {spec : ScheduleSpec} {tokens : List String} (h : tokens ≠ []) :
    [] ∉ shellCommands spec tokens := by
  have hmap : [] ≠ tokens.map String.toList := by
    rw [ne_comm, ne_eq, List.map_eq_nil_iff]
    exact h
  unfold shellCommands
  cases spec.environment_file <;> simp [loadCommands, hmap]

theorem stepOf_builtin {name : List Char} {arguments : List (List Char)} (h : name ∈ builtins) :
    stepOf ⟨[], name :: arguments⟩ = builtinStep name arguments := by
  change (if name ∉ builtins then _ else if [] = [] then builtinStep name arguments else none) = _
  rw [if_neg (not_not.mpr h), if_pos rfl]

theorem stepOf_cd {directory : List Char} (h : directory.head? = some '/') :
    stepOf ⟨[], [['c', 'd'], directory]⟩ = some (.cd directory) := by
  rw [stepOf_builtin (by decide), builtinStep, if_pos ⟨by decide, h⟩]

theorem stepOf_load {file : List Char} (h : file.head? = some '/') :
    stepOf ⟨[], [['.'], file]⟩ = some (.load file) := by
  have hname : ¬ (['.'] = "cd".toList ∧ file.head? = some '/') := by
    intro hcd
    exact absurd hcd.1 (by decide)
  rw [stepOf_builtin (by decide), builtinStep, if_neg hname, if_pos ⟨by decide, h⟩]

theorem stepOf_allexport : stepOf ⟨[], [['s', 'e', 't'], ['-', 'a']]⟩ = some (.allexport true) ∧
    stepOf ⟨[], [['s', 'e', 't'], ['+', 'a']]⟩ = some (.allexport false) := by decide

theorem names_untaken : ShellWords.taken ['c', 'd'] = false ∧
    ShellWords.taken ['s', 'e', 't'] = false ∧ ShellWords.taken ['.'] = false := by decide

/-- What the shell does for the line, up to what it takes the program for. -/
theorem steps_eq (spec : ScheduleSpec) {tokens : List String} (h : tokens ≠ []) :
    (commands (cd_and_run spec tokens)).bind (fun found => found.mapM stepOf) =
      ((simple ((tokens.map String.toList).map quotedWord)).bind stepOf).map fun last =>
        .cd spec.project_root.text.toList :: (loadSteps spec.environment_file ++ [last]) := by
  have hne : shellCommands spec tokens ≠ [] := List.cons_ne_nil _ _
  obtain ⟨hcd, hset, hdot⟩ := names_untaken
  obtain ⟨hon, hoff⟩ := stepOf_allexport
  have hroot := stepOf_cd spec.project_root.absolute
  rw [cd_and_run_eq, ShellWords.commands_chain hne (shellCommands_nonempty h), shellCommands]
  generalize (tokens.map String.toList) = args
  cases spec.environment_file with
  | none =>
    simp only [loadCommands, List.nil_append, List.mapM_cons, List.mapM_nil,
      ShellWords.simple_quoted _ hcd]
    cases simple (args.map quotedWord) with
    | none => rfl
    | some last =>
      cases hlast : stepOf last <;> simp [hroot, hlast, loadSteps]
  | some file =>
    have hload := stepOf_load file.absolute
    simp only [loadCommands, List.cons_append, List.nil_append, List.mapM_cons, List.mapM_nil,
      ShellWords.simple_quoted _ hcd, ShellWords.simple_quoted _ hset,
      ShellWords.simple_quoted _ hdot]
    cases simple (args.map quotedWord) with
    | none => rfl
    | some last =>
      cases hlast : stepOf last <;> simp [hroot, hlast, hload, hon, hoff, loadSteps]

/-- The shell looks the program up under the name it has in the line. -/
def Callable (name : List Char) : Prop := ShellWords.taken name = false ∧ name ∉ builtins

instance (name : List Char) : Decidable (Callable name) := inferInstanceAs (Decidable (_ ∧ _))

theorem builtinStep_ne_program {name : List Char} {arguments assignments argv : List (List Char)} :
    builtinStep name arguments ≠ some (.program assignments argv) := by
  intro h
  unfold builtinStep at h
  split at h
  · split_ifs at h <;> cases h
  · cases h

theorem stepOf_program {command : Simple} {assignments argv : List (List Char)}
    (h : stepOf command = some (.program assignments argv)) :
    command = ⟨assignments, argv⟩ ∧ ∀ name ∈ argv.head?, name ∉ builtins := by
  obtain ⟨assignments', argv'⟩ := command
  cases argv' with
  | nil => cases h
  | cons name arguments =>
    change (if name ∉ builtins then some (Step.program assignments' (name :: arguments))
      else if assignments' = [] then builtinStep name arguments else none) = _ at h
    split at h
    · next hname =>
      cases h
      refine ⟨rfl, ?_⟩
      rintro found ⟨⟩
      exact hname
    · split at h
      · exact absurd h builtinStep_ne_program
      · cases h

theorem programStep_iff {name : List Char} {arguments : List (List Char)} :
    (simple ((name :: arguments).map quotedWord)).bind stepOf =
      some (.program [] (name :: arguments)) ↔ Callable name := by
  constructor
  · intro h
    obtain ⟨command, hcommand, hstep⟩ := Option.bind_eq_some_iff.mp h
    obtain ⟨rfl, hname⟩ := stepOf_program hstep
    exact ⟨(ShellWords.taken_of_simple hcommand).1, hname name rfl⟩
  · intro h
    obtain ⟨htaken, hbuiltin⟩ := h
    rw [ShellWords.simple_quoted arguments htaken, Option.bind_some]
    change (if name ∉ builtins then _ else _) = _
    rw [if_pos hbuiltin]

/-! ## Nothing is lost -/

def Step.text : Step → List Char
  | .cd directory => directory
  | .allexport _ => []
  | .load file => file
  | .program assignments argv => assignments.flatten ++ argv.flatten

theorem builtinStep_count {name : List Char} {arguments : List (List Char)} {step : Step} {x : Char}
    (h : builtinStep name arguments = some step) :
    step.text.count x ≤ (name :: arguments).flatten.count x := by
  unfold builtinStep at h
  split at h
  · split_ifs at h <;> cases h <;> simp [Step.text]
  · cases h

theorem stepOf_count {command : Simple} {step : Step} {x : Char} (h : stepOf command = some step) :
    step.text.count x ≤ command.text.count x := by
  obtain ⟨assignments, argv⟩ := command
  cases argv with
  | nil => cases h
  | cons name arguments =>
    change (if name ∉ builtins then some (Step.program assignments (name :: arguments))
      else if assignments = [] then builtinStep name arguments else none) = _ at h
    split at h
    · cases h
      exact le_rfl
    · split at h
      · have hcount := builtinStep_count (x := x) h
        rw [Simple.text, List.count_append]
        exact hcount.trans (Nat.le_add_left _ _)
      · cases h

theorem steps_count {found : List Simple} {steps : List Step} {x : Char}
    (h : found.mapM stepOf = some steps) :
    (steps.flatMap Step.text).count x ≤ (found.flatMap Simple.text).count x := by
  induction found generalizing steps with
  | nil =>
    cases h
    exact le_rfl
  | cons command found ih =>
    cases hstep : stepOf command with
    | none => simp [List.mapM_cons, hstep] at h
    | some step =>
      cases hrest : found.mapM stepOf with
      | none => simp [List.mapM_cons, hstep, hrest] at h
      | some rest =>
        simp only [List.mapM_cons, hstep, hrest] at h
        cases h
        rw [List.flatMap_cons, List.flatMap_cons, List.count_append, List.count_append]
        exact Nat.add_le_add (stepOf_count hstep) (ih hrest)

/-- Of these characters quoting adds none. -/
def watched : List Char := ['%', '\\', '\n']

theorem watched_names : ∀ x ∈ watched, ShellWords.Foreign x ∧ ∀ name ∈ [['c', 'd'],
    ['s', 'e', 't'], ['-', 'a'], ['.'], ['+', 'a']], name.count x = 0 :=
  CheckedLists.forall_of_all (by decide)

theorem cd_and_run_count (spec : ScheduleSpec) (tokens : List String) {x : Char}
    (hx : x ∈ watched) : (cd_and_run spec tokens).count x =
      ((intended spec tokens).steps.flatMap Step.text).count x := by
  obtain ⟨hforeign, hnames⟩ := watched_names x hx
  have hcd := hnames ['c', 'd'] (by decide)
  have hset := hnames ['s', 'e', 't'] (by decide)
  have hon := hnames ['-', 'a'] (by decide)
  have hdot := hnames ['.'] (by decide)
  have hoff := hnames ['+', 'a'] (by decide)
  rw [cd_and_run_eq, ShellWords.chain_count hforeign, shellCommands, intended]
  generalize ['c', 'd'] = cd at hcd ⊢
  cases spec.environment_file with
  | none => simp [loadCommands, loadSteps, Step.text, hcd]
  | some file =>
    rw [loadCommands]
    generalize ['s', 'e', 't'] = set at hset ⊢
    generalize ['-', 'a'] = on at hon ⊢
    generalize ['.'] = dot at hdot ⊢
    generalize ['+', 'a'] = off at hoff ⊢
    simp [loadSteps, Step.text, hcd, hset, hon, hdot, hoff]

/-! ## When the line is read as it is meant -/

/-- Neither the end of a command nor that of a line. -/
def Plain (text : List Char) : Prop := '%' ∉ text ∧ '\n' ∉ text

instance (text : List Char) : Decidable (Plain text) := inferInstanceAs (Decidable (_ ∧ _))

/-- What stands on the line between the schedule and the command. -/
def userTail (spec : ScheduleSpec) : List Char :=
  match userField spec with
  | some user => ' ' :: user
  | none => []

structure Sound (accepts : List (List Char) → Bool) (spec : ScheduleSpec) : Prop where
  interval : Timed accepts (cron_expression spec.interval).toList (userTail spec)
  interval_line : '\n' ∉ (cron_expression spec.interval).toList
  user : ∀ user, userField spec = some user →
    '\n' ∉ user ∧ ∀ c ∈ user, CrontabLines.isBlank c = false
  project_root : Plain spec.project_root.text.toList
  config_path : Plain spec.config_path.text.toList
  environment_file : ∀ file, spec.environment_file = some file → Plain file.text.toList
  environment : spec.command ≠ "doctor" → Plain spec.environment.toList
  odooctl_bin : Plain spec.odooctl_bin.toList
  callable : Callable spec.odooctl_bin.toList

theorem render_cron_eq {spec : ScheduleSpec} {tokens : List String}
    (h : invocation_tokens spec = .ok tokens) : render_cron spec =
      .ok ((cron_expression spec.interval).toList ++
        (userTail spec ++ ' ' :: cd_and_run spec tokens) ++ ['\n']) := by
  unfold render_cron userTail
  rw [h]
  change (match userField spec with
    | some user => Except.ok _
    | none => Except.ok _) = _
  cases userField spec with
  | none => simp
  | some user => simp

theorem cd_and_run_head (spec : ScheduleSpec) (tokens : List String) :
    ∃ cs, cd_and_run spec tokens = 'c' :: cs := by
  obtain ⟨htext, -⟩ := load_texts
  unfold cd_and_run
  rw [htext]
  exact ⟨_, rfl⟩

theorem reading_eq_some {accepts : List (List Char) → Bool} {system : Bool} {text : List Char}
    {r : Reading} : reading accepts system text = some r ↔ ∃ line entry found,
      oneLine text = some line ∧ readEntry accepts system line = some entry ∧
      commands (CrontabLines.command entry.command) = some found ∧
      found.mapM stepOf = some r.steps ∧ r.schedule = entry.schedule ∧ r.user = entry.user := by
  simp only [reading, Option.bind_eq_bind, Option.bind_eq_some_iff]
  constructor
  · rintro ⟨line, hline, entry, hentry, found, hfound, steps, hsteps, hr⟩
    cases hr
    exact ⟨line, entry, found, hline, hentry, hfound, hsteps, rfl, rfl⟩
  · rintro ⟨line, entry, found, hline, hentry, hfound, hsteps, hschedule, huser⟩
    refine ⟨line, hline, entry, hentry, found, hfound, r.steps, hsteps, ?_⟩
    rw [← hschedule, ← huser]
    rfl

theorem userField_ne_nil {spec : ScheduleSpec} {user : List Char} (h : userField spec = some user) :
    user ≠ [] := by
  unfold userField at h
  split at h
  · cases h
  · next hne =>
    cases h
    intro hnil
    exact hne (String.toList_inj.mp hnil)

section Line

variable {accepts : List (List Char) → Bool} {spec : ScheduleSpec} {tokens : List String}
  {entry : CrontabLines.Entry}

theorem blank_c : CrontabLines.isBlank 'c' = false ∧ 'c' ≠ '=' := by decide

/-- What cron takes from the line of a schedule that it takes as one. -/
theorem readEntry_line
    (htimed : Timed accepts (cron_expression spec.interval).toList (userTail spec))
    (huser : ∀ user, userField spec = some user → ∀ c ∈ user, CrontabLines.isBlank c = false) :
    readEntry accepts (userField spec).isSome ((cron_expression spec.interval).toList ++
      (userTail spec ++ ' ' :: cd_and_run spec tokens)) =
    some ⟨words (cron_expression spec.interval).toList, userField spec,
      cd_and_run spec tokens⟩ := by
  obtain ⟨cs, hcs⟩ := cd_and_run_head spec tokens
  obtain ⟨hblank, heq⟩ := blank_c
  rw [hcs]
  cases hfield : userField spec with
  | none =>
    rw [userTail, hfield] at htimed ⊢
    exact CrontabLines.readEntry_timed htimed hblank heq
  | some user =>
    rw [userTail, hfield] at htimed ⊢
    exact CrontabLines.readEntry_user htimed (userField_ne_nil hfield) (huser user hfield) hblank
      heq

/-- Where the schedule and the user are read as they were meant, cron takes them so. -/
theorem timed_of_line (h : readEntry accepts (userField spec).isSome
      ((cron_expression spec.interval).toList ++
        (userTail spec ++ ' ' :: cd_and_run spec tokens)) = some entry)
    (hschedule : entry.schedule = words (cron_expression spec.interval).toList)
    (huser : entry.user = userField spec) :
    Timed accepts (cron_expression spec.interval).toList (userTail spec) ∧
      ∀ user, userField spec = some user → ∀ c ∈ user, CrontabLines.isBlank c = false := by
  obtain ⟨cs, hcs⟩ := cd_and_run_head spec tokens
  obtain ⟨hblank, heq⟩ := blank_c
  rw [hcs] at h
  refine ⟨CrontabLines.timed_of_entry hblank heq h hschedule, ?_⟩
  intro user hfield
  rw [hfield] at h huser
  exact CrontabLines.user_of_entry h huser

theorem tokens_cons (h : invocation_tokens spec = .ok tokens) :
    ∃ arguments, tokens = spec.odooctl_bin :: arguments := by
  unfold invocation_tokens at h
  obtain ⟨found, -, h⟩ := CheckedLists.bind_eq_ok.mp h
  cases h
  exact ⟨_, rfl⟩

/-- The line is read as it is meant if cron and the shell leave its texts alone. -/
theorem reading_of_sound (htokens : invocation_tokens spec = .ok tokens)
    (htimed : Timed accepts (cron_expression spec.interval).toList (userTail spec))
    (huser : ∀ user, userField spec = some user → ∀ c ∈ user, CrontabLines.isBlank c = false)
    (hline : '\n' ∉ (cron_expression spec.interval).toList ++
      (userTail spec ++ ' ' :: cd_and_run spec tokens))
    (hpercent : '%' ∉ cd_and_run spec tokens) (hcallable : Callable spec.odooctl_bin.toList) :
    reading accepts (userField spec).isSome ((cron_expression spec.interval).toList ++
      (userTail spec ++ ' ' :: cd_and_run spec tokens) ++ ['\n']) =
        some (intended spec tokens) := by
  obtain ⟨arguments, rfl⟩ := tokens_cons htokens
  have hsteps := steps_eq spec (List.cons_ne_nil spec.odooctl_bin arguments)
  rw [List.map_cons, programStep_iff.mpr hcallable, Option.map_some] at hsteps
  obtain ⟨found, hfound, hsteps⟩ := Option.bind_eq_some_iff.mp hsteps
  rw [reading_eq_some]
  refine ⟨_, _, found, CrontabLines.oneLine_iff.mpr ⟨rfl, hline⟩, readEntry_line htimed huser, ?_,
    hsteps, rfl, rfl⟩
  rw [CrontabLines.command_of_plain hpercent]
  exact hfound

theorem sound_of_reading (htokens : invocation_tokens spec = .ok tokens)
    (h : reading accepts (userField spec).isSome ((cron_expression spec.interval).toList ++
      (userTail spec ++ ' ' :: cd_and_run spec tokens) ++ ['\n']) =
        some (intended spec tokens)) :
    Timed accepts (cron_expression spec.interval).toList (userTail spec) ∧
    (∀ user, userField spec = some user → ∀ c ∈ user, CrontabLines.isBlank c = false) ∧
    '\n' ∉ (cron_expression spec.interval).toList ++
      (userTail spec ++ ' ' :: cd_and_run spec tokens) ∧
    '%' ∉ cd_and_run spec tokens ∧ Callable spec.odooctl_bin.toList := by
  obtain ⟨line, entry, found, hone, hentry, hfound, hsteps, hschedule, huser⟩ :=
    reading_eq_some.mp h
  obtain ⟨rfl, hline⟩ := CrontabLines.oneLine_iff.mp hone
  obtain ⟨htimed, hblanks⟩ := timed_of_line hentry hschedule.symm huser.symm
  rw [readEntry_line htimed hblanks] at hentry
  cases hentry
  have hlost : ∀ x ∈ watched, (cd_and_run spec tokens).count x ≤
      (CrontabLines.command (cd_and_run spec tokens)).count x := by
    intro x hx
    rw [cd_and_run_count spec tokens hx]
    exact (steps_count hsteps).trans (ShellWords.commands_count hfound)
  have hpercent : '%' ∉ cd_and_run spec tokens := by
    intro hmem
    rcases CrontabLines.command_loses hmem with hfewer | hfewer
    · exact absurd (hlost '%' (by decide)) (Nat.not_le_of_lt hfewer)
    · exact absurd (hlost '\\' (by decide)) (Nat.not_le_of_lt hfewer)
  refine ⟨htimed, hblanks, hline, hpercent, ?_⟩
  obtain ⟨arguments, rfl⟩ := tokens_cons htokens
  rw [CrontabLines.command_of_plain hpercent] at hfound
  have hread := steps_eq spec (List.cons_ne_nil spec.odooctl_bin arguments)
  rw [hfound, Option.bind_some, hsteps, List.map_cons] at hread
  obtain ⟨last, hlast, hmeant⟩ := Option.map_eq_some_iff.mp hread.symm
  have hprogram : last = .program [] (spec.odooctl_bin.toList :: arguments.map String.toList) := by
    have htail := (List.cons.inj hmeant).2
    exact (List.cons.inj (List.append_cancel_left htail)).1
  rw [hprogram] at hlast
  exact programStep_iff.mp hlast

/-! ## The texts of a line -/

def fixedTokens : List String :=
  ["backup", "--verify", "backup-remote", "verify", "dr", "drill", "doctor", "sync", "pitr",
    "base", "create", "retention", "reconcile", "--project-dir", "--config"]

theorem fixedTokens_free : ∀ x ∈ ['%', '\n'], ∀ token ∈ fixedTokens, x ∉ token.toList :=
  CheckedLists.forall_of_all (by decide)

/-- Every command has tokens: the environment, except for `doctor`, and fixed ones. -/
theorem command_tokens_mem {command environment : String} {found : List String}
    (h : command_tokens command environment = .ok found) :
    (∀ token ∈ found, token ∈ fixedTokens ∨ token = environment ∧ command ≠ "doctor") ∧
      (command ≠ "doctor" → environment ∈ found) := by
  unfold command_tokens at h
  split_ifs at h with hbackup hremote hdrill hdoctor hsync hbase hreconcile
  all_goals
    cases h
    subst_vars
    simp [fixedTokens]

theorem command_tokens_ok {command : String} (environment : String)
    (h : command ∈ SCHEDULE_COMMANDS) :
    ∃ found, command_tokens command environment = .ok found := by
  simp only [SCHEDULE_COMMANDS, List.mem_cons, List.not_mem_nil, or_false] at h
  rcases h with rfl | rfl | rfl | rfl | rfl | rfl | rfl
  all_goals exact ⟨_, rfl⟩

theorem tokens_free {x : Char} (hx : x ∈ ['%', '\n']) (h : invocation_tokens spec = .ok tokens) :
    (∀ token ∈ tokens, x ∉ token.toList) ↔ x ∉ spec.odooctl_bin.toList ∧
      x ∉ spec.project_root.text.toList ∧ x ∉ spec.config_path.text.toList ∧
      (spec.command ≠ "doctor" → x ∉ spec.environment.toList) := by
  have hfixed := fixedTokens_free x hx
  unfold invocation_tokens at h
  obtain ⟨found, hfound, h⟩ := CheckedLists.bind_eq_ok.mp h
  cases h
  obtain ⟨hmem, henvironment⟩ := command_tokens_mem hfound
  constructor
  · intro hall
    refine ⟨hall _ (by simp), hall _ (by simp), hall _ (by simp), ?_⟩
    intro hdoctor
    exact hall _ (by simp [henvironment hdoctor])
  · intro hfree token htoken
    obtain ⟨hbin, hroot, hconfig, henv⟩ := hfree
    simp only [List.mem_cons, List.mem_append, List.not_mem_nil, or_false] at htoken
    rcases htoken with rfl | rfl | rfl | hcommand | rfl | rfl
    · exact hbin
    · exact hfixed _ (by decide)
    · exact hroot
    · rcases hmem token hcommand with hword | ⟨rfl, hdoctor⟩
      · exact hfixed token hword
      · exact henv hdoctor
    · exact hfixed _ (by decide)
    · exact hconfig

theorem cd_and_run_free {x : Char} (hx : x ∈ watched) : x ∉ cd_and_run spec tokens ↔
    x ∉ spec.project_root.text.toList ∧
      (∀ file, spec.environment_file = some file → x ∉ file.text.toList) ∧
      ∀ token ∈ tokens, x ∉ token.toList := by
  rw [← List.count_eq_zero, cd_and_run_count spec tokens hx, List.count_eq_zero, intended]
  cases spec.environment_file with
  | none => simp [loadSteps, Step.text]
  | some file => simp [loadSteps, Step.text]

theorem userTail_free :
    '\n' ∉ userTail spec ↔ ∀ user, userField spec = some user → '\n' ∉ user := by
  unfold userTail
  cases userField spec <;> simp

end Line

theorem build_spec_command {host : Host} {ctx : ProjectContext}
    {command environment interval odooctl_bin : String} {user environment_file : Option String}
    {spec : ScheduleSpec} (h : build_spec host ctx command environment interval user odooctl_bin
      environment_file = .ok spec) : spec.command ∈ SCHEDULE_COMMANDS := by
  unfold build_spec at h
  split at h
  · cases h
  next hcommand =>
  split at h
  · cases h
  split at h
  · cases h
  split at h
  · cases h
  obtain ⟨resolved, -, h⟩ := CheckedLists.bind_eq_ok.mp h
  cases h
  exact not_not.mp hcommand

/-- For every specification that is built: cron and the shell read in its line the intended
command and nothing else exactly if the interval is a schedule of one line, the user one word,
no path and not the program has a `%` or a line break, and the shell takes the program's name
for nothing else. -/
theorem cron_line_runs_iff {host : Host} {ctx : ProjectContext}
    {command environment interval odooctl_bin : String} {user environment_file : Option String}
    {spec : ScheduleSpec} (accepts : List (List Char) → Bool)
    (h : build_spec host ctx command environment interval user odooctl_bin environment_file =
      .ok spec) : RunsIntended accepts spec ↔ Sound accepts spec := by
  obtain ⟨found, hfound⟩ := command_tokens_ok spec.environment (build_spec_command h)
  obtain ⟨tokens, htokens⟩ : ∃ tokens, invocation_tokens spec = .ok tokens := by
    unfold invocation_tokens
    rw [hfound]
    exact ⟨_, rfl⟩
  have hrender := render_cron_eq htokens
  constructor
  · rintro ⟨tokens', text, htokens', htext, hread⟩
    rw [htokens] at htokens'
    cases htokens'
    rw [hrender] at htext
    cases htext
    obtain ⟨htimed, huser, hline, hpercent, hcallable⟩ := sound_of_reading htokens hread
    simp only [List.mem_append, List.mem_cons, not_or] at hline
    obtain ⟨hinterval, htail, -, hcommand⟩ := hline
    obtain ⟨hroot, hfile, htoken⟩ := (cd_and_run_free (by decide)).mp hcommand
    obtain ⟨hroot', hfile', htoken'⟩ := (cd_and_run_free (by decide)).mp hpercent
    obtain ⟨hbin, -, hconfig, henv⟩ := (tokens_free (by decide) htokens).mp htoken
    obtain ⟨hbin', -, hconfig', henv'⟩ := (tokens_free (by decide) htokens).mp htoken'
    constructor
    · exact htimed
    · exact hinterval
    · exact fun user hfield => ⟨userTail_free.mp htail user hfield, huser user hfield⟩
    · exact ⟨hroot', hroot⟩
    · exact ⟨hconfig', hconfig⟩
    · exact fun file hsome => ⟨hfile' file hsome, hfile file hsome⟩
    · exact fun hdoctor => ⟨henv' hdoctor, henv hdoctor⟩
    · exact ⟨hbin', hbin⟩
    · exact hcallable
  · intro hsound
    have htoken := (tokens_free (x := '\n') (by decide) htokens).mpr
      ⟨hsound.odooctl_bin.2, hsound.project_root.2, hsound.config_path.2,
        fun hdoctor => (hsound.environment hdoctor).2⟩
    have htoken' := (tokens_free (x := '%') (by decide) htokens).mpr
      ⟨hsound.odooctl_bin.1, hsound.project_root.1, hsound.config_path.1,
        fun hdoctor => (hsound.environment hdoctor).1⟩
    have hcommand : '\n' ∉ cd_and_run spec tokens := (cd_and_run_free (by decide)).mpr
      ⟨hsound.project_root.2, fun file hsome => (hsound.environment_file file hsome).2, htoken⟩
    have hpercent : '%' ∉ cd_and_run spec tokens := (cd_and_run_free (by decide)).mpr
      ⟨hsound.project_root.1, fun file hsome => (hsound.environment_file file hsome).1, htoken'⟩
    have htail : '\n' ∉ userTail spec :=
      userTail_free.mpr fun user hfield => (hsound.user user hfield).1
    have hline : '\n' ∉ (cron_expression spec.interval).toList ++
        (userTail spec ++ ' ' :: cd_and_run spec tokens) := by
      simp only [List.mem_append, List.mem_cons, not_or]
      exact ⟨hsound.interval_line, htail, by decide, hcommand⟩
    exact ⟨tokens, _, htokens, hrender, reading_of_sound htokens hsound.interval
      (fun user hfield => (hsound.user user hfield).2) hline hpercent hsound.callable⟩

/-! ## A project whose directory has a percent sign -/

def shopHost : Host where
  expanduser := fun value => .ok value
  resolve := fun root value => ⟨root.text ++ "/" ++ value, by
    rw [String.toList_append, String.toList_append, List.head?_append, List.head?_append,
      root.absolute]
    rfl⟩

def shop (root : String) (h : root.toList.head? = some '/') : ProjectContext where
  root := ⟨root, h⟩
  config_path := ⟨root ++ "/odooctl.yml", by rw [String.toList_append, List.head?_append, h]; rfl⟩
  project_name := "shop"
  environments := ["production"]
  pitr_enabled := false
  pitr_environment := "production"

def shopSpec (root : String) (h : root.toList.head? = some '/') : ScheduleSpec where
  command := "backup"
  environment := "production"
  project_root := (shop root h).root
  config_path := (shop root h).config_path
  interval := "daily"
  user := none
  odooctl_bin := "odooctl"
  environment_file := some ⟨"/etc/odooctl/acme.env", by decide⟩
  project_name := "shop"

theorem shopSpec_built (root : String) (h : root.toList.head? = some '/') :
    build_spec shopHost (shop root h) "backup" "production" "daily" none "odooctl"
      (some "/etc/odooctl/acme.env") = .ok (shopSpec root h) := by
  have hcommand : ¬ "backup" ∉ SCHEDULE_COMMANDS := by decide
  have henvironment : ¬ "production" ∉ (shop root h).environments := by simp [shop]
  have hplain : isPitr "backup" = false := by decide
  have hfile : resolve_environment_file shopHost (shop root h) (some "/etc/odooctl/acme.env") =
      .ok (some ⟨"/etc/odooctl/acme.env", by decide⟩) := rfl
  unfold build_spec
  rw [if_neg hcommand, if_neg henvironment, hplain, if_neg (by simp), if_neg (by simp), hfile]
  rfl

/-- A cron that takes any schedule. -/
def anySchedule (_ : List (List Char)) : Bool := true

theorem shop_line_runs : RunsIntended anySchedule (shopSpec "/srv/odoo shop" (by decide)) := by
  apply (cron_line_runs_iff anySchedule (shopSpec_built "/srv/odoo shop" (by decide))).mpr
  constructor
  · constructor <;> decide
  · decide
  · intro user hfield
    cases hfield
  · decide
  · decide
  · intro file hfile
    cases hfile
    decide
  · decide
  · decide
  · decide

theorem percent_absolute : "/srv/100%/shop".toList.head? = some '/' := by decide

/-- `cd /srv/100` is all that is left of the command of this project. -/
theorem percent_root_cut :
    build_spec shopHost (shop "/srv/100%/shop" percent_absolute) "backup" "production" "daily" none
      "odooctl" (some "/etc/odooctl/acme.env") =
        .ok (shopSpec "/srv/100%/shop" percent_absolute) ∧
    ¬ RunsIntended anySchedule (shopSpec "/srv/100%/shop" percent_absolute) := by
  refine ⟨shopSpec_built _ _, ?_⟩
  intro h
  obtain ⟨tokens, text, htokens, htext, hread⟩ := h
  cases htokens
  cases htext
  revert hread
  decide +kernel

end CronSchedule
