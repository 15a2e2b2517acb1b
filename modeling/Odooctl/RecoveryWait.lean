import Odooctl.PitrRestoreRecord
import Odooctl.WalSegmentOrder

/-!
# Waiting for a scratch cluster at its recovery target

`_wait_for_target` of `adapters/pitr_runtime.py` with the parser of its status row, and the
row as `psql` prints it.
-/
namespace RecoveryWait

open PythonIntegers PythonText

inductive RuntimeFailure where
  | pitrRuntimeError (message : String)
  | valueError (message : String)
  deriving DecidableEq, Repr

abbrev Result := Except RuntimeFailure

/-- Microseconds of UTC. -/
abbrev Instant := ℤ

structure PitrRecoveryStatus where
  in_recovery : Bool
  replay_paused : Bool
  timeline : ℤ
  replay_lsn : Option String
  last_replay_timestamp : Option Instant
  deriving DecidableEq, Repr

/-- What one attempt sees: `pg_isready` failed, the query failed, or the query's output. -/
inductive Poll where
  | not_ready
  | query_failed
  | answered (stdout : String)
  deriving DecidableEq, Repr

def isFlag (text : String) : Bool := text == "t" || text == "f"

/-- `fromisoformat` is `datetime.fromisoformat(_).astimezone(timezone.utc)`. -/
def parse_status (fromisoformat : String → Option Instant) (output : String) :
    Result PitrRecoveryStatus :=
  match ((trim PitrRestoreRecord.isSpace output.toList).splitOn '\t').map String.ofList with
  | [in_recovery, paused, timeline, replay_lsn, replay_time] =>
    if ¬ (isFlag in_recovery ∧ isFlag paused) then
      .error (.pitrRuntimeError "scratch PostgreSQL returned invalid recovery flags")
    else
      match int 10 timeline.toList,
          if replay_time = "" then some none else (fromisoformat replay_time).map some with
      | some parsed_timeline, some parsed_replay_time => .ok
          { in_recovery := in_recovery == "t"
            replay_paused := paused == "t"
            timeline := parsed_timeline
            replay_lsn := if replay_lsn = "" then none else some replay_lsn
            last_replay_timestamp := parsed_replay_time }
      | _, _ => .error (.pitrRuntimeError "scratch PostgreSQL returned invalid recovery metadata")
  | _ => .error (.pitrRuntimeError "scratch PostgreSQL returned invalid recovery status")

/-- What the body of the loop makes of one status: `some` is the status it returns, `none`
goes on to the next attempt. -/
def judge (target : Instant) (timeline : String) (status : PitrRecoveryStatus) :
    Result (Option PitrRecoveryStatus) := do
  if ¬ status.in_recovery then
    .error (.pitrRuntimeError "scratch PostgreSQL left recovery; refusing a promoted cluster")
  else
    let unexpected ← if timeline = "latest" then pure false else
      match int 10 timeline.toList with
      | some requested => pure (decide (status.timeline ≠ requested))
      | none => .error (.valueError ("invalid literal for int() with base 10: " ++ quoted timeline))
    if unexpected then
      .error (.pitrRuntimeError "scratch PostgreSQL recovered on an unexpected timeline")
    else if status.replay_paused then
      if status.last_replay_timestamp.any (target < ·) then
        .error (.pitrRuntimeError "scratch PostgreSQL replayed past the requested target")
      else .ok (some status)
    else .ok none

def attempt (fromisoformat : String → Option Instant) (target : Instant) (timeline : String) :
    Poll → Result (Option PitrRecoveryStatus)
  | .not_ready | .query_failed => .ok none
  | .answered stdout => do
    let status ← parse_status fromisoformat stdout
    judge target timeline status

/-- `for attempt in range(attempts)` with the attempts that are left. -/
def attempts_from (fromisoformat : String → Option Instant) (target : Instant) (timeline : String)
    (polls : ℕ → Poll) : ℕ → ℕ → Result PitrRecoveryStatus
  | _, 0 => .error (.pitrRuntimeError
      "scratch PostgreSQL did not pause at the requested recovery target")
  | i, left + 1 => do
    match ← attempt fromisoformat target timeline (polls i) with
    | some status => .ok status
    | none => attempts_from fromisoformat target timeline polls (i + 1) left

/-- `quotient` is `math.ceil(timeout_seconds / poll_interval_seconds)`. -/
def attempts (quotient : ℤ) : ℕ := (max 1 quotient).toNat

def wait_for_target (fromisoformat : String → Option Instant) (quotient : ℤ) (target : Instant)
    (timeline : String) (polls : ℕ → Poll) : Result PitrRecoveryStatus :=
  attempts_from fromisoformat target timeline polls 0 (attempts quotient)

/-! ## The row that PostgreSQL reports -/

structure StatusRow where
  in_recovery : Bool
  replay_paused : Bool
  timeline_id : ℕ
  replay_lsn : Option ℕ
  last_replay_timestamp : Option Instant
  deriving DecidableEq, Repr

/-- `boolean::text`. -/
def booleanText (b : Bool) : String := if b then "true" else "false"

/-- The row of `status_sql` under `--tuples-only --no-align` with tabs between its fields;
`timestampText` is the text of a `timestamptz` in the server's time zone. -/
def psqlText (timestampText : Instant → String) (row : StatusRow) : String :=
  booleanText row.in_recovery ++ "\t" ++ (booleanText row.replay_paused ++ "\t" ++
    toString row.timeline_id ++ "\t" ++ (row.replay_lsn.map WalSegmentOrder.lsnText).getD "" ++
    "\t" ++ (row.last_replay_timestamp.map timestampText).getD "" ++ "\n")

inductive Outcome where
  | not_ready
  | query_failed
  | reported (row : StatusRow)
  deriving DecidableEq, Repr

def Outcome.poll (timestampText : Instant → String) : Outcome → Poll
  | .not_ready => .not_ready
  | .query_failed => .query_failed
  | .reported row => .answered (psqlText timestampText row)

def OnTimeline (timeline : String) (row : StatusRow) : Prop :=
  timeline = "latest" ∨ int 10 timeline.toList = some (row.timeline_id : ℤ)

/-- A cluster that is in recovery and paused at the target. -/
structure AtTarget (target : Instant) (timeline : String) (row : StatusRow) : Prop where
  in_recovery : row.in_recovery = true
  paused : row.replay_paused = true
  on_timeline : OnTimeline timeline row
  not_past : ∀ last, row.last_replay_timestamp = some last → last ≤ target

/-- Some attempt sees a cluster at the target, and no earlier one a promoted cluster or
another timeline. -/
def ReachesTarget (target : Instant) (timeline : String) (n : ℕ) (outcomes : ℕ → Outcome) :
    Prop :=
  ∃ i < n, (∃ row, outcomes i = .reported row ∧ AtTarget target timeline row) ∧
    ∀ j < i, ∀ row, outcomes j = .reported row → row.in_recovery = true ∧ OnTimeline timeline row

section

variable {fromisoformat : String → Option Instant} {timestampText : Instant → String}
  {target : Instant} {timeline : String} {polls : ℕ → Poll} {status : PitrRecoveryStatus}

/-- The loop returns the first status that an attempt accepts, if no attempt before it
refused. -/
theorem attempts_from_eq_ok {i left : ℕ} :
    attempts_from fromisoformat target timeline polls i left = .ok status ↔
      ∃ k < left, attempt fromisoformat target timeline (polls (i + k)) = .ok (some status) ∧
        ∀ j < k, attempt fromisoformat target timeline (polls (i + j)) = .ok none := by
  induction left generalizing i with
  | zero => simp [attempts_from]
  | succ left ih =>
    rw [attempts_from]
    cases hattempt : attempt fromisoformat target timeline (polls i) with
    | error e =>
      constructor
      · intro h
        cases h
      · rintro ⟨k, -, hk, hbefore⟩
        cases k with
        | zero =>
          rw [Nat.add_zero, hattempt] at hk
          cases hk
        | succ k =>
          have h0 := hbefore 0 (Nat.succ_pos k)
          rw [Nat.add_zero, hattempt] at h0
          cases h0
    | ok judged =>
      cases judged with
      | some found =>
        constructor
        · intro h
          obtain rfl : found = status := Except.ok.inj h
          exact ⟨0, Nat.succ_pos left, hattempt, fun j hj => absurd hj (Nat.not_lt_zero j)⟩
        · rintro ⟨k, -, hk, hbefore⟩
          cases k with
          | zero =>
            rw [Nat.add_zero, hattempt] at hk
            rw [← Option.some.inj (Except.ok.inj hk)]
            rfl
          | succ k =>
            have h0 := hbefore 0 (Nat.succ_pos k)
            rw [Nat.add_zero, hattempt] at h0
            cases h0
      | none =>
        refine Iff.trans (ih (i := i + 1)) ?_
        constructor
        · rintro ⟨k, hk, hfound, hbefore⟩
          refine ⟨k + 1, by omega, by rwa [show i + (k + 1) = i + 1 + k by omega], ?_⟩
          intro j hj
          cases j with
          | zero => exact hattempt
          | succ j =>
            rw [show i + (j + 1) = i + 1 + j by omega]
            exact hbefore j (by omega)
        · rintro ⟨k, hk, hfound, hbefore⟩
          cases k with
          | zero =>
            rw [Nat.add_zero, hattempt] at hfound
            cases hfound
          | succ k =>
            refine ⟨k, by omega, by rwa [show i + 1 + k = i + (k + 1) by omega], ?_⟩
            intro j hj
            rw [show i + 1 + j = i + (j + 1) by omega]
            exact hbefore (j + 1) (by omega)

/-! ## What the parser makes of a printed row -/

theorem trim_append {p : Char → Bool} {cs ds : List Char} (hne : cs ≠ [])
    (h : ∀ c ∈ cs, p c = false) : trim p (cs ++ ds) = cs ++ ds.rdropWhile p := by
  have hhead : (cs ++ ds).dropWhile p = cs ++ ds := by
    obtain ⟨c, rest, rfl⟩ := List.exists_cons_of_ne_nil hne
    rw [List.cons_append, List.dropWhile_cons_of_neg (by rw [h c List.mem_cons_self]; decide)]
  have hkept : cs.reverse.dropWhile p = cs.reverse := by
    obtain ⟨c, rest, hrest⟩ := List.exists_cons_of_ne_nil (List.reverse_ne_nil_iff.mpr hne)
    have hc : c ∈ cs := List.mem_reverse.mp (hrest ▸ List.mem_cons_self)
    rw [hrest, List.dropWhile_cons_of_neg (by rw [h c hc]; decide)]
  rw [trim, hhead, List.rdropWhile, List.reverse_append, List.dropWhile_append]
  split
  · next hempty =>
    rw [hkept, List.reverse_reverse, List.rdropWhile, List.isEmpty_iff.mp hempty]
    simp
  · rw [List.reverse_append, List.reverse_reverse, List.rdropWhile]

/-- A row whose first field is printed as a word has no flags. -/
theorem parse_status_refused {word : String} {rest : List Char} {output : String}
    (houtput : output.toList = word.toList ++ '\t' :: rest) (hne : word.toList ≠ [])
    (hspace : ∀ c ∈ word.toList, PitrRestoreRecord.isSpace c = false ∧ c ≠ '\t')
    (hflag : isFlag word = false) : ∃ e, parse_status fromisoformat output = .error e := by
  have hfields : ∃ more, ((trim PitrRestoreRecord.isSpace output.toList).splitOn '\t').map
      String.ofList = word :: more := by
    rw [houtput, trim_append hne fun c hc => (hspace c hc).1]
    have hword : '\t' ∉ word.toList := fun hc => (hspace _ hc).2 rfl
    rcases htail : ('\t' :: rest).rdropWhile PitrRestoreRecord.isSpace with _ | ⟨c, tail⟩
    · refine ⟨[], ?_⟩
      rw [List.append_nil, List.splitOn_eq_singleton hword]
      simp
    · have hprefix := List.rdropWhile_prefix PitrRestoreRecord.isSpace ('\t' :: rest)
      rw [htail] at hprefix
      obtain rfl : c = '\t' := (List.cons_prefix_cons.mp hprefix).1
      refine ⟨(tail.splitOn '\t').map String.ofList, ?_⟩
      rw [List.splitOn_append_cons_self, List.splitOn_eq_singleton hword]
      simp
  obtain ⟨more, hmore⟩ := hfields
  rw [parse_status, hmore]
  split
  · next hmatch =>
    obtain ⟨rfl, -⟩ := List.cons.inj hmatch
    rw [if_pos (by simp [hflag])]
    exact ⟨_, rfl⟩
  · exact ⟨_, rfl⟩

theorem psql_row_refused (row : StatusRow) :
    ∃ e, parse_status fromisoformat (psqlText timestampText row) = .error e := by
  have hword : ∀ b, (booleanText b).toList ≠ [] ∧ isFlag (booleanText b) = false ∧
      (booleanText b).toList.all (fun c => !PitrRestoreRecord.isSpace c && c != '\t') = true := by
    intro b
    cases b <;> decide +kernel
  obtain ⟨hne, hflag, hplain⟩ := hword row.in_recovery
  have hspace : ∀ c ∈ (booleanText row.in_recovery).toList,
      PitrRestoreRecord.isSpace c = false ∧ c ≠ '\t' := by
    simpa [List.all_eq_true] using hplain
  have htext : ∃ rest, (psqlText timestampText row).toList =
      (booleanText row.in_recovery).toList ++ '\t' :: rest := by
    simp [psqlText]
  obtain ⟨rest, hrest⟩ := htext
  exact parse_status_refused hrest hne hspace hflag

/-- No row that PostgreSQL prints is accepted: a boolean as text is no flag of the parser. -/
theorem wait_never_returns {n : ℤ} {outcomes : ℕ → Outcome} :
    wait_for_target fromisoformat n target timeline (fun i => (outcomes i).poll timestampText) ≠
      .ok status := by
  intro h
  obtain ⟨k, -, hk, -⟩ := attempts_from_eq_ok.mp h
  simp only [Nat.zero_add] at hk
  cases houtcome : outcomes k with
  | not_ready =>
    simp [houtcome, Outcome.poll, attempt] at hk
  | query_failed =>
    simp [houtcome, Outcome.poll, attempt] at hk
  | reported row =>
    have hrefused : ∃ e, parse_status fromisoformat (psqlText timestampText row) = .error e :=
      psql_row_refused row
    obtain ⟨e, he⟩ := hrefused
    simp [houtcome, Outcome.poll, attempt, he, bind, Except.bind] at hk

end

/-- The wait keeps its contract exactly on the runs in which no attempt sees a cluster at the
target: it never returns. -/
theorem wait_returns_iff_not_reached (fromisoformat : String → Option Instant)
    (timestampText : Instant → String) (quotient : ℤ) (target : Instant) (timeline : String)
    (outcomes : ℕ → Outcome) :
    ((∃ status, wait_for_target fromisoformat quotient target timeline
        (fun i => (outcomes i).poll timestampText) = .ok status) ↔
      ReachesTarget target timeline (attempts quotient) outcomes) ↔
    ¬ ReachesTarget target timeline (attempts quotient) outcomes := by
  have hnever : ¬ ∃ status, wait_for_target fromisoformat quotient target timeline
      (fun i => (outcomes i).poll timestampText) = .ok status := by
    rintro ⟨status, h⟩
    exact wait_never_returns h
  rw [iff_false_left hnever]

/-- A standby at its target, paused before `target`. -/
def pausedRow : StatusRow where
  in_recovery := true
  replay_paused := true
  timeline_id := 7
  replay_lsn := some 0x70000
  last_replay_timestamp := some 0

theorem paused_cluster_refused :
    ReachesTarget 1 "7" (attempts 120) (fun _ => .reported pausedRow) ∧
    ∀ fromisoformat, wait_for_target fromisoformat 120 1 "7"
      (fun _ => (Outcome.reported pausedRow).poll fun _ => "1970-01-01 00:00:00+00") =
        .error (.pitrRuntimeError "scratch PostgreSQL returned invalid recovery flags") := by
  constructor
  · refine ⟨0, by decide, ⟨pausedRow, rfl, ⟨rfl, rfl, Or.inr (by decide), ?_⟩⟩, ?_⟩
    · intro last hlast
      cases hlast
      decide
    · exact fun j hj => absurd hj (Nat.not_lt_zero j)
  · intro fromisoformat
    rfl

end RecoveryWait
