import Odooctl.InterleavedPrograms
import Odooctl.RunnerConfinement

/-!
# Cancelling an operation while the runner claims it

One queued operation, the runner's `claim_and_run` on it and any number of cancel requests
of `api/routes_operations.py`, all taking their file operations in any order.
-/
namespace RunnerCancellation

open EffectPrograms InterleavedPrograms PitrRestoreRecord RunnerWorker
open RunnerConfinement (exampleContext acmeEntry queuedRecord)

/-! ## Cancel requests -/

inductive CancelCall where
  | load
  | unlink
  | save (op : Operation)

abbrev CancelCall.Answer : CancelCall → Type
  | .load => Operation
  | .unlink => Unit
  | .save _ => Unit

def Cancel : Interface := ⟨CancelCall, CancelCall.Answer⟩

inductive CancelFailure where
  | conflict (status : OperationStatus)
  deriving DecidableEq, Repr

abbrev CancelM := Prog Cancel CancelFailure

def ask (o : CancelCall) : CancelM o.Answer := .call (F := Cancel) o .pure

def cancel_operation : CancelM Operation := do
  let op ← ask .load
  if op.status ≠ .queued then .raise (.conflict op.status)
  else do
    ask .unlink
    let op ← ask .load
    let updated : Operation := { op with status := .cancelled }
    ask (.save updated)
    .pure updated

/-! ## The operation -/

/-- The operation's files. `rechecked` and `dispatched` note that the runner has read the
record after its claim, and that it has called a service function. -/
structure OneOperation where
  pending : Bool
  running : Bool
  record : Operation
  rechecked : Bool
  dispatched : Bool

variable {C : Type}

/-- The runner's operations; the queue holds at most `entry`. -/
def runnerWorld (entry : QueueEntry) : World (Runner C) OneOperation := fun o s r t =>
  match o with
  | .list_pending => r = (if s.pending then [entry.op_id] else []) ∧ t = s
  | .claim _ => (r = true ∧ s.pending = true ∧ t = { s with pending := false, running := true }) ∨
      (r = false ∧ s.pending = false ∧ t = s)
  | .read_running _ => r = some entry ∧ t = s
  | .load _ => r = .ok s.record ∧ t = { s with rechecked := true }
  | .save op => t = { s with record := op }
  | .complete _ => t = { s with running := false }
  | .fail _ => t = { s with running := false }
  | .service _ => t = { s with dispatched := true }
  | _ => t = s

/-- A cancel request's operations; the unlink is best effort. -/
def cancelWorld : World Cancel OneOperation := fun o s r t =>
  match o with
  | .load => r = s.record ∧ t = s
  | .unlink => t = { s with pending := false } ∨ t = s
  | .save op => t = { s with record := op }

/-- The step meets the condition: no cancel request saves after the runner's re-check of the
record, unless the record is cancelled already. -/
def Met (o : CancelCall) (s : OneOperation) : Prop :=
  match o with
  | .save _ => s.rechecked = true → s.record.status = .cancelled
  | _ => True

def timelyWorld : World Cancel OneOperation := fun o s r t => cancelWorld o s r t ∧ Met o s

/-! ## The runner and the requests together -/

/-- The runner is `none`, the cancel requests are numbered. -/
abbrev Party := Option ℕ

abbrev interfaces (C : Type) : Party → Interface
  | none => Runner C
  | some _ => Cancel

abbrev Failure : Party → Type
  | none => RunnerFailure
  | some _ => CancelFailure

abbrev Outcome : Party → Type
  | none => Option Bool
  | some _ => Operation

def worlds (entry : QueueEntry) (requests : World Cancel OneOperation) :
    (i : Party) → World (interfaces C i) OneOperation
  | none => runnerWorld entry
  | some _ => requests

def parties (ctx : Context C) : Pool (interfaces C) Failure Outcome
  | none => claim_and_execute ctx
  | some _ => cancel_operation

/-- The operation is queued and nothing has happened. -/
def Fresh (s : OneOperation) : Prop :=
  s.record.status = .queued ∧ s.rechecked = false ∧ s.dispatched = false

/-! ## What each may rely on -/

/-- Before the re-check nothing is dispatched and only requests have written; a cancelled
operation has not been dispatched. -/
structure Sound (s : OneOperation) : Prop where
  early : s.rechecked = false →
    s.dispatched = false ∧ (s.record.status = .queued ∨ s.record.status = .cancelled)
  cancelled : s.record.status = .cancelled → s.dispatched = false

/-- Requests leave the runner's notes alone and settle nothing after the re-check. -/
structure RunnerRely (s t : OneOperation) : Prop where
  rechecked : t.rechecked = s.rechecked
  status : s.rechecked = true → t.record.status = s.record.status

/-- A cancelled record stays cancelled. -/
def RequestRely (s t : OneOperation) : Prop :=
  s.record.status = .cancelled → t.record.status = .cancelled

/-- The runner writes a status over one that is not terminal, after its re-check, and calls a
service while the record says running. -/
def runnerGuard (o : RunnerCall C) (s : OneOperation) : Prop :=
  match o with
  | .save op => s.rechecked = true ∧ s.record.status.terminal = false ∧ op.status ≠ .cancelled
  | .service _ => s.rechecked = true ∧ s.record.status = .running
  | _ => True

def requestGuard (o : CancelCall) (_ : OneOperation) : Prop :=
  match o with
  | .save op => op.status = .cancelled
  | _ => True

def contract (C : Type) : Contract (interfaces C) OneOperation where
  invariant := Sound
  rely := fun i => match i with
    | none => RunnerRely
    | some _ => RequestRely
  guard := fun i => match i with
    | none => runnerGuard
    | some _ => requestGuard
  rely_refl := by
    intro i s
    cases i with
    | none => exact ⟨rfl, fun _ => rfl⟩
    | some j => exact fun h => h
  rely_trans := by
    intro i s t u h k
    cases i with
    | none =>
      refine ⟨k.rechecked.trans h.rechecked, ?_⟩
      intro hs
      rw [k.status (h.rechecked.trans hs), h.status hs]
    | some j => exact fun hs => k (h hs)

variable {entry : QueueEntry} {ctx : Context C} {s t : OneOperation}

theorem runner_honours {o : RunnerCall C} {r : o.Answer} (hs : Sound s)
    (hg : runnerGuard o s) (hw : runnerWorld entry o s r t) :
    Sound t ∧ RequestRely s t ∧
      (s.record.status.terminal = true → t.record.status = s.record.status) := by
  cases o with
  | save op =>
    obtain ⟨hrechecked, hopen, hnot⟩ := hg
    obtain rfl := hw
    refine ⟨⟨?_, ?_⟩, ?_, ?_⟩
    · intro h
      rw [hrechecked] at h
      cases h
    · exact fun h => absurd h hnot
    · intro h
      rw [h] at hopen
      cases hopen
    · intro h
      rw [hopen] at h
      cases h
  | service call =>
    obtain ⟨hrechecked, hstatus⟩ := hg
    obtain rfl := hw
    refine ⟨⟨?_, ?_⟩, fun h => h, fun _ => rfl⟩
    · intro h
      rw [hrechecked] at h
      cases h
    · intro h
      rw [hstatus] at h
      cases h
  | load op_id =>
    obtain ⟨-, rfl⟩ := hw
    refine ⟨⟨?_, hs.cancelled⟩, fun h => h, fun _ => rfl⟩
    intro h
    cases h
  | list_pending =>
    obtain ⟨-, rfl⟩ := hw
    exact ⟨hs, fun h => h, fun _ => rfl⟩
  | claim stem =>
    rcases hw with ⟨-, -, rfl⟩ | ⟨-, -, rfl⟩
    · exact ⟨⟨hs.early, hs.cancelled⟩, fun h => h, fun _ => rfl⟩
    · exact ⟨hs, fun h => h, fun _ => rfl⟩
  | read_running stem =>
    obtain ⟨-, rfl⟩ := hw
    exact ⟨hs, fun h => h, fun _ => rfl⟩
  | complete op_id =>
    obtain rfl := hw
    exact ⟨⟨hs.early, hs.cancelled⟩, fun h => h, fun _ => rfl⟩
  | fail op_id =>
    obtain rfl := hw
    exact ⟨⟨hs.early, hs.cancelled⟩, fun h => h, fun _ => rfl⟩
  | mark_corrupt stem | now | consume nonce expires_at | append_event event
  | lock_enter environment op_id | lock_exit | audit_append entry =>
    obtain rfl := hw
    exact ⟨hs, fun h => h, fun _ => rfl⟩

theorem request_honours {o : CancelCall} {r : o.Answer} (hs : Sound s) (hg : requestGuard o s)
    (hw : timelyWorld o s r t) : Sound t ∧ RunnerRely s t ∧ RequestRely s t ∧
      (s.record.status.terminal = true → t.record.status = s.record.status) := by
  obtain ⟨hw, hmet⟩ := hw
  cases o with
  | load =>
    obtain ⟨-, rfl⟩ := hw
    exact ⟨hs, ⟨rfl, fun _ => rfl⟩, fun h => h, fun _ => rfl⟩
  | unlink =>
    rcases hw with rfl | rfl
    · exact ⟨⟨hs.early, hs.cancelled⟩, ⟨rfl, fun _ => rfl⟩, fun h => h, fun _ => rfl⟩
    · exact ⟨hs, ⟨rfl, fun _ => rfl⟩, fun h => h, fun _ => rfl⟩
  | save op =>
    have hop : op.status = .cancelled := hg
    have hmet : s.rechecked = true → s.record.status = .cancelled := hmet
    obtain rfl := hw
    refine ⟨⟨?_, ?_⟩, ⟨rfl, ?_⟩, fun _ => hop, ?_⟩
    · intro h
      exact ⟨(hs.early h).1, .inr hop⟩
    · intro _
      by_cases h : s.rechecked = true
      · exact hs.cancelled (hmet h)
      · exact (hs.early (by simpa using h)).1
    · intro h
      exact hop.trans (hmet h).symm
    · intro hterminal
      by_cases h : s.rechecked = true
      · exact hop.trans (hmet h).symm
      · rcases (hs.early (by simpa using h)).2 with hqueued | hcancelled
        · rw [hqueued] at hterminal
          cases hterminal
        · exact hop.trans hcancelled.symm

theorem parties_honour : (contract C).Honoured (worlds entry timelyWorld) := by
  intro i o s r t hs hg hw
  cases i with
  | none =>
    obtain ⟨ht, hrequest, -⟩ := runner_honours hs hg hw
    refine ⟨ht, ?_⟩
    intro j hj
    cases j with
    | none => exact absurd rfl hj
    | some n => exact hrequest
  | some n =>
    obtain ⟨ht, hrunner, hrequest, -⟩ := request_honours hs hg hw
    refine ⟨ht, ?_⟩
    intro j hj
    cases j with
    | none => exact hrunner
    | some m => exact hrequest

/-! ## A cancel request -/

/-- A request that returned has cancelled the record. -/
def Answered (r : Except CancelFailure Operation) (s : OneOperation) : Prop :=
  ∀ op, r = .ok op → op.status = .cancelled ∧ s.record.status = .cancelled

abbrev around (entry : QueueEntry) (i : Party) : World (interfaces C i) OneOperation :=
  (contract C).around (worlds entry timelyWorld) i

theorem wp_cancel_operation (n : ℕ) : wp (around (C := C) entry (some n)) requestGuard
    cancel_operation Answered s := by
  apply wp_bind'.mpr
  refine ⟨trivial, ?_⟩
  rintro found t -
  change wp _ _ (if found.status ≠ .queued then .raise (CancelFailure.conflict found.status) else _) _ _
  by_cases hqueued : found.status = .queued
  · rw [if_neg (not_not.mpr hqueued)]
    apply wp_bind'.mpr
    refine ⟨trivial, ?_⟩
    rintro ⟨⟩ u -
    apply wp_bind'.mpr
    refine ⟨trivial, ?_⟩
    rintro op v -
    apply wp_bind'.mpr
    refine ⟨rfl, ?_⟩
    rintro ⟨⟩ w ⟨x, ⟨hx, -⟩, hrely, -⟩
    obtain rfl := hx
    have hw : w.record.status = .cancelled := hrely rfl
    intro op' h
    rw [← Except.ok.inj h]
    exact ⟨rfl, hw⟩
  · rw [if_pos hqueued]
    intro op h
    cases h

/-! ## The runner -/

/-- Past the re-check, with the record in this status. -/
def After (status : OperationStatus) (s : OneOperation) : Prop :=
  s.rechecked = true ∧ s.record.status = status

theorem After.rely {status : OperationStatus} (h : After status s) (hr : RunnerRely s t) :
    After status t :=
  ⟨hr.rechecked.trans h.1, (hr.status h.1).trans h.2⟩

abbrev Runs {α : Type} (entry : QueueEntry) (p : RunnerM C α)
    (Q : Except RunnerFailure α → OneOperation → Prop) (s : OneOperation) : Prop :=
  wp (around (C := C) entry none) runnerGuard p Q s

abbrev anyEnd {α : Type} : Except RunnerFailure α → OneOperation → Prop := fun _ _ => True

/-- An operation that changes neither the record nor the notes. -/
theorem runs_still {status : OperationStatus} {α : Type} {o : RunnerCall C}
    {k : o.Answer → RunnerM C α} {Q : Except RunnerFailure α → OneOperation → Prop}
    (h : After status s) (hguard : ∀ s, runnerGuard o s)
    (hstill : ∀ s r t, runnerWorld entry o s r t → After status s → After status t)
    (hk : ∀ r t, After status t → Runs entry (k r) Q t) : Runs entry (request o >>= k) Q s := by
  apply wp_bind'.mpr
  refine ⟨hguard s, ?_⟩
  rintro r t ⟨u, hw, hrely, -⟩
  exact hk r t ((hstill s r u hw h).rely hrely)

/-- An operation that changes nothing. -/
theorem runs_noop {status : OperationStatus} {α : Type} {o : RunnerCall C}
    {k : o.Answer → RunnerM C α} {Q : Except RunnerFailure α → OneOperation → Prop}
    (h : After status s) (hguard : ∀ s, runnerGuard o s)
    (hstill : ∀ s r t, runnerWorld entry o s r t → t = s)
    (hk : ∀ r t, After status t → Runs entry (k r) Q t) : Runs entry (request o >>= k) Q s := by
  refine runs_still h hguard ?_ hk
  intro s r t hw hs
  rw [hstill s r t hw]
  exact hs

theorem runs_load {status : OperationStatus} {op_id : String} (h : After status s) :
    Runs entry (load (C := C) op_id) (fun r t => ∃ op, r = .ok op ∧ After status t) s := by
  apply wp_bind'.mpr
  refine ⟨trivial, ?_⟩
  rintro r t ⟨u, ⟨rfl, rfl⟩, hrely, -⟩
  refine ⟨_, rfl, ?_⟩
  have hu : After status { s with rechecked := true } := ⟨rfl, h.2⟩
  exact hu.rely hrely

theorem runs_update_status {status new : OperationStatus} {op_id : String}
    {error : Option String} (h : After status s) (hopen : status.terminal = false)
    (hnew : new ≠ .cancelled) : Runs entry (update_status (C := C) op_id new error)
      (fun r t => ∃ op, r = .ok op ∧ After new t) s := by
  apply wp_bind'.mpr
  apply wp_post (runs_load h)
  rintro r t ⟨op, rfl, ht⟩
  apply wp_bind'.mpr
  refine ⟨⟨ht.1, by rw [ht.2]; exact hopen, hnew⟩, ?_⟩
  rintro ⟨⟩ u ⟨v, hv, hrely, -⟩
  obtain rfl := hv
  refine ⟨_, rfl, ?_⟩
  have hsaved : After new { t with record := { op with status := new, error := error.or op.error } } :=
    ⟨ht.1, rfl⟩
  exact hsaved.rely hrely

theorem runs_refuse {status : OperationStatus} {error : String} (h : After status s)
    (hopen : status.terminal = false) : Runs entry (refuse (C := C) entry error) anyEnd s := by
  apply wp_bind'.mpr
  apply wp_post (runs_update_status h hopen (by decide))
  rintro r t ⟨op, rfl, ht⟩
  refine runs_still ht (fun _ => trivial) ?_ fun _ _ _ => trivial
  intro s r t hw hs
  obtain rfl := hw
  exact hs

theorem runs_finalise {outcome : Except String Unit} (h : After .running s) :
    Runs entry (finalise (C := C) entry outcome) anyEnd s := by
  have hfinish : ∀ (status : OperationStatus) (s t : OneOperation),
      t = { s with running := false } → After status s → After status t := by
    rintro status s t rfl hs
    exact hs
  cases outcome with
  | ok done =>
    refine runs_noop h (fun _ => trivial) (fun _ _ _ hw => hw) fun _ t ht => ?_
    apply wp_bind'.mpr
    apply wp_post (runs_update_status ht rfl (by decide))
    rintro r u ⟨op, rfl, hu⟩
    refine runs_still hu (fun _ => trivial) (fun _ _ _ hw => hfinish _ _ _ hw) fun _ v hv => ?_
    exact runs_noop hv (fun _ => trivial) (fun _ _ _ hw => hw) fun _ _ _ => trivial
  | error message =>
    refine runs_noop h (fun _ => trivial) (fun _ _ _ hw => hw) fun _ t ht => ?_
    apply wp_bind'.mpr
    apply wp_post (runs_update_status ht rfl (by decide))
    rintro r u ⟨op, rfl, hu⟩
    refine runs_still hu (fun _ => trivial) (fun _ _ _ hw => hfinish _ _ _ hw) fun _ v hv => ?_
    exact runs_noop hv (fun _ => trivial) (fun _ _ _ hw => hw) fun _ _ _ => trivial

theorem runs_locked_dispatch (h : After .running s) : Runs entry (locked_dispatch ctx entry)
    (fun r t => ∃ outcome, r = .ok outcome ∧ After .running t) s := by
  refine runs_noop h (fun _ => trivial) (fun _ _ _ hw => hw) fun locked t ht => ?_
  cases locked with
  | error message => exact ⟨_, rfl, ht⟩
  | ok held =>
    cases hresolve : ctx.resolve entry with
    | error message =>
      refine runs_noop ht (fun _ => trivial) (fun _ _ _ hw => hw) fun _ u hu => ?_
      exact ⟨_, rfl, hu⟩
    | ok call =>
      apply wp_bind'.mpr
      refine ⟨ht, ?_⟩
      rintro outcome u ⟨v, hv, hrely, -⟩
      obtain rfl := hv
      have hdispatched : After .running { t with dispatched := true } := ht
      have hu := hdispatched.rely hrely
      refine runs_noop hu (fun _ => trivial) (fun _ _ _ hw => hw) fun _ w hw => ?_
      exact ⟨_, rfl, hw⟩

theorem runs_run_accepted {status : OperationStatus} (h : After status s)
    (hopen : status.terminal = false) : Runs entry (run_accepted ctx entry) anyEnd s := by
  apply wp_bind'.mpr
  apply wp_post (runs_update_status h hopen (by decide))
  rintro r t ⟨op, rfl, ht⟩
  apply wp_bind'.mpr
  apply wp_post (runs_load ht)
  rintro r u ⟨op', rfl, hu⟩
  refine runs_noop hu (fun _ => trivial) (fun _ _ _ hw => hw) fun _ v hv => ?_
  apply wp_bind'.mpr
  apply wp_post (runs_locked_dispatch hv)
  rintro r w ⟨outcome, rfl, hw⟩
  exact runs_finalise hw

theorem runs_run_checked {status : OperationStatus} (h : After status s)
    (hopen : status.terminal = false) : Runs entry (run_checked ctx entry) anyEnd s := by
  refine runs_noop h (fun _ => trivial) (fun _ _ _ hw => hw) fun now t ht => ?_
  simp only [run_verified]
  split
  · split
    · exact runs_refuse ht hopen
    · trivial
  split
  · exact runs_refuse ht hopen
  next payload _ _ _ =>
  simp only [run_authorized]
  cases expiry_of payload with
  | error e => trivial
  | ok expires_at =>
    change Runs entry (consume_nonce (nonce_of payload) expires_at >>= _) anyEnd t
    apply wp_bind'.mpr
    simp only [consume_nonce]
    split
    · trivial
    refine runs_noop ht (fun _ => trivial) (fun _ _ _ hw => hw) fun r u hu => ?_
    cases r with
    | error failure => trivial
    | ok accepted =>
      cases accepted with
      | true => exact runs_run_accepted hu hopen
      | false => exact runs_refuse hu hopen

theorem runs_execute_entry (hs : Sound s) (hearly : s.rechecked = false) :
    Runs entry (execute_entry ctx entry) anyEnd s := by
  apply wp_bind'.mpr
  refine ⟨trivial, ?_⟩
  rintro r t ⟨u, ⟨rfl, rfl⟩, hrely, -⟩
  have hread : After s.record.status { s with rechecked := true } := ⟨rfl, rfl⟩
  have ht := hread.rely hrely
  change Runs entry (if s.record.status = .cancelled then _ else run_checked ctx entry) anyEnd t
  by_cases hcancelled : s.record.status = .cancelled
  · rw [if_pos hcancelled]
    refine runs_still ht (fun _ => trivial) ?_ fun _ _ _ => trivial
    intro s r t hw hs
    obtain rfl := hw
    exact hs
  · rw [if_neg hcancelled]
    have hqueued := (hs.early hearly).2.resolve_right hcancelled
    exact runs_run_checked ht (by rw [hqueued]; rfl)

/-- Until the re-check requests leave the runner's note alone. -/
theorem early_rely (h : s.rechecked = false) (hr : RunnerRely s t) : t.rechecked = false :=
  hr.rechecked.trans h

theorem runs_claim_and_execute (hs : Sound s) (hearly : s.rechecked = false) :
    Runs entry (claim_and_execute ctx) anyEnd s := by
  have hclaim : ∀ (stems : List String) s, Sound s → s.rechecked = false →
      Runs entry (claim_from (C := C) stems) (fun r t => Sound t ∧ t.rechecked = false ∧
        ∀ found, r = .ok (some found) → found = entry) s := by
    intro stems
    induction stems with
    | nil =>
      intro s hs hearly
      refine ⟨hs, hearly, ?_⟩
      intro found h
      cases h
    | cons stem stems ih =>
      intro s hs hearly
      apply wp_bind'.mpr
      refine ⟨trivial, ?_⟩
      rintro claimed t ⟨u, hw, hrely, ht⟩
      have hu : u.rechecked = false := by
        rcases hw with ⟨-, -, rfl⟩ | ⟨-, -, rfl⟩
        · exact hearly
        · exact hearly
      have ht' := early_rely hu hrely
      cases claimed with
      | false => exact ih t ht ht'
      | true =>
        apply wp_bind'.mpr
        refine ⟨trivial, ?_⟩
        rintro found v ⟨w, ⟨rfl, rfl⟩, hrely', hv⟩
        refine ⟨hv, early_rely ht' hrely', ?_⟩
        intro found h
        exact (Option.some.inj (Except.ok.inj h)).symm
  apply wp_bind'.mpr
  refine wp_bind'.mpr ⟨trivial, ?_⟩
  rintro stems t ⟨u, ⟨-, rfl⟩, hrely, ht⟩
  apply wp_post (hclaim stems t ht (early_rely hearly hrely))
  rintro (e | found) v ⟨hv, hv', hfound⟩
  · trivial
  cases found with
  | none => trivial
  | some found =>
    obtain rfl := hfound found rfl
    apply wp_bind'.mpr
    apply wp_post (runs_execute_entry hv hv')
    rintro (e | ok) w -
    · trivial
    · trivial

/-! ## Together -/

def outcomes : (i : Party) → Except (Failure i) (Outcome i) → OneOperation → Prop
  | none => anyEnd
  | some _ => Answered

theorem holds_fresh (h : Fresh s) :
    (contract C).Holds (worlds entry timelyWorld) outcomes s (parties ctx) := by
  obtain ⟨hqueued, hearly, hidle⟩ := h
  refine ⟨⟨fun _ => ⟨hidle, .inl hqueued⟩, fun _ => hidle⟩, ?_⟩
  intro i t hrely ht
  cases i with
  | none => exact runs_claim_and_execute ht (early_rely hearly hrely)
  | some n => exact wp_cancel_operation n

/-- In every interleaving whose steps meet the condition, an operation for which a request
has returned is cancelled and has not been dispatched, and a terminal status never changes. -/
theorem cancelled_never_runs (ctx : Context C) (entry : QueueEntry) (s t : OneOperation)
    (qs : Pool (interfaces C) Failure Outcome) (hs : Fresh s)
    (h : Interleaved (worlds entry timelyWorld) s (parties ctx) t qs) :
    (∀ n op, qs (some n) = .pure op →
      op.status = .cancelled ∧ t.record.status = .cancelled ∧ t.dispatched = false) ∧
    ∀ u rs, Interleaved (worlds entry timelyWorld) t qs u rs →
      t.record.status.terminal = true → u.record.status = t.record.status := by
  have hholds := (holds_fresh (C := C) hs).run parties_honour h
  constructor
  · intro n op hend
    have hanswered : Answered (.ok op) t := hholds.ended (r := .ok op) hend
    obtain ⟨hop, hstatus⟩ := hanswered op rfl
    exact ⟨hop, hstatus, hholds.invariant.cancelled hstatus⟩
  · intro u rs hrun
    refine hholds.relates (T := fun s t => s.record.status.terminal = true →
      t.record.status = s.record.status) parties_honour hrun (fun _ _ => rfl) ?_ ?_
    · intro s t u hst htu hterminal
      have hkept := hst hterminal
      exact (htu (by rw [hkept]; exact hterminal)).trans hkept
    · intro i o s r t hs hg hw
      cases i with
      | none => exact (runner_honours hs hg hw).2.2
      | some n => exact (request_honours hs hg hw).2.2.2

/-! ## A request between the re-check and the start -/

def serveRunner (o : (Runner Unit).Op) (s : OneOperation) : (Runner Unit).Reply o × OneOperation :=
  match o with
  | .list_pending => (if s.pending then [acmeEntry.op_id] else [], s)
  | .claim _ =>
    if s.pending then (true, { s with pending := false, running := true }) else (false, s)
  | .read_running _ => (some acmeEntry, s)
  | .mark_corrupt _ => ((), s)
  | .load _ => (.ok s.record, { s with rechecked := true })
  | .save op => ((), { s with record := op })
  | .complete _ => ((), { s with running := false })
  | .fail _ => ((), { s with running := false })
  | .now => ((0 : ℕ), s)
  | .consume _ _ => (.ok true, s)
  | .append_event _ => ((), s)
  | .lock_enter _ _ => (.ok (), s)
  | .lock_exit => ((), s)
  | .service _ => (.ok (), { s with dispatched := true })
  | .audit_append _ => ((), s)

theorem runnerWorld_serve (o : (Runner Unit).Op) (s : OneOperation) :
    runnerWorld acmeEntry o s (serveRunner o s).1 (serveRunner o s).2 := by
  cases o with
  | list_pending => exact ⟨rfl, rfl⟩
  | claim stem =>
    cases h : s.pending with
    | true =>
      simp only [serveRunner, h]
      exact .inl ⟨rfl, h, rfl⟩
    | false =>
      simp only [serveRunner, h]
      exact .inr ⟨rfl, h, rfl⟩
  | read_running stem => exact ⟨rfl, rfl⟩
  | load op_id => exact ⟨rfl, rfl⟩
  | mark_corrupt stem | save op | complete op_id | fail op_id | now | consume nonce expires_at
  | append_event event | lock_enter environment op_id | lock_exit | service call
  | audit_append entry => rfl

def serveCancel (o : Cancel.Op) (s : OneOperation) : Cancel.Reply o × OneOperation :=
  match o with
  | .load => (s.record, s)
  | .unlink => ((), { s with pending := false })
  | .save op => ((), { s with record := op })

theorem cancelWorld_serve (o : Cancel.Op) (s : OneOperation) :
    cancelWorld o s (serveCancel o s).1 (serveCancel o s).2 := by
  cases o with
  | load => exact ⟨rfl, rfl⟩
  | unlink => exact .inl rfl
  | save op => rfl

def startOperation : OneOperation := ⟨true, false, queuedRecord, false, false⟩

/-- The runner up to its re-check: it has claimed the entry and read a queued record. -/
def recheckedRunner : Prog (Runner Unit) RunnerFailure (Option Bool) × OneOperation :=
  (claim_and_execute exampleContext).play (fun (_ : Unit) => serveRunner) [(), (), (), ()]
    startOperation

def cancelledAfterwards : Except CancelFailure Operation × OneOperation :=
  cancel_operation.run serveCancel recheckedRunner.2

def finishedRunner : Except RunnerFailure (Option Bool) × OneOperation :=
  recheckedRunner.1.run serveRunner cancelledAfterwards.2

def cancelledRecord : Operation := { queuedRecord with status := .cancelled }

/-- The request returns with the record cancelled; the runner then starts the operation,
calls the service and overwrites the terminal status. -/
theorem cancelled_operation_runs : ∃ (qs rs : Pool (interfaces Unit) Failure Outcome),
    Fresh startOperation ∧
    Interleaved (worlds acmeEntry cancelWorld) startOperation (parties exampleContext)
      cancelledAfterwards.2 qs ∧
    qs (some 0) = .pure cancelledRecord ∧ cancelledAfterwards.2.record.status = .cancelled ∧
    Interleaved (worlds acmeEntry cancelWorld) cancelledAfterwards.2 qs finishedRunner.2 rs ∧
    finishedRunner.2.dispatched = true ∧ finishedRunner.2.record.status = .succeeded := by
  have hrecheck : Interleaved (worlds acmeEntry cancelWorld) startOperation
      (parties exampleContext) recheckedRunner.2 _ :=
    .run none (steps_play (fun _ => runnerWorld_serve) [(), (), (), ()] _ startOperation)
  have hcancel := Interleaved.run (W := worlds acmeEntry cancelWorld)
    (p := Function.update (parties exampleContext) none recheckedRunner.1) (some 0)
    (ends_run cancelWorld_serve cancel_operation recheckedRunner.2)
  have hfinish := Interleaved.run (W := worlds acmeEntry cancelWorld)
    (p := Function.update (Function.update (parties exampleContext) none recheckedRunner.1)
      (some 0) (.pure cancelledRecord)) none
    (ends_run runnerWorld_serve recheckedRunner.1 cancelledAfterwards.2)
  exact ⟨_, _, ⟨rfl, rfl, rfl⟩, hrecheck.trans hcancel, rfl, rfl, hfinish, rfl, rfl⟩

theorem cancelled_never_runs_unclaimed :
    (cancel_operation.run serveCancel startOperation).2.dispatched = false ∧
      (cancel_operation.run serveCancel startOperation).2.record.status = .cancelled := by
  have hserve : ∀ o s, s.rechecked = false → timelyWorld o s (serveCancel o s).1
      (serveCancel o s).2 ∧ (serveCancel o s).2.rechecked = false := by
    intro o s hs
    refine ⟨⟨cancelWorld_serve o s, ?_⟩, by cases o <;> exact hs⟩
    cases o with
    | save op =>
      intro h
      rw [hs] at h
      cases h
    | load => trivial
    | unlink => trivial
  have hcancel := ends_run_within hserve cancel_operation (s := startOperation) rfl
  have hrun := Interleaved.run (W := worlds acmeEntry timelyWorld) (p := parties exampleContext)
    (some 0) hcancel
  have h := cancelled_never_runs exampleContext acmeEntry startOperation _ _ ⟨rfl, rfl, rfl⟩ hrun
  obtain ⟨-, hstatus, hidle⟩ := h.1 0 cancelledRecord rfl
  exact ⟨hidle, hstatus⟩

end RunnerCancellation
