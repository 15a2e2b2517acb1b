import Odooctl.ProgramRules
import Odooctl.RunnerWorker

/-!
# Operations of the command line

`run_operation` of `operations/engine.py`, inside which a command calls its service: the lock of
the environment, the record of the operation, its events and its audit entry. What runs inside is
any program that may also emit events. The records and the lock are those of this one operation.
-/
namespace OperationEngine

open EffectPrograms ProgramRules PythonJson
open RunnerWorker (Operation OperationStatus Event AuditEntry)

inductive EngineCall where
  | save (op : Operation)
  | load
  | append_event (event : Event)
  | lock_enter
  | lock_exit
  | audit_append (entry : AuditEntry)

/-- `LockAcquisitionError`, any other `Exception`, and what is only a `BaseException`. -/
inductive Raised where
  | locked (message : String)
  | exception (message : String)
  | interrupt (message : String)
  deriving DecidableEq, Repr

abbrev EngineCall.Answer : EngineCall → Type
  | .load => Except String Operation
  | .lock_enter => Except Raised Unit
  | _ => Except String Unit

abbrev Engine : Interface := ⟨EngineCall, EngineCall.Answer⟩

abbrev EngineM := Prog Engine Raised

structure Request where
  kind : String
  project : String
  environment : String
  actor : String
  params_redacted : Items

/-- `Operation.create`. -/
def create (r : Request) (id : String) : Operation where
  id := id
  kind := r.kind
  project := r.project
  environment := r.environment
  status := .queued
  actor := r.actor
  params_redacted := r.params_redacted
  result_ref := none
  error := none

def save (op : Operation) : EngineM Unit :=
  .perform (F := Engine) (.save op) (Except.mapError .exception)

def load : EngineM Operation := .perform (F := Engine) .load (Except.mapError .exception)

def append_event (event : Event) : EngineM Unit :=
  .perform (F := Engine) (.append_event event) (Except.mapError .exception)

def lock_enter : EngineM Unit := .perform (F := Engine) .lock_enter id

def lock_exit : EngineM Unit := .perform (F := Engine) .lock_exit (Except.mapError .exception)

def audit_append (entry : AuditEntry) : EngineM Unit :=
  .perform (F := Engine) (.audit_append entry) (Except.mapError .exception)

def update_status (status : OperationStatus) (error : Option String) : EngineM Unit := do
  let op ← load
  save { op with status, error := error.or op.error }

section Engine

variable (redact : String → String) (r : Request) (id : String)

def entry (outcome : String) : AuditEntry where
  actor := r.actor
  action := r.kind
  target := r.environment
  params_redacted := .dict r.params_redacted
  outcome := outcome
  op_id := id

def record_locked (message : String) : EngineM Unit := do
  save { create r id with
    status := .failed
    error := some s!"Could not acquire lock for environment '{r.environment}'" }
  append_event ⟨id, 0, "error", "end", "lock acquisition failed: " ++ message⟩
  audit_append (entry r id "failed")

def start : EngineM Unit := do
  save { create r id with status := .running }
  append_event ⟨id, 0, "info", "start", s!"operation started: {r.kind} on {r.environment}"⟩

/-- The message is kept of an `Exception` only. -/
def error_msg : Raised → Option String
  | .locked message | .exception message => some (redact message)
  | .interrupt _ => none

/-- The `finally` of the block; `seq` numbers the last event. -/
def finish {α : Type} (outcome : Except Raised α) (seq : ℕ) : EngineM Unit := do
  lock_exit
  match outcome with
  | .ok _ =>
    append_event ⟨id, seq, "info", "end", "operation completed"⟩
    update_status .succeeded none
    audit_append (entry r id "succeeded")
  | .error e =>
    append_event ⟨id, seq, "error", "end",
      "operation failed: " ++ (error_msg redact e).getD "None"⟩
    update_status .failed (error_msg redact e)
    audit_append (entry r id "failed")

/-! ## What runs inside -/

/-- The arguments of `OperationContext.emit`. -/
structure Emitted where
  message : String
  phase : String := ""
  level : String := "info"

abbrev Emits : Interface := ⟨Emitted, fun _ => Except String Unit⟩

variable {G : Interface} {α : Type}

/-- Only an event that was appended is counted. -/
def run_body : ℕ → Prog (Emits.sum G) Raised α → Prog (Engine.sum G) Raised (Except Raised α × ℕ)
  | seq, .pure a => .pure (.ok a, seq)
  | seq, .raise e => .pure (.error e, seq)
  | seq, .call (.inl e) k =>
    .call (.inl (.append_event ⟨id, seq, e.level, e.phase, e.message⟩) : (Engine.sum G).Op)
      fun answer : Except String Unit => match answer with
        | .ok () => run_body (seq + 1) (k (.ok ()))
        | .error message => run_body seq (k (.error message))
  | seq, .call (.inr o) k =>
    .call (.inr o : (Engine.sum G).Op) fun answer => run_body seq (k answer)

def run_operation (body : Prog (Emits.sum G) Raised α) : Prog (Engine.sum G) Raised α := do
  (save (create r id)).left
  match ← lock_enter.left.attempt with
  | .error (.locked message) =>
    (record_locked r id message).left
    .raise (.locked message)
  | .error e => .raise e
  | .ok () =>
    (start r id).left
    let (outcome, seq) ← run_body id 1 body
    (finish redact r id outcome seq).left
    .ofExcept outcome

end Engine

/-! ## The records of one operation -/

structure Records where
  record : Option Operation := none
  events : List Event := []
  audit : List AuditEntry := []
  held : Bool := false

/-- A call that raises may have had its effect; a record that was torn cannot be loaded. -/
def records : World Engine Records
  | .save op, s, r, t => ∃ record ∈ [s.record, none, some op],
      t = { s with record } ∧ (r = .ok () → record = some op)
  | .load, s, r, t => t = s ∧ ∀ op, r = .ok op → s.record = some op
  | .append_event event, s, r, t =>
    t = { s with events := s.events ++ [event] } ∨ t = s ∧ r ≠ .ok ()
  | .lock_enter, s, r, t => ∃ held, t = { s with held } ∧ (r = .ok () → held = true) ∧
      ∀ message, r = .error (.locked message) → held = false
  | .lock_exit, s, r, t => t = { s with held := false } ∨ t = s ∧ r ≠ .ok ()
  | .audit_append e, s, r, t => t = { s with audit := s.audit ++ [e] } ∨ t = s ∧ r ≠ .ok ()

section Accounts

variable {G : Interface} {τ α : Type} {V : World G τ} {J : (Emits.sum G).Op → τ → Prop}
  {B : Except Raised α → τ → Prop} {redact : String → String} {r : Request} {id : String}
  {s t : Records} {v : τ} {body : Prog (Emits.sum G) Raised α}

/-- What runs inside sees its own world; an event may be lost. -/
def inside (V : World G τ) : World (Emits.sum G) τ
  | .inl _, v, _, v' => v' = v
  | .inr o, v, r, v' => V o v r v'

structure Running (r : Request) (id : String) (s : Records) : Prop where
  record : s.record = some { create r id with status := .running }
  audit : s.audit = []
  held : s.held = true

/-- The operation is not recorded as one that succeeded unless what runs inside has returned. -/
structure Truthful (B : Except Raised α → τ → Prop) (s : Records) (v : τ) : Prop where
  record : ∀ op, s.record = some op → op.status = .succeeded → ∃ a, B (.ok a) v
  audit : ∀ e ∈ s.audit, e.outcome = "succeeded" → ∃ a, B (.ok a) v

/-- What holds at each call: what runs inside finds the lock held and the operation running. -/
def guard (r : Request) (id : String) (B : Except Raised α → τ → Prop)
    (J : (Emits.sum G).Op → τ → Prop) (o : (Engine.sum G).Op) (s : Records × τ) : Prop :=
  Truthful B s.1 s.2 ∧ match o with
    | .inl _ => True
    | .inr g => Running r id s.1 ∧ J (.inr g) s.2

theorem Running.truthful (h : Running r id s) : Truthful B s v := by
  constructor
  · intro op hop hstatus
    rw [h.record] at hop
    obtain rfl := Option.some.inj hop
    cases hstatus
  · intro e he
    rw [h.audit] at he
    cases he

theorem run_body_running (seq : ℕ) (h : wp (inside V) J body B v) (hs : Running r id s) :
    wp (records.sum V) (guard r id B J) (run_body id seq body)
      (fun x u => ∃ outcome n, x = .ok (outcome, n) ∧ Running r id u.1 ∧ B outcome u.2) (s, v) := by
  induction body generalizing s v seq with
  | pure a => exact ⟨.ok a, seq, rfl, hs, h⟩
  | raise e => exact ⟨.error e, seq, rfl, hs, h⟩
  | call o k ih =>
    cases o with
    | inl e =>
      rw [run_body]
      apply wp_call.mpr
      refine ⟨⟨hs.truthful, trivial⟩, ?_⟩
      rintro answer ⟨t, w⟩ ⟨hevent, hw⟩
      obtain rfl : w = v := hw
      have ht : Running r id t := by
        rcases hevent with rfl | ⟨rfl, -⟩
        · exact ⟨hs.record, hs.audit, hs.held⟩
        · exact hs
      cases answer with
      | ok => exact ih _ _ (h.2 (.ok ()) w rfl) ht
      | error message => exact ih _ _ (h.2 (.error message) w rfl) ht
    | inr o =>
      rw [run_body]
      apply wp_call.mpr
      refine ⟨⟨hs.truthful, hs, h.1⟩, ?_⟩
      rintro answer ⟨t, w⟩ ⟨hV, ht⟩
      obtain rfl : t = s := ht
      exact ih _ _ (h.2 answer w hV) hs

/-! ### Operations that did not succeed -/

structure Unsuccessful (s : Records) : Prop where
  record : ∀ op, s.record = some op → op.status ≠ .succeeded
  audit : ∀ e ∈ s.audit, e.outcome ≠ "succeeded"

theorem Unsuccessful.truthful (h : Unsuccessful s) : Truthful B s v where
  record := fun op hop hstatus => absurd hstatus (h.record op hop)
  audit := fun e he houtcome => absurd houtcome (h.audit e he)

theorem Running.unsuccessful (h : Running r id s) : Unsuccessful s := by
  constructor
  · rintro op hop
    rw [h.record] at hop
    obtain rfl := Option.some.inj hop
    exact OperationStatus.noConfusion
  · intro e he
    rw [h.audit] at he
    cases he

/-- Calls that record no success. -/
def Modest : EngineCall → Prop
  | .save op => op.status ≠ .succeeded
  | .audit_append e => e.outcome ≠ "succeeded"
  | _ => True

theorem modest_step {o : EngineCall} {answer : o.Answer} (ho : Modest o) (hs : Unsuccessful s)
    (h : records o s answer t) : Unsuccessful t := by
  cases o with
  | save op =>
    obtain ⟨record, hrecord, rfl, -⟩ := h
    refine ⟨?_, hs.audit⟩
    rintro saved rfl
    simp only [List.mem_cons, List.not_mem_nil, or_false, reduceCtorEq, Option.some.injEq,
      false_or] at hrecord
    rcases hrecord with hold | rfl
    · exact hs.record saved hold.symm
    · exact ho
  | load => exact h.1 ▸ hs
  | append_event event =>
    rcases h with rfl | ⟨rfl, -⟩
    · exact ⟨hs.record, hs.audit⟩
    · exact hs
  | lock_enter =>
    obtain ⟨held, rfl, -⟩ := h
    exact ⟨hs.record, hs.audit⟩
  | lock_exit =>
    rcases h with rfl | ⟨rfl, -⟩
    · exact ⟨hs.record, hs.audit⟩
    · exact hs
  | audit_append e =>
    rcases h with rfl | ⟨rfl, -⟩
    · refine ⟨hs.record, ?_⟩
      intro e' he'
      rcases List.mem_append.mp he' with he' | he'
      · exact hs.audit e' he'
      · rw [List.mem_singleton.mp he']
        exact ho
    · exact hs

theorem modest_keeps {β : Type} {p : EngineM β} (h : p.Calls Modest) (hs : Unsuccessful s) :
    wp records (fun _ u => Truthful B u v) p (fun _ t => Unsuccessful t) s :=
  wp_keeps h hs (fun _ _ _ hu => hu.truthful) fun _ _ _ _ ho hu hstep => modest_step ho hu hstep

theorem modest_save {op : Operation} (h : op.status ≠ .succeeded) : (save op).Calls Modest :=
  calls_perform.mpr h

theorem modest_entry {outcome : String} (h : outcome ≠ "succeeded") :
    (audit_append (entry r id outcome)).Calls Modest :=
  calls_perform.mpr h

theorem modest_event (event : Event) : (append_event event).Calls Modest :=
  calls_perform.mpr trivial

theorem modest_start : (start r id).Calls Modest :=
  calls_bind (modest_save OperationStatus.noConfusion) fun _ => modest_event _

theorem modest_locked (message : String) : (record_locked r id message).Calls Modest :=
  calls_bind (modest_save OperationStatus.noConfusion) fun _ =>
    calls_bind (modest_event _) fun _ => modest_entry (by decide)

theorem modest_finish (e : Raised) (seq : ℕ) :
    (finish redact r id (.error e : Except Raised α) seq).Calls Modest := by
  apply calls_bind (calls_perform.mpr trivial)
  intro _
  apply calls_bind (modest_event _)
  intro _
  apply calls_bind
  · exact calls_bind (calls_perform.mpr trivial) fun _ => modest_save OperationStatus.noConfusion
  · exact fun _ => modest_entry (by decide)

/-! ### Operations that succeeded -/

/-- All that is left of an operation that returns. -/
structure Succeeded (r : Request) (id : String) (s : Records) : Prop where
  record : s.record = some { create r id with status := .succeeded }
  audit : s.audit = [entry r id "succeeded"]
  held : s.held = false

theorem ok_of_mapError {x : Except String α} {a : α} (h : x.mapError Raised.exception = .ok a) :
    x = .ok a := by
  cases x with
  | ok b => exact congrArg _ (Except.ok.inj h)
  | error message => cases h

theorem returns_save {op : Operation} {P : Records → Prop} :
    Returns records P (save op) fun _ t => ∃ s, P s ∧ t = { s with record := some op } := by
  apply returns_perform
  rintro s x t ⟨⟩ hs ⟨record, -, rfl, hrecord⟩ hx
  exact ⟨s, hs, by rw [hrecord (ok_of_mapError hx)]⟩

theorem returns_load {P : Records → Prop} :
    Returns records P load fun op t => P t ∧ t.record = some op := by
  apply returns_perform
  rintro s x t op hs ⟨rfl, hrecord⟩ hx
  exact ⟨hs, hrecord op (ok_of_mapError hx)⟩

theorem returns_event {event : Event} {P : Records → Prop} :
    Returns records P (append_event event)
      fun _ t => ∃ s, P s ∧ t = { s with events := s.events ++ [event] } := by
  apply returns_perform
  rintro s x t ⟨⟩ hs hstep hx
  rcases hstep with rfl | ⟨-, hraised⟩
  · exact ⟨s, hs, rfl⟩
  · exact absurd (ok_of_mapError hx) hraised

theorem returns_lock_exit {P : Records → Prop} :
    Returns records P lock_exit fun _ t => ∃ s, P s ∧ t = { s with held := false } := by
  apply returns_perform
  rintro s x t ⟨⟩ hs hstep hx
  rcases hstep with rfl | ⟨-, hraised⟩
  · exact ⟨s, hs, rfl⟩
  · exact absurd (ok_of_mapError hx) hraised

theorem returns_audit {e : AuditEntry} {P : Records → Prop} :
    Returns records P (audit_append e)
      fun _ t => ∃ s, P s ∧ t = { s with audit := s.audit ++ [e] } := by
  apply returns_perform
  rintro s x t ⟨⟩ hs hstep hx
  rcases hstep with rfl | ⟨-, hraised⟩
  · exact ⟨s, hs, rfl⟩
  · exact absurd (ok_of_mapError hx) hraised

theorem returns_update_status {status : OperationStatus} {error : Option String}
    {P : Records → Prop} (op : Operation) (hP : ∀ s, P s → s.record = some op) :
    Returns records P (update_status status error) fun _ t =>
      ∃ s, P s ∧ t = { s with record := some { op with status, error := error.or op.error } } := by
  apply returns_bind returns_load
  intro loaded
  apply returns_mono returns_save (fun _ h => h)
  rintro _ t ⟨s, ⟨hs, hload⟩, rfl⟩
  obtain rfl := Option.some.inj (hload.symm.trans (hP s hs))
  exact ⟨s, hs, rfl⟩

theorem finish_succeeds (a : α) (seq : ℕ) :
    Returns records (Running r id) (finish redact r id (.ok a) seq) fun _ => Succeeded r id := by
  apply returns_bind returns_lock_exit
  intro _
  apply returns_bind returns_event
  intro _
  apply returns_bind (returns_update_status { create r id with status := .running } ?_)
  · intro _
    apply returns_mono returns_audit (fun _ h => h)
    rintro _ t ⟨_, ⟨_, ⟨_, ⟨s, hs, rfl⟩, rfl⟩, rfl⟩, rfl⟩
    exact ⟨rfl, by simp [hs.audit], rfl⟩
  · rintro _ ⟨_, ⟨s, hs, rfl⟩, rfl⟩
    exact hs.record

/-! ### The whole operation -/

/-- A part of the operation outside of the block. -/
theorem wp_outside {β : Type} {p : EngineM β} {pre : Records → Prop} {post : β → Records → Prop}
    (hp : p.Calls Modest) (hs : Unsuccessful s) (hreturns : Returns records pre p post)
    (hpre : pre s) :
    wp (records.sum V) (guard r id B J) p.left
      (fun x u => u.2 = v ∧ Unsuccessful u.1 ∧ ∀ b, x = .ok b → post b u.1) (s, v) := by
  apply wp_left.mpr
  apply wp_mono (wp_and (modest_keeps (B := B) (v := v) hp hs) (hreturns s hpre))
  · exact fun o u hu => ⟨hu.1, trivial⟩
  · exact fun x u hu => ⟨rfl, hu.1, hu.2⟩

theorem wp_finish {outcome : Except Raised α} (hs : Running r id s) (hB : B outcome v) (seq : ℕ) :
    wp (records.sum V) (guard r id B J) (finish redact r id outcome seq).left
      (fun x u => u.2 = v ∧ Truthful B u.1 v ∧
        ∀ a, outcome = .ok a → x = .ok () → Succeeded r id u.1) (s, v) := by
  cases outcome with
  | error e =>
    apply wp_left.mpr
    apply wp_mono (modest_keeps (B := B) (v := v) (modest_finish e seq) hs.unsuccessful)
    · exact fun o u hu => ⟨hu, trivial⟩
    · exact fun x u hu => ⟨rfl, hu.truthful, fun a ha => by cases ha⟩
  | ok a =>
    have htruthful : ∀ u : Records, Truthful B u v :=
      fun u => ⟨fun _ _ _ => ⟨a, hB⟩, fun _ _ _ => ⟨a, hB⟩⟩
    apply wp_left.mpr
    apply wp_mono (finish_succeeds a seq s hs)
    · exact fun o u _ => ⟨htruthful u, trivial⟩
    · exact fun x u hu => ⟨rfl, htruthful u, fun _ _ hx => hu () hx⟩

/-- Whatever runs inside, fails or stops: it runs with the lock held and the operation recorded
as running, success is recorded only once it has returned, and where the operation returns the
record, the audit entry and the lock are in order. -/
theorem outcome_truthful (hbody : wp (inside V) J body B v) :
    wp (records.sum V) (guard r id B J) (run_operation redact r id body)
      (fun x u => Truthful B u.1 u.2 ∧
        ∀ a, x = .ok a → B (.ok a) u.2 ∧ Succeeded r id u.1) ({}, v) := by
  unfold run_operation
  have hstart : Unsuccessful {} := by
    constructor
    · exact fun op hop => by cases hop
    · exact fun e he => by cases he
  have hcreated : Returns records (fun s => s.audit = []) (save (create r id))
      fun _ t => t.audit = [] := by
    apply returns_mono returns_save (fun _ h => h)
    rintro _ t ⟨s, hs, rfl⟩
    exact hs
  apply wp_seq (wp_outside (modest_save OperationStatus.noConfusion) hstart hcreated rfl)
  · rintro e ⟨t, w⟩ ⟨rfl, ht, -⟩
    exact ⟨ht.truthful, fun _ h => by cases h⟩
  rintro ⟨⟩ ⟨t, w⟩ ⟨rfl, ht, haudit⟩
  have haudit := haudit () rfl
  have hentered : Returns records (fun s => s.audit = []) lock_enter
      fun _ t => t.audit = [] ∧ t.held = true := by
    apply returns_perform
    rintro s x t ⟨⟩ hs ⟨held, rfl, hheld, -⟩ hx
    exact ⟨hs, hheld hx⟩
  have hmodest : lock_enter.Calls Modest := calls_perform.mpr trivial
  apply wp_attempt_seq (wp_outside hmodest ht hentered haudit)
  rintro x ⟨t, w⟩ ⟨rfl, ht, hlock⟩
  cases x with
  | error e =>
    cases e with
    | locked message =>
      apply wp_seq (P := fun _ u => Unsuccessful u.1)
      · apply wp_left.mpr
        apply wp_mono (modest_keeps (B := B) (v := w) (modest_locked message) ht)
        · exact fun o u hu => ⟨hu, trivial⟩
        · exact fun x u hu => hu
      · exact fun e u hu => ⟨hu.truthful, fun _ h => by cases h⟩
      · exact fun _ u hu => ⟨hu.truthful, fun _ h => by cases h⟩
    | exception message => exact ⟨ht.truthful, fun _ h => by cases h⟩
    | interrupt message => exact ⟨ht.truthful, fun _ h => by cases h⟩
  | ok =>
    obtain ⟨haudit, hheld⟩ := hlock () rfl
    have hstarted : Returns records (fun s => s.audit = [] ∧ s.held = true) (start r id)
        fun _ => Running r id := by
      apply returns_bind returns_save
      intro _
      apply returns_mono returns_event (fun _ h => h)
      rintro _ t ⟨_, ⟨s, hs, rfl⟩, rfl⟩
      exact ⟨rfl, hs.1, hs.2⟩
    apply wp_seq (wp_outside modest_start ht hstarted ⟨haudit, hheld⟩)
    · rintro e ⟨t, w⟩ ⟨rfl, ht, -⟩
      exact ⟨ht.truthful, fun _ h => by cases h⟩
    rintro ⟨⟩ ⟨t, w⟩ ⟨rfl, -, hrunning⟩
    apply wp_seq (run_body_running 1 hbody (hrunning () rfl))
    · rintro e u ⟨_, _, h, -⟩
      cases h
    rintro x ⟨t, w⟩ ⟨outcome, seq, hx, hrunning, hB⟩
    obtain rfl := Except.ok.inj hx
    apply wp_seq (wp_finish hrunning hB seq)
    · rintro e ⟨t, w⟩ ⟨rfl, ht, -⟩
      exact ⟨ht, fun _ h => by cases h⟩
    rintro ⟨⟩ ⟨t, w⟩ ⟨rfl, ht, hdone⟩
    apply wp_ofExcept.mpr
    exact ⟨ht, fun a ha => ⟨ha ▸ hB, hdone a ha rfl⟩⟩

/-! ### A deployment -/

abbrev Deploy : Interface := ⟨Unit, fun _ => Except Raised Unit⟩

def deploy : Prog (Emits.sum Deploy) Raised Unit := do
  (.perform (F := Emits) ⟨"pulling images", "deploy", "info"⟩ (Except.mapError .exception) :
    Prog Emits Raised Unit).left
  (.perform (F := Deploy) () (fun x => x) : Prog Deploy Raised Unit).right

/-- The state counts the deployments that were done. -/
def deployments : World Deploy ℕ := fun _ n x m => m = if x = .ok () then n + 1 else n

def Deployed (x : Except Raised Unit) (n : ℕ) : Prop := x = .ok () → n = 1

def deployRequest : Request := ⟨"deploy", "acme", "production", "cli", []⟩

theorem deploy_truthful :
    wp (records.sum deployments) (guard deployRequest "1f0c2e9a77b4" Deployed fun _ n => n = 0)
      (run_operation (fun text => text) deployRequest "1f0c2e9a77b4" deploy)
      (fun x u => Truthful Deployed u.1 u.2 ∧ ∀ a, x = .ok a →
        Deployed (.ok a) u.2 ∧ Succeeded deployRequest "1f0c2e9a77b4" u.1) ({}, 0) := by
  apply outcome_truthful
  apply wp_call.mpr
  refine ⟨rfl, ?_⟩
  rintro answer n hn
  obtain rfl : n = 0 := hn
  cases answer with
  | error message => exact fun h => by cases h
  | ok =>
    apply wp_call.mpr
    refine ⟨rfl, ?_⟩
    rintro answer m hm
    cases answer with
    | error e => exact fun h => by cases h
    | ok => exact fun _ => hm

/-! ### Complete records -/

/-- No call fails, but that the lock may be taken. -/
def Answered : (o : EngineCall) → o.Answer → Prop
  | .load, x => ∃ op, x = .ok op
  | .lock_enter, x => x = .ok () ∨ ∃ message, x = .error (.locked message)
  | .save _, x | .append_event _, x | .lock_exit, x | .audit_append _, x => x = .ok ()

def calm : World Engine Records := fun o s x t => records o s x t ∧ Answered o x

/-- The events are numbered in their order. -/
def Numbered (s : Records) : Prop := s.events.map (·.seq) = List.range s.events.length

structure Closed (redact : String → String) (r : Request) (id : String) (x : Except Raised α)
    (s : Records) : Prop where
  held : s.held = false
  numbered : Numbered s
  ended : ∃ event ∈ s.events.getLast?, event.phase = "end"
  returned : ∀ a, x = .ok a → s.record = some { create r id with status := .succeeded } ∧
    s.audit = [entry r id "succeeded"]
  raised : ∀ e, x = .error e → s.audit = [entry r id "failed"] ∧ ∃ error,
    s.record = some { create r id with status := .failed, error } ∧
      (error = error_msg redact e ∨
        error = some s!"Could not acquire lock for environment '{r.environment}'")

section Calm

variable {Q : Except Raised Unit → Records → Prop} {op : Operation} {event : Event}

theorem calm_save : wp calm (fun _ _ => True) (save op) Q s ↔
    Q (.ok ()) { s with record := some op } := by
  rw [save, wp_perform]
  constructor
  · exact fun h => h.2 (.ok ()) _ ⟨⟨some op, by simp, rfl, fun _ => rfl⟩, rfl⟩
  · refine fun h => ⟨trivial, ?_⟩
    rintro x t ⟨⟨record, -, rfl, hrecord⟩, rfl⟩
    rw [hrecord rfl]
    exact h

theorem calm_load {Q : Except Raised Operation → Records → Prop} (hrecord : s.record = some op) :
    wp calm (fun _ _ => True) load Q s ↔ Q (.ok op) s := by
  rw [load, wp_perform]
  constructor
  · exact fun h => h.2 (.ok op) s ⟨⟨rfl, fun _ h => Except.ok.inj h ▸ hrecord⟩, op, rfl⟩
  · refine fun h => ⟨trivial, ?_⟩
    rintro x t ⟨⟨rfl, hloaded⟩, loaded, rfl⟩
    obtain rfl := Option.some.inj ((hloaded loaded rfl).symm.trans hrecord)
    exact h

theorem calm_event : wp calm (fun _ _ => True) (append_event event) Q s ↔
    Q (.ok ()) { s with events := s.events ++ [event] } := by
  rw [append_event, wp_perform]
  constructor
  · exact fun h => h.2 (.ok ()) _ ⟨.inl rfl, rfl⟩
  · refine fun h => ⟨trivial, ?_⟩
    rintro x t ⟨rfl | ⟨-, hraised⟩, rfl⟩
    · exact h
    · exact absurd rfl hraised

theorem calm_lock_exit : wp calm (fun _ _ => True) lock_exit Q s ↔
    Q (.ok ()) { s with held := false } := by
  rw [lock_exit, wp_perform]
  constructor
  · exact fun h => h.2 (.ok ()) _ ⟨.inl rfl, rfl⟩
  · refine fun h => ⟨trivial, ?_⟩
    rintro x t ⟨rfl | ⟨-, hraised⟩, rfl⟩
    · exact h
    · exact absurd rfl hraised

theorem calm_audit {e : AuditEntry} : wp calm (fun _ _ => True) (audit_append e) Q s ↔
    Q (.ok ()) { s with audit := s.audit ++ [e] } := by
  rw [audit_append, wp_perform]
  constructor
  · exact fun h => h.2 (.ok ()) _ ⟨.inl rfl, rfl⟩
  · refine fun h => ⟨trivial, ?_⟩
    rintro x t ⟨rfl | ⟨-, hraised⟩, rfl⟩
    · exact h
    · exact absurd rfl hraised

end Calm

theorem Numbered.append {event : Event} (h : Numbered s) (hseq : event.seq = s.events.length) :
    Numbered { s with events := s.events ++ [event] } := by
  rw [Numbered] at h ⊢
  simp [h, hseq, List.range_succ]

/-- What runs inside is over, and so far the events are numbered. -/
structure Left (r : Request) (id : String) (seq : ℕ) (s : Records) : Prop extends
    Running r id s where
  numbered : Numbered s
  next : seq = s.events.length

theorem run_body_numbered (body : Prog (Emits.sum G) Raised α) (seq : ℕ) (hs : Left r id seq s) :
    wp (calm.sum V) (fun _ _ => True) (run_body id seq body)
      (fun x u => ∃ outcome n, x = .ok (outcome, n) ∧ Left r id n u.1) (s, v) := by
  induction body generalizing s v seq with
  | pure a => exact ⟨.ok a, seq, rfl, hs⟩
  | raise e => exact ⟨.error e, seq, rfl, hs⟩
  | call o k ih =>
    cases o with
    | inl e =>
      rw [run_body]
      apply wp_call.mpr
      refine ⟨trivial, ?_⟩
      rintro answer ⟨t, w⟩ ⟨⟨hevent, hok⟩, -⟩
      obtain rfl : answer = .ok () := hok
      rcases hevent with rfl | ⟨-, hraised⟩
      · apply ih
        refine ⟨⟨hs.record, hs.audit, hs.held⟩, hs.numbered.append hs.next, ?_⟩
        simp [hs.next]
      · exact absurd rfl hraised
    | inr o =>
      rw [run_body]
      apply wp_call.mpr
      refine ⟨trivial, ?_⟩
      rintro answer ⟨t, w⟩ ⟨-, ht⟩
      obtain rfl : t = s := ht
      exact ih answer seq hs

theorem finish_closed {outcome : Except Raised α} {seq : ℕ} (hs : Left r id seq s) :
    wp calm (fun _ _ => True) (finish redact r id outcome seq)
      (fun x u => x = .ok () ∧ Closed redact r id outcome u) s := by
  have hnumbered : ∀ event : Event, event.seq = seq →
      Numbered { s with events := s.events ++ [event], held := false } :=
    fun event hseq => hs.numbered.append (hseq.trans hs.next)
  cases outcome with
  | ok a =>
    simp only [finish, update_status, wp_bind', calm_lock_exit, calm_event]
    apply (calm_load (by exact hs.record)).mpr
    simp only [calm_save, calm_audit]
    refine ⟨trivial, rfl, hnumbered _ rfl, ⟨_, List.getLast?_concat, rfl⟩, fun _ _ => ⟨rfl, ?_⟩, ?_⟩
    · simp [hs.audit]
    · exact fun e he => by cases he
  | error e =>
    simp only [finish, update_status, wp_bind', calm_lock_exit, calm_event]
    apply (calm_load (by exact hs.record)).mpr
    simp only [calm_save, calm_audit]
    refine ⟨trivial, rfl, hnumbered _ rfl, ⟨_, List.getLast?_concat, rfl⟩, ?_, ?_⟩
    · exact fun a ha => by cases ha
    · rintro e' he'
      obtain rfl := Except.error.inj he'
      refine ⟨by simp [hs.audit], _, rfl, .inl ?_⟩
      simp [create]

/-- Where the files answer, every run leaves the lock free, the events numbered in their order up
to one that ends them, one audit entry and a record with the same outcome. -/
theorem operation_closed (body : Prog (Emits.sum G) Raised α) :
    wp (calm.sum V) (fun _ _ => True) (run_operation redact r id body)
      (fun x u => Closed redact r id x u.1) ({}, v) := by
  unfold run_operation
  apply wp_bind'.mpr
  apply wp_left.mpr
  apply calm_save.mpr
  apply wp_bind'.mpr
  apply wp_attempt.mpr
  apply wp_left.mpr
  apply wp_perform.mpr
  refine ⟨trivial, ?_⟩
  rintro x t ⟨⟨held, rfl, hheld, hfree⟩, rfl | ⟨message, rfl⟩⟩
  · obtain rfl := hheld rfl
    apply wp_bind'.mpr
    apply wp_left.mpr
    simp only [start, wp_bind', calm_save, calm_event]
    have hleft : Left r id 1
        { record := some { create r id with status := .running },
          events := [⟨id, 0, "info", "start", s!"operation started: {r.kind} on {r.environment}"⟩],
          audit := [], held := true } := ⟨⟨rfl, rfl, rfl⟩, rfl, rfl⟩
    apply wp_post (run_body_numbered body 1 hleft)
    rintro x ⟨t, w⟩ ⟨outcome, seq, rfl, ht⟩
    apply wp_left.mpr
    apply wp_post (finish_closed ht)
    rintro x u ⟨rfl, hclosed⟩
    apply wp_ofExcept.mpr
    exact hclosed
  · obtain rfl := hfree message rfl
    apply wp_bind'.mpr
    apply wp_left.mpr
    simp only [record_locked, wp_bind', calm_save, calm_event, calm_audit]
    refine ⟨rfl, rfl, ⟨_, rfl, rfl⟩, ?_, ?_⟩
    · exact fun a ha => by cases ha
    · exact fun e _ => ⟨rfl, _, rfl, .inr rfl⟩

end Accounts

end OperationEngine
