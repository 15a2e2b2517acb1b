import Odooctl.RunnerFiles

/-!
# Which queue entries the runner survives

`claim_and_run` returns, removes the running file and leaves a terminal record exactly for
the entries that carry the identifier of their file, have a readable record and hold a token
on which the checks raise nothing unexpected.
-/
namespace RunnerResilience

open EffectPrograms PitrRestoreRecord NonceStore PythonJson CapabilityTokens AccessControl
  RunnerWorker RunnerFiles

variable {C : Type} {ctx : Context C} {entry : QueueEntry} {s t u : Files} {op_id : String}

/-- The nonce can be looked up and the expiry is an instant. -/
def Consumable (payload : Items) : Prop :=
  (nonce_of payload).hashable = true ∧ ∃ expires_at, expiry_of payload = .ok expires_at

/-- The checks of the token raise nothing but what is handled. -/
def SoundToken (ctx : Context C) (entry : QueueEntry) : Prop :=
  WellFormed ctx.key entry.token ∧ ∀ now payload,
    verify ctx.key entry.token entry.kind entry.environment entry.project now = .ok payload →
    authorize ctx entry payload = some () → Consumable payload

def Handled (ctx : Context C) (s : Files) (stem : String) (entry : QueueEntry) : Prop :=
  entry.op_id = stem ∧ ∃ op, stored s stem = .ok op ∧ (op.status = .cancelled ∨ SoundToken ctx entry)

def Terminal (s : Files) (op_id : String) : Prop :=
  ∀ op, stored s op_id = .ok op → op.status.terminal = true

/-- The call returned; of the entries it claimed no running file is left and the record, if
there is one, is terminal. -/
def Survived (s : Files) (r : Except RunnerFailure (Option Bool)) (t : Files) : Prop :=
  (∃ outcome, r = .ok outcome) ∧ ∀ stem entry, s.pending[stem]? = some (some entry) →
    stem ∉ t.pending → stem ∉ t.running ∧ Terminal t entry.op_id

abbrev anywhere : (Runner C).Op → Files → Prop := fun _ _ => True

/-! ## Records stay readable -/

structure Ready (op_id : String) (s t : Files) : Prop where
  pending : t.pending = s.pending
  running : t.running = s.running
  filed : Filed t
  readable : ∃ op, stored t op_id = .ok op

structure Settled (op_id : String) (s t : Files) : Prop where
  pending : t.pending = s.pending
  running : t.running = s.running.erase op_id
  terminal : Terminal t op_id

theorem wp_load (h : Ready op_id s t) : wp files anywhere (load (C := C) op_id)
    (fun r u => u = t ∧ ∃ op, r = .ok op ∧ stored t op_id = .ok op ∧ op.id = op_id) t := by
  obtain ⟨op, hop⟩ := h.readable
  apply wp_bind'.mpr
  refine ⟨trivial, ?_⟩
  rintro r u ⟨rfl, rfl⟩
  rw [hop]
  exact ⟨rfl, op, rfl, rfl, h.filed _ _ hop⟩

theorem wp_update_status (h : Ready op_id s t) (status : OperationStatus) (error : Option String) :
    wp files anywhere (update_status (C := C) op_id status error)
      (fun r u => (∃ op, r = .ok op) ∧ Ready op_id s u ∧
        ∃ op, stored u op_id = .ok op ∧ op.status = status) t := by
  apply wp_bind'.mpr
  apply wp_post (wp_load h)
  rintro r u ⟨rfl, op, rfl, hop, rfl⟩
  apply wp_bind'.mpr
  refine ⟨trivial, ?_⟩
  rintro ⟨⟩ v rfl
  have hread : stored (u.save { op with status := status, error := error.or op.error }) op.id =
      .ok { op with status := status, error := error.or op.error } := stored_save _ _
  refine ⟨⟨_, rfl⟩, ⟨h.pending, h.running, h.filed.save _, _, hread⟩, _, hread, rfl⟩

/-- An operation that leaves the files alone. -/
theorem wp_still {o : RunnerCall C} {α : Type} {k : o.Answer → RunnerM C α}
    {Q : Except RunnerFailure α → Files → Prop} (hstill : ∀ r u, files o t r u → u = t)
    (h : ∀ r, wp files anywhere (k r) Q t) : wp files anywhere (request o >>= k) Q t := by
  apply wp_bind'.mpr
  refine ⟨trivial, ?_⟩
  intro r u hw
  rw [hstill r u hw]
  exact h r

def Returned (r : Except RunnerFailure Bool) : Prop := ∃ ok, r = .ok ok

theorem settled_finish (h : Ready op_id s t) {status : OperationStatus}
    (hstatus : ∃ op, stored t op_id = .ok op ∧ op.status = status) (hterminal : status.terminal = true) :
    Settled op_id s (t.finish op_id) := by
  obtain ⟨op, hop, rfl⟩ := hstatus
  refine ⟨h.pending, ?_, ?_⟩
  · rw [← h.running]
    rfl
  · intro op' hop'
    rw [stored_finish, hop] at hop'
    obtain rfl := Except.ok.inj hop'
    exact hterminal

theorem wp_refuse (h : Ready entry.op_id s t) (error : String) :
    wp files anywhere (refuse (C := C) entry error)
      (fun r u => Returned r ∧ Settled entry.op_id s u) t := by
  apply wp_bind'.mpr
  apply wp_post (wp_update_status h _ _)
  rintro r u ⟨⟨op, rfl⟩, hready, hstatus⟩
  apply wp_bind'.mpr
  refine ⟨trivial, ?_⟩
  rintro ⟨⟩ v rfl
  exact ⟨⟨false, rfl⟩, settled_finish hready hstatus rfl⟩

theorem wp_finalise (h : Ready entry.op_id s t) (outcome : Except String Unit) :
    wp files anywhere (finalise (C := C) entry outcome)
      (fun r u => Returned r ∧ Settled entry.op_id s u) t := by
  cases outcome with
  | ok done =>
    refine wp_still (fun _ _ hw => hw) fun _ => ?_
    apply wp_bind'.mpr
    apply wp_post (wp_update_status h _ _)
    rintro r u ⟨⟨op, rfl⟩, hready, hstatus⟩
    apply wp_bind'.mpr
    refine ⟨trivial, ?_⟩
    rintro ⟨⟩ v rfl
    refine wp_still (fun _ _ hw => hw) fun _ => ?_
    exact ⟨⟨true, rfl⟩, settled_finish hready hstatus rfl⟩
  | error message =>
    refine wp_still (fun _ _ hw => hw) fun _ => ?_
    apply wp_bind'.mpr
    apply wp_post (wp_update_status h _ _)
    rintro r u ⟨⟨op, rfl⟩, hready, hstatus⟩
    apply wp_bind'.mpr
    refine ⟨trivial, ?_⟩
    rintro ⟨⟩ v rfl
    refine wp_still (fun _ _ hw => hw) fun _ => ?_
    exact ⟨⟨false, rfl⟩, settled_finish hready hstatus rfl⟩

/-- Whatever the lock and the service answer, the dispatch returns and touches no file. -/
theorem wp_locked_dispatch : wp files anywhere (locked_dispatch ctx entry)
    (fun r u => u = t ∧ ∃ outcome, r = .ok outcome) t := by
  refine wp_still (fun _ _ hw => hw) fun locked => ?_
  cases locked with
  | error message => exact ⟨rfl, _, rfl⟩
  | ok held =>
    cases hresolve : ctx.resolve entry with
    | error message =>
      refine wp_still (fun _ _ hw => hw) fun _ => ?_
      exact ⟨rfl, _, rfl⟩
    | ok call =>
      apply wp_bind'.mpr
      refine wp_still (fun _ _ hw => hw) fun outcome => ?_
      refine wp_still (fun _ _ hw => hw) fun _ => ?_
      exact ⟨rfl, _, rfl⟩

theorem wp_run_accepted (h : Ready entry.op_id s t) : wp files anywhere (run_accepted ctx entry)
    (fun r u => Returned r ∧ Settled entry.op_id s u) t := by
  apply wp_bind'.mpr
  apply wp_post (wp_update_status h _ _)
  rintro r u ⟨⟨op, rfl⟩, hready, -⟩
  apply wp_bind'.mpr
  apply wp_post (wp_load hready)
  rintro r v ⟨rfl, op', rfl, -, -⟩
  refine wp_still (fun _ _ hw => hw) fun _ => ?_
  apply wp_bind'.mpr
  apply wp_post wp_locked_dispatch
  rintro r w ⟨rfl, outcome, rfl⟩
  exact wp_finalise hready outcome

theorem wp_run_authorized (h : Ready entry.op_id s t) {payload : Items} (hp : Consumable payload) :
    wp files anywhere (run_authorized ctx entry payload)
      (fun r u => Returned r ∧ Settled entry.op_id s u) t := by
  obtain ⟨hnonce, expires_at, hexpiry⟩ := hp
  simp only [run_authorized, hexpiry, Prog.ofExcept, consume_nonce, hnonce]
  apply wp_bind'.mpr
  refine ⟨trivial, ?_⟩
  rintro r u ⟨⟨accepted, rfl⟩, rfl⟩
  cases accepted with
  | true => exact wp_run_accepted h
  | false => exact wp_refuse h _

theorem wp_run_checked (h : Ready entry.op_id s t) (hsound : SoundToken ctx entry) :
    wp files anywhere (run_checked ctx entry)
      (fun r u => Returned r ∧ Settled entry.op_id s u) t := by
  obtain ⟨hwell, hconsumable⟩ := hsound
  refine wp_still (fun _ _ hw => hw) fun now => ?_
  cases hv : verify ctx.key entry.token entry.kind entry.environment entry.project now with
  | error failure =>
    rw [run_verified, if_pos (verify_total_iff.mp hwell failure hv)]
    exact wp_refuse h _
  | ok payload =>
    simp only [run_verified]
    cases ha : authorize ctx entry payload with
    | none => exact wp_refuse h _
    | some done => exact wp_run_authorized h (hconsumable now payload hv ha)

theorem wp_execute_entry (h : Ready entry.op_id s t)
    (hhandled : ∃ op, stored t entry.op_id = .ok op ∧
      (op.status = .cancelled ∨ SoundToken ctx entry)) :
    wp files anywhere (execute_entry ctx entry)
      (fun r u => Returned r ∧ Settled entry.op_id s u) t := by
  obtain ⟨op, hop, hcase⟩ := hhandled
  apply wp_bind'.mpr
  refine ⟨trivial, ?_⟩
  rintro r u ⟨rfl, rfl⟩
  rw [hop]
  change wp files anywhere (if op.status = .cancelled then _ else run_checked ctx entry) _ _
  by_cases hcancelled : op.status = .cancelled
  · rw [if_pos hcancelled]
    apply wp_bind'.mpr
    refine ⟨trivial, ?_⟩
    rintro ⟨⟩ v rfl
    exact ⟨⟨true, rfl⟩, settled_finish h ⟨op, hop, hcancelled⟩ rfl⟩
  · rw [if_neg hcancelled]
    exact wp_run_checked h (hcase.resolve_left hcancelled)

/-! ## Claiming -/

/-- Only files that do not parse have gone. -/
structure Unclaimed (s t : Files) : Prop where
  records : t.records = s.records
  readable : ∀ (stem : String) entry, s.pending[stem]? = some (some entry) →
    t.pending[stem]? = some (some entry)
  nothing_new : ∀ (stem : String) x, t.pending[stem]? = some x → s.pending[stem]? = some x

theorem Unclaimed.refl (s : Files) : Unclaimed s s :=
  ⟨rfl, fun _ _ h => h, fun _ _ h => h⟩

theorem Unclaimed.erase (h : Unclaimed s t) {stem : String} (hstem : t.pending[stem]? = some none) :
    Unclaimed s ((t.claim stem).finish stem) := by
  refine ⟨h.records, ?_, ?_⟩
  · intro stem' entry hp
    have ht := h.readable stem' entry hp
    have hne : stem ≠ stem' := by
      rintro rfl
      rw [hstem] at ht
      cases ht
    simpa [Files.claim, Files.finish, Std.ExtTreeMap.getElem?_erase, hne] using ht
  · intro stem' x hx
    simp only [Files.claim, Files.finish, Std.ExtTreeMap.getElem?_erase] at hx
    split at hx
    · cases hx
    · exact h.nothing_new stem' x hx

/-- The entry was claimed from its file; every other readable file is still pending. -/
def Claimed (s t : Files) (entry : QueueEntry) : Prop :=
  ∃ stem v, Unclaimed s v ∧ s.pending[stem]? = some (some entry) ∧ t = v.claim stem

theorem wp_claim_from (stems : List String) (h : Unclaimed s t) :
    wp files anywhere (claim_from (C := C) stems)
      (fun r u => ∃ found, r = .ok found ∧ match found with
        | none => Unclaimed s u
        | some entry => Claimed s u entry) t := by
  induction stems generalizing t with
  | nil => exact ⟨none, rfl, h⟩
  | cons stem stems ih =>
    apply wp_bind'.mpr
    refine ⟨trivial, ?_⟩
    rintro r u (⟨rfl, hmem, rfl⟩ | ⟨rfl, -, rfl⟩)
    · change wp files anywhere (request (.read_running stem) >>= _) _ _
      apply wp_bind'.mpr
      refine ⟨trivial, ?_⟩
      rintro r v ⟨rfl, rfl⟩
      have hread : (t.claim stem).running[stem]?.join = t.pending[stem]?.join := by
        simp [Files.claim]
      obtain ⟨x, hx⟩ := Option.isSome_iff_exists.mp
        (Std.ExtTreeMap.mem_iff_isSome_getElem?.mp hmem)
      rw [hread, hx]
      cases x with
      | none =>
        apply wp_bind'.mpr
        refine ⟨trivial, ?_⟩
        rintro ⟨⟩ w rfl
        exact ih (h.erase hx)
      | some entry => exact ⟨some entry, rfl, stem, t, h, h.nothing_new stem _ hx, rfl⟩
    · exact ih h

theorem wp_claim_next : wp files anywhere (claim_next (C := C))
    (fun r u => ∃ found, r = .ok found ∧ match found with
      | none => Unclaimed s u
      | some entry => Claimed s u entry) s := by
  apply wp_bind'.mpr
  refine ⟨trivial, ?_⟩
  rintro stems u ⟨-, rfl⟩
  exact wp_claim_from stems (Unclaimed.refl u)

theorem survived_of_handled (hfiled : Filed s)
    (h : ∀ (stem : String) entry, s.pending[stem]? = some (some entry) → Handled ctx s stem entry) :
    wp files anywhere (claim_and_execute ctx) (Survived s) s := by
  apply wp_bind'.mpr
  apply wp_post wp_claim_next
  rintro r u ⟨found, rfl, hfound⟩
  cases found with
  | none =>
    refine ⟨⟨none, rfl⟩, ?_⟩
    intro stem entry hp hgone
    have hstill := hfound.readable stem entry hp
    exact absurd (Std.ExtTreeMap.mem_iff_isSome_getElem?.mpr (by rw [hstill]; rfl)) hgone
  | some entry =>
    obtain ⟨stem, v, hv, hp, rfl⟩ := hfound
    obtain ⟨rfl, op, hop, hcase⟩ := h stem entry hp
    have hread : ∀ op_id, stored (v.claim entry.op_id) op_id = stored s op_id := by
      intro op_id
      rw [stored_claim, stored, hv.records, stored]
    have hready : Ready entry.op_id (v.claim entry.op_id) (v.claim entry.op_id) := by
      refine ⟨rfl, rfl, ?_, op, by rw [hread, hop]⟩
      intro op_id op' hop'
      rw [hread] at hop'
      exact hfiled op_id op' hop'
    apply wp_bind'.mpr
    apply wp_post (wp_execute_entry hready ⟨op, by rw [hread, hop], hcase⟩)
    rintro r t ⟨⟨ok, rfl⟩, hsettled⟩
    refine ⟨⟨some ok, rfl⟩, ?_⟩
    intro stem' entry' hp' hgone
    have hstem : entry.op_id = stem' := by
      by_contra hne
      apply hgone
      rw [Std.ExtTreeMap.mem_iff_isSome_getElem?, hsettled.pending]
      have hstill := hv.readable stem' entry' hp'
      simp [Files.claim, Std.ExtTreeMap.getElem?_erase, hne, hstill]
    subst hstem
    obtain rfl : entry = entry' := Option.some.inj (Option.some.inj (hp.symm.trans hp'))
    refine ⟨?_, hsettled.terminal⟩
    rw [hsettled.running]
    simp

/-! ## What goes wrong otherwise -/

/-- Every run of the program can end in an exception. -/
def Raises {α : Type} (p : RunnerM C α) (s : Files) : Prop :=
  ∀ Q, wp files anywhere p Q s → ∃ e t, Q (.error e) t

section Raises

variable {α β : Type} {p : RunnerM C α} {f : α → RunnerM C β}

theorem raises_bind (h : Raises p s) : Raises (p >>= f) s := by
  intro Q hwp
  obtain ⟨e, t, hq⟩ := h _ (wp_bind'.mp hwp)
  exact ⟨e, t, hq⟩

theorem raises_call {o : RunnerCall C} {k : o.Answer → RunnerM C α} {r : o.Answer}
    (hw : files o s r t) (h : Raises (k r) t) : Raises (request o >>= k) s := by
  intro Q hwp
  exact h Q ((wp_bind'.mp hwp).2 r t hw)

theorem raises_raise (e : RunnerFailure) : Raises (.raise e : RunnerM C α) s :=
  fun _ hwp => ⟨e, s, hwp⟩

end Raises

theorem raises_load (h : ∀ op, stored s op_id ≠ .ok op) : Raises (load (C := C) op_id) s := by
  have hcall : files (C := C) (.load op_id) s (stored s op_id) s := ⟨rfl, rfl⟩
  apply raises_call hcall
  cases hr : stored s op_id with
  | ok op => exact absurd hr (h op)
  | error e =>
    cases e with
    | missing => exact raises_raise _
    | unreadable => exact raises_raise _

theorem raises_update_status (h : ∀ op, stored s op_id ≠ .ok op) (status : OperationStatus)
    (error : Option String) : Raises (update_status (C := C) op_id status error) s :=
  raises_bind (raises_load h)

/-- Without a readable record every way through the checks ends in an exception. -/
theorem raises_run_checked (h : ∀ op, stored s entry.op_id ≠ .ok op) :
    Raises (run_checked ctx entry) s := by
  have hrefuse : ∀ error, Raises (refuse (C := C) entry error) s := fun error =>
    raises_bind (raises_update_status h _ _)
  have hauthorized : ∀ payload, Raises (run_authorized ctx entry payload) s := by
    intro payload
    simp only [run_authorized]
    cases hexpiry : expiry_of payload with
    | error e => exact raises_raise e
    | ok expires_at =>
      change Raises (consume_nonce (nonce_of payload) expires_at >>= _) s
      simp only [consume_nonce]
      split
      · exact raises_bind (raises_raise _)
      · have hcall : files (C := C) (.consume (nonce_of payload) expires_at) s (.ok true) s :=
          ⟨⟨true, rfl⟩, rfl⟩
        intro Q hwp
        have hrest := (wp_bind'.mp (wp_bind'.mp hwp)).2 _ _ hcall
        exact raises_bind (raises_update_status h _ _) Q hrest
  have hcall : files (C := C) .now s (0 : ℕ) s := rfl
  apply raises_call hcall
  simp only [run_verified]
  split
  · split
    · exact hrefuse _
    · exact raises_raise _
  · split
    · exact hrefuse _
    · exact hauthorized _

/-- A running file that is not to be claimed again. -/
def Running (stem : String) (s : Files) : Prop := stem ∈ s.running ∧ stem ∉ s.pending

/-- A program that leaves the running file of another entry alone. -/
def Leaves (stem : String) {α : Type} (p : RunnerM C α) : Prop :=
  ∀ s, Running stem s → wp files anywhere p (fun _ t => Running stem t) s

section Leaves

variable {stem : String} {α β : Type} {p : RunnerM C α} {f : α → RunnerM C β}

theorem leaves_bind (h : Leaves stem p) (hf : ∀ a, Leaves stem (f a)) : Leaves stem (p >>= f) := by
  intro s hs
  apply wp_bind'.mpr
  apply wp_post (h s hs)
  rintro (e | a) t ht
  · exact ht
  · exact hf a t ht

theorem leaves_pure (a : α) : Leaves stem (.pure a : RunnerM C α) := fun _ hs => hs

theorem leaves_raise (e : RunnerFailure) : Leaves stem (.raise e : RunnerM C α) := fun _ hs => hs

theorem leaves_request {o : RunnerCall C}
    (h : ∀ s r t, files o s r t → t.running = s.running ∧ t.pending = s.pending) :
    Leaves stem (request o) := by
  intro s hs
  refine ⟨trivial, ?_⟩
  intro r t hw
  obtain ⟨hrunning, hpending⟩ := h s r t hw
  change stem ∈ t.running ∧ stem ∉ t.pending
  rw [hrunning, hpending]
  exact hs

theorem leaves_finish {o : RunnerCall C} (hne : op_id ≠ stem)
    (h : ∀ s r t, files o s r t → t = s.finish op_id) : Leaves stem (request o) := by
  intro s hs
  refine ⟨trivial, ?_⟩
  intro r t hw
  change stem ∈ t.running ∧ stem ∉ t.pending
  rw [h s r t hw]
  refine ⟨?_, hs.2⟩
  simp [Files.finish, Std.ExtTreeMap.mem_erase, hne, hs.1]

theorem leaves_load : Leaves stem (load (C := C) op_id) := by
  refine leaves_bind (leaves_request fun _ _ _ hw => ?_) fun r => ?_
  · rw [hw.2]
    exact ⟨rfl, rfl⟩
  split
  · exact leaves_pure _
  · exact leaves_raise _
  · exact leaves_raise _

theorem leaves_update_status (status : OperationStatus) (error : Option String) :
    Leaves stem (update_status (C := C) op_id status error) := by
  refine leaves_bind leaves_load fun op => ?_
  refine leaves_bind (leaves_request fun _ _ _ hw => ?_) fun _ => leaves_pure _
  rw [hw]
  exact ⟨rfl, rfl⟩

theorem leaves_refuse (hne : entry.op_id ≠ stem) (error : String) :
    Leaves stem (refuse (C := C) entry error) := by
  refine leaves_bind (leaves_update_status _ _) fun _ => ?_
  exact leaves_bind (leaves_finish hne fun _ _ _ hw => hw) fun _ => leaves_pure _

theorem leaves_still {o : RunnerCall C} (h : ∀ s r t, files o s r t → t = s) :
    Leaves stem (request o) :=
  leaves_request fun s r t hw => by
    rw [h s r t hw]
    exact ⟨rfl, rfl⟩

theorem leaves_finalise (hne : entry.op_id ≠ stem) (outcome : Except String Unit) :
    Leaves stem (finalise (C := C) entry outcome) := by
  cases outcome with
  | ok done =>
    refine leaves_bind (leaves_still fun _ _ _ hw => hw) fun _ => ?_
    refine leaves_bind (leaves_update_status _ _) fun _ => ?_
    refine leaves_bind (leaves_finish hne fun _ _ _ hw => hw) fun _ => ?_
    exact leaves_bind (leaves_still fun _ _ _ hw => hw) fun _ => leaves_pure _
  | error message =>
    refine leaves_bind (leaves_still fun _ _ _ hw => hw) fun _ => ?_
    refine leaves_bind (leaves_update_status _ _) fun _ => ?_
    refine leaves_bind (leaves_finish hne fun _ _ _ hw => hw) fun _ => ?_
    exact leaves_bind (leaves_still fun _ _ _ hw => hw) fun _ => leaves_pure _

theorem leaves_run_accepted (hne : entry.op_id ≠ stem) : Leaves stem (run_accepted ctx entry) := by
  refine leaves_bind (leaves_update_status _ _) fun _ => ?_
  refine leaves_bind leaves_load fun _ => ?_
  refine leaves_bind (leaves_still fun _ _ _ hw => hw) fun _ => ?_
  have hdispatch : Leaves stem (locked_dispatch ctx entry) := by
    intro s hs
    apply wp_post wp_locked_dispatch
    rintro r t ⟨rfl, -⟩
    exact hs
  exact leaves_bind hdispatch fun outcome => leaves_finalise hne outcome

theorem leaves_run_authorized (hne : entry.op_id ≠ stem) (payload : Items) :
    Leaves stem (run_authorized ctx entry payload) := by
  simp only [run_authorized]
  cases expiry_of payload with
  | error e => exact leaves_raise e
  | ok expires_at =>
    have hconsume : Leaves stem (consume_nonce (C := C) (nonce_of payload) expires_at) := by
      simp only [consume_nonce]
      split
      · exact leaves_raise _
      · refine leaves_bind (leaves_still fun _ _ _ hw => hw.2) fun r => ?_
        split
        · exact leaves_pure _
        · exact leaves_raise _
    change Leaves stem (consume_nonce (nonce_of payload) expires_at >>= _)
    refine leaves_bind hconsume fun accepted => ?_
    split
    · exact leaves_run_accepted hne
    · exact leaves_refuse hne _

theorem leaves_execute_entry (hne : entry.op_id ≠ stem) : Leaves stem (execute_entry ctx entry) := by
  have hchecked : Leaves stem (run_checked ctx entry) := by
    refine leaves_bind (leaves_still fun _ _ _ hw => hw) fun now => ?_
    simp only [run_verified]
    split
    · split
      · exact leaves_refuse hne _
      · exact leaves_raise _
    · split
      · exact leaves_refuse hne _
      · exact leaves_run_authorized hne _
  refine leaves_bind (leaves_still fun _ _ _ hw => hw.2) fun r => ?_
  split
  · exact leaves_raise _
  · exact hchecked
  · split
    · exact leaves_bind (leaves_finish hne fun _ _ _ hw => hw) fun _ => leaves_pure _
    · exact hchecked

end Leaves

/-- Where every run of one entry ends well the entry is handled. -/
theorem handled_of_execute {stem : String} (hrunning : Running stem u)
    (hwp : wp files anywhere (execute_entry ctx entry)
      (fun r t => Returned r ∧ (stem ∉ t.pending → stem ∉ t.running)) u) :
    Handled ctx u stem entry := by
  have hreturns : ∀ {p : RunnerM C Bool}, Raises p u →
      ¬ wp files anywhere p
        (fun r t => Returned r ∧ (stem ∉ t.pending → stem ∉ t.running)) u := by
    intro p hraises hp
    obtain ⟨e, t, ⟨ok, hok⟩, -⟩ := hraises _ hp
    cases hok
  have hid : entry.op_id = stem := by
    by_contra hne
    obtain ⟨r, t, hends⟩ := exists_ending files_total (execute_entry ctx entry) u
    obtain ⟨hstill, hgone⟩ := wp_ends (leaves_execute_entry hne u hrunning) hends
    exact (wp_ends hwp hends).2 hgone hstill
  have hload := (wp_bind'.mp hwp).2 _ u ⟨rfl, rfl⟩
  cases hread : stored u entry.op_id with
  | error e =>
    have hnone : ∀ op, stored u entry.op_id ≠ .ok op := by
      intro op hop
      rw [hread] at hop
      cases hop
    rw [hread] at hload
    cases e with
    | missing => exact absurd hload (hreturns (raises_run_checked hnone))
    | unreadable => exact absurd hload (hreturns (raises_raise _))
  | ok op =>
    refine ⟨hid, op, by rw [← hid, hread], ?_⟩
    by_cases hcancelled : op.status = .cancelled
    · exact .inl hcancelled
    right
    rw [hread] at hload
    change wp files anywhere (if op.status = .cancelled then _ else run_checked ctx entry) _ _
      at hload
    rw [if_neg hcancelled] at hload
    have hchecked : ∀ now : Timestamp, wp files anywhere (run_verified ctx entry
        (verify ctx.key entry.token entry.kind entry.environment entry.project now))
        (fun r t => Returned r ∧ (stem ∉ t.pending → stem ∉ t.running)) u :=
      fun now => (wp_bind'.mp hload).2 now u rfl
    constructor
    · have hraised : ∀ e, verify ctx.key entry.token entry.kind entry.environment entry.project
          (0 : ℕ) = .error e → e.isTokenError = true := ?_
      · exact verify_total_iff.mpr hraised
      intro e he
      by_contra hnot
      have hnow := hchecked (0 : ℕ)
      rw [he, run_verified, if_neg hnot] at hnow
      exact hreturns (raises_raise _) hnow
    · intro now payload hv ha
      have hnow := hchecked now
      rw [hv] at hnow
      simp only [run_verified, ha, run_authorized] at hnow
      cases hexpiry : expiry_of payload with
      | error e =>
        rw [hexpiry] at hnow
        exact absurd hnow (hreturns (raises_raise e))
      | ok expires_at =>
        refine ⟨?_, expires_at, hexpiry⟩
        rw [hexpiry] at hnow
        change wp files anywhere (consume_nonce (nonce_of payload) expires_at >>= _) _ _ at hnow
        simp only [consume_nonce] at hnow
        by_contra hunhashable
        rw [if_pos (by simpa using hunhashable)] at hnow
        exact hreturns (raises_bind (raises_raise _)) hnow

theorem handled_of_survived (hwp : wp files anywhere (claim_and_execute ctx) (Survived s) s)
    {stem : String} (hp : s.pending[stem]? = some (some entry)) : Handled ctx s stem entry := by
  have hmem : stem ∈ s.pending.keys := by
    rw [Std.ExtTreeMap.mem_keys, Std.ExtTreeMap.mem_iff_isSome_getElem?, hp]
    rfl
  -- The listing may have this file first.
  have hlist := (wp_bind'.mp (wp_bind'.mp hwp)).2 (stem :: s.pending.keys.erase stem) s
    ⟨(List.perm_cons_erase hmem).symm, rfl⟩
  have hclaim := (wp_bind'.mp hlist).2 true (s.claim stem)
    (.inl ⟨rfl, Std.ExtTreeMap.mem_keys.mp hmem, rfl⟩)
  have hentry : (s.claim stem).running[stem]?.join = some entry := by simp [Files.claim, hp]
  have hread := (wp_bind'.mp hclaim).2 (some entry) (s.claim stem) ⟨hentry.symm, rfl⟩
  have hexecute := wp_bind'.mp hread
  have hrunning : Running stem (s.claim stem) := by
    simp [Running, Files.claim]
  have hhandled : Handled ctx (s.claim stem) stem entry := by
    apply handled_of_execute hrunning
    apply wp_post hexecute
    rintro (e | ok) t ht
    · obtain ⟨⟨outcome, h⟩, -⟩ := ht
      cases h
    · exact ⟨⟨ok, rfl⟩, fun hgone => (ht.2 stem entry hp hgone).1⟩
  exact hhandled

def exampleContext : Context Unit where
  key := ⟨fun _ => [115], fun _ => none, isAscii_signature⟩
  kind_protected := fun _ _ => some false
  resolve := fun _ => .ok ()
  redact := id

/-- The token is `a.b.é`. -/
def accentedEntry : QueueEntry :=
  ⟨"op1", "backup", "acme", "production", "alice", .dict [], [97, 46, 98, 46, 233]⟩

def recordOf (status : OperationStatus) : Operation :=
  ⟨"op1", "backup", "acme", "production", status, "alice", [], none, none⟩

def exampleFiles (status : OperationStatus) : Files where
  pending := (∅ : Map (Option QueueEntry)).insert "op1" (some accentedEntry)
  running := ∅
  records := (∅ : Map StoredRecord).insert "op1" (.record (recordOf status))

theorem filed_exampleFiles (status : OperationStatus) : Filed (exampleFiles status) := by
  intro op_id op h
  simp only [stored, exampleFiles, Std.ExtTreeMap.getElem?_insert, Std.LawfulEqOrd.compare_eq_iff_eq]
    at h
  by_cases hid : "op1" = op_id
  · rw [if_pos hid] at h
    rw [← Except.ok.inj h]
    exact hid
  · rw [if_neg hid] at h
    simp at h

def accentedRun : Except RunnerFailure (Option Bool) × Files :=
  (claim_and_execute exampleContext).run serve (exampleFiles .queued)

def cancelledRun : Except RunnerFailure (Option Bool) × Files :=
  (claim_and_execute exampleContext).run serve (exampleFiles .cancelled)

end RunnerResilience
