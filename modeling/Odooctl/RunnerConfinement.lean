import Odooctl.RunnerWorker

/-!
# Which project a token reaches

Polls of the projects' queues in any order. Queues and records hold anything; the nonce
files and the clock are kept, and the entries dispatched against each project are noted.
-/
namespace RunnerConfinement

open EffectPrograms PitrRestoreRecord NonceStore PythonJson CapabilityTokens AccessControl
  RunnerWorker

variable {C : Type}

/-- The nonce file of every project, the clock, and what was dispatched where. -/
structure Host where
  nonces : String → NonceFile
  clock : Timestamp
  dispatched : List (String × QueueEntry)

/-- A service call together with the entry it was dispatched for. -/
abbrev Traced (C : Type) := QueueEntry × C

/-- All projects share the key of the runner. -/
def traced (key : Keyed) (ctx : Context C) : Context (Traced C) where
  key := key
  kind_protected := ctx.kind_protected
  resolve := fun entry => (ctx.resolve entry).map fun call => (entry, call)
  redact := ctx.redact

/-- Neither the nonces nor the dispatches change, and the clock does not run backwards. -/
structure Later (s t : Host) : Prop where
  nonces : t.nonces = s.nonces
  clock : s.clock ≤ t.clock
  dispatched : t.dispatched = s.dispatched

/-- An operation on the files of `project`. -/
def host (project : String) : World (Runner (Traced C)) Host := fun o s r t =>
  match o with
  | .now => r = t.clock ∧ Later s t
  | .consume (.str nonce) expires_at => ∃ c : Consume, c.nonce = nonce ∧
      c.expires_at = expires_at ∧ s.clock ≤ c.now ∧ t.clock = c.loaded ∧
      r = (step (s.nonces project) c).1 ∧
      t.nonces = Function.update s.nonces project (step (s.nonces project) c).2 ∧
      t.dispatched = s.dispatched
  | .consume _ _ => t.dispatched = s.dispatched
  | .service (entry, _) => t.nonces = s.nonces ∧ s.clock ≤ t.clock ∧
      t.dispatched = s.dispatched ++ [(project, entry)]
  | _ => Later s t

/-- A token that `mint` made: its nonce is a text. -/
def Minted (key : Keyed) (token : Text) : Prop :=
  ∀ payload, payload? key token = some payload → ∃ nonce, nonce_of payload = .str nonce

/-- The entries read carry minted tokens. -/
def carriesMinted (key : Keyed) (project : String) : World (Runner (Traced C)) Host :=
  fun o s r t => host project o s r t ∧
    match o, r with
    | .read_running _, r => ∀ entry, r = some entry → Minted key entry.token
    | _, _ => True

/-- The step meets the condition: an entry lies in the queue of its own project, and a nonce
is consumed before its token has expired. -/
def Met (project : String) (o : (Runner (Traced C)).Op) (r : (Runner (Traced C)).Reply o)
    (t : Host) : Prop :=
  match o, r with
  | .read_running _, r => ∀ entry, r = some entry → entry.project = project
  | .consume _ expires_at, _ => ∀ e, expires_at = some e → t.clock ≤ e
  | _, _ => True

def confined (key : Keyed) (project : String) : World (Runner (Traced C)) Host :=
  fun o s r t => carriesMinted key project o s r t ∧ Met project o r t

/-- Polls of any projects in any order, each ended or cut anywhere; meanwhile time passes. -/
inductive Polls (key : Keyed) (ctx : String → Context C)
    (world : String → World (Runner (Traced C)) Host) : Host → Host → Prop where
  | refl (s) : Polls key ctx world s s
  | wait {s t u} : Polls key ctx world s t → Later t u → Polls key ctx world s u
  | poll {s t u} (project : String) {q} : Polls key ctx world s t →
      Steps (world project) t (claim_and_execute (traced key (ctx project))) u q →
      Polls key ctx world s u

/-! ## What is kept -/

/-- The token was minted for the project. -/
def ScopedTo (key : Keyed) (token : Text) (project : String) : Prop :=
  ∃ payload, payload? key token = some payload ∧ get payload "proj" = some (.str project)

/-- The nonce of the token is spent in the project, or the token has expired. -/
def Spent (key : Keyed) (s : Host) (project : String) (token : Text) : Prop :=
  ∃ payload nonce e, payload? key token = some payload ∧ nonce_of payload = .str nonce ∧
    expiry_of payload = .ok (some e) ∧ (Blocked nonce e (s.nonces project) ∨ e < s.clock)

structure Confined (key : Keyed) (s : Host) : Prop where
  scope : ∀ d ∈ s.dispatched, ScopedTo key d.2.token d.1
  spent : ∀ d ∈ s.dispatched, Spent key s d.1 d.2.token
  once : (s.dispatched.map fun d => d.2.token).Nodup

variable {key : Keyed} {s t u : Host} {project : String} {entry : QueueEntry}

theorem Spent.later {token : Text} {P : String} (h : Spent key s P token)
    (hl : Later s t) : Spent key t P token := by
  obtain ⟨payload, nonce, e, hpayload, hnonce, he, hspent⟩ := h
  refine ⟨payload, nonce, e, hpayload, hnonce, he, ?_⟩
  rcases hspent with hblocked | hexpired
  · left
    rw [hl.nonces]
    exact hblocked
  · exact .inr (Nat.lt_of_lt_of_le hexpired hl.clock)

theorem Confined.later (h : Confined key s) (hl : Later s t) : Confined key t := by
  refine ⟨?_, ?_, ?_⟩
  · rw [hl.dispatched]
    exact h.scope
  · rw [hl.dispatched]
    exact fun d hd => (h.spent d hd).later hl
  · rw [hl.dispatched]
    exact h.once

/-- Ready to dispatch: scoped to the project, spent there and not dispatched before. -/
structure Cleared (key : Keyed) (s : Host) (project : String) (token : Text) : Prop where
  scope : ScopedTo key token project
  spent : Spent key s project token
  unused : token ∉ s.dispatched.map fun d => d.2.token

theorem Cleared.later {token : Text} (h : Cleared key s project token) (hl : Later s t) :
    Cleared key t project token := by
  refine ⟨h.scope, h.spent.later hl, ?_⟩
  rw [hl.dispatched]
  exact h.unused

theorem Confined.dispatch (h : Confined key s) (hc : Cleared key s project entry.token)
    (hn : t.nonces = s.nonces) (hclock : s.clock ≤ t.clock)
    (hd : t.dispatched = s.dispatched ++ [(project, entry)]) : Confined key t := by
  have hlater : Later s { t with dispatched := s.dispatched } := ⟨hn, hclock, rfl⟩
  have hspent : ∀ P token, Spent key s P token → Spent key t P token := fun P token hs =>
    (hs.later hlater : Spent key { t with dispatched := s.dispatched } P token)
  refine ⟨?_, ?_, ?_⟩
  · rw [hd]
    intro d hmem
    rcases List.mem_append.mp hmem with hmem | hmem
    · exact h.scope d hmem
    · rw [List.mem_singleton.mp hmem]
      exact hc.scope
  · rw [hd]
    intro d hmem
    rcases List.mem_append.mp hmem with hmem | hmem
    · exact hspent _ _ (h.spent d hmem)
    · rw [List.mem_singleton.mp hmem]
      exact hspent _ _ hc.spent
  · rw [hd, List.map_append, List.map_singleton]
    apply List.Nodup.append h.once (List.nodup_singleton _)
    intro token hmem hnew
    rw [List.mem_singleton.mp hnew] at hmem
    exact hc.unused hmem

/-! ## Consuming a nonce -/

theorem Blocked.mono {nonce : String} {d e : Timestamp} {file : NonceFile}
    (h : Blocked nonce d file) (he : e ≤ d) : Blocked nonce e file := by
  cases file with
  | nonces entries =>
    obtain ⟨x, hx, hd⟩ := h
    exact ⟨x, hx, Nat.le_trans he hd⟩
  | missing => exact h.elim
  | corrupt => exact h.elim
  | legacy names => exact h.elim
  | other => exact h.elim

/-- What is spent stays spent when another nonce is consumed. -/
theorem Spent.consume {token : Text} {P : String} {c : Consume} (h : Spent key s P token)
    (hclock : s.clock ≤ c.now) (hloaded : t.clock = c.loaded)
    (hn : t.nonces = Function.update s.nonces project (step (s.nonces project) c).2) :
    Spent key t P token := by
  have hforward : s.clock ≤ t.clock := by
    rw [hloaded]
    exact Nat.le_trans hclock c.forward
  obtain ⟨payload, nonce, e, hpayload, hnonce, he, hspent⟩ := h
  refine ⟨payload, nonce, e, hpayload, hnonce, he, ?_⟩
  rcases hspent with hblocked | hexpired
  · by_cases hP : P = project
    · subst hP
      by_cases hnow : c.now ≤ e
      · left
        rw [hn, Function.update_self]
        exact (blocked_step hblocked hnow).1
      · right
        rw [hloaded]
        exact Nat.lt_of_lt_of_le (Nat.lt_of_not_le hnow) c.forward
    · left
      rw [hn, Function.update_of_ne hP]
      exact hblocked
  · exact .inr (Nat.lt_of_lt_of_le hexpired hforward)

theorem Confined.consume {c : Consume} (h : Confined key s) (hclock : s.clock ≤ c.now)
    (hloaded : t.clock = c.loaded)
    (hn : t.nonces = Function.update s.nonces project (step (s.nonces project) c).2)
    (hd : t.dispatched = s.dispatched) : Confined key t := by
  refine ⟨?_, ?_, ?_⟩
  · rw [hd]
    exact h.scope
  · rw [hd]
    exact fun d hmem => (h.spent d hmem).consume hclock hloaded hn
  · rw [hd]
    exact h.once

/-- An accepted nonce clears its token, which was not dispatched anywhere before. -/
theorem Confined.cleared {token : Text} {c : Consume} {payload : Items} {e : Timestamp}
    (h : Confined key s) (hpayload : payload? key token = some payload)
    (hproject : get payload "proj" = some (.str project))
    (hnonce : nonce_of payload = .str c.nonce) (he : expiry_of payload = .ok (some e))
    (hexpires : c.expires_at = some e) (hclock : s.clock ≤ c.now) (hloaded : t.clock = c.loaded)
    (hintime : t.clock ≤ e) (haccepted : (step (s.nonces project) c).1 = .ok true)
    (hn : t.nonces = Function.update s.nonces project (step (s.nonces project) c).2)
    (hd : t.dispatched = s.dispatched) : Cleared key t project token := by
  have hnow : c.now ≤ e := by
    rw [hloaded] at hintime
    exact Nat.le_trans c.forward hintime
  refine ⟨⟨payload, hpayload, hproject⟩, ⟨payload, c.nonce, e, hpayload, hnonce, he, .inl ?_⟩, ?_⟩
  · rw [hn, Function.update_self]
    apply Blocked.mono (blocked_of_accepted haccepted)
    rw [Consume.deadline, hexpires]
    exact Nat.le_max_right _ _
  · rw [hd]
    intro hused
    obtain ⟨d, hmem, rfl⟩ := List.mem_map.mp hused
    obtain ⟨payload', hpayload', hproject'⟩ := h.scope d hmem
    obtain rfl : payload = payload' := Option.some.inj (hpayload.symm.trans hpayload')
    obtain rfl : project = d.1 := by
      have hsame := Option.some.inj (hproject.symm.trans hproject')
      exact Json.str.inj hsame
    obtain ⟨payload'', nonce, e', hpayload'', hnonce', he', hspent⟩ := h.spent d hmem
    obtain rfl : payload = payload'' := Option.some.inj (hpayload.symm.trans hpayload'')
    obtain rfl : c.nonce = nonce := Json.str.inj (hnonce.symm.trans hnonce')
    obtain rfl : e = e' := Option.some.inj (Except.ok.inj (he.symm.trans he'))
    rcases hspent with hblocked | hexpired
    · exact (blocked_step hblocked hnow).2 rfl haccepted
    · exact absurd (Nat.le_trans hclock hnow) (Nat.not_le.mpr hexpired)

/-! ## One poll -/

/-- A program that dispatches nothing and consumes nothing. -/
def Quiet (key : Keyed) (project : String) {α : Type} (p : RunnerM (Traced C) α) : Prop :=
  ∀ s, Confined key s → wp (confined key project) (fun _ u => Confined key u) p
    (fun _ t => Confined key t ∧ Later s t) s

theorem Later.refl (s : Host) : Later s s := ⟨rfl, Nat.le_refl _, rfl⟩

theorem Later.trans (h : Later s t) (k : Later t u) : Later s u :=
  ⟨k.nonces.trans h.nonces, Nat.le_trans h.clock k.clock, k.dispatched.trans h.dispatched⟩

section Quiet

variable {α β : Type} {p : RunnerM (Traced C) α} {f : α → RunnerM (Traced C) β}

theorem quiet_bind (h : Quiet key project p) (hf : ∀ a, Quiet key project (f a)) :
    Quiet key project (p >>= f) := by
  intro s hs
  apply wp_bind'.mpr
  apply wp_post (h s hs)
  rintro (e | a) t ⟨ht, hl⟩
  · exact ⟨ht, hl⟩
  · apply wp_post (hf a t ht)
    intro r u hu
    exact ⟨hu.1, hl.trans hu.2⟩

theorem quiet_pure (a : α) : Quiet key project (.pure a : RunnerM (Traced C) α) :=
  fun s hs => ⟨hs, Later.refl s⟩

theorem quiet_raise (e : RunnerFailure) : Quiet key project (.raise e : RunnerM (Traced C) α) :=
  fun s hs => ⟨hs, Later.refl s⟩

theorem quiet_request {o : RunnerCall (Traced C)}
    (h : ∀ s r t, host project o s r t → Later s t) : Quiet key project (request o) := by
  intro s hs
  refine ⟨hs, ?_⟩
  intro r t hw
  have hl := h s r t hw.1.1
  exact ⟨hs.later hl, hl⟩

theorem quiet_load (op_id : String) : Quiet key project (load (C := Traced C) op_id) := by
  refine quiet_bind (quiet_request fun _ _ _ hw => hw) fun r => ?_
  split
  · exact quiet_pure _
  · exact quiet_raise _
  · exact quiet_raise _

theorem quiet_update_status (op_id : String) (status : OperationStatus) (error : Option String) :
    Quiet key project (update_status (C := Traced C) op_id status error) := by
  refine quiet_bind (quiet_load op_id) fun op => ?_
  exact quiet_bind (quiet_request fun _ _ _ hw => hw) fun _ => quiet_pure _

theorem quiet_refuse (error : String) :
    Quiet key project (refuse (C := Traced C) entry error) := by
  refine quiet_bind (quiet_update_status _ _ _) fun _ => ?_
  exact quiet_bind (quiet_request fun _ _ _ hw => hw) fun _ => quiet_pure _

theorem quiet_finalise (outcome : Except String Unit) :
    Quiet key project (finalise (C := Traced C) entry outcome) := by
  cases outcome with
  | ok done =>
    refine quiet_bind (quiet_request fun _ _ _ hw => hw) fun _ => ?_
    refine quiet_bind (quiet_update_status _ _ _) fun _ => ?_
    refine quiet_bind (quiet_request fun _ _ _ hw => hw) fun _ => ?_
    exact quiet_bind (quiet_request fun _ _ _ hw => hw) fun _ => quiet_pure _
  | error message =>
    refine quiet_bind (quiet_request fun _ _ _ hw => hw) fun _ => ?_
    refine quiet_bind (quiet_update_status _ _ _) fun _ => ?_
    refine quiet_bind (quiet_request fun _ _ _ hw => hw) fun _ => ?_
    exact quiet_bind (quiet_request fun _ _ _ hw => hw) fun _ => quiet_pure _

end Quiet

variable {ctx : Context C}

/-- From the state `s` the program keeps tokens confined. -/
abbrev Confines (key : Keyed) (project : String) {α : Type} (p : RunnerM (Traced C) α)
    (s : Host) : Prop :=
  wp (confined key project) (fun _ u => Confined key u) p (fun _ t => Confined key t) s

section Confines

variable {α β : Type} {p : RunnerM (Traced C) α} {f : α → RunnerM (Traced C) β}

theorem Quiet.confines (h : Quiet key project p) (hs : Confined key s) : Confines key project p s :=
  wp_post (h s hs) fun _ _ ht => ht.1

theorem confines_quiet_bind (h : Quiet key project p) (hs : Confined key s)
    (hf : ∀ a t, Confined key t → Later s t → Confines key project (f a) t) :
    Confines key project (p >>= f) s := by
  apply wp_bind'.mpr
  apply wp_post (h s hs)
  rintro (e | a) t ⟨ht, hl⟩
  · exact ht
  · exact hf a t ht hl

theorem confines_bind_quiet (h : Confines key project p s) (hf : ∀ a, Quiet key project (f a)) :
    Confines key project (p >>= f) s := by
  apply wp_bind'.mpr
  apply wp_post h
  rintro (e | a) t ht
  · exact ht
  · exact (hf a).confines ht

end Confines

theorem confines_locked_dispatch (hs : Confined key s) (hc : Cleared key s project entry.token) :
    Confines key project (locked_dispatch (traced key ctx) entry) s := by
  refine confines_quiet_bind (quiet_request fun _ _ _ hw => hw) hs fun locked t ht hl => ?_
  cases locked with
  | error message => exact ht
  | ok held =>
    have hexit : ∀ outcome, Quiet key project (do
        request (C := Traced C) .lock_exit
        .pure outcome : RunnerM (Traced C) (Except String Unit)) := fun outcome =>
      quiet_bind (quiet_request fun _ _ _ hw => hw) fun _ => quiet_pure _
    cases hresolve : (traced key ctx).resolve entry with
    | error message => exact (hexit _).confines ht
    | ok call =>
      have hentry : call.1 = entry := by
        simp only [traced] at hresolve
        cases hr : ctx.resolve entry with
        | error message =>
          rw [hr] at hresolve
          cases hresolve
        | ok c =>
          rw [hr] at hresolve
          rw [← Except.ok.inj hresolve]
      apply wp_bind'.mpr
      refine ⟨ht, ?_⟩
      rintro r u ⟨⟨hw, -⟩, -⟩
      obtain ⟨hn, hclock, hd⟩ := hw
      rw [hentry] at hd
      exact (hexit _).confines (ht.dispatch (hc.later hl) hn hclock hd)

theorem confines_run_accepted (hs : Confined key s) (hc : Cleared key s project entry.token) :
    Confines key project (run_accepted (traced key ctx) entry) s := by
  refine confines_quiet_bind (quiet_update_status _ _ _) hs fun _ t ht hst => ?_
  refine confines_quiet_bind (quiet_load _) ht fun _ u hu htu => ?_
  refine confines_quiet_bind (quiet_request fun _ _ _ hw => hw) hu fun _ v hv huv => ?_
  have hcleared := ((hc.later hst).later htu).later huv
  exact confines_bind_quiet (confines_locked_dispatch hv hcleared) fun _ => quiet_finalise _

theorem confines_run_authorized {payload : Items} (hs : Confined key s)
    (hpayload : payload? key entry.token = some payload)
    (hproject : get payload "proj" = some (.str project))
    (hexp : ∃ exp, (get payload "exp").bind Json.asInt = some exp)
    (hminted : Minted key entry.token) :
    Confines key project (run_authorized (traced key ctx) entry payload) s := by
  obtain ⟨nonce, hnonce⟩ := hminted payload hpayload
  obtain ⟨exp, hexp⟩ := hexp
  cases hfrom : fromtimestamp exp with
  | none =>
    have hexpiry : expiry_of payload = .error .overflowError := by
      simp only [expiry_of, hexp, hfrom]
    rw [run_authorized, hexpiry]
    exact hs
  | some e =>
    have hexpiry : expiry_of payload = .ok (some e) := by
      simp only [expiry_of, hexp, hfrom]
    rw [run_authorized, hexpiry, hnonce]
    change Confines key project (consume_nonce (.str nonce) (some e) >>= _) s
    apply wp_bind'.mpr
    apply wp_bind'.mpr
    refine ⟨hs, ?_⟩
    rintro r t ⟨⟨hw, -⟩, hmet⟩
    obtain ⟨c, rfl, hexpires, hclock, hloaded, rfl, hn, hd⟩ := hw
    have ht : Confined key t := hs.consume hclock hloaded hn hd
    cases hstep : (step (s.nonces project) c).1 with
    | error failure => exact ht
    | ok accepted =>
      cases accepted with
      | false => exact (quiet_refuse _).confines ht
      | true =>
        have hintime : t.clock ≤ e := hmet e rfl
        have hcleared := hs.cleared hpayload hproject hnonce hexpiry hexpires hclock hloaded
          hintime hstep hn hd
        exact confines_run_accepted ht hcleared

theorem confines_run_checked (hs : Confined key s) (hproject : entry.project = project)
    (hminted : Minted key entry.token) :
    Confines key project (run_checked (traced key ctx) entry) s := by
  have hnow : ∀ (s : Host) r t, host (C := C) project .now s r t → Later s t :=
    fun _ _ _ hw => hw.2
  refine confines_quiet_bind (quiet_request hnow) hs fun now t ht hl => ?_
  cases hv : verify key entry.token entry.kind entry.environment entry.project now with
  | error failure =>
    simp only [traced, hv, run_verified]
    split
    · exact (quiet_refuse _).confines ht
    · exact ht
  | ok payload =>
    have hverified := verified_of_verify hv
    simp only [traced, hv, run_verified]
    split
    · exact (quiet_refuse _).confines ht
    · obtain ⟨exp, hexp, -⟩ := hverified.unexpired
      apply confines_run_authorized ht hverified.carried _ ⟨exp, hexp⟩ hminted
      rw [← hproject]
      exact hverified.project

theorem confines_execute_entry (hs : Confined key s) (hproject : entry.project = project)
    (hminted : Minted key entry.token) :
    Confines key project (execute_entry (traced key ctx) entry) s := by
  refine confines_quiet_bind (quiet_request fun _ _ _ hw => hw) hs fun r t ht _ => ?_
  split
  · exact ht
  · exact confines_run_checked ht hproject hminted
  · split
    · refine Quiet.confines ?_ ht
      exact quiet_bind (quiet_request fun _ _ _ hw => hw) fun _ => quiet_pure _
    · exact confines_run_checked ht hproject hminted

/-- What is claimed lies in its own project's queue and carries a minted token. -/
theorem wp_claim_from (stems : List String) (hs : Confined key s) :
    wp (confined key project) (fun _ u => Confined key u) (claim_from (C := Traced C) stems)
      (fun r t => Confined key t ∧ ∀ entry, r = .ok (some entry) →
        entry.project = project ∧ Minted key entry.token) s := by
  induction stems generalizing s with
  | nil =>
    refine ⟨hs, ?_⟩
    intro entry h
    cases h
  | cons stem stems ih =>
    apply wp_bind'.mpr
    refine ⟨hs, ?_⟩
    rintro claimed t ⟨⟨hl, -⟩, -⟩
    have ht := hs.later hl
    cases claimed with
    | false => exact ih ht
    | true =>
      change wp (confined key project) (fun _ u => Confined key u)
        (request (C := Traced C) (.read_running stem) >>= _) _ _
      apply wp_bind'.mpr
      refine ⟨ht, ?_⟩
      rintro found u ⟨⟨hl', hminted⟩, hmet⟩
      have hu := ht.later hl'
      cases found with
      | some entry =>
        refine ⟨hu, ?_⟩
        intro entry' h
        obtain rfl := Option.some.inj (Except.ok.inj h)
        exact ⟨hmet entry rfl, hminted entry rfl⟩
      | none =>
        apply wp_bind'.mpr
        refine ⟨hu, ?_⟩
        rintro ⟨⟩ v ⟨⟨hl'', -⟩, -⟩
        exact ih (hu.later hl'')

theorem confines_poll (hs : Confined key s) :
    Confines key project (claim_and_execute (traced key ctx)) s := by
  apply wp_bind'.mpr
  refine wp_bind'.mpr ⟨hs, ?_⟩
  rintro stems t ⟨⟨hl, -⟩, -⟩
  apply wp_post (wp_claim_from stems (hs.later hl))
  rintro (e | found) u ⟨hu, hfound⟩
  · exact hu
  cases found with
  | none => exact hu
  | some entry =>
    obtain ⟨hproject, hminted⟩ := hfound entry rfl
    exact confines_bind_quiet (confines_execute_entry hu hproject hminted) fun _ => quiet_pure _

/-- In every run of polls whose steps meet the condition, every entry was dispatched against
the project its token was minted for, and no token was dispatched twice. -/
theorem tokens_stay_confined (key : Keyed) (ctx : String → Context C) (s t : Host)
    (h : Polls key ctx (confined key) s t) (hs : s.dispatched = []) :
    (∀ d ∈ t.dispatched, ScopedTo key d.2.token d.1) ∧
      (t.dispatched.map fun d => d.2.token).Nodup := by
  have hinv : Confined key t := by
    induction h with
    | refl =>
      constructor <;> simp [hs]
    | wait _ hl ih => exact ih.later hl
    | poll project _ hsteps ih =>
      exact wp_invariant (confines_poll ih) hsteps (fun _ _ h => h) (fun _ _ h => h)
  exact ⟨hinv.scope, hinv.once⟩

/-! ## One token in two queues -/

def acmeItems : Items :=
  [("act", .str "backup"), ("env", .str "production"), ("proj", .str "acme"),
    ("exp", .int 300), ("nonce", .str "5ca1ab1e"), ("roles", .list [.str "admin"])]

def exampleKey : Keyed where
  sign := fun _ => [115]
  decode := fun _ => some (.dict acmeItems)
  sign_ascii := isAscii_signature

def exampleContext : Context Unit where
  key := exampleKey
  kind_protected := fun _ _ => some false
  resolve := fun _ => .ok ()
  redact := id

/-- The token is `h.p.s`, minted for the project `acme`. -/
def acmeEntry : QueueEntry :=
  ⟨"op1", "backup", "acme", "production", "alice", .dict [], [104, 46, 112, 46, 115]⟩

def queuedRecord : Operation :=
  ⟨"op1", "backup", "acme", "production", .queued, "alice", [], none, none⟩

/-- A project whose queue holds the entry, at the beginning of time. -/
def serve (project : String) (o : (Runner (Traced Unit)).Op) (s : Host) :
    (Runner (Traced Unit)).Reply o × Host :=
  match o with
  | .list_pending => (["op1"], s)
  | .claim _ => (true, s)
  | .read_running _ => (some acmeEntry, s)
  | .mark_corrupt _ => ((), s)
  | .load _ => (.ok queuedRecord, s)
  | .save _ => ((), s)
  | .complete _ => ((), s)
  | .fail _ => ((), s)
  | .now => (s.clock, s)
  | .consume (.str nonce) expires_at =>
    let c : Consume := ⟨nonce, expires_at, s.clock, s.clock, Nat.le_refl _⟩
    ((step (s.nonces project) c).1,
      { s with nonces := Function.update s.nonces project (step (s.nonces project) c).2 })
  | .consume _ _ => (.ok false, s)
  | .append_event _ => ((), s)
  | .lock_enter _ _ => (.ok (), s)
  | .lock_exit => ((), s)
  | .service (entry, _) => (.ok (), { s with dispatched := s.dispatched ++ [(project, entry)] })
  | .audit_append _ => ((), s)

theorem host_serve (project : String) (o : (Runner (Traced Unit)).Op) (s : Host) :
    host project o s (serve project o s).1 (serve project o s).2 := by
  cases o with
  | now => exact ⟨rfl, Later.refl s⟩
  | consume nonce expires_at =>
    cases nonce with
    | str nonce =>
      exact ⟨⟨nonce, expires_at, s.clock, s.clock, Nat.le_refl _⟩, rfl, rfl, Nat.le_refl _, rfl,
        rfl, rfl, rfl⟩
    | null | bool b | int i | float x | list l | dict d => rfl
  | service call => exact ⟨rfl, Nat.le_refl _, rfl⟩
  | list_pending | claim stem | read_running stem | mark_corrupt stem | load op_id | save op
  | complete op_id | fail op_id | append_event event | lock_enter environment op_id | lock_exit
  | audit_append entry => exact Later.refl s

theorem acmeEntry_minted : Minted exampleKey acmeEntry.token := by
  intro payload h
  obtain rfl : acmeItems = payload := by
    have hpayload : payload? exampleKey acmeEntry.token = some acmeItems := rfl
    exact Option.some.inj (hpayload.symm.trans h)
  exact ⟨"5ca1ab1e", rfl⟩

theorem carriesMinted_serve (project : String) (o : (Runner (Traced Unit)).Op) (s : Host) :
    carriesMinted exampleKey project o s (serve project o s).1 (serve project o s).2 := by
  refine ⟨host_serve project o s, ?_⟩
  cases o with
  | read_running stem =>
    intro entry h
    obtain rfl : acmeEntry = entry := Option.some.inj h
    exact acmeEntry_minted
  | _ => trivial

def startHost : Host := ⟨fun _ => .missing, 0, []⟩

def pollOf (project : String) (s : Host) : Host :=
  ((claim_and_execute (traced exampleKey exampleContext)).run (serve project) s).2

/-- The entry of `acme` copied into the queue of `beta` is dispatched against `beta` as well. -/
theorem token_reaches_another_project :
    Polls exampleKey (fun _ => exampleContext) (carriesMinted exampleKey) startHost
      (pollOf "beta" (pollOf "acme" startHost)) ∧
    (pollOf "beta" (pollOf "acme" startHost)).dispatched =
      [("acme", acmeEntry), ("beta", acmeEntry)] ∧
    ¬ ScopedTo exampleKey acmeEntry.token "beta" := by
  refine ⟨?_, rfl, ?_⟩
  · apply Polls.poll "beta"
    · apply Polls.poll "acme" (.refl _)
      exact ends_run (carriesMinted_serve "acme") _ _
    · exact ends_run (carriesMinted_serve "beta") _ _
  · rintro ⟨payload, hpayload, hproject⟩
    obtain rfl : acmeItems = payload := by
      have hacme : payload? exampleKey acmeEntry.token = some acmeItems := rfl
      exact Option.some.inj (hacme.symm.trans hpayload)
    have hacme : get acmeItems "proj" = some (.str "acme") := rfl
    rw [hacme] at hproject
    exact absurd (Json.str.inj (Option.some.inj hproject)) (by decide)

theorem tokens_stay_confined_in_their_queue :
    (pollOf "acme" startHost).dispatched = [("acme", acmeEntry)] ∧
    ScopedTo exampleKey acmeEntry.token "acme" := by
  have hserve : ∀ o s, s.clock = 0 → confined exampleKey "acme" o s (serve "acme" o s).1
      (serve "acme" o s).2 ∧ (serve "acme" o s).2.clock = 0 := by
    intro o s hs
    refine ⟨⟨carriesMinted_serve "acme" o s, ?_⟩, ?_⟩
    · cases o with
      | read_running stem =>
        intro entry h
        obtain rfl : acmeEntry = entry := Option.some.inj h
        rfl
      | consume nonce expires_at =>
        intro e _
        have hclock : (serve "acme" (.consume nonce expires_at) s).2.clock = 0 := by
          cases nonce <;> exact hs
        rw [hclock]
        exact Nat.zero_le e
      | _ => trivial
    · cases o with
      | consume nonce expires_at => cases nonce <;> exact hs
      | _ => exact hs
  have hsteps := ends_run_within hserve (claim_and_execute (traced exampleKey exampleContext))
    (s := startHost) rfl
  have hpolls : Polls exampleKey (fun _ => exampleContext) (confined exampleKey) startHost
      (pollOf "acme" startHost) := .poll "acme" (.refl _) hsteps
  have h := tokens_stay_confined exampleKey (fun _ => exampleContext) startHost _ hpolls rfl
  have hdispatched : (pollOf "acme" startHost).dispatched = [("acme", acmeEntry)] := rfl
  rw [hdispatched] at h
  exact ⟨hdispatched, h.1 _ (List.mem_singleton_self _)⟩

end RunnerConfinement
