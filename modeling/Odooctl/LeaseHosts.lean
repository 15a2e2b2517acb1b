import Odooctl.LeaseRelease
import Odooctl.ProgramRules

/-!
# Hosts that share a coordination lease

Any number of hosts, each with one call at a time, on the one object of an archive scope. Beside
the object stands what is known of it: every object that was ever stored, which host generated
which lease identifier, the sections that an acquisition has opened and no release or recovery
has closed, and the generations that renewals have returned.
-/
namespace LeaseHosts

open EffectPrograms PitrRestoreRecord CoordinationLease LeaseRelease

/-! ## Recovery -/

section Recovery

variable (a : LeaseAdapter)

def inspect_coordination_lease (now : Option Timestamp) :
    LeaseM (Option PitrCoordinationLease) := do
  let initial ← coordination_head a now
  match initial.info with
  | none => .pure none
  | some _ => do
    let lease ← read_coordination_lease a now true
    .pure (some lease)

def recover_expired_coordination_lease (confirm_lease_id confirm_owner confirm_purpose
    confirm_owner_stopped : String) (now : Option Timestamp) :
    LeaseM PitrCoordinationLease := do
  let current ← inspect_coordination_lease a now
  match current with
  | none => .raise (.lease "There is no PITR coordination lease to recover")
  | some current => do
    refuse_if (current.expired = false)
      (.busy "Refusing to recover an active PITR coordination lease")
    refuse_if (confirm_lease_id ≠ current.lease_id ∨ confirm_owner ≠ current.owner ∨
        confirm_purpose ≠ current.purpose)
      (.lease ("Expired PITR lease recovery confirmations do not exactly " ++
        "match lease_id, owner, and purpose"))
    refuse_if (confirm_owner_stopped ≠ s!"OWNER_STOPPED:{current.lease_id}")
      (.lease ("Expired PITR lease recovery requires the exact owner-stopped " ++
        s!"attestation 'OWNER_STOPPED:{current.lease_id}'"))
    conditional_delete a current.etag now "Expired PITR coordination lease"
    .pure current

end Recovery

/-! ## Calls -/

inductive HostCall where
  | acquire (purpose owner : String) (ttl_seconds : ℤ) (now : Option Timestamp)
  | renew (lease : PitrCoordinationLease) (now : Option Timestamp)
  | assert (lease : PitrCoordinationLease) (now : Option Timestamp)
  | release (lease : PitrCoordinationLease) (now : Option Timestamp)
  | recover (lease_id owner purpose attestation : String) (now : Option Timestamp)

/-- The call, with the lease that it hands to its host. -/
def HostCall.body (a : LeaseAdapter) : HostCall → LeaseM (Option PitrCoordinationLease)
  | .acquire purpose owner ttl_seconds now => do
    let lease ← acquire_coordination_lease a purpose owner ttl_seconds now
    .pure (some lease)
  | .renew lease now => do
    let lease ← renew_coordination_lease a lease now
    .pure (some lease)
  | .assert lease now => do
    let lease ← assert_coordination_lease a lease now
    .pure (some lease)
  | .release lease now => do
    release_coordination_lease a lease now
    .pure none
  | .recover lease_id owner purpose attestation now => do
    let _ ← recover_expired_coordination_lease a lease_id owner purpose attestation now
    .pure none

/-! ## What the hosts share -/

def leaseId (o : LeaseObject) : Option String :=
  match o.body with
  | .document d => some d.lease_id
  | .other _ _ => none

/-- An identifier that no host has generated was there before the hosts. -/
structure Scope (ι : Type) where
  slot : Slot
  stored : List LeaseObject
  ids : List (String × Option ι)
  sections : List (ι × String)
  renewals : List (String × ℤ)
  stopped : ι → Bool

variable {ι : Type}

/-- The delete of a lease closes its sections. -/
def closed (o : LeaseCall) (before after : Slot) (sections : List (ι × String)) :
    List (ι × String) :=
  match o, after with
  | .delete_object _, none => sections.filter fun p => before.bind leaseId ≠ some p.2
  | _, _ => sections

def Scope.moved (s : Scope ι) (o : LeaseCall) (slot : Slot) : Scope ι :=
  { s with
    slot := slot
    stored := if slot = s.slot then s.stored else slot.toList ++ s.stored
    sections := closed o s.slot slot s.sections }

/-- No identifier is generated twice, and objects with one ETag have one content. -/
def shared (a : LeaseAdapter) (i : ι) : World Lease (Scope ι)
  | .uuid4, s, r, t => r ∉ s.ids.map Prod.fst ∧ t = { s with ids := (r, some i) :: s.ids }
  | o, s, r, t => ∃ slot, store a o s.slot r slot ∧
      (∀ new ∈ slot, ∀ old ∈ s.stored, old.etag = new.etag → old.body = new.body) ∧
      t = s.moved o slot

/-! ## Runs -/

structure Host where
  handles : List PitrCoordinationLease := []
  doing : Option (HostCall × LeaseM (Option PitrCoordinationLease)) := none

structure System (ι : Type) extends Scope ι where
  hosts : ι → Host

/-- The host that generated the identifier takes no further step. -/
def Scope.Ownerless (s : Scope ι) (lease_id : String) : Prop :=
  ∃ owner, (lease_id, owner) ∈ s.ids ∧ ∀ j, owner = some j → s.stopped j = true

/-- The host generated the identifier. -/
def Scope.Owns (s : Scope ι) (i : ι) (lease_id : String) : Prop := (lease_id, some i) ∈ s.ids

/-- A host renews, asserts and releases what it holds. A recovery is for a lease whose owner has
really stopped. -/
def System.May (s : System ι) (i : ι) : HostCall → Prop
  | .acquire _ _ _ _ => True
  | .renew lease _ | .assert lease _ | .release lease _ => lease ∈ (s.hosts i).handles
  | .recover lease_id _ _ _ _ => s.Ownerless lease_id

/-- What a call that ends adds: a lease to the host, a section, a renewal. -/
def gained : Except LeaseFailure (Option PitrCoordinationLease) → List PitrCoordinationLease
  | .ok (some lease) => [lease]
  | _ => []

def opened (i : ι) (c : HostCall) (r : Except LeaseFailure (Option PitrCoordinationLease)) :
    List (ι × String) :=
  match c with
  | .acquire _ _ _ _ => (gained r).map fun lease => (i, lease.lease_id)
  | _ => []

def renewed (c : HostCall) (r : Except LeaseFailure (Option PitrCoordinationLease)) :
    List (String × ℤ) :=
  match c with
  | .renew _ _ => (gained r).map fun lease => (lease.lease_id, lease.generation)
  | _ => []

def Scope.ended (s : Scope ι) (i : ι) (c : HostCall)
    (r : Except LeaseFailure (Option PitrCoordinationLease)) : Scope ι :=
  { s with sections := opened i c r ++ s.sections, renewals := renewed c r ++ s.renewals }

/-- The system with what one host has come to. -/
def System.host_at [DecidableEq ι] (s : System ι) (t : Scope ι) (i : ι) (h : Host) : System ι :=
  ⟨t, Function.update s.hosts i h⟩

theorem host_at_self [DecidableEq ι] (s : System ι) (t : Scope ι) (i : ι) (h : Host) :
    (s.host_at t i h).hosts i = h := by
  simp [System.host_at]

theorem host_at_ne [DecidableEq ι] (s : System ι) (t : Scope ι) {i j : ι} (h : Host) (hne : j ≠ i) :
    (s.host_at t i h).hosts j = s.hosts j := by
  simp [System.host_at, hne]

inductive Step [DecidableEq ι] (a : LeaseAdapter) : System ι → System ι → Prop
  | start {s : System ι} (i : ι) (c : HostCall) (hrunning : s.stopped i = false)
      (hidle : (s.hosts i).doing = none) (hmay : s.May i c) :
      Step a s (s.host_at s.toScope i ⟨(s.hosts i).handles, some (c, c.body a)⟩)
  | call {s : System ι} (i : ι) {c : HostCall} {o : LeaseCall}
      {k : Lease.Reply o → LeaseM (Option PitrCoordinationLease)} {r : Lease.Reply o}
      {t : Scope ι} (hrunning : s.stopped i = false)
      (hdoing : (s.hosts i).doing = some (c, .call (F := Lease) o k))
      (hworld : shared a i o s.toScope r t) :
      Step a s (s.host_at t i ⟨(s.hosts i).handles, some (c, k r)⟩)
  | finish {s : System ι} (i : ι) {c : HostCall}
      {r : Except LeaseFailure (Option PitrCoordinationLease)} (hrunning : s.stopped i = false)
      (hdoing : (s.hosts i).doing = some (c, .ofExcept r)) :
      Step a s (s.host_at (s.toScope.ended i c r) i ⟨gained r ++ (s.hosts i).handles, none⟩)
  | stop {s : System ι} (i : ι) :
      Step a s { s with stopped := Function.update s.stopped i true }

/-- Whatever is under the key before any host begins. -/
def initial (slot : Slot) : System ι where
  slot := slot
  stored := slot.toList
  ids := (slot.bind leaseId).toList.map fun lease_id => (lease_id, none)
  sections := []
  renewals := []
  stopped := fun _ => false
  hosts := fun _ => {}

def Reachable [DecidableEq ι] (a : LeaseAdapter) (s : System ι) : Prop :=
  ∃ slot, Relation.ReflTransGen (Step a) (initial slot) s

end LeaseHosts
