import Odooctl.CheckedLists
import Odooctl.CoordinationLease

/-!
# What a release reports

The look that follows the conditional delete sees the key as it is then. A lease that another
host has created by then is taken for a delete that lost its precondition.
-/
namespace LeaseRelease

open EffectPrograms InterleavedPrograms PitrRestoreRecord CheckedLists CoordinationLease

structure LeaseObject where
  body : Body
  digest : Option String
  etag : String
  last_modified : Timestamp
  deriving DecidableEq, Repr

/-- What is stored under the key. -/
abbrev Slot := Option LeaseObject

variable (a : LeaseAdapter)

def LeaseObject.response (o : LeaseObject) : HeadResponse :=
  ⟨a.size o.body, o.digest, some o.etag, some o.last_modified⟩

def Meets (s : Slot) : Condition → Prop
  | .if_none_match => s = none
  | .if_match etag => ∃ o, s = some o ∧ o.etag = etag

/-- A write may take effect and still report failure; a read that succeeds is true, and so is
the answer that there is no object. -/
def store : World Lease Slot
  | .uuid4, s, _, t => t = s
  | .head_object, s, r, t => t = s ∧
      (∀ response, r.response = .ok response → ∃ o, s = some o ∧ response = o.response a) ∧
      ∀ exc, r.response = .error exc → is_not_found exc = true → s = none
  | .get_object, s, r, t => t = s ∧ ∀ body, r = .ok body → ∃ o, s = some o ∧ body = o.body
  | .put_object condition body digest, s, r, t =>
      (Meets s condition ∧ ∃ etag modified, t = some ⟨body, some digest, etag, modified⟩) ∨
      t = s ∧ ∃ exc, r = .error exc
  | .delete_object etag, s, r, t =>
      (Meets s (.if_match etag) ∧ t = none) ∨ t = s ∧ ∃ exc, r = .error exc

/-- The hosts and what each has still to do. -/
abbrev Hosts (ι : Type) :=
  Pool (fun _ : ι => Lease) (fun _ => LeaseFailure) (fun _ => Unit)

section Release

variable {ι : Type} [DecidableEq ι]

/-- A run in which one host calls `release_coordination_lease` while the others do whatever
they do, up to the look that follows its delete. The delete has removed the host's own lease,
whatever was reported of it, and the look succeeds. -/
structure ReleaseRun (ι : Type) [DecidableEq ι] (a : LeaseAdapter) where
  host : ι
  lease : PitrCoordinationLease
  now : Option Timestamp
  start : Slot
  hosts : Hosts ι
  called : hosts host = release_coordination_lease a lease now
  held : LeaseObject
  atDelete : Hosts ι
  reached : Interleaved (fun _ => store a) start hosts (some held) atDelete
  etag : String
  afterDelete : Except ClientError Unit → LeaseM Unit
  deletes : atDelete host = .call (F := Lease) (.delete_object etag) afterDelete
  own : held.etag = lease.etag
  answer : Except ClientError Unit
  removed : store a (.delete_object etag) (some held) answer none
  seen : Slot
  atLook : Hosts ι
  between : Interleaved (fun _ => store a) none
    (Function.update atDelete host (afterDelete answer)) seen atLook
  afterLook : HeadAnswer → LeaseM Unit
  looks : atLook host = .call (F := Lease) .head_object afterLook
  reply : HeadAnswer
  look : store a .head_object seen reply seen
  head : CoordinationHead
  succeeded : coordination_info a.coordination_lease_key now reply = .ok head

/-- How the call ends: nothing is left to do but to return or to raise. -/
def ReleaseRun.outcome {a : LeaseAdapter} (run : ReleaseRun ι a) : LeaseM Unit :=
  run.afterLook run.reply

/-- What follows the delete. -/
def look_and_judge (etag label : String) (original : Option ClientError)
    (now : Option Timestamp) : LeaseM Unit := do
  let current ← coordination_head a now
  .ofExcept (delete_outcome a etag label original current)

/-- The calls that change nothing. -/
def Reading : LeaseCall → Prop
  | .head_object | .get_object => True
  | _ => False

variable {a} {now : Option Timestamp} {s t : Slot}

theorem calls_refuse_if {C : LeaseCall → Prop} {c : Prop} [Decidable c] {e : LeaseFailure} :
    (refuse_if c e).Calls C := by
  unfold refuse_if
  split <;> trivial

theorem reading_head : (coordination_head a now).Calls Reading := calls_perform.mpr trivial

theorem reading_verified {digest : String} {size most : ℕ} :
    (read_verified a digest size most).Calls Reading := by
  unfold read_verified
  apply calls_bind (calls_perform.mpr trivial)
  intro info
  apply calls_bind calls_refuse_if
  intro _
  apply calls_bind calls_refuse_if
  intro _
  apply calls_bind calls_refuse_if
  intro _
  apply calls_bind (calls_perform.mpr trivial)
  intro body
  apply calls_bind calls_refuse_if
  intro _
  exact calls_bind calls_refuse_if fun _ => calls_pure _

theorem reading_stable : (read_stable_coordination_payload a now).Calls Reading := by
  unfold read_stable_coordination_payload
  apply calls_bind reading_head
  intro before
  split
  · exact calls_raise _
  · apply calls_bind reading_verified
    intro read
    apply calls_bind reading_head
    intro after
    split
    · exact calls_raise _
    · exact calls_bind calls_refuse_if fun _ => calls_pure _

theorem reading_lease {allow_expired : Bool} :
    (read_coordination_lease a now allow_expired).Calls Reading := by
  unfold read_coordination_lease
  exact calls_bind (calls_mapError reading_stable) fun _ => calls_ofExcept _

/-- A delete is followed by the look and by nothing else. -/
def DeleteThenLook (a : LeaseAdapter) (now : Option Timestamp) (o : LeaseCall)
    (k : o.Answer → LeaseM Unit) : Prop :=
  match o, k with
  | .delete_object _, k => ∀ r, ∃ etag label original,
      k r = look_and_judge a etag label original now
  | _, _ => True

/-- A look that succeeds ends the call, normally if it shows that there is no object. -/
def LookDecides (a : LeaseAdapter) (now : Option Timestamp) (o : LeaseCall)
    (k : o.Answer → LeaseM Unit) : Prop :=
  match o, k with
  | .head_object, k => ∀ reply head,
      coordination_info a.coordination_lease_key now reply = .ok head →
        (k reply = .pure () ↔ head.info = none)
  | _, _ => True

theorem judged_ok_iff {etag label : String} {original : Option ClientError}
    {head : CoordinationHead} :
    (.ofExcept (delete_outcome a etag label original head) : LeaseM Unit) = .pure () ↔
      head.info = none := by
  unfold delete_outcome
  cases head.info with
  | none => simp [Prog.ofExcept]
  | some info =>
    by_cases hetag : info.etag ≠ some etag
    · simp [hetag, Prog.ofExcept]
    · cases original with
      | none => simp [hetag, Prog.ofExcept]
      | some exc => cases hc : is_conditional_conflict exc <;> simp [hetag, hc, Prog.ofExcept]

theorem judge_decides (etag label : String) (original : Option ClientError) :
    (look_and_judge a etag label original now).Visits (LookDecides a now) := by
  constructor
  · intro reply head hread
    have hk : ((Prog.ofExcept (coordination_info a.coordination_lease_key now reply)).bind
        fun current => .ofExcept (delete_outcome a etag label original current) : LeaseM Unit) =
        .ofExcept (delete_outcome a etag label original head) := by
      rw [hread]
      rfl
    exact (Eq.congr_left hk).trans judged_ok_iff
  · intro reply
    change Prog.Visits _ (Prog.bind (Prog.ofExcept _) _)
    cases coordination_info a.coordination_lease_key now reply with
    | error e => trivial
    | ok head => exact visits_ofExcept _

theorem reading_no_delete (o : Lease.Op) (h : Reading o) (k : Lease.Reply o → LeaseM Unit) :
    DeleteThenLook a now o k := by
  cases o with
  | head_object | get_object => trivial
  | uuid4 | put_object | delete_object => cases h

theorem judge_looks (etag label : String) (original : Option ClientError) :
    (look_and_judge a etag label original now).Visits (DeleteThenLook a now) :=
  visits_bind reading_head reading_no_delete fun _ => visits_ofExcept _

theorem release_looks (lease : PitrCoordinationLease) :
    (release_coordination_lease a lease now).Visits (DeleteThenLook a now) := by
  unfold release_coordination_lease
  apply visits_bind reading_lease reading_no_delete
  intro current
  split
  · unfold conditional_delete
    apply visits_bind (C := Reading) calls_refuse_if reading_no_delete
    intro _
    cases if_match_etag current.etag with
    | error e => exact judge_looks _ _ _
    | ok etag =>
      constructor
      · intro r
        exact ⟨_, _, _, rfl⟩
      · exact fun r => judge_looks _ _ _
  · trivial

/-- A look that succeeds sees what is stored. -/
theorem sees_absence {reply : HeadAnswer} {head : CoordinationHead} {key : String}
    (hlook : store a .head_object s reply t) (hread : coordination_info key now reply = .ok head) :
    head.info = none ↔ s = none := by
  obtain ⟨-, hfound, habsent⟩ := hlook
  simp only [coordination_info] at hread
  obtain ⟨server_time, -, hread⟩ := bind_eq_ok.mp hread
  cases hresponse : reply.response with
  | error exc =>
    rw [hresponse] at hread
    by_cases hmissing : is_not_found exc = true
    · simp only [hmissing, if_true] at hread
      cases hread
      simp [habsent exc hresponse hmissing]
    · simp [hmissing] at hread
  | ok response =>
    obtain ⟨o, rfl, -⟩ := hfound response hresponse
    rw [hresponse] at hread
    obtain ⟨info, -, hread⟩ := bind_eq_ok.mp hread
    split at hread
    · cases hread
    split at hread
    · cases hread
    split at hread
    · cases hread
    · cases hread
      simp

/-- A release that removed the caller's own lease returns normally exactly if nobody has put
another lease there by the time of the look. -/
theorem release_reported_iff (run : ReleaseRun ι a) :
    run.outcome = .pure () ↔ run.seen = none := by
  have hdelete := run.reached.visits (i := run.host)
    (D := DeleteThenLook a run.now) (by rw [run.called]; exact release_looks run.lease)
  rw [run.deletes] at hdelete
  obtain ⟨etag, label, original, hrest⟩ := hdelete.1 run.answer
  have hlook := run.between.visits (i := run.host) (D := LookDecides a run.now) (by
    rw [Function.update_self, hrest]
    exact judge_decides etag label original)
  rw [run.looks] at hlook
  have hdecides := hlook.1 run.reply run.head run.succeeded
  exact hdecides.trans (sees_absence run.look run.succeeded)

end Release

/-! ## Two hosts -/

def ownDocument : LeaseDocument where
  cluster_id := "main"
  generation := 1
  lease_id := "00000000000000000000000000000000"
  owner := "host-a"
  project := "shop"
  purpose := "pitr-plan"
  schema_version := 1
  system_identifier := "7"
  ttl_seconds := 3600
  type := "odooctl-pitr-coordination-lease"

def otherDocument : LeaseDocument where
  cluster_id := "main"
  generation := 1
  lease_id := "11111111111111111111111111111111"
  owner := "host-b"
  project := "shop"
  purpose := "pitr-base"
  schema_version := 1
  system_identifier := "7"
  ttl_seconds := 3600
  type := "odooctl-pitr-coordination-lease"

/-- With the digests of the two documents, which are equally long. -/
def exampleAdapter : LeaseAdapter where
  scope_prefix := "wal"
  project := "shop"
  cluster_id := "main"
  system_identifier := "7"
  sha256 := fun body =>
    if body = .document ownDocument then
      "88cf692f346579b27b9e02f5811e0c997f3a625b142a91aabf56a824e3678fc5"
    else if body = .document otherDocument then
      "0b09e045fe0ebeacb939d9057c61a197ba2300c146ebbd8345db944944884596"
    else ""
  size := fun _ => 242

def ownObject : LeaseObject where
  body := .document ownDocument
  digest := some (exampleAdapter.sha256 (.document ownDocument))
  etag := "etag-a"
  last_modified := 0

def ownLease : PitrCoordinationLease where
  key := exampleAdapter.coordination_lease_key
  lease_id := ownDocument.lease_id
  owner := "host-a"
  purpose := "pitr-plan"
  generation := 1
  ttl_seconds := 3600
  etag := "etag-a"
  acquired_at := 0
  expires_at := 3600000000
  observed_at := 0

def absent : ClientError := ⟨"NoSuchKey", some 404, "not found"⟩

def refused : ClientError := ⟨"PreconditionFailed", some 412, "precondition failed"⟩

/-- A store without faults. -/
def serve (o : Lease.Op) (s : Slot) : Lease.Reply o × Slot :=
  match o with
  | .uuid4 => ("11111111111111111111111111111111", s)
  | .head_object => (⟨match s with
      | some o => .ok (o.response exampleAdapter)
      | none => .error absent, .at 0, 0⟩, s)
  | .get_object => (match s with
      | some o => .ok o.body
      | none => .error absent, s)
  | .put_object .if_none_match body digest => match s with
      | none => (.ok (), some ⟨body, some digest, "etag-b", 0⟩)
      | some _ => (.error refused, s)
  | .put_object (.if_match etag) body digest =>
      if s.map LeaseObject.etag = some etag then (.ok (), some ⟨body, some digest, "etag-b", 0⟩)
      else (.error refused, s)
  | .delete_object etag =>
      if s.map LeaseObject.etag = some etag then (.ok (), none) else (.error refused, s)

theorem meets_if_match {s : Slot} {etag : String} (h : s.map LeaseObject.etag = some etag) :
    Meets s (.if_match etag) := Option.map_eq_some_iff.mp h

theorem store_serve (o : Lease.Op) (s : Slot) :
    store exampleAdapter o s (serve o s).1 (serve o s).2 := by
  cases o with
  | uuid4 => rfl
  | head_object =>
    refine ⟨rfl, ?_, ?_⟩
    · intro response h
      cases s with
      | none => cases h
      | some o => exact ⟨o, rfl, (Except.ok.inj h).symm⟩
    · intro exc h _
      cases s with
      | none => rfl
      | some o => cases h
  | get_object =>
    refine ⟨rfl, ?_⟩
    intro body h
    cases s with
    | none => cases h
    | some o => exact ⟨o, rfl, (Except.ok.inj h).symm⟩
  | put_object condition body digest =>
    cases condition with
    | if_none_match =>
      cases s with
      | none => exact .inl ⟨rfl, "etag-b", 0, rfl⟩
      | some o => exact .inr ⟨rfl, refused, rfl⟩
    | if_match etag =>
      simp only [serve]
      split
      · next h => exact .inl ⟨meets_if_match h, "etag-b", 0, rfl⟩
      · exact .inr ⟨rfl, refused, rfl⟩
  | delete_object etag =>
    simp only [serve]
    split
    · next h => exact .inl ⟨meets_if_match h, rfl⟩
    · exact .inr ⟨rfl, refused, rfl⟩

/-- Host `false` releases its lease while host `true` acquires one. -/
def exampleHosts : Hosts Bool
  | false => release_coordination_lease exampleAdapter ownLease none
  | true => do
    let _ ← acquire_coordination_lease exampleAdapter "pitr-base" "host-b" 3600 none
    .pure ()

/-- Some operations of one host, which finds the store in a given state. -/
def acts (n : ℕ) (p : LeaseM Unit) (s : Slot) : LeaseM Unit × Slot :=
  p.play (fun (_ : Unit) => serve) (List.replicate n ()) s

theorem acts_interleaved (hosts : Hosts Bool) (s : Slot) (i : Bool) (n : ℕ) :
    Interleaved (fun _ => store exampleAdapter) s hosts (acts n (hosts i) s).2
      (Function.update hosts i (acts n (hosts i) s).1) :=
  Interleaved.run i (steps_play (fun (_ : Unit) => store_serve) _ _ _)

/-- `false` has found its lease and is about to delete it. -/
def aboutToDelete : LeaseM Unit := (acts 4 (exampleHosts false) (some ownObject)).1

/-- The delete has removed the lease and reported so. -/
def afterRemoval : LeaseM Unit := aboutToDelete.resume (LeaseCall.delete_object "etag-a") (.ok ())

def atDelete : Hosts Bool := Function.update exampleHosts false aboutToDelete

def removedHosts : Hosts Bool := Function.update atDelete false afterRemoval

theorem reaches_delete : (acts 4 (exampleHosts false) (some ownObject)).2 = some ownObject ∧
    aboutToDelete.issues = some (LeaseCall.delete_object "etag-a") ∧
    afterRemoval.issues = some LeaseCall.head_object := by
  decide +kernel

theorem answers_look (s : Slot) :
    store exampleAdapter .head_object s (serve .head_object s).1 s := store_serve .head_object s

/-- What is left of the run when `true` has done as much as it does before the look. -/
def releaseRun (seen : Slot) (atLook : Hosts Bool) (head : CoordinationHead)
    (between : Interleaved (fun _ => store exampleAdapter) none removedHosts seen atLook)
    (looks : atLook false = afterRemoval)
    (succeeded : coordination_info exampleAdapter.coordination_lease_key none
      (serve .head_object seen).1 = .ok head) : ReleaseRun Bool exampleAdapter where
  host := false
  lease := ownLease
  now := none
  start := some ownObject
  hosts := exampleHosts
  called := rfl
  held := ownObject
  atDelete := atDelete
  reached := by
    have h := acts_interleaved exampleHosts (some ownObject) false 4
    rw [reaches_delete.1] at h
    exact h
  etag := "etag-a"
  afterDelete := aboutToDelete.resume (LeaseCall.delete_object "etag-a")
  deletes := by
    rw [atDelete, Function.update_self]
    exact eq_call_of_issues reaches_delete.2.1
  own := rfl
  answer := .ok ()
  removed := .inl ⟨⟨ownObject, rfl, rfl⟩, rfl⟩
  seen := seen
  atLook := atLook
  between := between
  afterLook := afterRemoval.resume LeaseCall.head_object
  looks := looks.trans (eq_call_of_issues reaches_delete.2.2)
  reply := (serve .head_object seen).1
  look := answers_look seen
  head := head
  succeeded := succeeded

/-- Nobody else does anything. -/
def quietRun : ReleaseRun Bool exampleAdapter :=
  releaseRun none removedHosts ⟨none, 0⟩ (.refl _ _) (Function.update_self _ _ _) rfl

theorem quiet_release_returns : quietRun.outcome = .pure () :=
  (release_reported_iff quietRun).mpr rfl

/-- `true` finds no lease and creates its own. -/
def acquired : LeaseM Unit × Slot := acts 7 (exampleHosts true) none

def otherHead : CoordinationHead where
  info := some ⟨exampleAdapter.coordination_lease_key, 242,
    exampleAdapter.sha256 (.document otherDocument), some "etag-b", some 0⟩
  server_time := 0

theorem acquired_seen : acquired.2 =
    some ⟨.document otherDocument, some (exampleAdapter.sha256 (.document otherDocument)),
      "etag-b", 0⟩ := by
  decide +kernel

theorem sees_other : coordination_info exampleAdapter.coordination_lease_key none
    (serve .head_object acquired.2).1 = .ok otherHead := by
  rw [acquired_seen]
  rfl

def contestedRun : ReleaseRun Bool exampleAdapter :=
  releaseRun acquired.2 (Function.update removedHosts true acquired.1) otherHead
    (acts_interleaved removedHosts none true 7)
    (by simp [removedHosts]) sees_other

/-- The lease is gone and its release raises. -/
theorem contested_release_raises : ∃ run : ReleaseRun Bool exampleAdapter,
    run.outcome = .raise
      (.lease "PITR coordination lease changed before its conditional delete completed") := by
  refine ⟨contestedRun, eq_raise_of_raised ?_⟩
  decide +kernel

end LeaseRelease
