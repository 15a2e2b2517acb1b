import Odooctl.GitSync

/-!
# Retries of a failed tip

A deployment records the commit that is checked out when it ends, and sync compares the last
record with the remote tip.
-/
namespace SyncRetries

open EffectPrograms GitSync

/-! ## The clone -/

/-- The commits that are reachable from a commit, itself included. -/
structure History where
  reach : Commit → Finset Commit
  self : ∀ c, c ∈ reach c
  trans : ∀ a b, a ∈ reach b → reach a ⊆ reach b

/-- What has become of the remote tip since it last changed: `spoiled` once a deployment of it
has failed or has been rolled back. -/
inductive Fate where
  | fresh
  | deployed
  | spoiled
  deriving DecidableEq, Repr

/-- `pulled` tells that the last deployment got as far as its pull. -/
structure Clone where
  tip : Commit
  tracked : Commit
  branch_ref : Commit
  head : Commit
  latest : Option DeploymentMetadata
  deployments : List DeploymentMetadata
  pulled : Bool
  fate : Fate

def Clone.fetched (s : Clone) : Clone := { s with tracked := s.tip }

def Clone.save (s : Clone) (metadata : DeploymentMetadata) : Clone :=
  { s with
    latest := some metadata
    deployments := metadata :: s.deployments.filter fun d => d.timestamp ≠ metadata.timestamp }

/-- A fetch that fails may still have updated the branch. -/
def fetches (s : Clone) (r : Except String Unit) (t : Clone) : Prop :=
  (r = .ok () ∧ t = s.fetched) ∨ ((∃ e, r = .error e) ∧ (t = s ∨ t = s.fetched))

/-- `git pull --ff-only` moves the branch to a tip that is ahead of it and leaves a branch that
is ahead of the tip. -/
def pulls (H : History) (s : Clone) (r : Except String Unit) (t : Clone) : Prop :=
  (r = .ok () ∧ s.branch_ref ∈ H.reach s.tip ∧
    t = { s.fetched with branch_ref := s.tip, head := s.tip, pulled := true }) ∨
  (r = .ok () ∧ s.tip ∈ H.reach s.branch_ref ∧ t = { s.fetched with pulled := true }) ∨
  ((∃ e, r = .error e) ∧ (t = s ∨ t = s.fetched))

def moves_head (s : Clone) (commit : Commit) (r : Except String Unit) (t : Clone) : Prop :=
  (r = .ok () ∧ t = { s with head := commit }) ∨ ((∃ e, r = .error e) ∧ t = s)

def gitWorld (H : History) : World Git Clone
  | .fetch_quiet, s, r, t | .fetch_all, s, r, t => fetches s r t
  | .rev_parse_upstream, s, r, t | .rev_parse_origin, s, r, t =>
      (r = none ∨ r = some s.tracked) ∧ t = s
  | .rev_parse_head, s, r, t => (r = none ∨ r = some s.head) ∧ t = s
  | .rev_list_count a b, s, r, t => (r = none ∨ r = some (H.reach b \ H.reach a).card) ∧ t = s
  | .latest_deployment, s, r, t => r = s.latest ∧ t = s
  | .load_history, s, r, t => r.Perm s.deployments ∧ t = s
  | .save_deployment metadata, s, _, t => t = s.save metadata
  | .preflight, s, _, t => t = { s with pulled := false }
  | .checkout_branch, s, r, t => moves_head s s.branch_ref r t
  | .checkout commit, s, r, t => moves_head s commit r t
  | .pull, s, r, t => pulls H s r t
  | _, s, _, t => t = s

/-! ## Steps -/

inductive Action where
  | tip_moves (commit : Commit)
  | deploy (r : Except String DeployResult)
  | sync (force : Bool) (r : Except String SyncOutcome)
  | rollback (mode : RollbackMode) (r : Except String Unit)

def after_deploy {α : Type} (fate : Fate) : Except String α → Fate
  | .error _ => .spoiled
  | .ok _ => if fate = .spoiled then .spoiled else .deployed

def after_sync (fate : Fate) : Except String SyncOutcome → Fate
  | .error _ => .spoiled
  | .ok outcome => if outcome.status = .deployed then after_deploy fate (.ok outcome) else fate

def after_rollback (fate : Fate) : Except String Unit → Fate
  | .error _ => fate
  | .ok _ => if fate = .fresh then .fresh else .spoiled

/-- One command, or a push that changes the remote tip. -/
def Step (H : History) (env : EnvironmentConfig) (s : Clone) : Action → Clone → Prop
  | .tip_moves commit, t => commit ≠ s.tip ∧ t = { s with tip := commit, fate := .fresh }
  | .deploy r, t => ∃ u, Ends (gitWorld H) s (run_deploy env) r u ∧
      t = { u with fate := after_deploy s.fate r }
  | .sync force r, t => ∃ u, Ends (gitWorld H) s (run_sync env force) r u ∧
      t = { u with fate := after_sync s.fate r }
  | .rollback mode r, t => ∃ u, Ends (gitWorld H) s (run_rollback env mode) r u ∧
      t = { u with fate := after_rollback s.fate r }

/-- The commit that a rollback would go to. -/
def Target (s : Clone) (commit : Commit) : RollbackMode → Prop
  | .code => ∃ history previous, history.Perm s.deployments ∧
      previous_successful history = some previous ∧ previous.commit = some commit
  | .full _ => commit = s.head

/-- A deployment that fails has pulled, and no rollback of the tip goes to a commit that the tip
is strictly ahead of. -/
def Tame (H : History) (s : Clone) : Action → Clone → Prop
  | .deploy (.error _), t | .sync _ (.error _), t => t.pulled = true
  | .rollback mode _, _ => s.fate ≠ .fresh → ∀ commit, Target s commit mode →
      ¬ H.reach commit ⊂ H.reach s.tip
  | _, _ => True

def TameStep (H : History) (env : EnvironmentConfig) (s t : Clone) : Prop :=
  ∃ a, Step H env s a t ∧ Tame H s a t

/-- The last record is not of a commit that the tip is strictly ahead of. -/
def Settled (H : History) (s : Clone) : Prop :=
  ∀ d, s.latest = some d → ∀ commit, d.commit = some commit → ¬ H.reach commit ⊂ H.reach s.tip

/-! ## What the commands do -/

section Commands

variable {H : History} {env : EnvironmentConfig} {s t : Clone} {α : Type}

abbrev anywhere : GitCall → Clone → Prop := fun _ _ => True

/-- An operation that answers as it likes and leaves the clone. -/
theorem wp_still {o : GitCall} {reply : o.Answer → Except String α}
    {I : GitCall → Clone → Prop} {Q : Except String α → Clone → Prop} (hI : I o s)
    (hstill : ∀ r t, gitWorld H o s r t → t = s) (hQ : ∀ r, Q (reply r) s) :
    wp (gitWorld H) I (.perform (F := Git) o reply) Q s := by
  apply wp_perform.mpr
  refine ⟨hI, ?_⟩
  intro r t hw
  rw [hstill r t hw]
  exact hQ r

theorem reach_of_head (hhead : s.head = s.branch_ref) {r : Except String Unit}
    (hw : pulls H s r t) (hr : r = .ok ()) :
    t.tip = s.tip ∧ t.pulled = true ∧ H.reach t.tip ⊆ H.reach t.head := by
  rcases hw with ⟨-, hbehind, rfl⟩ | ⟨-, hahead, rfl⟩ | ⟨⟨e, he⟩, -⟩
  · exact ⟨rfl, rfl, Finset.Subset.refl _⟩
  · refine ⟨rfl, rfl, ?_⟩
    change H.reach s.tip ⊆ H.reach s.head
    rw [hhead]
    exact H.trans _ _ hahead
  · rw [hr] at he
    cases he

/-- A clone after a record: the record is the last one. -/
theorem wp_record {commit : Option Commit} {image message : Option String} {status : String}
    {Q : Except String Unit → Clone → Prop}
    (hQ : ∀ timestamp, Q (.ok ())
      (s.save { timestamp, branch := env.branch, commit, docker_image := image, status, message })) :
    wp (gitWorld H) anywhere (record env commit image status message) Q s := by
  unfold record
  apply wp_bind'.mpr
  apply wp_still (o := .now_utc) trivial (fun _ _ h => h)
  intro timestamp
  apply wp_perform.mpr
  refine ⟨trivial, ?_⟩
  intro _ t hw
  obtain rfl : t = s.save _ := hw
  exact hQ timestamp

/-- A pull has brought the checked-out commit up to the tip. -/
structure Deploying (H : History) (s t : Clone) : Prop where
  tip : t.tip = s.tip
  latest : t.latest = s.latest
  pulled : t.pulled = true → H.reach t.tip ⊆ H.reach t.head

theorem wp_deploy_commit (hs : s.pulled = false) : wp (gitWorld H) anywhere deploy_commit
    (fun r t => Deploying H s t ∧ ((∃ a, r = .ok a) → t.pulled = true)) s := by
  have hfail : ∀ (e : String) (t : Clone), t.tip = s.tip → t.latest = s.latest →
      t.pulled = false → Deploying H s t ∧
        ((∃ a, (.error e : Except String (Option String × Option String)) = .ok a) →
          t.pulled = true) := by
    intro e t htip hlatest hpulled
    refine ⟨⟨htip, hlatest, ?_⟩, ?_⟩
    · intro h
      rw [hpulled] at h
      cases h
    · rintro ⟨a, h⟩
      cases h
  unfold deploy_commit
  apply wp_bind'.mpr
  apply wp_still (o := .pre_deploy) trivial (fun _ _ h => h)
  intro prepared
  cases prepared with
  | error e => exact hfail e s rfl rfl hs
  | ok prepared =>
    obtain ⟨backup_id, snapshot_warning⟩ := prepared
    apply wp_bind'.mpr
    apply wp_perform.mpr
    refine ⟨trivial, ?_⟩
    intro r t hw
    have ht : t.tip = s.tip ∧ t.latest = s.latest ∧ t.pulled = false := by
      rcases hw with ⟨-, rfl⟩ | ⟨-, rfl | rfl⟩ <;> exact ⟨rfl, rfl, hs⟩
    obtain ⟨htip, hlatest, hpulled⟩ := ht
    cases r with
    | error e => exact hfail e t htip hlatest hpulled
    | ok _ =>
      apply wp_bind'.mpr
      apply wp_perform.mpr
      refine ⟨trivial, ?_⟩
      intro r u hw
      rcases hw with ⟨rfl, rfl⟩ | ⟨⟨e, rfl⟩, rfl⟩
      · apply wp_bind'.mpr
        apply wp_perform.mpr
        refine ⟨trivial, ?_⟩
        intro r v hw
        cases r with
        | error e =>
          rcases hw with ⟨h, -⟩ | ⟨h, -⟩ | ⟨-, hv⟩
          · cases h
          · cases h
          · rcases hv with rfl | rfl
            · exact hfail e _ htip hlatest hpulled
            · exact hfail e _ htip hlatest hpulled
        | ok _ =>
          obtain ⟨hvtip, hvpulled, hreach⟩ := reach_of_head rfl hw rfl
          have hvlatest : v.latest = t.latest := by
            rcases hw with ⟨-, -, rfl⟩ | ⟨-, -, rfl⟩ | ⟨⟨e, he⟩, -⟩
            · rfl
            · rfl
            · cases he
          have hv : Deploying H s v := ⟨hvtip.trans htip, hvlatest.trans hlatest, fun _ => hreach⟩
          apply wp_bind'.mpr
          apply wp_still (o := .rollout) trivial (fun _ _ h => h)
          intro rolled
          cases rolled with
          | error e => exact ⟨hv, fun _ => hvpulled⟩
          | ok _ => exact ⟨hv, fun _ => hvpulled⟩
      · exact hfail e u htip hlatest hpulled

/-- A record of the checked-out commit settles a clone that has pulled. -/
theorem settled_save {metadata : DeploymentMetadata} (h : H.reach s.tip ⊆ H.reach s.head)
    (hcommit : metadata.commit = none ∨ metadata.commit = some s.head) :
    Settled H (s.save metadata) := by
  intro d hd commit hcommit'
  obtain rfl : metadata = d := Option.some.inj hd
  rcases hcommit with hnone | hhead
  · rw [hnone] at hcommit'
    cases hcommit'
  · obtain rfl : s.head = commit := Option.some.inj (hhead.symm.trans hcommit')
    exact fun hlt => hlt.2 h

/-- A deployment that has pulled leaves a record of the tip or of a commit ahead of it. -/
theorem wp_run_deploy : wp (gitWorld H) anywhere (run_deploy env)
    (fun r t => t.tip = s.tip ∧ ((∃ a, r = .ok a) ∨ t.pulled = true → Settled H t)) s := by
  unfold run_deploy
  apply wp_bind'.mpr
  apply wp_perform.mpr
  refine ⟨trivial, ?_⟩
  intro ready t hw
  obtain rfl : t = { s with pulled := false } := hw
  cases ready with
  | error e =>
    refine ⟨rfl, ?_⟩
    rintro (⟨a, h⟩ | h)
    · cases h
    · cases h
  | ok _ =>
    apply wp_bind'.mpr
    apply wp_attempt.mpr
    apply wp_post (wp_deploy_commit rfl)
    rintro r u ⟨hu, hok⟩
    have hend : ∀ metadata : DeploymentMetadata, u.pulled = true →
        (metadata.commit = none ∨ metadata.commit = some u.head) →
        Settled H (u.save metadata) := fun metadata hpulled => settled_save (hu.pulled hpulled)
    cases r with
    | error exc =>
      apply wp_bind'.mpr
      apply wp_still (o := .recover exc) trivial (fun _ _ h => h)
      intro message
      apply wp_bind'.mpr
      apply wp_perform.mpr
      refine ⟨trivial, ?_⟩
      rintro commit v ⟨hcommit, rfl⟩
      apply wp_bind'.mpr
      apply wp_record
      intro timestamp
      refine ⟨hu.tip, ?_⟩
      rintro (⟨a, h⟩ | hpulled)
      · cases h
      · exact hend _ hpulled hcommit
    | ok result =>
      obtain ⟨backup_id, snapshot_warning⟩ := result
      apply wp_bind'.mpr
      apply wp_perform.mpr
      refine ⟨trivial, ?_⟩
      rintro commit v ⟨hcommit, rfl⟩
      apply wp_bind'.mpr
      apply wp_record
      intro timestamp
      refine ⟨hu.tip, ?_⟩
      intro _
      exact hend _ (hok ⟨_, rfl⟩) hcommit

/-- Whatever comes of the rollback, its record has the commit that was chosen for it. -/
theorem wp_redeploy {mode : String} {commit : Option Commit} {image : Option String}
    {body : GitM Unit} (hbody : wp (gitWorld H) anywhere body (fun _ t => t.tip = s.tip) s) :
    wp (gitWorld H) anywhere (redeploy env mode commit image body)
      (fun _ t => t.tip = s.tip ∧ ∃ d, t.latest = some d ∧ d.commit = commit) s := by
  unfold redeploy
  apply wp_bind'.mpr
  apply wp_attempt.mpr
  apply wp_post hbody
  intro r t htip
  cases r with
  | error exc =>
    apply wp_bind'.mpr
    apply wp_record
    intro timestamp
    exact ⟨htip, _, rfl, rfl⟩
  | ok _ =>
    apply wp_record
    intro timestamp
    exact ⟨htip, _, rfl, rfl⟩

/-- A rollback that leaves no record fails; any other records the commit it goes to. -/
structure RolledBack (mode : RollbackMode) (s : Clone) (r : Except String Unit) (t : Clone) :
    Prop where
  tip : t.tip = s.tip
  record : (t.latest = s.latest ∧ r ≠ .ok ()) ∨
    ∃ d, t.latest = some d ∧ ∀ commit, d.commit = some commit → Target s commit mode

theorem wp_code_rollback : wp (gitWorld H) anywhere (code_rollback env)
    (RolledBack .code s) s := by
  have hfail : ∀ e : String, RolledBack .code s (.error e) s :=
    fun e => ⟨rfl, .inl ⟨rfl, fun h => nomatch h⟩⟩
  unfold code_rollback
  apply wp_bind'.mpr
  apply wp_perform.mpr
  refine ⟨trivial, ?_⟩
  rintro history t ⟨hperm, rfl⟩
  dsimp only
  cases hprevious : previous_successful history with
  | none => exact hfail _
  | some previous =>
    dsimp only
    cases hcommit : previous.commit.filter (· ≠ "") with
    | none => exact hfail _
    | some commit =>
      dsimp only
      split
      · exact hfail _
      · unfold assert_clean_worktree
        apply wp_bind'.mpr
        apply wp_bind'.mpr
        apply wp_still (o := .status_porcelain) trivial (fun _ _ h => h)
        intro dirty_paths
        dsimp only
        split
        · apply wp_post (wp_redeploy ?_)
          · rintro r u ⟨htip, d, hd, hdc⟩
            refine ⟨htip, .inr ⟨d, hd, ?_⟩⟩
            intro c hc
            obtain rfl : commit = c := Option.some.inj (hdc.symm.trans hc)
            have hsome := (Option.filter_eq_some_iff.mp hcommit).1
            exact ⟨history, previous, hperm, hprevious, hsome⟩
          · apply wp_bind'.mpr
            apply wp_perform.mpr
            refine ⟨trivial, ?_⟩
            intro r u hw
            have hu : u.tip = t.tip := by
              rcases hw with ⟨-, rfl⟩ | ⟨-, rfl | rfl⟩ <;> rfl
            cases r with
            | error e => exact hu
            | ok _ =>
              apply wp_bind'.mpr
              apply wp_perform.mpr
              refine ⟨trivial, ?_⟩
              intro r v hw
              have hv : v.tip = u.tip := by
                rcases hw with ⟨-, rfl⟩ | ⟨-, rfl⟩ <;> rfl
              cases r with
              | error e => exact hv.trans hu
              | ok _ =>
                apply wp_still (o := .start_service) trivial (fun _ _ h => h)
                exact fun _ => hv.trans hu
        · exact hfail _

theorem wp_run_rollback {mode : RollbackMode} : wp (gitWorld H) anywhere (run_rollback env mode)
    (RolledBack mode s) s := by
  unfold run_rollback
  apply wp_bind'.mpr
  apply wp_perform.mpr
  refine ⟨trivial, ?_⟩
  rintro commit t ⟨hcommit, rfl⟩
  cases mode with
  | code => exact wp_code_rollback
  | full backup =>
    apply wp_post (wp_redeploy ?_)
    · rintro r u ⟨htip, d, hd, hdc⟩
      refine ⟨htip, .inr ⟨d, hd, ?_⟩⟩
      intro c hc
      rcases hcommit with rfl | rfl
      · rw [hdc] at hc
        cases hc
      · exact (Option.some.inj (hdc.symm.trans hc)).symm
    · apply wp_bind'.mpr
      apply wp_still (o := .restore backup) trivial (fun _ _ h => h)
      intro r
      cases r with
      | error e => exact rfl
      | ok _ =>
        apply wp_still (o := .start_service) trivial (fun _ _ h => h)
        exact fun _ => rfl

/-- The last record is of a commit that the tip is strictly ahead of. -/
def Behind (H : History) (s : Clone) : Prop :=
  ∃ d commit, s.latest = some d ∧ d.commit = some commit ∧ H.reach commit ⊂ H.reach s.tip

theorem not_behind (h : Settled H s) : ¬ Behind H s := by
  rintro ⟨d, commit, hd, hcommit, hlt⟩
  exact h d hd commit hcommit hlt

/-- A check changes neither the tip nor the records, and finds a clone behind that is. -/
structure Checked (H : History) (s : Clone) (r : Except String SyncOutcome) (t : Clone) :
    Prop where
  tip : t.tip = s.tip
  latest : t.latest = s.latest
  outcome : ∃ outcome, r = .ok outcome ∧ outcome.status ≠ .deployed ∧
    (outcome.status = .behind → Behind H s)

/-- Operations of a check. -/
abbrev checking : GitCall → Clone → Prop := fun o _ => o ≠ .preflight

theorem Checked.of_status {outcome : SyncOutcome} (htip : t.tip = s.tip)
    (hlatest : t.latest = s.latest) (hdeployed : outcome.status ≠ .deployed)
    (hbehind : outcome.status ≠ .behind) : Checked H s (.ok outcome) t :=
  ⟨htip, hlatest, outcome, rfl, hdeployed, fun h => absurd h hbehind⟩

/-- What is behind and not ahead is strictly below. -/
theorem ssubset_of_counts {a b : Commit} (hbehind : (H.reach b \ H.reach a).card > 0)
    (hahead : (H.reach a \ H.reach b).card = 0) : H.reach a ⊂ H.reach b := by
  have hsub : H.reach a ⊆ H.reach b := Finset.sdiff_eq_empty_iff_subset.mp
    (Finset.card_eq_zero.mp hahead)
  refine ⟨hsub, ?_⟩
  intro h
  rw [Finset.sdiff_eq_empty_iff_subset.mpr h] at hbehind
  exact Nat.lt_irrefl 0 hbehind

variable {force : Bool}

theorem wp_classify {deployed_commit : Commit} {behind ahead : ℕ} (htip : t.tip = s.tip)
    (hlatest : t.latest = s.latest)
    (hcounts : behind > 0 ∧ ahead = 0 → Behind H s) :
    wp (gitWorld H) checking (classify env force deployed_commit s.tip behind ahead)
      (Checked H s) t := by
  unfold classify
  dsimp only
  split
  · next h =>
    split
    · apply wp_bind'.mpr
      apply wp_still (o := .status_porcelain) nofun (fun _ _ h => h)
      intro dirty
      dsimp only
      split
      · exact .of_status htip hlatest nofun nofun
      · exact ⟨htip, hlatest, _, rfl, nofun, fun _ => hcounts h⟩
    · exact .of_status htip hlatest nofun nofun
  · split
    · exact .of_status htip hlatest nofun nofun
    · exact .of_status htip hlatest nofun nofun

theorem wp_remote_commit (hs : t.tracked = s.tip) : wp (gitWorld H) checking remote_commit_of
    (fun r u => u = t ∧ ∃ remote, r = .ok remote ∧ ∀ commit, remote = some commit → commit = s.tip)
    t := by
  unfold remote_commit_of
  apply wp_bind'.mpr
  apply wp_perform.mpr
  refine ⟨nofun, ?_⟩
  rintro upstream u ⟨hupstream, rfl⟩
  cases upstream with
  | some commit =>
    refine ⟨rfl, some commit, rfl, ?_⟩
    rintro c hc
    obtain rfl := Option.some.inj hc
    rcases hupstream with h | h
    · cases h
    · exact (Option.some.inj h).trans hs
  | none =>
    apply wp_perform.mpr
    refine ⟨nofun, ?_⟩
    rintro origin v ⟨horigin, rfl⟩
    refine ⟨rfl, origin, rfl, ?_⟩
    rintro commit rfl
    rcases horigin with h | h
    · cases h
    · exact (Option.some.inj h).trans hs

theorem wp_check_sync : wp (gitWorld H) checking (check_sync env force) (Checked H s) s := by
  unfold check_sync
  apply wp_bind'.mpr
  apply wp_perform.mpr
  refine ⟨nofun, ?_⟩
  intro fetch t hw
  have ht : t.tip = s.tip ∧ t.latest = s.latest := by
    rcases hw with ⟨-, rfl⟩ | ⟨-, rfl | rfl⟩ <;> exact ⟨rfl, rfl⟩
  obtain ⟨htip, hlatest⟩ := ht
  cases fetch with
  | error detail => exact .of_status htip hlatest nofun nofun
  | ok _ =>
    have htracked : t.tracked = s.tip := by
      rcases hw with ⟨-, rfl⟩ | ⟨⟨e, h⟩, -⟩
      · rfl
      · cases h
    apply wp_bind'.mpr
    apply wp_post (wp_remote_commit htracked)
    rintro r u ⟨rfl, remote, rfl, hremote⟩
    cases remote with
    | none => exact .of_status htip hlatest nofun nofun
    | some remote_commit =>
      obtain rfl := hremote _ rfl
      apply wp_bind'.mpr
      apply wp_perform.mpr
      refine ⟨nofun, ?_⟩
      rintro last v ⟨rfl, rfl⟩
      dsimp only
      cases hlast : v.latest with
      | none => exact .of_status htip hlatest nofun nofun
      | some last =>
        dsimp only
        cases hcommit : last.commit with
        | none => exact .of_status htip hlatest nofun nofun
        | some deployed_commit =>
          dsimp only
          split
          · apply Checked.of_status htip hlatest
            · unfold same_commit
              dsimp only
              split <;> exact nofun
            · unfold same_commit
              dsimp only
              split <;> exact nofun
          · apply wp_bind'.mpr
            apply wp_perform.mpr
            refine ⟨nofun, ?_⟩
            rintro behind w ⟨hbehind, rfl⟩
            apply wp_bind'.mpr
            apply wp_perform.mpr
            refine ⟨nofun, ?_⟩
            rintro ahead x ⟨hahead, rfl⟩
            cases behind with
            | none => exact .of_status htip hlatest nofun nofun
            | some behind =>
              cases ahead with
              | none => exact .of_status htip hlatest nofun nofun
              | some ahead =>
                apply wp_classify htip hlatest
                rintro ⟨hpos, hzero⟩
                obtain rfl := Option.some.inj (hbehind.resolve_left nofun)
                obtain rfl := Option.some.inj (hahead.resolve_left nofun)
                exact ⟨last, deployed_commit, hlatest.symm.trans hlast, hcommit,
                  ssubset_of_counts hpos hzero⟩

/-- A sync leaves the records or deploys. -/
structure Synced (H : History) (s : Clone) (r : Except String SyncOutcome) (t : Clone) : Prop where
  tip : t.tip = s.tip
  done : (∃ outcome, r = .ok outcome ∧ outcome.status ≠ .deployed ∧ t.latest = s.latest) ∨
    ((∃ outcome, r = .ok outcome) ∨ t.pulled = true → Settled H t)

theorem wp_run_sync : wp (gitWorld H) anywhere (run_sync env force) (Synced H s) s := by
  unfold run_sync
  apply wp_bind'.mpr
  apply wp_mono (wp_check_sync (s := s)) (fun _ _ _ => trivial)
  rintro r t ⟨htip, hlatest, outcome, rfl, hstatus, -⟩
  dsimp only
  split
  · exact ⟨htip, .inl ⟨outcome, rfl, hstatus, hlatest⟩⟩
  · apply wp_bind'.mpr
    apply wp_post wp_run_deploy
    rintro r u ⟨hutip, hsettled⟩
    cases r with
    | error e =>
      refine ⟨hutip.trans htip, .inr ?_⟩
      rintro (⟨outcome, h⟩ | hpulled)
      · cases h
      · exact hsettled (.inr hpulled)
    | ok result => exact ⟨hutip.trans htip, .inr fun _ => hsettled (.inl ⟨_, rfl⟩)⟩

/-- A sync of a settled clone starts no deployment. -/
theorem wp_sync_idle (hs : Settled H s) :
    wp (gitWorld H) checking (run_sync env force) (fun _ _ => True) s := by
  unfold run_sync
  apply wp_bind'.mpr
  apply wp_post wp_check_sync
  rintro r t ⟨-, -, outcome, rfl, -, hbehind⟩
  dsimp only
  split
  · trivial
  · next h => exact absurd (hbehind (not_not.mp h)) (not_behind hs)

end Commands

/-! ## Runs -/

section Runs

variable {H : History} {env : EnvironmentConfig} {s t : Clone}

/-- A spoiled tip is settled. -/
def Barred (H : History) (s : Clone) : Prop := s.fate = .spoiled → Settled H s

theorem barred_step (hs : Barred H s) (h : TameStep H env s t) : Barred H t := by
  obtain ⟨a, hstep, htame⟩ := h
  cases a with
  | tip_moves commit =>
    obtain ⟨-, rfl⟩ := hstep
    exact fun h => nomatch h
  | deploy r =>
    obtain ⟨u, hends, rfl⟩ := hstep
    obtain ⟨-, hsettled⟩ := wp_ends wp_run_deploy hends
    intro _
    cases r with
    | ok result => exact hsettled (.inl ⟨_, rfl⟩)
    | error e => exact hsettled (.inr htame)
  | sync force r =>
    obtain ⟨u, hends, rfl⟩ := hstep
    obtain ⟨htip, hdone⟩ := wp_ends wp_run_sync hends
    intro hspoiled
    rcases hdone with ⟨outcome, rfl, hstatus, hlatest⟩ | hsettled
    · have hfate : s.fate = .spoiled := by
        simpa [after_sync, hstatus] using hspoiled
      intro d hd commit hcommit
      have hold := hs hfate d (hlatest.symm.trans hd) commit hcommit
      exact htip.symm ▸ hold
    · cases r with
      | ok outcome => exact hsettled (.inl ⟨_, rfl⟩)
      | error e => exact hsettled (.inr htame)
  | rollback mode r =>
    obtain ⟨u, hends, rfl⟩ := hstep
    obtain ⟨htip, hrecord⟩ := wp_ends wp_run_rollback hends
    intro hspoiled
    have hspoiled' : after_rollback s.fate r = .spoiled := hspoiled
    rcases hrecord with ⟨hlatest, hraised⟩ | ⟨d, hd, htarget⟩
    · cases r with
      | ok _ => exact absurd rfl hraised
      | error e =>
        intro d hd commit hcommit
        have hold := hs hspoiled' d (hlatest.symm.trans hd) commit hcommit
        exact htip.symm ▸ hold
    · have hfate : s.fate ≠ .fresh := by
        intro hfresh
        rw [hfresh] at hspoiled'
        cases r <;> cases hspoiled'
      intro d' hd' commit hcommit
      obtain rfl : d = d' := Option.some.inj (hd.symm.trans hd')
      have hnot := htame hfate commit (htarget commit hcommit)
      exact htip.symm ▸ hnot

/-- Where no deployment fails before its pull and no rollback of the tip goes to a commit that
the tip is strictly ahead of, sync does not deploy a tip again of which a deployment has failed or
has been rolled back. -/
theorem failed_tip_not_retried (H : History) (env : EnvironmentConfig) (hs : s.fate = .fresh)
    (hrun : Relation.ReflTransGen (TameStep H env) s t) (hspoiled : t.fate = .spoiled)
    (force : Bool) {u : Clone} {q : GitM SyncOutcome}
    (hsteps : Steps (gitWorld H) t (run_sync env force) u q) : q.issues ≠ some .preflight := by
  have hbarred : Barred H t := by
    clear hspoiled hsteps
    induction hrun with
    | refl =>
      intro h
      rw [hs] at h
      cases h
    | tail _ hstep ih => exact barred_step ih hstep
  intro hissues
  have hidle : wp (gitWorld H) checking (run_sync env force) (fun _ _ => True) t :=
    wp_sync_idle (hbarred hspoiled)
  have hwp := wp_steps hsteps hidle
  rw [eq_call_of_issues hissues] at hwp
  exact hwp.1 rfl

end Runs

/-! ## A backup that fails, and a rollback -/

def exampleHistory : History where
  reach := fun c => if c = "c2" then {"c1", "c2"} else {c}
  self := by
    intro c
    by_cases hc : c = "c2" <;> simp [hc]
  trans := by
    intro a b h
    by_cases hb : b = "c2"
    · rw [if_pos hb] at h ⊢
      rcases Finset.mem_insert.mp h with rfl | h
      · exact Finset.singleton_subset_iff.mpr (Finset.mem_insert_self _ _)
      · rw [Finset.mem_singleton.mp h, if_pos rfl]
    · rw [if_neg hb] at h
      rw [Finset.mem_singleton.mp h]

/-- Where a deployment goes wrong. -/
inductive Fault where
  | nowhere
  | backup
  | rollout
  deriving DecidableEq

def serve (fault : Fault) (o : Git.Op) (s : Clone) : Git.Reply o × Clone :=
  match o with
  | .fetch_quiet | .fetch_all => (.ok (), s.fetched)
  | .rev_parse_upstream | .rev_parse_origin => (some s.tracked, s)
  | .rev_parse_head => (some s.head, s)
  | .rev_list_count a b => (some (exampleHistory.reach b \ exampleHistory.reach a).card, s)
  | .status_porcelain => ("", s)
  | .latest_deployment => (s.latest, s)
  | .load_history => (s.deployments, s)
  | .now_utc => (toString s.deployments.length, s)
  | .save_deployment metadata => ((), s.save metadata)
  | .preflight => (.ok (), { s with pulled := false })
  | .pre_deploy => (if fault = .backup then .error "pg_dump failed" else .ok (none, none), s)
  | .checkout_branch => (.ok (), { s with head := s.branch_ref })
  | .checkout commit => (.ok (), { s with head := commit })
  | .pull =>
    if s.branch_ref ∈ exampleHistory.reach s.tip then
      (.ok (), { s.fetched with branch_ref := s.tip, head := s.tip, pulled := true })
    else if s.tip ∈ exampleHistory.reach s.branch_ref then (.ok (), { s.fetched with pulled := true })
    else (.error "Not possible to fast-forward, aborting.", s)
  | .rollout => (if fault = .rollout then .error "healthcheck failed" else .ok (), s)
  | .recover error => (error, s)
  | .restore _ | .start_service => (.ok (), s)

theorem gitWorld_serve (fault : Fault) (o : Git.Op) (s : Clone) :
    gitWorld exampleHistory o s (serve fault o s).1 (serve fault o s).2 := by
  cases o with
  | fetch_quiet | fetch_all | checkout_branch | checkout => exact .inl ⟨rfl, rfl⟩
  | rev_parse_upstream | rev_parse_origin | rev_parse_head | rev_list_count =>
    exact ⟨.inr rfl, rfl⟩
  | latest_deployment => exact ⟨rfl, rfl⟩
  | load_history => exact ⟨List.Perm.refl _, rfl⟩
  | pull =>
    simp only [serve]
    split
    · next h => exact .inl ⟨rfl, h, rfl⟩
    · split
      · next h => exact .inr (.inl ⟨rfl, h, rfl⟩)
      · exact .inr (.inr ⟨⟨_, rfl⟩, .inl rfl⟩)
  | status_porcelain | now_utc | save_deployment | preflight | pre_deploy | rollout | recover
  | restore | start_service => rfl

def exampleEnv : EnvironmentConfig := ⟨"production", "main", true, none⟩

/-- `c1` is deployed and `c2` has been pushed. -/
def pushed : Clone where
  tip := "c2"
  tracked := "c1"
  branch_ref := "c1"
  head := "c1"
  latest := some ⟨"0", "main", some "c1", none, "success", none⟩
  deployments := [⟨"0", "main", some "c1", none, "success", none⟩]
  pulled := true
  fate := .fresh

def syncRun (fault : Fault) (s : Clone) : Except String SyncOutcome × Clone :=
  (run_sync exampleEnv false).run (serve fault) s

def synced (fault : Fault) (s : Clone) : Clone :=
  { (syncRun fault s).2 with fate := after_sync s.fate (syncRun fault s).1 }

theorem step_synced (fault : Fault) (s : Clone) :
    Step exampleHistory exampleEnv s (.sync false (syncRun fault s).1) (synced fault s) :=
  ⟨_, ends_run (gitWorld_serve fault) _ _, rfl⟩

def rollbackRun (s : Clone) : Except String Unit × Clone :=
  (run_rollback exampleEnv .code).run (serve .nowhere) s

def rolledBack (s : Clone) : Clone :=
  { (rollbackRun s).2 with fate := after_rollback s.fate (rollbackRun s).1 }

theorem step_rolledBack (s : Clone) :
    Step exampleHistory exampleEnv s (.rollback .code (rollbackRun s).1) (rolledBack s) :=
  ⟨_, ends_run (gitWorld_serve .nowhere) _ _, rfl⟩

/-- The first operations of a sync. -/
def started (s : Clone) : GitM SyncOutcome × Clone :=
  (run_sync exampleEnv false).play (fun (_ : Unit) => serve .nowhere) (List.replicate 6 ()) s

theorem steps_started (s : Clone) :
    Steps (gitWorld exampleHistory) s (run_sync exampleEnv false) (started s).2 (started s).1 :=
  steps_play (fun _ => gitWorld_serve .nowhere) _ _ _

theorem retry_facts :
    (synced .backup pushed).fate = .spoiled ∧ (synced .backup pushed).tip = "c2" ∧
    (started (synced .backup pushed)).1.issues = some .preflight ∧
    (rolledBack (synced .nowhere pushed)).fate = .spoiled ∧
    (rolledBack (synced .nowhere pushed)).tip = "c2" ∧
    (started (rolledBack (synced .nowhere pushed))).1.issues = some .preflight := by
  decide +kernel

/-- Sync deploys `c2` again after its deployment has failed in the backup, and after it has been
rolled back. -/
theorem spoiled_tip_retried : pushed.fate = .fresh ∧
    (∃ r t u q, Step exampleHistory exampleEnv pushed (.sync false r) t ∧ t.fate = .spoiled ∧
      t.tip = pushed.tip ∧
      Steps (gitWorld exampleHistory) t (run_sync exampleEnv false) u q ∧
      q.issues = some .preflight) ∧
    ∃ r s r' t u q, Step exampleHistory exampleEnv pushed (.sync false r) s ∧
      Step exampleHistory exampleEnv s (.rollback .code r') t ∧ t.fate = .spoiled ∧
      t.tip = pushed.tip ∧
      Steps (gitWorld exampleHistory) t (run_sync exampleEnv false) u q ∧
      q.issues = some .preflight := by
  obtain ⟨hfate, htip, hissues, hfate', htip', hissues'⟩ := retry_facts
  refine ⟨rfl, ⟨_, synced .backup pushed, _, _, step_synced .backup pushed, hfate, htip,
    steps_started _, hissues⟩, ?_⟩
  exact ⟨_, _, _, rolledBack (synced .nowhere pushed), _, _, step_synced .nowhere pushed,
    step_rolledBack _, hfate', htip', steps_started _, hissues'⟩

theorem rollout_facts : (synced .rollout pushed).pulled = true ∧
    (synced .rollout pushed).fate = .spoiled := by
  decide +kernel

theorem failed_rollout_not_retried :
    (started (synced .rollout pushed)).1.issues ≠ some .preflight := by
  obtain ⟨hpulled, hfate⟩ := rollout_facts
  refine failed_tip_not_retried exampleHistory exampleEnv (s := pushed) rfl
    (.single ⟨_, step_synced .rollout pushed, ?_⟩) hfate false (steps_started _)
  cases hr : (syncRun .rollout pushed).1 with
  | ok outcome => trivial
  | error e => exact hpulled

end SyncRetries
