import Odooctl.UserAccounts

/-!
# The rank ceiling of the user management

A request compares the account it is about with the rank of its principal and changes it
later. A role change of another request may raise the account in between.
-/
namespace RankCeiling

open EffectPrograms InterleavedPrograms AccessControl UserAccounts

/-- Some role among the stored ones is above the rank. -/
def Outranks (roles : List String) (rank : ℤ) : Prop := ∃ role ∈ role_set roles, rank < role_rank role

instance (roles : List String) (rank : ℤ) : Decidable (Outranks roles rank) :=
  inferInstanceAs (Decidable (∃ role ∈ _, _))

/-- The account, if it is there, is not above the rank. -/
def Below (users : List UserRecord) (user_id : String) (rank : ℤ) : Prop :=
  ∀ user, find_user users user_id = some user → ¬ Outranks user.roles rank

/-- The stores, and which requests have looked an account up and are not answered yet. -/
structure Server (ι : Type) where
  stores : Stores
  looked : ι → Bool

section Server

variable {ι : Type} [DecidableEq ι] (callers : ι → Caller) (requests : ι → Request)
  (verify_password : String → String → Bool)

def rank (i : ι) : ℤ := principal_rank (callers i).principal

def noted (looked : ι → Bool) (i : ι) : AuthCall → ι → Bool
  | .load_users => Function.update looked i true
  | .respond => Function.update looked i false
  | _ => looked

def serverWorld (i : ι) : World Auth (Server ι) := fun o s r t =>
  storeWorld verify_password o s.stores r t.stores ∧ t.looked = noted s.looked i o

/-- No role change raises an account above the principal of another request that has looked
the account up. -/
def Undisturbed (i : ι) (o : AuthCall) (s : Server ι) : Prop :=
  match o with
  | .change_users (.roles user_id roles) => ∀ j, j ≠ i → s.looked j = true →
      (requests j).target = some user_id → ¬ Outranks roles (rank callers j)
  | _ => True

def undisturbedWorld (i : ι) : World Auth (Server ι) := fun o s r t =>
  Undisturbed callers requests i o s ∧ serverWorld verify_password i o s r t

end Server

structure Start {ι : Type} (s : Server ι) : Prop where
  known : s.stores.Known
  unread : ∀ i, s.looked i = false

/-- The roles that a change gives to an account. -/
def granted : UserChange → List String
  | .roles _ roles => roles
  | .create new => new.roles
  | _ => []

/-- An operation that touches no account above the rank and gives no role above it. -/
def Within (rank : ℤ) (o : AuthCall) (users : List UserRecord) : Prop :=
  match o with
  | .change_users change => ¬ Outranks (granted change) rank ∧
      ∀ user_id, change.target = some user_id → Below users user_id rank
  | .change_sessions (.revoke_user user_id _) => Below users user_id rank
  | _ => True

/-! ## Ranks -/

section Ranks

variable {roles : List String} {r : ℤ}

theorem higher_spec (best : Option Role) (role : Role) : ∃ top, higher best role = some top ∧
    role_rank role ≤ role_rank top ∧ ∀ old ∈ best, role_rank old ≤ role_rank top := by
  cases best with
  | none => exact ⟨role, rfl, Nat.le_refl _, fun _ h => nomatch h⟩
  | some top =>
    by_cases hlt : role_rank top < role_rank role
    · refine ⟨role, if_pos hlt, Nat.le_refl _, ?_⟩
      intro old hold
      obtain rfl := Option.some.inj hold
      exact Nat.le_of_lt hlt
    · refine ⟨top, if_neg hlt, Nat.le_of_not_lt hlt, ?_⟩
      intro old hold
      obtain rfl := Option.some.inj hold
      exact Nat.le_refl _

theorem foldl_higher (l : List Role) (best : Option Role) {role : Role}
    (hrole : role ∈ best ∨ role ∈ l) :
    ∃ top, l.foldl higher best = some top ∧ role_rank role ≤ role_rank top := by
  induction l generalizing best role with
  | nil =>
    rcases hrole with hrole | hrole
    · exact ⟨role, hrole, Nat.le_refl _⟩
    · cases hrole
  | cons first rest ih =>
    obtain ⟨next, hstep, hfirst, hbest⟩ := higher_spec best first
    rw [List.foldl_cons, hstep]
    obtain ⟨top, htop, hle⟩ := ih (some next) (.inl rfl)
    rcases hrole with hrole | hrole
    · exact ⟨top, htop, Nat.le_trans (hbest role hrole) hle⟩
    · rcases List.mem_cons.mp hrole with rfl | hrole
      · exact ⟨top, htop, Nat.le_trans hfirst hle⟩
      · exact ih (some next) (.inr hrole)

/-- The comparison with the highest role speaks of all roles. -/
theorem not_outranks_of_max (h : ∀ role, max_role roles = some role → (role_rank role : ℤ) ≤ r) :
    ¬ Outranks roles r := by
  intro hout
  obtain ⟨role, hrole, hlt⟩ := hout
  obtain ⟨top, htop, hle⟩ := foldl_higher (role_set roles) none (.inr hrole)
  have htop' := h top htop
  omega

theorem role_set_values (granted : List Role) : role_set (granted.map Role.value) = granted := by
  induction granted with
  | nil => rfl
  | cons role rest ih =>
    rw [role_set] at ih ⊢
    rw [List.map_cons, List.filterMap_cons_some (Role.parse_value role), ih]

theorem not_outranks_nil : ¬ Outranks [] r := fun h => by
  obtain ⟨_, h, _⟩ := h
  cases h

end Ranks

/-! ## What a change does to another account -/

section Changes

variable {users users' : List UserRecord} {id user_id : String} {r : ℤ} {change : UserChange}
  {result : Option UserRecord} {drawn : String → Prop}

theorem roles_edit (change : UserChange) (user : UserRecord) : (change.edit user).roles = user.roles ∨
    ∃ user_id roles, change = .roles user_id roles ∧ (change.edit user).roles = roles := by
  cases change with
  | roles user_id roles => exact .inr ⟨user_id, roles, rfl, rfl⟩
  | create | password | disabled | name | delete => exact .inl rfl

/-- An account stays below a rank unless a role change of its own raises it. -/
theorem below_change (hbelow : Below users user_id r) (hnew : ¬ drawn id) (hold : drawn user_id)
    (happly : change.apply id users = .ok (users', result))
    (hroles : ∀ roles, change = .roles user_id roles → ¬ Outranks roles r) :
    Below users' user_id r := by
  intro user huser
  rcases apply_cases happly with ⟨new, rfl, rfl⟩ | ⟨target, updated, htarget, hmutate⟩ |
    ⟨target, rfl, rfl⟩
  · rw [find_user, List.find?_append] at huser
    cases hfind : users.find? fun user => user.id = user_id with
    | some old =>
      rw [hfind] at huser
      obtain rfl := Option.some.inj huser
      exact hbelow old hfind
    | none =>
      rw [hfind] at huser
      have hid := List.find?_some huser
      have hmem := List.mem_of_find?_eq_some huser
      rw [List.mem_singleton.mp hmem] at hid
      have hid' : id = user_id := of_decide_eq_true hid
      exact absurd (hid'.symm ▸ hold) hnew
  · rw [find_user_mutate hmutate (edit_id change)] at huser
    obtain ⟨old, hfind, rfl⟩ := Option.map_eq_some_iff.mp huser
    have hbelow' := hbelow old hfind
    by_cases hid : user_id = target
    · rw [if_pos hid]
      rcases roles_edit change old with hsame | ⟨other, roles, rfl, hroles'⟩
      · rw [hsame]
        exact hbelow'
      · obtain rfl : other = target := Option.some.inj htarget
        rw [hroles']
        exact hroles roles (by rw [hid])
    · rw [if_neg hid]
      exact hbelow'
  · rw [find_user_remove] at huser
    split at huser
    · cases huser
    · exact hbelow user huser

theorem known_change {s : Stores} (hs : s.Known)
    (happly : change.apply id s.users = .ok (users', result)) :
    ∀ user ∈ users', s.drawn user.id ∨ user.id = id := by
  intro user huser
  rcases apply_cases happly with ⟨new, rfl, rfl⟩ | ⟨target, updated, -, hmutate⟩ |
    ⟨target, rfl, rfl⟩
  · rcases List.mem_append.mp huser with huser | huser
    · exact .inl (hs user huser)
    · rw [List.mem_singleton.mp huser]
      exact .inr rfl
  · rcases mem_mutate hmutate huser with huser | ⟨old, hold, rfl⟩
    · exact .inl (hs user huser)
    · rw [edit_id]
      exact .inl (hs old hold)
  · exact .inl (hs user (List.mem_of_mem_filter huser))

end Changes

/-! ## What requests leave to each other -/

section Requests

variable {ι : Type} (callers : ι → Caller) (requests : ι → Request)
  (verify_password : String → String → Bool)

/-- What the other requests leave to request `i`. -/
structure Around (i : ι) (s t : Server ι) : Prop where
  looked : t.looked i = s.looked i
  drawn : ∀ x, s.stores.drawn x → t.stores.drawn x
  below : ∀ user_id, (requests i).target = some user_id → s.looked i = true →
    s.stores.drawn user_id → Below s.stores.users user_id (rank callers i) →
    Below t.stores.users user_id (rank callers i)

def requestGuard (i : ι) (o : AuthCall) (s : Server ι) : Prop :=
  (requests i).manages_users = true → Within (rank callers i) o s.stores.users

variable {callers requests verify_password} {i : ι} {s t u : Server ι}

theorem Around.refl (i : ι) (s : Server ι) : Around callers requests i s s :=
  ⟨rfl, fun _ h => h, fun _ _ _ _ h => h⟩

theorem Around.trans (h : Around callers requests i s t) (k : Around callers requests i t u) :
    Around callers requests i s u where
  looked := k.looked.trans h.looked
  drawn x hx := k.drawn x (h.drawn x hx)
  below user_id htarget hlooked hdrawn hbelow :=
    k.below user_id htarget (h.looked.trans hlooked) (h.drawn user_id hdrawn)
      (h.below user_id htarget hlooked hdrawn hbelow)

variable (callers requests) in
def handled : Contract (fun _ : ι => Auth) (Server ι) where
  invariant := fun s => s.stores.Known
  rely := Around callers requests
  guard := requestGuard callers requests
  rely_refl := Around.refl
  rely_trans := fun _ _ _ _ h k => h.trans k

/-- The account of request `i` has been looked up and is not above its principal. -/
structure Cleared (callers : ι → Caller) (i : ι) (user_id : String) (s : Server ι) : Prop where
  looked : s.looked i = true
  drawn : s.stores.drawn user_id
  below : Below s.stores.users user_id (rank callers i)

theorem Cleared.around {user_id : String} (h : Cleared callers i user_id s)
    (htarget : (requests i).target = some user_id) (k : Around callers requests i s t) :
    Cleared callers i user_id t where
  looked := k.looked.trans h.looked
  drawn := k.drawn user_id h.drawn
  below := k.below user_id htarget h.looked h.drawn h.below

variable [DecidableEq ι]

theorem noted_others {looked : ι → Bool} {o : AuthCall} {j : ι} (hj : j ≠ i) :
    noted looked i o j = looked j := by
  cases o with
  | load_users | respond => exact Function.update_of_ne hj _ _
  | check_backoff | record_failure | clear_failures | time | utcnow | token_urlsafe
  | hash_password | verify_password | change_users | change_sessions => rfl

/-- A step that leaves the accounts as they are. -/
theorem around_users {o : AuthCall} (hlooked : t.looked = noted s.looked i o)
    (husers : t.stores.users = s.stores.users) (hdrawn : t.stores.drawn = s.stores.drawn) :
    ∀ j, j ≠ i → Around callers requests j s t := by
  intro j hj
  refine ⟨?_, ?_, ?_⟩
  · rw [hlooked, noted_others hj]
  · intro x hx
    exact hdrawn ▸ hx
  · intro user_id _ _ _ hbelow
    exact husers ▸ hbelow

theorem requests_honour : (handled callers requests).Honoured
    (undisturbedWorld callers requests verify_password) := by
  intro i o s t t' hs _ hw
  obtain ⟨hcondition, hw, hlooked⟩ := hw
  have hsame : ∀ v : Server ι, v.looked = noted s.looked i o → v.stores.users = s.stores.users →
      v.stores.drawn = s.stores.drawn → v.stores.Known ∧
      ∀ j, j ≠ i → Around callers requests j s v := by
    intro v hv husers hdrawn
    refine ⟨?_, around_users hv husers hdrawn⟩
    intro user huser
    exact hdrawn ▸ hs user (husers ▸ huser)
  cases o with
  | load_users => exact hsame t' hlooked (congrArg Stores.users hw.2) (congrArg Stores.drawn hw.2)
  | verify_password stored password =>
    exact hsame t' hlooked (congrArg Stores.users hw.2) (congrArg Stores.drawn hw.2)
  | change_sessions change =>
    have heq : t'.stores = s.stores.with_sessions _ := hw
    exact hsame t' hlooked (by rw [heq]; rfl) (by rw [heq]; rfl)
  | check_backoff | record_failure | clear_failures | time | utcnow | token_urlsafe
  | hash_password | respond =>
    exact hsame t' hlooked (congrArg Stores.users hw) (congrArg Stores.drawn hw)
  | change_users change =>
    rcases hw with ⟨id, users', updated, hnew, happly, -, heq⟩ | ⟨-, heq⟩
    · have husers : t'.stores.users = users' := congrArg Stores.users heq
      have hdrawn : ∀ x, t'.stores.drawn x ↔ s.stores.drawn x ∨ x = id := by
        intro x
        rw [heq]
      constructor
      · intro user huser
        exact (hdrawn user.id).mpr (known_change hs happly user (husers ▸ huser))
      · intro j hj
        refine ⟨?_, fun x hx => (hdrawn x).mpr (.inl hx), ?_⟩
        · rw [hlooked, noted_others hj]
        · intro user_id htarget hlooked' hdrawn' hbelow
          rw [husers]
          apply below_change hbelow hnew hdrawn' happly
          rintro roles rfl
          exact hcondition j hj hlooked' htarget
    · exact hsame t' hlooked (congrArg Stores.users heq) (congrArg Stores.drawn heq)

/-! ## One request -/

abbrev met (callers : ι → Caller) (requests : ι → Request)
    (verify_password : String → String → Bool) (i : ι) : World Auth (Server ι) :=
  (handled callers requests).around (undisturbedWorld callers requests verify_password) i

variable {user_id : String} {α β : Type}

/-- Whatever happens, the program leaves the account cleared. -/
def Keeps (callers : ι → Caller) (requests : ι → Request)
    (verify_password : String → String → Bool) (i : ι) (user_id : String) (p : AuthM α) : Prop :=
  ∀ s, Cleared callers i user_id s →
    wp (met callers requests verify_password i) (requestGuard callers requests i) p
      (fun _ t => Cleared callers i user_id t) s

theorem keeps_pure (a : α) :
    Keeps callers requests verify_password i user_id (.pure a : AuthM α) := fun _ h => h

theorem keeps_raise (e : AuthFailure) :
    Keeps callers requests verify_password i user_id (.raise e : AuthM α) := fun _ h => h

theorem keeps_ofExcept (r : Except AuthFailure α) :
    Keeps callers requests verify_password i user_id (.ofExcept r : AuthM α) :=
  fun _ h => wp_ofExcept.mpr h

theorem keeps_bind {p : AuthM α} {f : α → AuthM β}
    (h : Keeps callers requests verify_password i user_id p)
    (hf : ∀ a, Keeps callers requests verify_password i user_id (f a)) :
    Keeps callers requests verify_password i user_id (p >>= f) := by
  intro s hs
  apply wp_bind'.mpr
  apply wp_post (h s hs)
  intro r t ht
  cases r with
  | ok a => exact hf a t ht
  | error e => exact ht

theorem keeps_mapError {p : AuthM α} {f : AuthFailure → AuthFailure}
    (h : Keeps callers requests verify_password i user_id p) :
    Keeps callers requests verify_password i user_id (p.mapError f) :=
  fun s hs => wp_mapError.mpr (h s hs)

/-- An operation within the rank that leaves the account where it is. -/
theorem keeps_operation {o : AuthCall} {reply : o.Answer → Except AuthFailure α}
    (htarget : (requests i).target = some user_id)
    (hwithin : ∀ s, Cleared callers i user_id s → Within (rank callers i) o s.stores.users)
    (hstep : ∀ s r t, Cleared callers i user_id s → storeWorld verify_password o s.stores r t.stores →
      t.looked = noted s.looked i o → Cleared callers i user_id t) :
    Keeps callers requests verify_password i user_id (.perform (F := Auth) o reply) := by
  intro s hs
  apply Contract.wp_perform (C := handled callers requests) fun _ => hwithin s hs
  intro r u hw t haround _
  exact (hstep s r u hs hw.2.1 hw.2.2).around htarget haround

/-- An operation that changes no store and answers no request. -/
theorem keeps_ask {o : AuthCall} (htarget : (requests i).target = some user_id)
    (hwithin : ∀ users, Within (rank callers i) o users)
    (hstill : ∀ s r t, storeWorld verify_password o s r t → t = s)
    (hlooked : ∀ looked : ι → Bool, noted looked i o = looked) :
    Keeps callers requests verify_password i user_id (ask o) := by
  apply keeps_operation htarget fun s _ => hwithin s.stores.users
  intro s r t hs hw hnoted
  have hstores := hstill _ r _ hw
  refine ⟨?_, ?_, ?_⟩
  · rw [hnoted, hlooked]
    exact hs.looked
  · rw [hstores]
    exact hs.drawn
  · rw [hstores]
    exact hs.below

/-- A change of the account that gives it no role above the principal. -/
theorem keeps_change (change : UserChange) (htarget : (requests i).target = some user_id)
    (hchange : change.target = some user_id)
    (hgranted : ¬ Outranks (granted change) (rank callers i)) :
    Keeps callers requests verify_password i user_id (change_users change) := by
  apply keeps_operation (o := .change_users change) htarget
  · intro s hs
    refine ⟨hgranted, ?_⟩
    intro other hother
    obtain rfl : user_id = other := Option.some.inj (hchange.symm.trans hother)
    exact hs.below
  · intro s r t hs hw hnoted
    rcases hw with ⟨id, users', updated, hnew, happly, -, heq⟩ | ⟨-, heq⟩
    · refine ⟨?_, ?_, ?_⟩
      · rw [hnoted]
        exact hs.looked
      · rw [heq]
        exact .inl hs.drawn
      · rw [heq]
        apply below_change hs.below hnew hs.drawn happly
        rintro roles rfl
        exact hgranted
    · refine ⟨?_, ?_, ?_⟩
      · rw [hnoted]
        exact hs.looked
      · rw [heq]
        exact hs.drawn
      · rw [heq]
        exact hs.below

theorem keeps_revoke {digest : String → String} {keep_sid : Option String}
    (htarget : (requests i).target = some user_id) :
    Keeps callers requests verify_password i user_id (revoke_user digest user_id keep_sid) := by
  apply keeps_operation (o := .change_sessions (.revoke_user user_id _)) htarget
  · intro s hs
    exact hs.below
  · intro s r t hs hw hnoted
    have heq : t.stores = s.stores.with_sessions _ := hw
    refine ⟨?_, ?_, ?_⟩
    · rw [hnoted]
      exact hs.looked
    · rw [heq]
      exact hs.drawn
    · rw [heq]
      exact hs.below

/-- After its load the account is cleared if the record that was read passes the check. -/
theorem wp_load_target (htarget : (requests i).target = some user_id) (hs : s.stores.Known) :
    wp (met callers requests verify_password i) (requestGuard callers requests i)
      (load_target user_id)
      (fun r t => ∀ target, r = .ok target → target.id = user_id ∧
        (¬ Outranks target.roles (rank callers i) → Cleared callers i user_id t)) s := by
  unfold load_target
  apply wp_mapError.mpr
  unfold get_user
  apply wp_bind'.mpr
  apply Contract.wp_perform (C := handled callers requests) (o := .load_users) fun _ => trivial
  intro users u hw t haround _
  obtain ⟨-, ⟨husers, hstores⟩, hlooked⟩ := hw
  dsimp only
  cases hfind : find_user users user_id with
  | none => exact fun _ h => nomatch h
  | some found =>
    intro target htarget'
    obtain rfl := Except.ok.inj htarget'
    obtain ⟨hmem, hid⟩ := find_user_some hfind
    refine ⟨hid, ?_⟩
    intro hbelow
    have hcleared : Cleared callers i user_id u := by
      refine ⟨?_, ?_, ?_⟩
      · rw [hlooked]
        exact Function.update_self _ _ _
      · rw [hstores, ← hid]
        exact hs found (husers ▸ hmem)
      · intro user huser
        rw [hstores, ← husers, hfind] at huser
        obtain rfl := Option.some.inj huser
        exact hbelow
    exact hcleared.around htarget haround

variable {Q : Except AuthFailure β → Server ι → Prop}

/-- What follows the check may rely on its result. -/
theorem wp_require_outranks {target : UserRecord} {verb : String} {f : Unit → AuthM β}
    (h : ¬ Outranks target.roles (rank callers i) →
      wp (met callers requests verify_password i) (requestGuard callers requests i) (f ()) Q s)
    (hfail : ∀ e, Q (.error e) s) :
    wp (met callers requests verify_password i) (requestGuard callers requests i)
      (require_outranks_target (callers i).principal target verb >>= f) Q s := by
  unfold require_outranks_target
  cases hmax : max_role target.roles with
  | none =>
    apply h
    apply not_outranks_of_max
    intro role hrole
    rw [hmax] at hrole
    cases hrole
  | some top =>
    by_cases hlt : principal_rank (callers i).principal < role_rank top
    · simp only [hlt, if_true]
      exact hfail _
    · simp only [hlt, if_false]
      apply h
      apply not_outranks_of_max
      intro role hrole
      rw [hmax] at hrole
      obtain rfl := Option.some.inj hrole
      exact Int.not_lt.mp hlt

/-- A ceiling that lets the roles pass. -/
theorem not_outranks_of_ceiling {roles : List Role} {r : ℤ}
    (h : (roles.find? fun role => r < role_rank role) = none) :
    ¬ Outranks (roles.map Role.value) r := by
  intro hout
  obtain ⟨role, hrole, hlt⟩ := hout
  rw [role_set_values] at hrole
  exact List.find?_eq_none.mp h role hrole (decide_eq_true hlt)

theorem wp_require_ceiling {roles : List Role} {verb : String} {f : Unit → AuthM β}
    (h : ¬ Outranks (roles.map Role.value) (rank callers i) →
      wp (met callers requests verify_password i) (requestGuard callers requests i) (f ()) Q s)
    (hfail : ∀ e, Q (.error e) s) :
    wp (met callers requests verify_password i) (requestGuard callers requests i)
      (require_rank_ceiling (callers i).principal roles verb >>= f) Q s := by
  unfold require_rank_ceiling
  cases hfind : roles.find? fun role => principal_rank (callers i).principal < role_rank role with
  | some role => exact hfail _
  | none => exact h (not_outranks_of_ceiling hfind)

theorem keeps_parse_roles (raw : List String) :
    Keeps callers requests verify_password i user_id (parse_roles raw) := by
  induction raw with
  | nil => exact keeps_pure _
  | cons value rest ih =>
    rw [parse_roles]
    cases Role.parse value with
    | none => exact keeps_raise _
    | some role => exact keeps_bind ih fun _ => keeps_pure _

theorem keeps_patch_roles (htarget : (requests i).target = some user_id)
    (raw : Option (List String)) :
    Keeps callers requests verify_password i user_id (patch_roles (callers i) user_id raw) := by
  cases raw with
  | none => exact keeps_pure _
  | some raw =>
    apply keeps_bind (keeps_parse_roles raw)
    intro roles s hs
    apply wp_require_ceiling
    · intro hgranted
      exact keeps_bind (keeps_change (.roles user_id _) htarget rfl hgranted)
        (fun _ => keeps_pure _) s hs
    · exact fun _ => hs

theorem keeps_patch_name (htarget : (requests i).target = some user_id) (name : Option String) :
    Keeps callers requests verify_password i user_id (patch_name user_id name) := by
  cases name with
  | none => exact keeps_pure _
  | some name =>
    exact keeps_bind (keeps_change (.name user_id name) htarget rfl not_outranks_nil)
      fun _ => keeps_pure _

theorem keeps_patch_disabled {digest : String → String}
    (htarget : (requests i).target = some user_id) (disabled : Option Bool) :
    Keeps callers requests verify_password i user_id (patch_disabled digest user_id disabled) := by
  cases disabled with
  | none => exact keeps_pure _
  | some disabled =>
    apply keeps_bind (keeps_change (.disabled user_id disabled) htarget rfl
      not_outranks_nil)
    intro _
    split
    · exact keeps_revoke htarget
    · exact keeps_pure _

theorem keeps_set_password (htarget : (requests i).target = some user_id) (password : String) :
    Keeps callers requests verify_password i user_id (set_password user_id password) := by
  unfold set_password
  apply keeps_bind
  · unfold validate_password
    split
    · exact keeps_raise _
    · exact keeps_pure _
  intro _
  apply keeps_bind (keeps_ask (o := .hash_password password) htarget (fun _ => trivial)
    (fun _ _ _ h => h) fun _ => rfl)
  intro password_hash
  apply keeps_bind (keeps_ask (o := .utcnow) htarget (fun _ => trivial) (fun _ _ _ h => h)
    fun _ => rfl)
  intro now
  exact keeps_bind (keeps_change (.password user_id password_hash now) htarget rfl
    not_outranks_nil) fun _ => keeps_pure _

/-- An endpoint that looks its account up, compares its rank and goes on. -/
theorem wp_checked (htarget : (requests i).target = some user_id) (hs : s.stores.Known)
    {verb : String} {f : UserRecord → AuthM Unit}
    (hf : ∀ target, target.id = user_id →
      Keeps callers requests verify_password i user_id (f target)) :
    wp (met callers requests verify_password i) (requestGuard callers requests i) (do
      let target ← load_target user_id
      require_outranks_target (callers i).principal target verb
      f target) (fun _ _ => True) s := by
  apply wp_bind'.mpr
  apply wp_post (wp_load_target htarget hs)
  intro r t ht
  cases r with
  | error e => trivial
  | ok target =>
    obtain ⟨hid, hcleared⟩ := ht target rfl
    apply wp_require_outranks
    · intro hbelow
      exact wp_post (hf target hid t (hcleared hbelow)) fun _ _ _ => trivial
    · exact fun _ => trivial

/-- A new account gets no role above the principal. -/
theorem create_user_within {caller : Caller} {email : Except String String}
    {password name : String} {raw : List String} :
    (create_user caller email password name raw).Calls
      fun o => ∀ users, Within (principal_rank caller.principal) o users := by
  have hparse : ∀ l : List String, (parse_roles l).Calls
      fun o => ∀ users, Within (principal_rank caller.principal) o users := by
    intro l
    induction l with
    | nil => trivial
    | cons value rest ih =>
      rw [parse_roles]
      cases Role.parse value with
      | none => trivial
      | some role => exact calls_bind ih fun _ => trivial
  apply calls_bind (hparse raw)
  intro roles
  have hceiling : ∀ f : Unit → AuthM Unit,
      (¬ Outranks (roles.map Role.value) (principal_rank caller.principal) →
        (f ()).Calls fun o => ∀ users, Within (principal_rank caller.principal) o users) →
      (require_rank_ceiling caller.principal roles "create" >>= f).Calls
        fun o => ∀ users, Within (principal_rank caller.principal) o users := by
    intro f hf
    unfold require_rank_ceiling
    cases hfind : roles.find? fun role => principal_rank caller.principal < role_rank role with
    | some role => trivial
    | none => exact hf (not_outranks_of_ceiling hfind)
  apply hceiling
  intro hgranted
  apply calls_mapError
  unfold create_account
  apply calls_bind (calls_ofExcept _)
  intro email'
  apply calls_bind
  · unfold validate_password
    split <;> trivial
  intro _
  apply calls_bind (calls_perform.mpr fun _ => trivial)
  intro password_hash
  apply calls_bind (calls_perform.mpr fun _ => trivial)
  intro created_at
  apply calls_bind (calls_perform.mpr fun _ => trivial)
  intro password_updated_at
  apply calls_bind
  · exact calls_perform.mpr fun _ => ⟨hgranted, fun _ h => nomatch h⟩
  · exact fun _ => calls_pure _

theorem wp_endpoint {digest : String → String} (hs : s.stores.Known) :
    wp (met callers requests verify_password i) (requestGuard callers requests i)
      (endpoint digest (callers i) (requests i)) (fun _ _ => True) s := by
  have hother : ∀ p : AuthM Unit, (requests i).manages_users = false →
      wp (met callers requests verify_password i) (requestGuard callers requests i) p
        (fun _ _ => True) s := by
    intro p hno
    apply wp_mono (wp_true p s)
    · intro o u _ hyes
      rw [hno] at hyes
      cases hyes
    · exact fun _ _ h => h
  cases hrequest : requests i with
  | login email password => exact hother _ (by rw [hrequest]; rfl)
  | logout session_sid => exact hother _ (by rw [hrequest]; rfl)
  | change_password current_password new_password => exact hother _ (by rw [hrequest]; rfl)
  | create_user email password name roles =>
    exact wp_of_calls create_user_within (fun o u h _ => h u.stores.users) s
  | patch_user user_id patch =>
    have htarget : (requests i).target = some user_id := by rw [hrequest]; rfl
    apply wp_checked htarget hs
    intro target hid
    split
    · exact keeps_raise _
    · rw [hid]
      apply keeps_bind (keeps_patch_roles htarget _)
      intro _
      apply keeps_bind (keeps_patch_name htarget _)
      intro _
      exact keeps_patch_disabled htarget _
  | reset_password user_id new_password =>
    have htarget : (requests i).target = some user_id := by rw [hrequest]; rfl
    apply wp_checked htarget hs
    intro target hid
    rw [hid]
    apply keeps_bind (keeps_mapError (keeps_set_password htarget new_password))
    intro _
    exact keeps_revoke htarget
  | delete_user user_id =>
    have htarget : (requests i).target = some user_id := by rw [hrequest]; rfl
    apply wp_checked htarget hs
    intro target hid
    split
    · exact keeps_raise _
    · rw [hid]
      apply keeps_bind (keeps_change (.delete user_id) htarget rfl not_outranks_nil)
      intro _
      exact keeps_revoke htarget

theorem wp_handle {digest : String → String} (hs : s.stores.Known) :
    wp (met callers requests verify_password i) (requestGuard callers requests i)
      (handle digest (callers i) (requests i)) (fun _ _ => True) s := by
  unfold handle Prog.ensuring
  apply wp_bind.mpr
  apply wp_attempt.mpr
  apply wp_post (wp_endpoint hs)
  intro r t _
  apply wp_bind.mpr
  apply Contract.wp_perform (C := handled callers requests) (o := .respond) fun _ => trivial
  intro r' u _ t' _ _
  exact wp_ofExcept.mpr trivial

end Requests

section Ceiling

variable {ι : Type} [DecidableEq ι]

/-- Where no role change raises an account that another request has looked up above the
principal of that request, no request of the user management touches an account above its
principal or gives a role above it. -/
theorem rank_ceiling_kept (digest : String → String) (verify_password : String → String → Bool)
    (callers : ι → Caller) (requests : ι → Request) {s t : Server ι} (hs : Start s)
    {qs : Requests ι}
    (hrun : Interleaved (undisturbedWorld callers requests verify_password) s
      (received digest callers requests) t qs)
    {i : ι} {o : AuthCall} {k : o.Answer → AuthM Unit} (hcall : qs i = .call (F := Auth) o k)
    (hmanages : (requests i).manages_users = true) :
    Within (rank callers i) o t.stores.users := by
  have hstart : (handled callers requests).Holds
      (undisturbedWorld callers requests verify_password) (fun _ _ _ => True) s
      (received digest callers requests) := ⟨hs.known, fun _ _ _ hknown => wp_handle hknown⟩
  exact (hstart.run requests_honour hrun).guard hcall hmanages

end Ceiling

/-! ## An account that is raised meanwhile -/

structure ServerDesk where
  desk : Desk
  looked : Bool → Bool

def ServerDesk.server (s : ServerDesk) : Server Bool := ⟨s.desk.stores, s.looked⟩

def ServerDesk.serve (i : Bool) (o : Auth.Op) (s : ServerDesk) : Auth.Reply o × ServerDesk :=
  ((Desk.serve o s.desk).1, ⟨(Desk.serve o s.desk).2, noted s.looked i o⟩)

theorem serverWorld_serve (i : Bool) (o : Auth.Op) (s : ServerDesk) :
    serverWorld Desk.verify_password i o s.server (s.serve i o).1 (s.serve i o).2.server :=
  ⟨Desk.storeWorld_serve o s.desk, rfl⟩

/-- `false` is an admin, `true` an owner. -/
def exampleCallers : Bool → Caller
  | false => ⟨⟨"admin@example.com", .token, [.admin]⟩, none, none⟩
  | true => ⟨⟨"owner@example.com", .token, [.owner]⟩, none, none⟩

/-- The admin resets the password of an account to which the owner gives a role. -/
def exampleRequests (role : String) : Bool → Request
  | false => .reset_password "0" "correct horse"
  | true => .patch_user "0" { roles := some [role] }

def operatorAccount : UserRecord where
  id := "0"
  email := "operator@example.com"
  roles := ["operator"]

def exampleStart : ServerDesk := ⟨⟨[operatorAccount], [], ["0"]⟩, fun _ => false⟩

theorem exampleStart_start : Start exampleStart.server := by
  refine ⟨?_, fun _ => rfl⟩
  intro user huser
  exact List.mem_map_of_mem (f := UserRecord.id) huser

def exampleReceived (role : String) : Requests Bool :=
  received id exampleCallers (exampleRequests role)

/-- The admin's request has passed its check, and then the owner's request is handled. -/
def interrupted (role : String) : Requests Bool × ServerDesk :=
  Pool.turns ServerDesk.serve [false, false, false, true, true, true] (exampleReceived role)
    exampleStart

def resetChange : UserChange := .password "0" "hcorrect horse" "2026-01-01T00:00:00+00:00"

def answered : Requests Bool × ServerDesk :=
  Pool.turns ServerDesk.serve [false] (interrupted "owner").1 (interrupted "owner").2

theorem raised_facts :
    Pool.every ServerDesk.serve (fun _ _ _ => true) [false, false, false, true, true, true]
      (exampleReceived "owner") exampleStart = true ∧
    Pool.every ServerDesk.serve (fun _ _ _ => true) [false] (interrupted "owner").1
      (interrupted "owner").2 = true ∧
    ((interrupted "owner").1 false).issues = some (.change_users resetChange) ∧
    find_user (interrupted "owner").2.desk.users "0" =
      some { operatorAccount with roles := ["owner"] } ∧
    find_user answered.2.desk.users "0" = some { operatorAccount with
      roles := ["owner"], password_hash := "hcorrect horse"
      password_updated_at := "2026-01-01T00:00:00+00:00" } := by
  decide +kernel

/-- The admin's request is about to write, and writes, the password of an owner's account. -/
theorem password_of_owner_reset : Start exampleStart.server ∧
    ∃ (t u : Server Bool) (qs rs : Requests Bool) (o : AuthCall) (k : o.Answer → AuthM Unit),
      Interleaved (serverWorld Desk.verify_password) exampleStart.server
        (exampleReceived "owner") t qs ∧ qs false = .call (F := Auth) o k ∧
      (exampleRequests "owner" false).manages_users = true ∧
      ¬ Within (rank exampleCallers false) o t.stores.users ∧
      Interleaved (serverWorld Desk.verify_password) t qs u rs ∧
      ∃ user, find_user u.stores.users "0" = some user ∧ user.roles = ["owner"] ∧
        user.password_hash = "hcorrect horse" := by
  obtain ⟨hturns, hturn, hissues, hthere, hthen⟩ := raised_facts
  have hserve : ∀ i o s, true = true →
      serverWorld Desk.verify_password i o (ServerDesk.server s) (s.serve i o).1
        (s.serve i o).2.server := fun i o s _ => serverWorld_serve i o s
  refine ⟨exampleStart_start, (interrupted "owner").2.server, answered.2.server, _, _, _, _,
    interleaved_turns ServerDesk.server hserve hturns, eq_call_of_issues hissues, rfl, ?_,
    interleaved_turns ServerDesk.server hserve hturn, _, hthen, rfl, rfl⟩
  intro hwithin
  apply hwithin.2 "0" rfl _ hthere
  decide

/-! The owner makes the account an admin's. -/

def undisturbedNow (role : String) (i : Bool) (o : AuthCall) (s : ServerDesk) : Bool :=
  match o with
  | .change_users (.roles user_id roles) =>
    !(s.looked (!i) && (exampleRequests role (!i)).target = some user_id &&
      decide (Outranks roles (rank exampleCallers (!i))))
  | _ => true

theorem undisturbed_of_now {role : String} {i : Bool} {o : AuthCall} {s : ServerDesk}
    (h : undisturbedNow role i o s = true) :
    Undisturbed exampleCallers (exampleRequests role) i o s.server := by
  cases o with
  | change_users change =>
    cases change with
    | roles user_id roles =>
      intro j hj hlooked htarget hout
      obtain rfl : j = !i := by
        cases i <;> cases j <;> first | rfl | exact absurd rfl hj
      have hlooked' : s.looked (!i) = true := hlooked
      simp [undisturbedNow, hlooked', htarget, hout] at h
    | create | password | disabled | name | delete => trivial
  | check_backoff | record_failure | clear_failures | time | utcnow | token_urlsafe
  | hash_password | verify_password | load_users | change_sessions | respond => trivial

theorem admitted_facts :
    Pool.every ServerDesk.serve (undisturbedNow "admin") [false, false, false, true, true, true]
      (exampleReceived "admin") exampleStart = true ∧
    ((interrupted "admin").1 false).issues = some (.change_users resetChange) := by
  decide +kernel

theorem reset_within_rank :
    Within (rank exampleCallers false) (.change_users resetChange)
      (interrupted "admin").2.desk.users := by
  obtain ⟨hturns, hissues⟩ := admitted_facts
  exact rank_ceiling_kept id Desk.verify_password exampleCallers (exampleRequests "admin")
    exampleStart_start
    (interleaved_turns ServerDesk.server
      (fun i o s hnow => ⟨undisturbed_of_now hnow, serverWorld_serve i o s⟩) hturns)
    (eq_call_of_issues hissues) rfl

end RankCeiling
