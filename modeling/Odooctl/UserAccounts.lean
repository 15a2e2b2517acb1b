import Odooctl.AccessControl
import Odooctl.InterleavedPrograms
import Odooctl.PythonText

/-!
# Accounts, sessions and the endpoints that change them

`security/users.py`, `security/sessions.py` and `api/routes_auth.py`. A change of a store runs
under the lock of the store and is one step, and so is a load, which takes no lock. An email is
what `normalize_email` makes of the text of a request. The failed-login counter and the hash
functions belong to the environment.
-/
namespace UserAccounts

open EffectPrograms InterleavedPrograms AccessControl PythonText

/-! ## The stores -/

structure UserRecord where
  id : String
  email : String
  name : String := ""
  roles : List String := []
  password_hash : String := ""
  disabled : Bool := false
  created_at : String := ""
  password_updated_at : String := ""
  deriving DecidableEq, Repr

structure SessionRecord where
  sid_hash : String
  user_id : String
  created_at : ℤ
  expires_at : ℤ
  deriving DecidableEq, Repr

def role_set (roles : List String) : List Role := roles.filterMap Role.parse

def higher (best : Option Role) (role : Role) : Option Role :=
  match best with
  | none => some role
  | some top => if role_rank top < role_rank role then some role else some top

/-- `max(roles, key=role_rank)`, `None` without roles. -/
def max_role (roles : List String) : Option Role := (role_set roles).foldl higher none

inductive AuthFailure where
  | http (status : ℕ) (detail : String)
  | user_exists (message : String)
  | user_not_found (message : String)
  | value (message : String)
  deriving DecidableEq, Repr

/-- What `create` writes, apart from the id that it draws. -/
structure NewUser where
  email : String
  name : String
  roles : List String
  password_hash : String
  created_at : String
  password_updated_at : String
  deriving DecidableEq, Repr

def NewUser.record (new : NewUser) (id : String) : UserRecord :=
  { id, email := new.email, name := new.name, roles := new.roles,
    password_hash := new.password_hash, created_at := new.created_at,
    password_updated_at := new.password_updated_at }

inductive UserChange where
  | create (new : NewUser)
  | password (user_id password_hash password_updated_at : String)
  | roles (user_id : String) (roles : List String)
  | disabled (user_id : String) (disabled : Bool)
  | name (user_id name : String)
  | delete (user_id : String)
  deriving DecidableEq, Repr

/-- The account a change is about; a new one has no id before it is written. -/
def UserChange.target : UserChange → Option String
  | .create _ => none
  | .password user_id _ _ | .roles user_id _ | .disabled user_id _ | .name user_id _
  | .delete user_id => some user_id

def find_user (users : List UserRecord) (user_id : String) : Option UserRecord :=
  users.find? fun user => user.id = user_id

def no_user (user_id : String) : AuthFailure :=
  .user_not_found s!"No user with id {quoted user_id}"

/-- `_mutate`: the first record with the id is replaced. -/
def mutate (users : List UserRecord) (user_id : String) (change : UserRecord → UserRecord) :
    Except AuthFailure (List UserRecord × UserRecord) :=
  match users with
  | [] => .error (no_user user_id)
  | user :: rest =>
    if user.id = user_id then .ok (change user :: rest, change user)
    else do
      let (rest', updated) ← mutate rest user_id change
      .ok (user :: rest', updated)

/-- The stored list and the record that `_mutate` returns. -/
def edited (users : List UserRecord) (user_id : String) (change : UserRecord → UserRecord) :
    Except AuthFailure (List UserRecord × Option UserRecord) :=
  (mutate users user_id change).map fun result => (result.1, some result.2)

/-- A change of the users under their lock. `id` is the id drawn for a new account. -/
def UserChange.apply (id : String) (users : List UserRecord) :
    UserChange → Except AuthFailure (List UserRecord × Option UserRecord)
  | .create new =>
    if users.any fun user => user.email = new.email then
      .error (.user_exists s!"A user with email {quoted new.email} already exists")
    else .ok (users ++ [new.record id], some (new.record id))
  | .password user_id password_hash password_updated_at => edited users user_id fun user =>
    { user with password_hash := password_hash, password_updated_at := password_updated_at }
  | .roles user_id granted => edited users user_id fun user => { user with roles := granted }
  | .disabled user_id now => edited users user_id fun user => { user with disabled := now }
  | .name user_id text => edited users user_id fun user => { user with name := text }
  | .delete user_id =>
    let remaining := users.filter fun user => user.id ≠ user_id
    if remaining.length = users.length then .error (no_user user_id)
    else .ok (remaining, none)

inductive SessionChange where
  | create (record : SessionRecord)
  | revoke (sid_hash : String)
  | revoke_user (user_id : String) (keep_hash : Option String)
  deriving DecidableEq, Repr

/-- A change of the sessions under their lock. -/
def SessionChange.apply (sessions : List SessionRecord) : SessionChange → List SessionRecord
  | .create record =>
    sessions.filter (fun r => r.expires_at > record.created_at) ++ [record]
  | .revoke sid_hash => sessions.filter fun r => r.sid_hash ≠ sid_hash
  | .revoke_user user_id keep_hash =>
    sessions.filter fun r => r.user_id ≠ user_id || some r.sid_hash = keep_hash

/-! ## What a request calls -/

inductive AuthCall where
  | check_backoff (email : String)
  | record_failure (email : String)
  | clear_failures (email : String)
  | time
  | utcnow
  | token_urlsafe
  | hash_password (password : String)
  | verify_password (stored password : String)
  | load_users
  | change_users (change : UserChange)
  | change_sessions (change : SessionChange)
  | respond
  deriving DecidableEq, Repr

abbrev AuthCall.Answer : AuthCall → Type
  | .check_backoff _ | .verify_password _ _ => Bool
  | .record_failure _ | .clear_failures _ | .change_sessions _ | .respond => Unit
  | .time => ℤ
  | .utcnow | .token_urlsafe | .hash_password _ => String
  | .load_users => List UserRecord
  | .change_users _ => Except AuthFailure (Option UserRecord)

abbrev Auth : Interface := ⟨AuthCall, AuthCall.Answer⟩

abbrev AuthM := Prog Auth AuthFailure

def ask (o : AuthCall) : AuthM o.Answer := .perform (F := Auth) o .ok

def http (status : ℕ) (detail : String) : AuthFailure := .http status detail

/-- `except ValueError as exc: raise HTTPException(status_code=400)`. -/
def value_as_400 : AuthFailure → AuthFailure
  | .value message => .http 400 message
  | e => e

def MIN_PASSWORD_LENGTH : ℕ := 8

def DEFAULT_SESSION_TTL_SECONDS : ℤ := 12 * 3600

/-- A throwaway hash. -/
def DUMMY_HASH : String := "scrypt$16384$8$1$00$00"

def validate_password (password : String) : AuthM Unit :=
  if password.length < MIN_PASSWORD_LENGTH then
    .raise (.value s!"Password must be at least {MIN_PASSWORD_LENGTH} characters")
  else .pure ()

def change_users (change : UserChange) : AuthM (Option UserRecord) :=
  .perform (F := Auth) (.change_users change) id

/-! ## `UserStore` and `SessionStore` -/

def get_user (user_id : String) : AuthM UserRecord := do
  let users ← ask .load_users
  match find_user users user_id with
  | some user => .pure user
  | none => .raise (no_user user_id)

def set_password (user_id password : String) : AuthM Unit := do
  validate_password password
  let password_hash ← ask (.hash_password password)
  let now ← ask .utcnow
  let _ ← change_users (.password user_id password_hash now)
  .pure ()

/-- `UserStore.create`; `email` is the text `normalize_email` returns, or its complaint. -/
def create_account (email : Except String String) (password : String) (roles : List Role)
    (name : String) : AuthM Unit := do
  let email ← .ofExcept (email.mapError .value)
  validate_password password
  let password_hash ← ask (.hash_password password)
  let created_at ← ask .utcnow
  let password_updated_at ← ask .utcnow
  let _ ← change_users (.create
    { email, name, roles := roles.map Role.value, password_hash, created_at, password_updated_at })
  .pure ()

def authenticate (email password : String) : AuthM (Option UserRecord) := do
  let users ← ask .load_users
  match users.find? fun user => user.email = email with
  | none => do
    let _ ← ask (.verify_password DUMMY_HASH password)
    .pure none
  | some user =>
    if user.password_hash = "" then .pure none
    else do
      if ← ask (.verify_password user.password_hash password) then
        .pure (if user.disabled then none else some user)
      else .pure none

variable (digest : String → String)

/-- `SessionStore.create`, with the time to live of a login. -/
def create_session (user_id : String) : AuthM String := do
  let sid ← ask .token_urlsafe
  let issued ← ask .time
  ask (.change_sessions (.create
    { sid_hash := digest sid, user_id, created_at := issued,
      expires_at := issued + DEFAULT_SESSION_TTL_SECONDS }))
  .pure sid

def revoke_user (user_id : String) (keep_sid : Option String) : AuthM Unit :=
  ask (.change_sessions (.revoke_user user_id
    (match keep_sid with
      | some sid => if sid = "" then none else some (digest sid)
      | none => none)))

/-! ## Ranks -/

def principal_rank (principal : Principal) : ℤ :=
  (principal.roles.map fun role => (role_rank role : ℤ)).foldl max (-1)

def parse_roles : List String → AuthM (List Role)
  | [] => .pure []
  | value :: rest => match Role.parse value with
    | none => .raise (http 400 s!"Unknown role: {quoted value}")
    | some role => do
      let roles ← parse_roles rest
      .pure (role :: roles)

def require_rank_ceiling (principal : Principal) (roles : List Role) (verb : String) : AuthM Unit :=
  match roles.find? fun role => principal_rank principal < role_rank role with
  | some role => .raise (http 403
      s!"Cannot {verb} a {quoted role.value} account above your own role")
  | none => .pure ()

def require_outranks_target (principal : Principal) (target : UserRecord) (verb : String) :
    AuthM Unit :=
  match max_role target.roles with
  | none => .pure ()
  | some role =>
    if principal_rank principal < role_rank role then
      .raise (http 403 s!"Cannot {verb} an account whose role outranks your own")
    else .pure ()

/-- The principal of a request, and the account and the session of its cookie if it has one. -/
structure Caller where
  principal : Principal
  session_user_id : Option String
  session_sid : Option String
  deriving DecidableEq, Repr

def is_self (caller : Caller) (target : UserRecord) : Bool :=
  caller.session_user_id = some target.id ||
    (caller.principal.kind = .user && caller.principal.id = target.email)

/-! ## The endpoints -/

def login (email password : String) : AuthM Unit := do
  if ← ask (.check_backoff email) then
    .raise (http 429 "Too many failed login attempts; try again later")
  else
    match ← authenticate email password with
    | none => do
      ask (.record_failure email)
      .raise (http 401 "Invalid email or password")
    | some user => do
      ask (.clear_failures email)
      let _ ← create_session digest user.id
      .pure ()

/-- `POST /auth/logout`. -/
def logout (session_sid : Option String) : AuthM Unit :=
  match session_sid with
  | none => .pure ()
  | some sid => if sid = "" then .pure () else ask (.change_sessions (.revoke (digest sid)))

def change_password (caller : Caller) (current_password new_password : String) : AuthM Unit :=
  match caller.session_user_id with
  | none => .raise (http 400 "Password change requires a browser session login")
  | some user_id => do
    let user ← get_user user_id
    if ← ask (.verify_password user.password_hash current_password) then do
      (set_password user.id new_password).mapError value_as_400
      revoke_user digest user.id caller.session_sid
    else .raise (http 403 "Current password is incorrect")

def load_target (user_id : String) : AuthM UserRecord :=
  (get_user user_id).mapError fun e => match e with
    | .user_not_found _ => http 404 s!"No user with id {quoted user_id}"
    | e => e

def create_user (caller : Caller) (email : Except String String) (password name : String)
    (roles : List String) : AuthM Unit := do
  let roles ← parse_roles roles
  require_rank_ceiling caller.principal roles "create"
  (create_account email password roles name).mapError fun e => match e with
    | .user_exists message => http 409 message
    | e => value_as_400 e

/-- The body of a `PATCH`. -/
structure UserPatch where
  roles : Option (List String) := none
  disabled : Option Bool := none
  name : Option String := none
  deriving DecidableEq, Repr

def patch_roles (caller : Caller) (user_id : String) : Option (List String) → AuthM Unit
  | none => .pure ()
  | some raw => do
    let roles ← parse_roles raw
    require_rank_ceiling caller.principal roles "grant"
    let _ ← change_users (.roles user_id (roles.map Role.value))
    .pure ()

def patch_name (user_id : String) : Option String → AuthM Unit
  | none => .pure ()
  | some name => do
    let _ ← change_users (.name user_id name)
    .pure ()

def patch_disabled (user_id : String) : Option Bool → AuthM Unit
  | none => .pure ()
  | some disabled => do
    let _ ← change_users (.disabled user_id disabled)
    if disabled then revoke_user digest user_id none else .pure ()

def patch_user (caller : Caller) (user_id : String) (patch : UserPatch) : AuthM Unit := do
  let target ← load_target user_id
  require_outranks_target caller.principal target "modify"
  if patch.disabled = some true ∧ is_self caller target then
    .raise (http 400 "You cannot disable your own account")
  else do
    patch_roles caller target.id patch.roles
    patch_name target.id patch.name
    patch_disabled digest target.id patch.disabled

def reset_password (caller : Caller) (user_id new_password : String) : AuthM Unit := do
  let target ← load_target user_id
  require_outranks_target caller.principal target "reset the password of"
  (set_password target.id new_password).mapError value_as_400
  revoke_user digest target.id none

def delete_user (caller : Caller) (user_id : String) : AuthM Unit := do
  let target ← load_target user_id
  require_outranks_target caller.principal target "delete"
  if is_self caller target then .raise (http 400 "You cannot delete your own account")
  else do
    let _ ← change_users (.delete target.id)
    revoke_user digest target.id none

inductive Request where
  | login (email password : String)
  | logout (session_sid : Option String)
  | change_password (current_password new_password : String)
  | create_user (email : Except String String) (password name : String) (roles : List String)
  | patch_user (user_id : String) (patch : UserPatch)
  | reset_password (user_id new_password : String)
  | delete_user (user_id : String)

def endpoint (caller : Caller) : Request → AuthM Unit
  | .login email password => login digest email password
  | .logout session_sid => logout digest session_sid
  | .change_password current_password new_password =>
    change_password digest caller current_password new_password
  | .create_user email password name roles => create_user caller email password name roles
  | .patch_user user_id patch => patch_user digest caller user_id patch
  | .reset_password user_id new_password => reset_password digest caller user_id new_password
  | .delete_user user_id => delete_user digest caller user_id

/-- An endpoint and the response, which is sent however the endpoint ends. -/
def handle (caller : Caller) (request : Request) : AuthM Unit :=
  Prog.ensuring (endpoint digest caller request) (ask .respond)

/-- The requests and what each of them has still to do. -/
abbrev Requests (ι : Type) := Pool (fun _ : ι => Auth) (fun _ => AuthFailure) (fun _ => Unit)

def received {ι : Type} (callers : ι → Caller) (requests : ι → Request) : Requests ι :=
  fun i => handle digest (callers i) (requests i)

/-- The account a request of the user management is about. -/
def Request.target : Request → Option String
  | .patch_user user_id _ | .reset_password user_id _ | .delete_user user_id => some user_id
  | _ => none

def Request.manages_users : Request → Bool
  | .create_user _ _ _ _ | .patch_user _ _ | .reset_password _ _ | .delete_user _ => true
  | _ => false

/-! ## The stores under requests -/

/-- The two files, and the ids that were ever drawn for an account. -/
structure Stores where
  users : List UserRecord
  sessions : List SessionRecord
  drawn : String → Prop

def Stores.with_sessions (s : Stores) (sessions : List SessionRecord) : Stores :=
  { s with sessions := sessions }

/-- A new account gets an id that was never drawn. A write may fail. -/
def storeWorld (verify_password : String → String → Bool) : World Auth Stores
  | .load_users, s, r, t => r = s.users ∧ t = s
  | .change_users change, s, r, t =>
      (∃ id users' updated, ¬ s.drawn id ∧ change.apply id s.users = .ok (users', updated) ∧
        r = .ok updated ∧ t = { s with users := users', drawn := fun x => s.drawn x ∨ x = id }) ∨
      (∃ e, r = .error e) ∧ t = s
  | .change_sessions change, s, _, t => t = s.with_sessions (change.apply s.sessions)
  | .verify_password stored password, s, r, t => r = verify_password stored password ∧ t = s
  | _, s, _, t => t = s

/-- Every account has an id that was drawn. -/
def Stores.Known (s : Stores) : Prop := ∀ user ∈ s.users, s.drawn user.id

/-! ## Changes of the users -/

section Changes

variable {users users' : List UserRecord} {user_id id : String} {f : UserRecord → UserRecord}
  {updated : UserRecord}

theorem find_user_some {user : UserRecord} (h : find_user users user_id = some user) :
    user ∈ users ∧ user.id = user_id := by
  refine ⟨List.mem_of_find?_eq_some h, ?_⟩
  exact of_decide_eq_true (List.find?_some (p := fun u : UserRecord => decide (u.id = user_id)) h)

theorem find_user_mutate (h : mutate users user_id f = .ok (users', updated))
    (hf : ∀ user, (f user).id = user.id) :
    find_user users' id =
      (find_user users id).map fun user => if id = user_id then f user else user := by
  induction users generalizing users' with
  | nil => cases h
  | cons user rest ih =>
    rw [mutate] at h
    by_cases hid : user.id = user_id
    · rw [if_pos hid] at h
      obtain ⟨rfl, rfl⟩ := Prod.mk.inj (Except.ok.inj h)
      by_cases hi : user.id = id
      · have hii : id = user_id := hi.symm.trans hid
        simp [find_user, hf, hi, hii]
      · have hne : ¬ id = user_id := fun h => hi (hid.trans h.symm)
        simp [find_user, hf, hi, hne]
    · rw [if_neg hid] at h
      cases hrest : mutate rest user_id f with
      | error e =>
        rw [hrest] at h
        cases h
      | ok result =>
        rw [hrest] at h
        obtain ⟨rest', updated'⟩ := result
        obtain ⟨rfl, rfl⟩ := Prod.mk.inj (Except.ok.inj h)
        have hrest' := ih hrest
        by_cases hi : user.id = id
        · have hne : ¬ id = user_id := fun h => hid (hi.trans h)
          simp [find_user, hi, hne]
        · simp only [find_user] at hrest'
          simp [find_user, hi, hrest']

theorem find_user_remove (target : String) :
    find_user (users.filter fun user => user.id ≠ target) id =
      if id = target then none else find_user users id := by
  induction users with
  | nil => simp [find_user]
  | cons user rest ih =>
    simp only [find_user] at ih ⊢
    by_cases htarget : user.id = target
    · rw [List.filter_cons_of_neg (by simpa using htarget), ih]
      by_cases hid : id = target
      · simp [hid]
      · have hne : ¬ user.id = id := fun h => hid (h.symm.trans htarget)
        simp [hid, hne]
    · rw [List.filter_cons_of_pos (by simpa using htarget)]
      by_cases hid : user.id = id
      · have hne : ¬ id = target := fun h => htarget (hid.trans h)
        simp [hid, hne]
      · simp only [List.find?_cons, hid, decide_false, ih]

theorem mem_mutate {user : UserRecord} (h : mutate users user_id f = .ok (users', updated))
    (hmem : user ∈ users') : user ∈ users ∨ ∃ old ∈ users, user = f old := by
  induction users generalizing users' with
  | nil => cases h
  | cons first rest ih =>
    rw [mutate] at h
    by_cases hid : first.id = user_id
    · rw [if_pos hid] at h
      obtain ⟨rfl, rfl⟩ := Prod.mk.inj (Except.ok.inj h)
      rcases List.mem_cons.mp hmem with rfl | hmem
      · exact .inr ⟨first, List.mem_cons_self, rfl⟩
      · exact .inl (List.mem_cons_of_mem _ hmem)
    · rw [if_neg hid] at h
      cases hrest : mutate rest user_id f with
      | error e =>
        rw [hrest] at h
        cases h
      | ok result =>
        rw [hrest] at h
        obtain ⟨rest', updated'⟩ := result
        obtain ⟨rfl, rfl⟩ := Prod.mk.inj (Except.ok.inj h)
        rcases List.mem_cons.mp hmem with rfl | hmem
        · exact .inl List.mem_cons_self
        · rcases ih hrest hmem with hold | ⟨old, hold, rfl⟩
          · exact .inl (List.mem_cons_of_mem _ hold)
          · exact .inr ⟨old, List.mem_cons_of_mem _ hold, rfl⟩

/-- What a change makes of one record that it leaves in the store. -/
def UserChange.edit : UserChange → UserRecord → UserRecord
  | .password _ password_hash password_updated_at => fun user =>
    { user with password_hash := password_hash, password_updated_at := password_updated_at }
  | .roles _ granted => fun user => { user with roles := granted }
  | .disabled _ now => fun user => { user with disabled := now }
  | .name _ text => fun user => { user with name := text }
  | _ => fun user => user

@[simp] theorem edit_id (change : UserChange) (user : UserRecord) :
    (change.edit user).id = user.id := by
  cases change <;> rfl

theorem of_edited {result : Option UserRecord}
    (h : edited users user_id f = .ok (users', result)) :
    ∃ updated, mutate users user_id f = .ok (users', updated) := by
  unfold edited at h
  cases hm : mutate users user_id f with
  | error e =>
    rw [hm] at h
    cases h
  | ok pair =>
    rw [hm] at h
    cases h
    exact ⟨pair.2, rfl⟩

/-- All that a change can do: append a new record, replace the first record of an id or remove
the records of an id. -/
theorem apply_cases {change : UserChange} {result : Option UserRecord}
    (h : change.apply id users = .ok (users', result)) :
    (∃ new, change = .create new ∧ users' = users ++ [new.record id]) ∨
    (∃ user_id updated, change.target = some user_id ∧
      mutate users user_id change.edit = .ok (users', updated)) ∨
    ∃ user_id, change = .delete user_id ∧
      users' = users.filter fun user => user.id ≠ user_id := by
  cases change with
  | create new =>
    simp only [UserChange.apply] at h
    split at h
    · cases h
    · obtain ⟨rfl, -⟩ := Prod.mk.inj (Except.ok.inj h)
      exact .inl ⟨new, rfl, rfl⟩
  | delete user_id =>
    simp only [UserChange.apply] at h
    split at h
    · cases h
    · obtain ⟨rfl, -⟩ := Prod.mk.inj (Except.ok.inj h)
      exact .inr (.inr ⟨user_id, rfl, rfl⟩)
  | password user_id password_hash at_ =>
    obtain ⟨updated, hm⟩ := of_edited h
    exact .inr (.inl ⟨user_id, updated, rfl, hm⟩)
  | roles user_id granted =>
    obtain ⟨updated, hm⟩ := of_edited h
    exact .inr (.inl ⟨user_id, updated, rfl, hm⟩)
  | disabled user_id now =>
    obtain ⟨updated, hm⟩ := of_edited h
    exact .inr (.inl ⟨user_id, updated, rfl, hm⟩)
  | name user_id text =>
    obtain ⟨updated, hm⟩ := of_edited h
    exact .inr (.inl ⟨user_id, updated, rfl, hm⟩)

end Changes

/-! ## Stores that answer -/

/-- The two files and the ids drawn so far, where an id is a count and a hash is the text behind
one letter. -/
structure Desk where
  users : List UserRecord
  sessions : List SessionRecord
  ids : List String
  deriving DecidableEq

namespace Desk

def stores (d : Desk) : Stores := ⟨d.users, d.sessions, fun x => x ∈ d.ids⟩

def verify_password (stored password : String) : Bool := stored = "h" ++ password

def serve (o : Auth.Op) (d : Desk) : Auth.Reply o × Desk :=
  match o with
  | .check_backoff _ => (false, d)
  | .record_failure _ | .clear_failures _ | .respond => ((), d)
  | .time => (0, d)
  | .utcnow => ("2026-01-01T00:00:00+00:00", d)
  | .token_urlsafe => (toString d.sessions.length, d)
  | .hash_password password => ("h" ++ password, d)
  | .verify_password stored password => (verify_password stored password, d)
  | .load_users => (d.users, d)
  | .change_users change =>
    let id := toString d.ids.length
    if id ∈ d.ids then (.error (no_user id), d)
    else match change.apply id d.users with
      | .ok (users, updated) => (.ok updated, { d with users := users, ids := d.ids ++ [id] })
      | .error e => (.error e, d)
  | .change_sessions change => ((), { d with sessions := change.apply d.sessions })

theorem storeWorld_serve (o : Auth.Op) (d : Desk) :
    storeWorld verify_password o d.stores (serve o d).1 (serve o d).2.stores := by
  cases o with
  | load_users | verify_password => exact ⟨rfl, rfl⟩
  | change_sessions => rfl
  | check_backoff | record_failure | clear_failures | time | utcnow | token_urlsafe
  | hash_password | respond => rfl
  | change_users change =>
    simp only [serve]
    split
    · exact .inr ⟨⟨_, rfl⟩, rfl⟩
    · next hnew =>
      cases happly : change.apply (toString d.ids.length) d.users with
      | error e => exact .inr ⟨⟨e, rfl⟩, rfl⟩
      | ok result =>
        refine .inl ⟨_, result.1, result.2, hnew, happly, rfl, ?_⟩
        simp [stores]

end Desk

end UserAccounts
