import Odooctl.AccessControl
import Odooctl.BackupSelection

/-!
# The file of the user store

`UserRecord` and the writes of `UserStore` in `security/users.py`, on `users.json` as it is read
and written. A call holds the lock of the store from its read to its write. What it draws and
reads besides, and the faults it meets, come with the call.
-/
namespace UserStore

open AccessControl PythonJson PythonText
open BackupSelection (attribute_error reprJson truthy)

/-! ## Records -/

structure UserRecord where
  id : String
  email : String
  name : String := ""
  org_id : String := "default"
  roles : List String := []
  password_hash : String := ""
  provider : String := "password"
  provider_subject : String := ""
  disabled : Bool := false
  created_at : String := ""
  password_updated_at : String := ""
  deriving DecidableEq, Repr

def UserRecord.to_dict (user : UserRecord) : Items :=
  [("id", .str user.id), ("email", .str user.email), ("name", .str user.name),
    ("org_id", .str user.org_id), ("roles", .list (user.roles.map Json.str)),
    ("password_hash", .str user.password_hash), ("provider", .str user.provider),
    ("provider_subject", .str user.provider_subject), ("disabled", .bool user.disabled),
    ("created_at", .str user.created_at), ("password_updated_at", .str user.password_updated_at)]

/-- `str(value)`. -/
def text : Json → String
  | .str s => s
  | value => reprJson value

/-- `str(d.get(key, default))`. -/
def textOr (d : Items) (key default_ : String) : String := ((get d key).map text).getD default_

/-- What a loop over the value yields; `None` where it cannot be iterated. -/
def iterate : Json → Option (List Json)
  | .list items => some items
  | .str s => some (s.toList.map fun c => .str (String.singleton c))
  | .dict items => some (items.map fun item => .str item.1)
  | _ => none

def not_iterable (value : Json) : String :=
  let type := match value with
    | .null => "NoneType"
    | .bool _ => "bool"
    | .int _ => "int"
    | .float _ => "float"
    | _ => "object"
  s!"'{type}' object is not iterable"

/-- `None` where a `KeyError` or a `TypeError` is raised. -/
def UserRecord.from_dict : Json → Option UserRecord
  | .dict d => do
    let id ← get d "id"
    let email ← get d "email"
    let roles ← iterate ((get d "roles").getD (.list []))
    return {
      id := text id
      email := text email
      name := textOr d "name" ""
      org_id := textOr d "org_id" "default"
      roles := roles.map text
      password_hash := textOr d "password_hash" ""
      provider := textOr d "provider" "password"
      provider_subject := textOr d "provider_subject" ""
      disabled := truthy ((get d "disabled").getD (.bool false))
      created_at := textOr d "created_at" ""
      password_updated_at := textOr d "password_updated_at" "" }
  | _ => none

/-! ## The file -/

inductive StoreFailure where
  | value (message : String)
  | user_exists (message : String)
  | user_not_found (message : String)
  | attribute (message : String)
  | type (message : String)
  | os (message : String)
  deriving DecidableEq, Repr

/-- Any content, or what `_write` has written. -/
inductive UsersFile where
  | content (text : String)
  | written (users : List UserRecord)
  deriving DecidableEq, Repr

def document (users : List UserRecord) : Json :=
  .dict [("users", .list (users.map fun user => .dict user.to_dict))]

section Store

-- `json.loads`, `None` where it raises a `ValueError`
variable (loads : String → Option Json)

def UsersFile.load : UsersFile → Option Json
  | .content text => loads text
  | .written users => some (document users)

/-- `_load`; `unreadable` says that the read fails with an `OSError`. -/
def _load (unreadable : Bool) : Option UsersFile → Except StoreFailure (List UserRecord)
  | none => .ok []
  | some file =>
    if unreadable then .ok []
    else
      match file.load loads with
      | none => .ok []
      | some (.dict data) =>
        let users := (get data "users").getD (.list [])
        match iterate users with
        | some raws => .ok (raws.filterMap UserRecord.from_dict)
        | none => .error (.type (not_iterable users))
      | some value => .error (.attribute (attribute_error value))

/-! ## Calls -/

/-- `str.strip`, `str.lower` and what `\s` matches. -/
structure Texts where
  strip : String → String
  lower : String → String
  isSpace : Char → Bool

variable (t : Texts)

/-- `_EMAIL_RE.match(email)`, of a text that does not end in a newline. -/
def matches_email (email : String) : Bool :=
  let cs := email.toList
  let user := cs.takeWhile (· ≠ '@')
  let domain := (cs.dropWhile (· ≠ '@')).drop 1
  user ≠ [] && cs.contains '@' && (user ++ domain).all (fun c => c ≠ '@' && !t.isSpace c) &&
    (domain.drop 1).dropLast.contains '.'

def normalize_email (email : String) : Except StoreFailure String :=
  let email := t.lower (t.strip email)
  if matches_email t email then .ok email
  else .error (.value s!"Not a valid email address: {quoted email}")

def MIN_PASSWORD_LENGTH : ℕ := 8

def validate_password (password : String) : Except StoreFailure Unit :=
  if password.length < MIN_PASSWORD_LENGTH then
    .error (.value s!"Password must be at least {MIN_PASSWORD_LENGTH} characters")
  else .ok ()

/-- `Role(r).value`. -/
def role_value (role : String) : Except StoreFailure String :=
  match Role.parse role with
  | some role => .ok role.value
  | none => .error (.value s!"{quoted role} is not a valid Role")

inductive UserCall where
  | create (email password : String) (roles : List String) (name org_id : String)
  | set_password (user_id password : String)
  | set_roles (user_id : String) (roles : List String)
  | set_disabled (user_id : String) (disabled : Bool)
  | set_name (user_id name : String)
  | delete (user_id : String)
  deriving DecidableEq, Repr

/-- What a call draws and reads, and the faults of its read and of its write. -/
structure Circumstances where
  token : String
  hash_password : String → String
  created_at : String
  password_updated_at : String
  unreadable : Bool
  write_fault : Option String

/-- The keyword arguments of `_mutate`. -/
structure Changes where
  name : Option String := none
  roles : Option (List String) := none
  password_hash : Option String := none
  disabled : Option Bool := none
  password_updated_at : Option String := none
  deriving DecidableEq

/-- `replace(user, **changes)`. -/
def replace (user : UserRecord) (changes : Changes) : UserRecord :=
  { user with
    name := changes.name.getD user.name
    roles := changes.roles.getD user.roles
    password_hash := changes.password_hash.getD user.password_hash
    disabled := changes.disabled.getD user.disabled
    password_updated_at := changes.password_updated_at.getD user.password_updated_at }

/-- A call whose arguments are checked. -/
inductive Request where
  | create (record : UserRecord)
  | mutate (user_id : String) (changes : Changes)
  | delete (user_id : String)
  deriving DecidableEq

/-- The account that a request is about. -/
def Request.own : Request → String
  | .create record => record.id
  | .mutate user_id _ | .delete user_id => user_id

def UserCall.request (c : Circumstances) : UserCall → Except StoreFailure Request
  | .create email password roles name org_id => do
    let email ← normalize_email t email
    validate_password password
    let roles ← roles.mapM role_value
    return .create {
      id := "u-" ++ c.token
      email, name, org_id, roles
      password_hash := c.hash_password password
      created_at := c.created_at
      password_updated_at := c.password_updated_at }
  | .set_password user_id password => do
    validate_password password
    return .mutate user_id {
      password_hash := some (c.hash_password password)
      password_updated_at := some c.password_updated_at }
  | .set_roles user_id roles => do
    let roles ← roles.mapM role_value
    return .mutate user_id { roles := some roles }
  | .set_disabled user_id disabled => return .mutate user_id { disabled := some disabled }
  | .set_name user_id name => return .mutate user_id { name := some name }
  | .delete user_id => return .delete user_id

def no_user (user_id : String) : StoreFailure :=
  .user_not_found s!"No user with id {quoted user_id}"

/-- The loop of `_mutate`: the first record with the id is replaced. -/
def _mutate (user_id : String) (changes : Changes) :
    List UserRecord → Except StoreFailure (List UserRecord × UserRecord)
  | [] => .error (no_user user_id)
  | user :: rest =>
    if user.id = user_id then .ok (replace user changes :: rest, replace user changes)
    else do
      let (rest, updated) ← _mutate user_id changes rest
      return (user :: rest, updated)

/-- The users that are written and the record that is returned. -/
def Request.apply (users : List UserRecord) :
    Request → Except StoreFailure (List UserRecord × Option UserRecord)
  | .create record =>
    if users.any fun user => user.email = record.email then
      .error (.user_exists s!"A user with email {quoted record.email} already exists")
    else .ok (users ++ [record], some record)
  | .mutate user_id changes => do
    let (users, updated) ← _mutate user_id changes users
    return (users, some updated)
  | .delete user_id =>
    let remaining := users.filter fun user => user.id ≠ user_id
    if remaining.length = users.length then .error (no_user user_id)
    else .ok (remaining, none)

/-- What a call returns or raises, and the file after it. -/
def perform (c : Circumstances) (call : UserCall) (file : Option UsersFile) :
    Except StoreFailure (Option UserRecord) × Option UsersFile :=
  let outcome := do
    let request ← call.request t c
    let users ← _load loads c.unreadable file
    request.apply users
  match outcome, c.write_fault with
  | .error e, _ => (.error e, file)
  | .ok _, some fault => (.error (.os fault), file)
  | .ok (users, result), none => (.ok result, some (.written users))

/-! ## What a call leaves alone -/

/-- The records that a file holds; `None` where this cannot be told. -/
def stored : Option UsersFile → Option (List Json)
  | none => some []
  | some file =>
    match file.load loads with
    | some (.dict data) => iterate ((get data "users").getD (.list []))
    | _ => none

def idOf : Json → Option String
  | .dict d => (get d "id").map text
  | _ => none

def isForeign (own : String) (raw : Json) : Bool := idOf raw ≠ some own

/-- The same keys with the same values. -/
def SameRecord (raw raw' : Json) : Prop :=
  ∃ d d', raw = .dict d ∧ raw' = .dict d' ∧ ∀ key, get d key = get d' key

/-- All records but the own ones are as they were. -/
def Kept (own : String) (file file' : Option UsersFile) : Prop :=
  ∃ before after, stored loads file = some before ∧ stored loads file' = some after ∧
    List.Forall₂ SameRecord (before.filter (isForeign own)) (after.filter (isForeign own))

/-- A call raises and leaves the file, or changes only the record of its own user id. -/
def Framed (c : Circumstances) (call : UserCall) (file : Option UsersFile) : Prop :=
  (∀ e, (perform loads t c call file).1 = .error e → (perform loads t c call file).2 = file) ∧
    ∀ result request, (perform loads t c call file).1 = .ok result →
      call.request t c = .ok request → Kept loads request.own file (perform loads t c call file).2

/-! ## When it does -/

/-- The record that `_load` makes of it is stored like it. -/
def Canonical (raw : Json) : Prop :=
  ∃ user, UserRecord.from_dict raw = some user ∧ SameRecord raw (.dict user.to_dict)

def Request.Rejected (users : List UserRecord) : Request → Prop
  | .create record => ∃ user ∈ users, user.email = record.email
  | .mutate user_id _ | .delete user_id => ∀ user ∈ users, user.id ≠ user_id

/-- The checks refuse the call on this file, or its write fails. -/
def Refused (c : Circumstances) (request : Request) (file : Option UsersFile) : Prop :=
  c.write_fault ≠ none ∨ ∀ users, _load loads c.unreadable file = .ok users →
    request.Rejected users

/-- The file could be read, and its other records are canonical. -/
def Recoverable (c : Circumstances) (own : String) (file : Option UsersFile) : Prop :=
  ∃ raws, stored loads file = some raws ∧
    ∀ raw ∈ raws, isForeign own raw = true → c.unreadable = false ∧ Canonical raw

def Safe (c : Circumstances) (call : UserCall) (file : Option UsersFile) : Prop :=
  ∀ request, call.request t c = .ok request →
    Refused loads c request file ∨ Recoverable loads c request.own file

/-- Every call of a sequence meets the condition on the file that it finds. -/
def Along (P : Circumstances → UserCall → Option UsersFile → Prop) :
    List (Circumstances × UserCall) → Option UsersFile → Prop
  | [], _ => True
  | (c, call) :: calls, file => P c call file ∧ Along P calls (perform loads t c call file).2

end Store

/-! ## Records -/

section Records

variable {own : String} {raw raw' : Json} {user : UserRecord}

theorem idOf_from_dict (h : UserRecord.from_dict raw = some user) : idOf raw = some user.id := by
  cases raw with
  | dict d =>
    simp only [UserRecord.from_dict, Option.bind_eq_bind, Option.bind_eq_some_iff] at h
    obtain ⟨id, hid, email, -, roles, -, h⟩ := h
    obtain rfl := Option.some.inj h
    rw [idOf, hid]
    rfl
  | null | bool b | int i | float s | str s | list l => cases h

theorem from_dict_to_dict (user : UserRecord) :
    UserRecord.from_dict (.dict user.to_dict) = some user := by
  have hroles : (user.roles.map Json.str).map text = user.roles := by
    rw [List.map_map]
    exact List.map_id user.roles
  calc UserRecord.from_dict (.dict user.to_dict)
      = some { user with roles := (user.roles.map Json.str).map text } := rfl
    _ = some user := by rw [hroles]

theorem idOf_to_dict (user : UserRecord) : idOf (.dict user.to_dict) = some user.id := rfl

theorem canonical_to_dict (user : UserRecord) : Canonical (.dict user.to_dict) :=
  ⟨user, from_dict_to_dict user, _, _, rfl, rfl, fun _ => rfl⟩

/-- All records survive the read and the write exactly where all are canonical. -/
theorem forall₂_canonical_iff (raws : List Json) :
    List.Forall₂ SameRecord raws
        ((raws.filterMap UserRecord.from_dict).map fun user => .dict user.to_dict) ↔
      ∀ raw ∈ raws, Canonical raw := by
  induction raws with
  | nil => exact ⟨fun _ raw hraw => absurd hraw List.not_mem_nil, fun _ => .nil⟩
  | cons raw raws ih =>
    rw [List.forall_mem_cons]
    cases hraw : UserRecord.from_dict raw with
    | none =>
      rw [List.filterMap_cons_none hraw]
      constructor
      · intro h
        have hlength := h.length_eq
        have hle := List.length_filterMap_le UserRecord.from_dict raws
        rw [List.length_map, List.length_cons] at hlength
        omega
      · rintro ⟨⟨user, huser, -⟩, -⟩
        rw [hraw] at huser
        cases huser
    | some user =>
      rw [List.filterMap_cons_some hraw, List.map_cons, List.forall₂_cons, ih]
      refine and_congr_left fun _ => ⟨fun hsame => ⟨user, hraw, hsame⟩, ?_⟩
      rintro ⟨other, hother, hsame⟩
      obtain rfl := Option.some.inj (hraw.symm.trans hother)
      exact hsame

theorem isForeign_from_dict (h : UserRecord.from_dict raw = some user) :
    isForeign own raw = decide (user.id ≠ own) := by
  rw [isForeign, idOf_from_dict h]
  simp

/-- The other users are those of the other records. -/
theorem filter_from_dict (own : String) (raws : List Json) :
    (raws.filterMap UserRecord.from_dict).filter (fun user => user.id ≠ own) =
      (raws.filter (isForeign own)).filterMap UserRecord.from_dict := by
  induction raws with
  | nil => rfl
  | cons raw raws ih =>
    rw [List.filter_cons]
    cases hraw : UserRecord.from_dict raw with
    | none =>
      rw [List.filterMap_cons_none hraw, ih]
      split
      · rw [List.filterMap_cons_none hraw]
      · rfl
    | some user =>
      rw [List.filterMap_cons_some hraw, List.filter_cons, isForeign_from_dict hraw, ih]
      split
      · rw [List.filterMap_cons_some hraw]
      · rfl

/-- What `_write` stores of the users of the others. -/
theorem filter_to_dict (own : String) (users : List UserRecord) :
    (users.map fun user => Json.dict user.to_dict).filter (isForeign own) =
      (users.filter fun user => user.id ≠ own).map fun user => .dict user.to_dict := by
  rw [List.filter_map]
  congr 2
  funext user
  exact isForeign_from_dict (from_dict_to_dict user)

end Records

/-! ## Requests -/

section Requests

variable {users users' : List UserRecord} {request : Request} {result : Option UserRecord}

theorem mutate_error {user_id : String} {changes : Changes}
    (h : ∀ user ∈ users, user.id ≠ user_id) :
    _mutate user_id changes users = .error (no_user user_id) := by
  induction users with
  | nil => rfl
  | cons user users ih =>
    obtain ⟨huser, hrest⟩ := List.forall_mem_cons.mp h
    rw [_mutate, if_neg huser, ih hrest]
    rfl

/-- The first record with the id is replaced, and the others stay. -/
theorem mutate_ok {user_id : String} (changes : Changes) (h : ∃ user ∈ users, user.id = user_id) :
    ∃ users' updated, _mutate user_id changes users = .ok (users', updated) ∧
      users'.filter (fun user => user.id ≠ user_id) =
        users.filter fun user => user.id ≠ user_id := by
  induction users with
  | nil =>
    obtain ⟨user, huser, -⟩ := h
    cases huser
  | cons user users ih =>
    by_cases hid : user.id = user_id
    · refine ⟨_, _, by rw [_mutate, if_pos hid], ?_⟩
      have hreplaced : (replace user changes).id = user_id := hid
      rw [List.filter_cons_of_neg (by simpa using hreplaced),
        List.filter_cons_of_neg (by simpa using hid)]
    · obtain ⟨other, hother, heq⟩ := h
      rcases List.mem_cons.mp hother with rfl | hother
      · exact absurd heq hid
      · obtain ⟨users', updated, hrest, hsame⟩ := ih ⟨other, hother, heq⟩
        refine ⟨user :: users', updated, ?_, ?_⟩
        · rw [_mutate, if_neg hid, hrest]
          rfl
        · rw [List.filter_cons, List.filter_cons, hsame]

theorem apply_rejected (h : request.Rejected users) :
    ∃ e, request.apply users = .error e := by
  cases request with
  | create record =>
    obtain ⟨user, huser, hemail⟩ := h
    refine ⟨_, if_pos ?_⟩
    exact List.any_eq_true.mpr ⟨user, huser, decide_eq_true hemail⟩
  | mutate user_id changes => exact ⟨_, by rw [Request.apply, mutate_error h]; rfl⟩
  | delete user_id =>
    refine ⟨_, if_pos ?_⟩
    rw [List.filter_eq_self.mpr fun user huser => decide_eq_true (h user huser)]

theorem apply_accepted (h : ¬ request.Rejected users) :
    ∃ users' result, request.apply users = .ok (users', result) ∧
      users'.filter (fun user => user.id ≠ request.own) =
        users.filter fun user => user.id ≠ request.own := by
  cases request with
  | create record =>
    refine ⟨users ++ [record], some record, if_neg ?_, ?_⟩
    · intro hany
      obtain ⟨user, huser, hemail⟩ := List.any_eq_true.mp hany
      exact h ⟨user, huser, of_decide_eq_true hemail⟩
    · rw [List.filter_append, List.filter_cons_of_neg (by simp [Request.own]), List.filter_nil,
        List.append_nil]
  | mutate user_id changes =>
    have hexists : ∃ user ∈ users, user.id = user_id := by
      by_contra hnone
      exact h fun user huser heq => hnone ⟨user, huser, heq⟩
    obtain ⟨users', updated, hrun, hsame⟩ := mutate_ok changes hexists
    exact ⟨users', some updated, by rw [Request.apply, hrun]; rfl, hsame⟩
  | delete user_id =>
    refine ⟨users.filter fun user => user.id ≠ user_id, none, if_neg ?_, ?_⟩
    · intro hlength
      refine h fun user huser => ?_
      exact of_decide_eq_true (List.length_filter_eq_length_iff.mp hlength user huser)
    · rw [List.filter_filter]
      exact List.filter_congr fun user _ => Bool.and_self _

end Requests

/-! ## Every call of a sequence -/

section Calls

variable {loads : String → Option Json} {t : Texts} {c : Circumstances} {call : UserCall}
  {file : Option UsersFile} {request : Request}

theorem perform_request (hrequest : call.request t c = .ok request) :
    perform loads t c call file =
      match _load loads c.unreadable file >>= fun users => request.apply users, c.write_fault with
      | .error e, _ => (.error e, file)
      | .ok _, some fault => (.error (.os fault), file)
      | .ok (users, result), none => (.ok result, some (.written users)) := by
  rw [perform, hrequest]
  rfl

theorem perform_refused (hrequest : call.request t c = .ok request)
    (h : Refused loads c request file) :
    ∃ e, perform loads t c call file = (.error e, file) := by
  rw [perform_request hrequest]
  cases houtcome : _load loads c.unreadable file >>= fun users => request.apply users with
  | error e => exact ⟨e, rfl⟩
  | ok outcome =>
    obtain ⟨users, hload, happly⟩ := CheckedLists.bind_eq_ok.mp houtcome
    rcases h with hfault | hrejected
    · obtain ⟨fault, hfault⟩ := Option.ne_none_iff_exists'.mp hfault
      exact ⟨.os fault, by rw [hfault]⟩
    · obtain ⟨e, he⟩ := apply_rejected (hrejected users hload)
      rw [he] at happly
      cases happly

theorem perform_accepted (hrequest : call.request t c = .ok request)
    (h : ¬ Refused loads c request file) :
    ∃ users users' result, _load loads c.unreadable file = .ok users ∧
      perform loads t c call file = (.ok result, some (.written users')) ∧
      users'.filter (fun user => user.id ≠ request.own) =
        users.filter fun user => user.id ≠ request.own := by
  obtain ⟨hfault, hload⟩ := not_or.mp h
  simp only [not_forall] at hload
  obtain ⟨users, hload, hrejected⟩ := hload
  obtain ⟨users', result, happly, hothers⟩ := apply_accepted hrejected
  refine ⟨users, users', result, hload, ?_, hothers⟩
  have houtcome : (_load loads c.unreadable file >>= fun users => request.apply users) =
      .ok (users', result) := by
    rw [hload]
    exact happly
  rw [perform_request hrequest, houtcome, not_not.mp hfault]

theorem stored_written (users : List UserRecord) :
    stored loads (some (.written users)) = some (users.map fun user => .dict user.to_dict) := rfl

/-- What `_load` makes of the records that are stored. -/
theorem load_eq {users : List UserRecord} (h : _load loads c.unreadable file = .ok users) :
    (c.unreadable = true ∧ users = []) ∨
      (c.unreadable = false ∧ stored loads file = none) ∨
      ∃ raws, stored loads file = some raws ∧ users = raws.filterMap UserRecord.from_dict ∧
        (raws = [] ∨ c.unreadable = false) := by
  cases file with
  | none => exact Or.inr (Or.inr ⟨[], rfl, (Except.ok.inj h).symm, Or.inl rfl⟩)
  | some file =>
    rw [_load] at h
    cases hunreadable : c.unreadable with
    | true =>
      rw [hunreadable] at h
      exact Or.inl ⟨rfl, (Except.ok.inj h).symm⟩
    | false =>
      rw [hunreadable, if_neg Bool.false_ne_true] at h
      cases hfile : file.load loads with
      | none => exact Or.inr (Or.inl ⟨rfl, by rw [stored, hfile]⟩)
      | some document =>
        rw [hfile] at h
        cases document with
        | dict data =>
          simp only at h
          cases hraws : iterate ((PythonJson.get data "users").getD (.list [])) with
          | none =>
            rw [hraws] at h
            cases h
          | some raws =>
            rw [hraws] at h
            refine Or.inr (Or.inr ⟨raws, ?_, (Except.ok.inj h).symm, Or.inr rfl⟩)
            rw [stored, hfile]
            exact hraws
        | null | bool b | int i | float s | str s | list l => cases h

theorem kept_iff_recoverable {users users' : List UserRecord} {own : String}
    (hload : _load loads c.unreadable file = .ok users)
    (hothers : users'.filter (fun user => user.id ≠ own) = users.filter fun user => user.id ≠ own) :
    Kept loads own file (some (.written users')) ↔ Recoverable loads c own file := by
  have hkept : Kept loads own file (some (.written users')) ↔ ∃ before,
      stored loads file = some before ∧ List.Forall₂ SameRecord (before.filter (isForeign own))
        ((users.filter fun user => user.id ≠ own).map fun user => .dict user.to_dict) := by
    simp only [Kept, stored_written, Option.some.injEq, exists_and_left, exists_eq_left',
      filter_to_dict, hothers]
  rw [hkept]
  refine exists_congr fun raws => and_congr_right fun hraws => ?_
  rcases load_eq hload with ⟨hunreadable, rfl⟩ | ⟨-, hnone⟩ | ⟨raws', hraws', rfl, hread⟩
  · -- nothing was read, and nothing but the own record is written
    rw [List.filter_nil, List.map_nil, List.forall₂_nil_right_iff, List.filter_eq_nil_iff]
    refine forall₂_congr fun raw _ => ?_
    rw [hunreadable]
    simp
  · rw [hnone] at hraws
    cases hraws
  · obtain rfl := Option.some.inj (hraws.symm.trans hraws')
    rw [filter_from_dict, forall₂_canonical_iff]
    constructor
    · intro h raw hraw hforeign
      rcases hread with rfl | hread
      · cases hraw
      · exact ⟨hread, h raw (List.mem_filter.mpr ⟨hraw, hforeign⟩)⟩
    · intro h raw hraw
      obtain ⟨hraw, hforeign⟩ := List.mem_filter.mp hraw
      exact (h raw hraw hforeign).2

/-- A call is framed exactly where it is refused or finds a file whose other records it can read
and write as they are. -/
theorem framed_iff_safe : Framed loads t c call file ↔ Safe loads t c call file := by
  cases hrequest : call.request t c with
  | error e =>
    have hraised : perform loads t c call file = (.error e, file) := by
      rw [perform, hrequest]
      rfl
    constructor
    · intro _ request h
      rw [hrequest] at h
      cases h
    · intro _
      rw [Framed, hraised]
      exact ⟨fun _ _ => rfl, fun _ _ h => (by cases h)⟩
  | ok request =>
    by_cases hrefused : Refused loads c request file
    · obtain ⟨e, hraised⟩ := perform_refused hrequest hrefused
      rw [Framed, hraised]
      constructor
      · intro _ other hother
        obtain rfl := Except.ok.inj (hrequest.symm.trans hother)
        exact Or.inl hrefused
      · exact fun _ => ⟨fun _ _ => rfl, fun _ _ h => (by cases h)⟩
    · obtain ⟨users, users', result, hload, hdone, hothers⟩ :=
        perform_accepted hrequest hrefused
      have hiff := kept_iff_recoverable hload hothers
      rw [Framed, hdone]
      constructor
      · intro h other hother
        obtain rfl := Except.ok.inj (hrequest.symm.trans hother)
        exact Or.inr (hiff.mp (h.2 result request rfl hrequest))
      · intro h
        refine ⟨fun _ h => (by cases h), fun _ other _ hother => ?_⟩
        obtain rfl := Except.ok.inj (hrequest.symm.trans hother)
        exact hiff.mpr ((h request hrequest).resolve_left hrefused)

/-- Every call of a sequence is framed exactly where each meets the condition on the file that it
finds. -/
theorem calls_framed_iff (loads : String → Option Json) (t : Texts)
    (calls : List (Circumstances × UserCall)) (file : Option UsersFile) :
    Along loads t (Framed loads t) calls file ↔ Along loads t (Safe loads t) calls file := by
  induction calls generalizing file with
  | nil => exact Iff.rfl
  | cons step calls ih => exact and_congr framed_iff_safe (ih _)

/-! ## A file that the store has written -/

/-- All records of the file are canonical, as after every write. -/
def Settled (loads : String → Option Json) (file : Option UsersFile) : Prop :=
  ∃ raws, stored loads file = some raws ∧ ∀ raw ∈ raws, Canonical raw

theorem settled_written (users : List UserRecord) : Settled loads (some (.written users)) :=
  ⟨_, rfl, List.forall_mem_map.mpr fun user _ => canonical_to_dict user⟩

theorem perform_settled (h : Settled loads file) :
    Settled loads (perform loads t c call file).2 := by
  cases hrequest : call.request t c with
  | error e =>
    rw [perform, hrequest]
    exact h
  | ok request =>
    by_cases hrefused : Refused loads c request file
    · obtain ⟨e, hraised⟩ := perform_refused hrequest hrefused
      rw [hraised]
      exact h
    · obtain ⟨users, users', result, -, hdone, -⟩ := perform_accepted hrequest hrefused
      rw [hdone]
      exact settled_written users'

/-- From a file without foreign content no call loses an account, as long as it can be read. -/
theorem calls_framed_of_settled {calls : List (Circumstances × UserCall)} (h : Settled loads file)
    (hread : ∀ step ∈ calls, step.1.unreadable = false) :
    Along loads t (Framed loads t) calls file := by
  induction calls generalizing file with
  | nil => trivial
  | cons step calls ih =>
    obtain ⟨hstep, hrest⟩ := List.forall_mem_cons.mp hread
    refine ⟨framed_iff_safe.mpr fun request _ => Or.inr ?_, ih (perform_settled h) hrest⟩
    obtain ⟨raws, hraws, hcanonical⟩ := h
    exact ⟨raws, hraws, fun raw hraw _ => ⟨hstep, hcanonical raw hraw⟩⟩

end Calls

/-! ## A read that fails -/

def alice : UserRecord where
  id := "u-0011223344556677"
  email := "alice@acme.org"
  roles := ["owner"]

def asciiTexts : Texts := ⟨fun s => s, String.toLower, fun c => c = ' '⟩

def unreadableOnce : Circumstances where
  token := "8899aabbccddeeff"
  hash_password := fun _ => "scrypt$16384$8$1$00$00"
  created_at := "2026-03-01T12:00:00+00:00"
  password_updated_at := "2026-03-01T12:00:00+00:00"
  unreadable := true
  write_fault := none

def createBob : UserCall := .create "bob@acme.org" "hunter22" ["viewer"] "" "default"

def bob : UserRecord where
  id := "u-8899aabbccddeeff"
  email := "bob@acme.org"
  roles := ["viewer"]
  password_hash := "scrypt$16384$8$1$00$00"
  created_at := "2026-03-01T12:00:00+00:00"
  password_updated_at := "2026-03-01T12:00:00+00:00"

/-- The account that was there is not in the file any more. -/
theorem unreadable_file_overwritten :
    perform (fun _ => none) asciiTexts unreadableOnce createBob (some (.written [alice])) =
        (.ok (some bob), some (.written [bob])) ∧
      ¬ Along (fun _ => none) asciiTexts (Framed (fun _ => none) asciiTexts)
        [(unreadableOnce, createBob)] (some (.written [alice])) := by
  refine ⟨by decide +kernel, fun h => ?_⟩
  have hrequest : createBob.request asciiTexts unreadableOnce = .ok (.create bob) := by
    decide +kernel
  rcases framed_iff_safe.mp h.1 _ hrequest with (hfault | hrejected) | ⟨raws, hraws, hothers⟩
  · exact hfault rfl
  · obtain ⟨user, huser, -⟩ := hrejected [] rfl
    cases huser
  · obtain rfl := Option.some.inj hraws
    have hread := (hothers _ List.mem_cons_self (by decide +kernel)).1
    cases hread

end UserStore
