import Mathlib.Data.List.Basic
import Odooctl.PythonJson

/-!
# Roles and what they may do

`security/rbac.py` and `security/principals.py`: the matrix of roles and actions, the floor
on protected environments and the principal a token names.
-/
namespace AccessControl

open PythonJson

inductive Role where
  | owner
  | admin
  | operator
  | viewer
  deriving DecidableEq, Repr

def Role.value : Role → String
  | .owner => "owner"
  | .admin => "admin"
  | .operator => "operator"
  | .viewer => "viewer"

/-- `Role(text)`; `none` where it raises. -/
def Role.parse (text : String) : Option Role :=
  [Role.owner, .admin, .operator, .viewer].find? fun role => role.value = text

@[simp] theorem Role.parse_value (role : Role) : Role.parse role.value = some role := by
  cases role <;> decide

def role_rank : Role → ℕ
  | .viewer => 0
  | .operator => 1
  | .admin => 2
  | .owner => 3

inductive Action where
  | read
  | status
  | logs
  | backups
  | operations
  | audit
  | backup
  | deploy
  | clone
  | restore
  | promote
  | env
  | secrets
  | cancel
  | users
  deriving DecidableEq, Repr

def Action.value : Action → String
  | .read => "read"
  | .status => "status"
  | .logs => "logs"
  | .backups => "backups"
  | .operations => "operations"
  | .audit => "audit"
  | .backup => "backup"
  | .deploy => "deploy"
  | .clone => "clone"
  | .restore => "restore"
  | .promote => "promote"
  | .env => "env"
  | .secrets => "secrets"
  | .cancel => "cancel"
  | .users => "users"

def READ_ACTIONS : List Action := [.read, .status, .logs, .backups, .operations, .audit]

def WRITE_ACTIONS : List Action :=
  [.backup, .deploy, .clone, .restore, .promote, .env, .secrets, .cancel, .users]

def DESTRUCTIVE_ON_PROTECTED : List Action :=
  [.deploy, .clone, .restore, .promote, .env, .secrets]

def PROTECTED_FLOOR : Role := .admin

def ROLE_ACTIONS : Role → List Action
  | .viewer => READ_ACTIONS
  | .operator => READ_ACTIONS ++ [.backup, .deploy, .clone, .restore, .cancel]
  | .admin => READ_ACTIONS ++ WRITE_ACTIONS
  | .owner => READ_ACTIONS ++ WRITE_ACTIONS

inductive PrincipalKind where
  | user
  | service
  | token
  deriving DecidableEq, Repr

/-- The roles are those of a set: their order and repetition do not matter. -/
structure Principal where
  id : String
  kind : PrincipalKind
  roles : List Role
  deriving DecidableEq, Repr

def roles_allow (principal : Principal) (action : Action) : Bool :=
  principal.roles.any fun role => action ∈ ROLE_ACTIONS role

def has_at_least (principal : Principal) (floor : Role) : Bool :=
  principal.roles.any fun role => role_rank role ≥ role_rank floor

inductive AccessDenied where
  | lacksAction
  | protectedFloor
  deriving DecidableEq, Repr

def require (principal : Principal) (action : Action) (guarded : Bool) : Except AccessDenied Unit :=
  if roles_allow principal action = false then .error .lacksAction
  else if guarded ∧ action ∈ DESTRUCTIVE_ON_PROTECTED ∧
      has_at_least principal PROTECTED_FLOOR = false then .error .protectedFloor
  else .ok ()

/-- Only the roles of a principal decide. -/
theorem require_congr {p q : Principal} (h : ∀ role, role ∈ p.roles ↔ role ∈ q.roles)
    (action : Action) (guarded : Bool) : require p action guarded = require q action guarded := by
  have hany : ∀ f : Role → Bool, p.roles.any f = q.roles.any f := by
    intro f
    rw [Bool.eq_iff_iff, List.any_eq_true, List.any_eq_true]
    simp only [h]
  have hallow : roles_allow p action = roles_allow q action := hany _
  have hfloor : has_at_least p PROTECTED_FLOOR = has_at_least q PROTECTED_FLOOR := hany _
  rw [require, hallow, hfloor, ← require]

end AccessControl
