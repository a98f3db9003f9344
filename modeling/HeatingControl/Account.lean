import HeatingControl.Error
import HeatingControl.Ident

/-!
# Accounts

The account named `admin` is the administrator; an account of the type administrator cannot be
deleted. Passwords are kept as they are given and must not be blank.
-/
namespace HeatingControl

inductive AccountType where
  | admin
  | user
  deriving DecidableEq, Repr

structure Account where
  id : AccountId
  kind : AccountType
  deriving DecidableEq, Repr

namespace Account

def adminId : AccountId := ⟨"admin"⟩

/-- The id alone tells the administrator, the type does not. -/
def isAdministrator (a : Account) : Bool := a.id = adminId

/-- The type alone tells what can be deleted, the id does not. -/
def isDeletable (a : Account) : Bool := a.kind ≠ .admin

end Account

def hasAdministrator (accounts : List Account) : Bool := accounts.any Account.isAdministrator

/-- An account id is a short word of ASCII letters and digits. -/
def validateAccountId (id : String) : Except ValidationError Unit :=
  if id = "" then .error .emptyName
  else if id.utf8ByteSize > Limits.accountIdLength ∨ ¬ id.toList.all Text.isWordChar then
    .error (.invalidAccountId id)
  else .ok ()

structure NewAccount where
  id : AccountId
  password : String
  deriving DecidableEq, Repr

namespace NewAccount

def validate (a : NewAccount) : Except ValidationError Unit :=
  match validateAccountId a.id.text with
  | .error e => .error e
  | .ok () => if Text.allBlank a.password then .error .emptyPassword else .ok ()

/-- The id is trimmed, the password is not. -/
def make (id password : String) : Except ValidationError NewAccount :=
  let account : NewAccount := ⟨⟨Text.trim id⟩, password⟩
  match account.validate with
  | .ok () => .ok account
  | .error e => .error e

end NewAccount

structure PasswordReset where
  password : String
  deriving DecidableEq, Repr

def PasswordReset.make (s : String) : Except ValidationError PasswordReset :=
  if Text.allBlank s then .error .emptyPassword else .ok ⟨s⟩

theorem PasswordReset.make_ok {s : String} {reset : PasswordReset} (h : make s = .ok reset) :
    reset = ⟨s⟩ ∧ Text.allBlank s = false := by
  unfold make at h
  split at h
  · cases h
  · rename_i hvisible
    cases h
    exact ⟨rfl, Bool.eq_false_iff.mpr hvisible⟩

end HeatingControl
