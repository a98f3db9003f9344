import HeatingControl.Text.Quoted

/-!
# Failures

What can go wrong between a user and the controller: refused input, a record that is not there,
an answer with a failure status, no answer, or an answer that cannot be understood. Every
failure has one message.
-/
namespace HeatingControl

inductive Verb where
  | get
  | post
  | put
  | patch
  | delete
  deriving DecidableEq, Repr

def Verb.text : Verb → String
  | .get => "GET"
  | .post => "POST"
  | .put => "PUT"
  | .patch => "PATCH"
  | .delete => "DELETE"

/-- How a failed request with this verb is announced to the user. -/
def Verb.failureMessage : Verb → String
  | .get => "Erreur lors de la récupération"
  | .post => "Erreur lors de la création"
  | .put => "Erreur lors de la mise à jour"
  | .patch => "Erreur lors de la mise à jour partielle"
  | .delete => "Erreur lors de la suppression"

inductive ValidationError where
  | emptyName
  | emptyPassword
  | invalidAccountId (id : String)
  | accountExists (id : String)
  | undeletableAdmin
  | invalidZoneMode (text : String)
  | invalidDayOfWeek (index : UInt8)
  | invalidHour (hour : UInt8)
  | invalidMinute (minute : UInt8)
  | unknownOrder (id : String)
  | unknownPlanning (number : UInt32)
  | invalidParameterValue (id value : String)
  | limitReached (what : String) (max : Nat)
  | invalidFirmware (reason : String)
  | invalidCertificate (reason : String)
  deriving DecidableEq, Repr

def ValidationError.message : ValidationError → String
  | .emptyName => "name must not be empty"
  | .emptyPassword => "password must not be empty"
  | .invalidAccountId id => "invalid account id " ++ Text.quoted id
  | .accountExists id => "account " ++ Text.quoted id ++ " already exists"
  | .undeletableAdmin => "the administrator account cannot be deleted"
  | .invalidZoneMode text => "invalid zone mode " ++ Text.quoted text
  | .invalidDayOfWeek index => "invalid day of week " ++ Text.natText index.toNat
  | .invalidHour hour => "invalid hour " ++ Text.natText hour.toNat
  | .invalidMinute minute => "invalid minute " ++ Text.natText minute.toNat
  | .unknownOrder id => "unknown order " ++ Text.quoted id
  | .unknownPlanning number => "unknown planning " ++ Text.natText number.toNat
  | .invalidParameterValue id value =>
    "invalid value " ++ Text.quoted value ++ " for parameter " ++ Text.quoted id
  | .limitReached what max => "too many " ++ what ++ " (maximum " ++ Text.natText max ++ ")"
  | .invalidFirmware reason => "invalid firmware image: " ++ reason
  | .invalidCertificate reason => "invalid certificate bundle: " ++ reason

def ValidationError.kind : ValidationError → String
  | .emptyName => "EmptyName"
  | .emptyPassword => "EmptyPassword"
  | .invalidAccountId _ => "InvalidAccountId"
  | .accountExists _ => "AccountExists"
  | .undeletableAdmin => "UndeletableAdmin"
  | .invalidZoneMode _ => "InvalidZoneMode"
  | .invalidDayOfWeek _ => "InvalidDayOfWeek"
  | .invalidHour _ => "InvalidHour"
  | .invalidMinute _ => "InvalidMinute"
  | .unknownOrder _ => "UnknownOrder"
  | .unknownPlanning _ => "UnknownPlanning"
  | .invalidParameterValue _ _ => "InvalidParameterValue"
  | .limitReached _ _ => "LimitReached"
  | .invalidFirmware _ => "InvalidFirmware"
  | .invalidCertificate _ => "InvalidCertificate"

inductive Error where
  | validation (e : ValidationError)
  | notFound (entity id : String)
  /-- The controller answered with a status that is no success. -/
  | http (verb : Verb) (url : String) (status : Nat)
  /-- The controller gave no answer. -/
  | network (verb : Verb) (url cause : String)
  /-- The body of the answer has not the expected shape. -/
  | decode (url cause : String)
  deriving DecidableEq, Repr

def Error.kind : Error → String
  | .validation e => e.kind
  | .notFound _ _ => "NotFound"
  | .http _ _ _ => "Http"
  | .network _ _ _ => "Network"
  | .decode _ _ => "Decode"

def Error.message : Error → String
  | .validation e => e.message
  | .notFound entity id => entity ++ " " ++ id ++ " not found"
  | .http verb url status => verb.failureMessage ++ " " ++ url ++ " : " ++ Text.natText status
  | .network verb url cause => verb.failureMessage ++ " " ++ url ++ " : " ++ cause
  | .decode url cause => "Réponse invalide " ++ url ++ " : " ++ cause

end HeatingControl
