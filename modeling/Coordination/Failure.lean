import Coordination.Json.Value
import Coordination.Text.Integer

/-! # Failures

What can go wrong in a coordination service, by cause. Ordinary outcomes such as a held lock or a blocked
request are no failures. A cause whose wording belongs to the store's connection or to a caller is kept as
that text.
-/
namespace Coordination

/-- Why the store gave no answer. What the operation did there is unknown. -/
inductive Outage where
  /-- The connection broke or could not be made. -/
  | link (detail : String)
  /-- The round trip took longer than the given number of milliseconds. -/
  | tooSlow (limit : Nat)
  | reported (detail : String)
deriving DecidableEq, Repr

/-- An answer of the store that the operation cannot use. -/
inductive Surprise where
  | notAnInteger (key : String)
  | overflow (key : String)
  | countNotInteger (subject : String)
  | unexpectedPong (reply : String)
  /-- An error reply, or a reply of a foreign shape. -/
  | reply (detail : String)
  | reported (detail : String)
deriving DecidableEq, Repr

/-- An argument that an operation refuses before it reaches the store. -/
inductive BadArgument where
  | ttlTooShort
  | zeroLockTtl
  | emptyOwner
  | emptyKey
  | keyTooLong (limit : Nat)
  | zeroSetting (name : String)
  | storeUrl (detail : String)
  | reported (detail : String)
deriving DecidableEq, Repr

/-- Settings that cannot be read. -/
inductive BadSettings where
  | missing (field : String)
  | duplicate (field : String)
  | number (fault : Text.Integer.Fault) (value name : String)
  | reported (detail : String)
deriving DecidableEq, Repr

inductive Failure where
  | unavailable (cause : Outage)
  | serialization (fault : Json.Fault)
  | internal (cause : Surprise)
  | invalidArgument (cause : BadArgument)
  | configuration (cause : BadSettings)
deriving DecidableEq, Repr

def Outage.message : Outage → String
  | .link detail => detail
  | .tooSlow limit => s!"store round trip exceeded {limit}ms"
  | .reported detail => detail

def Surprise.message : Surprise → String
  | .notAnInteger key => s!"value at {key} is not an integer"
  | .overflow key => s!"increment overflow at {key}"
  | .countNotInteger subject => s!"failure count for {subject} is not an integer"
  | .unexpectedPong text => s!"unexpected PING reply: {text}"
  | .reply detail => detail
  | .reported detail => detail

def BadArgument.message : BadArgument → String
  | .ttlTooShort => "ttl must be at least one millisecond"
  | .zeroLockTtl => "lock ttl must be greater than zero"
  | .emptyOwner => "lock owner token must not be empty"
  | .emptyKey => "idempotency key must not be empty"
  | .keyTooLong limit => s!"idempotency key exceeds {limit} bytes"
  | .zeroSetting name => s!"{name} must be greater than zero"
  | .storeUrl detail => s!"invalid redis url: {detail}"
  | .reported detail => detail

def BadSettings.message : BadSettings → String
  | .missing field => s!"missing value for field {field}"
  | .duplicate field => s!"duplicate field `{field}`"
  | .number fault value name =>
    s!"{fault.message} while parsing value '{value}' provided by {name}"
  | .reported detail => detail

def Failure.message : Failure → String
  | .unavailable cause => "store unavailable: " ++ cause.message
  | .serialization fault => "serialization failed: " ++ fault.message
  | .internal cause => "internal store error: " ++ cause.message
  | .invalidArgument cause => "invalid argument: " ++ cause.message
  | .configuration cause => "configuration error: " ++ cause.message

def Failure.isUnavailable : Failure → Bool
  | .unavailable _ => true
  | _ => false

end Coordination
