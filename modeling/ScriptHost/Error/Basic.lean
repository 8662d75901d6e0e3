import ScriptHost.Value.Script

/-!
# Errors

A failed operation either raises a script value into script or fails on the host side. Host-side
failures are causes, not texts: member access, conversion, registration, a script error seen by the
host, a host call inside a coroutine, and whatever a host body reports. The one place that words
them is `HostFailure.message`.
-/

set_option autoImplicit false

namespace ScriptHost

/-- A raised value, with the call stack at the point where it was raised, if there was one. -/
structure ScriptError where
  value : ScriptValue
  traceback : Option String
  deriving DecidableEq

/-- A failed access to a member. -/
inductive AccessError where
  /-- No single permitted member matches the key. -/
  | memberNotFound (cls key : String)
  /-- The property has no getter. -/
  | writeOnly (cls member : String)
  /-- The member cannot be written. -/
  | readOnly (cls member : String)
  /-- An indexed property was addressed by plain indexing. -/
  | indexerUnsupported (cls member : String)
  /-- A written value does not fit the member's type. -/
  | incompatibleValue (cls member expected : String) (actual : ValueKind)
  /-- Too many arguments. -/
  | argumentCount (function : String) (expected actual : Nat)
  /-- An instance member without an instance. -/
  | missingReceiver (cls member : String)
  /-- An object does not hold the payload asked for. -/
  | invalidReceiver (cls expected : String)
  /-- An object is already borrowed in a way that excludes the new borrow. -/
  | objectBorrowed (cls : String)
  /-- The proxy was disposed. -/
  | disposed (typeName : String)
  /-- The object behind an instance proxy is gone. -/
  | objectReleased (cls : String)
  deriving DecidableEq

/-- A script value has no coercion to a host type. -/
inductive ConversionError where
  /-- The kind of the value does not fit. -/
  | typeMismatch (actual : ValueKind) (convertibleTo target : String)
  /-- A number outside the range of the target. -/
  | outOfRange (value target : String)
  /-- A float that is no integer. -/
  | noIntegerRepresentation (value : Binary64) (target : String)
  /-- nil for a type without null. -/
  | nilToNonNullable (target : String)
  /-- An element of a table; positions count from one. -/
  | arrayElement (target : String) (index : Nat) (actual : ValueKind)
      (convertibleTo element : String)
  /-- An entry of a table that was to become an object. -/
  | structuredField (cls key reason : String)
  /-- The class has no constructor. -/
  | missingConstructor (cls : String)
  /-- An object of another class. -/
  | classMismatch (expected actual : String)
  deriving DecidableEq

/-- Invalid class metadata. -/
inductive DeclarationError where
  /-- Two members share a name and are not both methods. -/
  | duplicateMember (cls member : String)
  /-- A blank name. -/
  | invalidName (name : String)
  /-- An instance was created from a payload of another type. -/
  | typeMismatch (cls actual : String)
  deriving DecidableEq

/-- A failure on the host side. -/
inductive HostFailure where
  | binding (e : AccessError)
  | conversion (e : ConversionError)
  | registration (e : DeclarationError)
  /-- A script error as the host sees it. -/
  | script (e : ScriptError)
  /-- A host function was called inside a coroutine. -/
  | reentrancy (function : String)
  /-- A failure reported by a host body. -/
  | host (message : String)
  deriving DecidableEq

instance : Holds ScriptError := ⟨fun e => handles e.value⟩

instance : Holds HostFailure where
  handles
    | .script e => handles e.value
    | _ => []

/-- The message of a raised value. -/
def ScriptError.message (e : ScriptError) : String := e.value.raisedMessage

def AccessError.message : AccessError → String
  | .memberNotFound c k => "member '" ++ k ++ "' not found on '" ++ c ++ "'"
  | .writeOnly c m => "property '" ++ m ++ "' on '" ++ c ++ "' is write-only"
  | .readOnly c m => "member '" ++ m ++ "' on '" ++ c ++ "' is read-only"
  | .indexerUnsupported c m =>
    "indexed property '" ++ m ++ "' on '" ++ c ++ "' cannot be accessed by plain indexing"
  | .incompatibleValue c m expected actual =>
    "cannot assign a " ++ actual.name ++ " value to '" ++ m ++ "' on '" ++ c ++ "': expected " ++
      expected
  | .argumentCount f expected actual =>
    "'" ++ f ++ "' expects " ++ toString expected ++ " argument(s), got " ++ toString actual
  | .missingReceiver c m => "instance member '" ++ m ++ "' on '" ++ c ++ "' requires a receiver"
  | .invalidReceiver c expected => "host object of class '" ++ c ++ "' is not a " ++ expected
  | .objectBorrowed c => "host object of class '" ++ c ++ "' is already borrowed"
  | .disposed t => "proxy for '" ++ t ++ "' has been disposed"
  | .objectReleased c => "host object of class '" ++ c ++ "' has been released"

def ConversionError.message : ConversionError → String
  | .typeMismatch actual natural target =>
    "cannot convert a " ++ actual.name ++ " value (convertible to " ++ natural ++ ") to " ++ target
  | .outOfRange value target => "number " ++ value ++ " is out of range for " ++ target
  | .noIntegerRepresentation value target =>
    "number " ++ Decimal.positional value ++ " has no integer representation for " ++ target
  | .nilToNonNullable target => "cannot convert nil to non-nullable " ++ target
  | .arrayElement target index actual natural element =>
    "cannot convert table to " ++ target ++ ": element at index " ++ toString index ++ " is a " ++
      actual.name ++ " value (convertible to " ++ natural ++ ", not " ++ element ++ ")"
  | .structuredField c key reason =>
    "cannot convert table to " ++ c ++ ": field '" ++ key ++ "': " ++ reason
  | .missingConstructor c => "cannot convert table to " ++ c ++ ": class has no constructor"
  | .classMismatch expected actual => "cannot convert " ++ actual ++ " object to " ++ expected

def DeclarationError.message : DeclarationError → String
  | .duplicateMember c m => "duplicate member '" ++ m ++ "' on class '" ++ c ++ "'"
  | .invalidName n => "invalid name '" ++ n ++ "'"
  | .typeMismatch c actual => "class '" ++ c ++ "' does not hold values of type " ++ actual

/-- The sentence that ends every refusal of a host call inside a coroutine. -/
def coroutineRefusal : String := "host functions cannot be called from inside a coroutine"

/-- The text of a failure. -/
def HostFailure.message : HostFailure → String
  | .binding e => e.message
  | .conversion e => e.message
  | .registration e => e.message
  | .script e => e.message
  | .reentrancy f => "cannot call '" ++ f ++ "': " ++ coroutineRefusal
  | .host m => m

namespace HostFailure

def isBinding : HostFailure → Bool
  | .binding _ => true
  | _ => false

def isConversion : HostFailure → Bool
  | .conversion _ => true
  | _ => false

def isScript : HostFailure → Bool
  | .script _ => true
  | _ => false

def isReentrancy : HostFailure → Bool
  | .reentrancy _ => true
  | _ => false

/-- The value that a script error raised. -/
def raised? : HostFailure → Option ScriptValue
  | .script e => some e.value
  | _ => none

end HostFailure

end ScriptHost
