import ScriptHost.Error.Basic

/-!
# Diagnostic text of errors

An error dumps as the record that it is. Raised values inside need the world to be shown, so their
dump is a parameter.
-/

set_option autoImplicit false

namespace ScriptHost

open Text (quoted)
open Text.Dump

def AccessError.dump : AccessError → String
  | .memberNotFound c k => record "MemberNotFound" [("class", quoted c), ("key", quoted k)]
  | .writeOnly c m => record "WriteOnly" [("class", quoted c), ("member", quoted m)]
  | .readOnly c m => record "ReadOnly" [("class", quoted c), ("member", quoted m)]
  | .indexerUnsupported c m =>
    record "IndexerUnsupported" [("class", quoted c), ("member", quoted m)]
  | .incompatibleValue c m expected actual =>
    record "IncompatibleValue"
      [("class", quoted c), ("member", quoted m), ("expected", quoted expected),
        ("actual", actual.title)]
  | .argumentCount f expected actual =>
    record "ArgumentCount"
      [("function", quoted f), ("expected", toString expected), ("actual", toString actual)]
  | .missingReceiver c m => record "MissingReceiver" [("class", quoted c), ("member", quoted m)]
  | .invalidReceiver c expected =>
    record "InvalidReceiver" [("class", quoted c), ("expected", quoted expected)]
  | .objectBorrowed c => record "ObjectBorrowed" [("class", quoted c)]
  | .disposed t => record "Disposed" [("type_name", quoted t)]
  | .objectReleased c => record "ObjectReleased" [("class", quoted c)]

def ConversionError.dump : ConversionError → String
  | .typeMismatch actual natural target =>
    record "TypeMismatch"
      [("actual", actual.title), ("convertible_to", quoted natural), ("target", quoted target)]
  | .outOfRange value target =>
    record "OutOfRange" [("value", quoted value), ("target", quoted target)]
  | .noIntegerRepresentation value target =>
    record "NoIntegerRepresentation" [("value", Decimal.compact value), ("target", quoted target)]
  | .nilToNonNullable target => record "NilToNonNullable" [("target", quoted target)]
  | .arrayElement target index actual natural element =>
    record "ArrayElement"
      [("target", quoted target), ("index", toString index), ("actual", actual.title),
        ("convertible_to", quoted natural), ("element", quoted element)]
  | .structuredField c key reason =>
    record "StructuredField" [("class", quoted c), ("key", quoted key), ("reason", quoted reason)]
  | .missingConstructor c => record "MissingConstructor" [("class", quoted c)]
  | .classMismatch expected actual =>
    record "ClassMismatch" [("expected", quoted expected), ("actual", quoted actual)]

def DeclarationError.dump : DeclarationError → String
  | .duplicateMember c m => record "DuplicateMember" [("class", quoted c), ("member", quoted m)]
  | .invalidName n => tuple "InvalidName" [quoted n]
  | .typeMismatch c actual => record "TypeMismatch" [("class", quoted c), ("actual", quoted actual)]

def ScriptError.dump (value : ScriptValue → String) (e : ScriptError) : String :=
  record "ScriptError" [("value", value e.value), ("traceback", option (e.traceback.map quoted))]

/-- A script error as the host sees it shows its message too. -/
def ScriptError.dumpCaught (value : ScriptValue → String) (e : ScriptError) : String :=
  record "ScriptException"
    [("message", quoted e.message), ("payload", value e.value),
      ("traceback", option (e.traceback.map quoted))]

def HostFailure.dump (value : ScriptValue → String) : HostFailure → String
  | .binding e => tuple "Binding" [e.dump]
  | .conversion e => tuple "Conversion" [e.dump]
  | .registration e => tuple "Registration" [e.dump]
  | .script e => tuple "Script" [e.dumpCaught value]
  | .reentrancy f => record "Reentrancy" [("function", quoted f)]
  | .host m => tuple "Host" [quoted m]

end ScriptHost
