import ScriptHost.Value.HostValue

/-!
# Payloads

What an object holds. A class holds payloads of one type; an instance is created only from a payload
of that type, and a borrow names the type it expects.
-/

set_option autoImplicit false

namespace ScriptHost

/-- The types of payloads. -/
inductive PayloadType where
  | slots
  | byte
  | float
  | bool
  deriving DecidableEq

/-- The name diagnostics use. -/
def PayloadType.name : PayloadType → String
  | .slots => "slots"
  | .byte => "u8"
  | .float => "f64"
  | .bool => "bool"

/-- What an object holds. -/
inductive Payload where
  | slots (s : Slots)
  | byte (n : UInt8)
  | float (x : Binary64)
  | bool (b : Bool)

def Payload.type : Payload → PayloadType
  | .slots _ => .slots
  | .byte _ => .byte
  | .float _ => .float
  | .bool _ => .bool

/-- The slots of a payload; a payload without slots has none. -/
def Payload.slotsOf : Payload → Slots
  | .slots s => s
  | _ => []

instance : Holds Slots := ⟨fun s => s.flatMap fun p => handles p.2⟩

instance : Holds Payload := ⟨fun p => handles p.slotsOf⟩

end ScriptHost
