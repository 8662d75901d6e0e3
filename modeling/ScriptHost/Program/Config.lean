import ScriptHost.Policy.Rules

/-!
# Configuration

What a session or a separate binding is set up with.
-/

set_option autoImplicit false

namespace ScriptHost

/-- A policy as it is configured. -/
inductive PolicySpec where
  /-- The policy in force where none is given: it permits everything. -/
  | shared
  | permitAll
  | rules (r : RuleSet)
  /-- Members of the listed kinds are denied. -/
  | denyKinds (kinds : List String)
  deriving DecidableEq

/-- The configuration of a bridge. -/
structure Config where
  policy : PolicySpec
  exposeInstanceMembers : Bool
  includeNonPublic : Bool
  maxCallDepth : Nat

/-- Everything permitted, instance members exposed, public members only, two hundred calls deep. -/
def Config.default : Config := ⟨.shared, true, false, 200⟩

end ScriptHost
