import ScriptHost.Class.Info
import ScriptHost.Policy.Rules
import ScriptHost.Program.Config

/-!
# Policies

A policy decides, for every member of every class, whether script may reach it. It is asked after
the lookup and before anything is exposed: a denied member is as good as missing.
-/

set_option autoImplicit false

namespace ScriptHost

/-- A total function from members to decisions. -/
inductive Policy where
  | permitAll
  | rules (r : RuleSet)
  | custom (decision : HostClass → Member → Decision)

namespace Policy

def decide : Policy → HostClass → Member → Decision
  | .permitAll, _, _ => .permit
  | .rules r, c, m => r.decide c.name m.name
  | .custom f, c, m => f c m

def permits (p : Policy) (c : HostClass) (m : Member) : Bool := (p.decide c m).isPermit

/-- The policy that a configuration describes. -/
def ofSpec : PolicySpec → Policy
  | .shared | .permitAll => .permitAll
  | .rules r => .rules r
  | .denyKinds kinds => .custom fun _ m => if kinds.contains m.kindName then .deny else .permit

end Policy

end ScriptHost
