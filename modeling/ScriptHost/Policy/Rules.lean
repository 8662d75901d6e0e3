/-!
# Rule sets

A rule set decides which members script may reach, by the names of the class and of the member. The
rules are tried in order and the first that matches decides; where none matches, the base decision
holds, so the decision is total.
-/

set_option autoImplicit false

namespace ScriptHost

/-- The outcome of a policy check. -/
inductive Decision where
  | permit
  | deny
  deriving DecidableEq

def Decision.isPermit : Decision → Bool
  | .permit => true
  | .deny => false

/-- Which members a rule speaks of. -/
inductive Rule where
  | ofClass (cls : String)
  | ofMember (member : String)
  | ofClassMember (cls member : String)
  deriving DecidableEq

/-- Whether the rule speaks of this member of this class. -/
def Rule.covers : Rule → String → String → Bool
  | .ofClass c, cls, _ => c == cls
  | .ofMember m, _, member => m == member
  | .ofClassMember c m, cls, member => c == cls && m == member

/-- Rules in order over a base decision. -/
structure RuleSet where
  base : Decision
  rules : List (Rule × Decision)
  deriving DecidableEq

namespace RuleSet

/-- No rules: everything is permitted. -/
def permitByDefault : RuleSet := ⟨.permit, []⟩

/-- No rules: everything is denied. -/
def denyByDefault : RuleSet := ⟨.deny, []⟩

/-- The rule set with one more rule at its end. -/
def add (s : RuleSet) (r : Rule) (d : Decision) : RuleSet := { s with rules := s.rules ++ [(r, d)] }

/-- The decision of the first rule that covers the member, or the base decision. -/
def decide (s : RuleSet) (cls member : String) : Decision :=
  match s.rules.find? fun r => r.1.covers cls member with
  | some r => r.2
  | none => s.base

end RuleSet

end ScriptHost
