import ScriptHost.Session

/-!
# Licensed programs

A license says what programs may use besides the context they run in. Most of what is proved about
runs holds of every program. Two things do not: a script body that reaches host code past its
context does not meet the guard, and a program that looks at the declarations of a class sees also
what a policy hides from script.

`Op.within` goes through a program with all the bodies that stand in it; `World.Within` says the
same of whatever a world has stored. A body on the host side may always do what the host can do.
-/

set_option autoImplicit false

namespace ScriptHost

/-- What programs may use besides their context. -/
structure License where
  /-- Script bodies have entry points of the host that do not go through the running context. -/
  direct : Bool
  /-- The declarations of classes, and bindings with a policy of their own. -/
  seeing : Bool

namespace License

/-- Everything is allowed. -/
def all : License := ⟨true, true⟩

/-- Script bodies reach host code through the running context only. -/
def contextual : License := ⟨false, true⟩

/-- Classes are seen through bindings only. -/
def blind : License := ⟨true, false⟩

end License

/-- The actions that start host code, or write to an object, without asking the guard of the running
context. -/
def Action.isDirect : Action → Bool
  | .call (.bridgeCall _ _) | .call (.bridgeCallGlobal _ _) => true
  | .conversion (.toHost _ _) => true
  | .cls (.construct _) | .cls (.setSlot _ _ _) => true
  | .proxy (.read _ _) | .proxy (.write _ _ _) => true
  | _ => false

/-- The action that asks the guard of another context than the running one. -/
def Action.isPretending : Action → Bool
  | .call (.guard _ (some _)) => true
  | _ => false

/-- The actions that look at the declarations of a class past every policy, or that set up a
binding. -/
def Action.isSeeing : Action → Bool
  | .value (.dump (.var _)) => true
  | .cls (.membersNamed _ _) => true
  | .proxy (.resolveWith _ _ _) | .proxy (.decide _ _) | .proxy (.binding _) => true
  | _ => false

/-- Whether a license allows an action, on the host side or in a script body. -/
def License.admits (l : License) (host : Bool) (a : Action) : Bool :=
  (l.direct || (host || !a.isDirect) && !a.isPretending) && (l.seeing || !a.isSeeing)

namespace License

variable {l : License} {host : Bool} {a : Action}

/-- Direct actions are for the host side, or for a license that opens it to script bodies. -/
theorem direct_of_admits (h : l.admits host a) (ha : a.isDirect = true) :
    host = true ∨ l.direct = true := by
  simp only [admits, ha, Bool.and_eq_true, Bool.or_eq_true, Bool.not_true] at h
  rcases h.1 with h | ⟨h | h, -⟩
  · exact .inr h
  · exact .inl h
  · cases h

/-- The guard of another context is asked only with a license for that. -/
theorem pretending_of_admits (h : l.admits host a) (ha : a.isPretending = true) :
    l.direct = true := by
  simp only [admits, ha, Bool.and_eq_true, Bool.or_eq_true, Bool.not_true] at h
  rcases h.1 with h | ⟨-, h⟩
  · exact h
  · cases h

/-- Declarations are looked at only with a license for that. -/
theorem seeing_of_admits (h : l.admits host a) (ha : a.isSeeing = true) : l.seeing = true := by
  simp only [admits, ha, Bool.and_eq_true, Bool.or_eq_true, Bool.not_true] at h
  rcases h.2 with h | h
  · exact h
  · cases h

end License

/-! ### Programs -/

mutual

/-- Whether an operation, with all bodies in it, uses only what the license allows. -/
def Op.within (l : License) (host : Bool) : Op → Bool
  | .act _ a => l.admits host a
  | .giveScript _ _ | .giveHost _ _ => true
  | .branch _ _ yes no => Op.allWithin l host yes && Op.allWithin l host no
  | .borrow _ _ _ body => Op.allWithin l host body
  | .function _ _ _ _ body => Op.allWithin l false body
  | .hostFunction _ _ _ _ body => Op.allWithin l true body
  | .cls _ spec => Op.specWithin l spec

/-- The same for the operations of a program. -/
def Op.allWithin (l : License) (host : Bool) : List Op → Bool
  | [] => true
  | op :: rest => op.within l host && Op.allWithin l host rest

/-- The same for the bodies of the methods that a class declares. -/
def Op.specWithin (l : License) : ClassSpec (List Op) → Bool
  | ⟨_, ds, _, _⟩ => Op.declarationsWithin l ds

/-- The same for a list of declarations: only the bodies of methods are programs. -/
def Op.declarationsWithin (l : License) : List (Declaration (List Op)) → Bool
  | [] => true
  | d :: ds => Op.declarationWithin l d && Op.declarationsWithin l ds

def Op.declarationWithin (l : License) : Declaration (List Op) → Bool
  | .method _ _ _ body => Op.allWithin l true body
  | _ => true

end

@[simp] theorem License.all_admits (host : Bool) (a : Action) :
    License.all.admits host a = true := by
  simp [admits, all]

mutual

/-- Every program is within the license that allows everything. -/
theorem Op.within_all (host : Bool) : ∀ op : Op, op.within .all host = true
  | .act _ a => License.all_admits host a
  | .giveScript _ _ => rfl
  | .giveHost _ _ => rfl
  | .branch _ _ yes no => by
    simp [Op.within, Op.allWithin_all host yes, Op.allWithin_all host no]
  | .borrow _ _ _ body => Op.allWithin_all host body
  | .function _ _ _ _ body => Op.allWithin_all false body
  | .hostFunction _ _ _ _ body => Op.allWithin_all true body
  | .cls _ ⟨_, ds, _, _⟩ => Op.declarationsWithin_all ds

theorem Op.allWithin_all (host : Bool) : ∀ p : List Op, Op.allWithin .all host p = true
  | [] => rfl
  | op :: rest => by simp [Op.allWithin, Op.within_all host op, Op.allWithin_all host rest]

theorem Op.declarationsWithin_all :
    ∀ ds : List (Declaration (List Op)), Op.declarationsWithin .all ds = true
  | [] => rfl
  | .method _ _ _ body :: ds => by
    simp [Op.declarationsWithin, Op.declarationWithin, Op.allWithin_all true body,
      Op.declarationsWithin_all ds]
  | .field .. :: ds | .property .. :: ds | .indexer .. :: ds | .staticProperty .. :: ds
  | .nonPublic :: ds => by
    simp [Op.declarationsWithin, Op.declarationWithin, Op.declarationsWithin_all ds]

end

/-! ### What a world has stored -/

/-- Resolution finds declared members only. -/
theorem Binding.mem_members_of_resolve {b : Binding} {c : HostClass} {k : MemberKey}
    {onInstance : Bool} {m : Member} (hm : m ∈ b.resolve c k onInstance) : m ∈ c.members := by
  unfold Binding.resolve at hm
  cases hv : b.visibility onInstance with
  | none => simp [hv] at hm
  | some v =>
    simp only [hv, Visibility.resolve, List.mem_filter] at hm
    obtain ⟨⟨hm, -⟩, -⟩ := hm
    -- Both indexes list places in the members of the class.
    cases k with
    | name s =>
      obtain ⟨i, -, hi⟩ := List.mem_filterMap.mp hm
      exact List.mem_of_getElem? hi
    | index x =>
      obtain ⟨i, -, hi⟩ := List.mem_filterMap.mp hm
      exact List.mem_of_getElem? hi

def Member.Within (l : License) : Member → Prop
  | .method m => Op.allWithin l true m.body
  | _ => True

/-- Every method of the class runs a body within the license. -/
def HostClass.Within (l : License) (c : HostClass) : Prop := ∀ m ∈ c.members, m.Within l

/-- Whatever a function runs is within the license. A host body may do what the host can do. -/
def Code.Within (l : License) : Code → Prop
  | .script body => Op.allWithin l false body
  | .host _ f => Op.allWithin l true f.body
  | .method _ _ m => Op.allWithin l true m.body

/-- The only variables that hold a program are host functions that wait to be registered. -/
def Stored.Within (l : License) : Stored → Prop
  | .hostFunction f => Op.allWithin l true f.body
  | _ => True

/-- Every body that can be run from the world uses only what the license allows. -/
structure World.Within (l : License) (w : World) : Prop where
  functions : ∀ f fn, w.functions.get? f = some fn → fn.code.Within l
  classes : ∀ c info, w.classes.get? c = some info → info.Within l
  vars : ∀ p ∈ w.vars, p.2.Within l

namespace World

variable {l : License} {w : World}

/-- Every world is within the license that allows everything. -/
theorem within_all (w : World) : w.Within .all where
  functions _ fn _ := by
    cases h : fn.code with
    | script body => exact Op.allWithin_all false body
    | host _ f => exact Op.allWithin_all true f.body
    | method _ _ m => exact Op.allWithin_all true m.body
  classes _ _ _ m _ := by
    cases m with
    | method m => exact Op.allWithin_all true m.body
    | _ => trivial
  vars p _ := by
    cases p.2 with
    | hostFunction f => exact Op.allWithin_all true f.body
    | _ => trivial

/-- A reference that names nothing stands for a function without a body. -/
theorem Within.function (h : w.Within l) (f : FunctionRef) : (w.function f).code.Within l := by
  unfold World.function
  cases hf : w.functions.get? f with
  | none => rfl
  | some fn => exact h.functions f fn hf

theorem Within.cls (h : w.Within l) (c : ClassRef) : (w.cls c).Within l := by
  unfold World.cls
  cases hc : w.classes.get? c.ref with
  | none => intro m hm; cases hm
  | some info => exact h.classes c.ref info hc

theorem Within.var (h : w.Within l) {name : String} {s : Stored} (hs : w.var? name = some s) :
    s.Within l := by
  unfold World.var? at hs
  obtain ⟨p, hp, rfl⟩ := Option.map_eq_some_iff.mp hs
  exact h.vars p (List.mem_of_find?_eq_some hp)

theorem Within.resolve (h : w.Within l) (b : Binding) (c : ClassRef) (k : MemberKey)
    (onInstance : Bool) : ∀ m ∈ b.resolve (w.cls c) k onInstance, m.Within l := fun m hm =>
  h.cls c m (Binding.mem_members_of_resolve hm)

end World

end ScriptHost
