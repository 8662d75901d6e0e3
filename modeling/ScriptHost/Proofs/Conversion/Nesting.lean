import ScriptHost.Proofs.Conversion.Agree
import ScriptHost.Proofs.Order.Program

/-!
# How deep conversions nest

A conversion asks for other conversions: of the elements of an array, of what a nullable type wraps
and, where a table becomes an object, of the entries for the members they are assigned to. The
values are no measure for that, since a table may contain itself. The types are: `World.parts` gives
the types that a type asks for, and each of them has a smaller nesting depth (`World.nesting_lt`),
because a class mentions classes that were built before it only.

`convertStep` is one conversion whose nested conversions are left to a converter, and `convertDeep`
lets them nest so many deep, with whatever converter below. From the nesting depth of the type on it
does not matter any more what is below (`conversion_nests_within_type`): nothing there is asked.
-/

set_option autoImplicit false

namespace ScriptHost

/-! ### The nesting depth of a type -/

/-- The greatest depth among types. -/
def deepest (depth : HostType → Nat) (ts : List HostType) : Nat :=
  ts.foldr (fun t d => max (depth t) d) 0

/-- The nesting depth of a type, from the depths of classes. -/
def HostType.nestingWith (ofClass : ClassRef → Nat) : HostType → Nat
  | .array t | .nullable t => t.nestingWith ofClass + 1
  | .object c => ofClass c
  | _ => 0

namespace World

/-- The depth of a class: one more than that of its deepest member. Classes are looked into so many
deep. -/
def classNesting (w : World) : Nat → ClassRef → Nat
  | 0, _ => 0
  | n + 1, c => deepest (HostType.nestingWith (w.classNesting n)) (w.cls c).valueTypes + 1

/-- **The nesting depth of a type.** There are not more classes to look into than were built. -/
def nesting (w : World) (t : HostType) : Nat :=
  t.nestingWith (w.classNesting (w.classes.size + 1))

/-- The types that values are converted to when a value is converted to the type. -/
def parts (w : World) : HostType → List HostType
  | .array t | .nullable t => [t]
  | .object c => (w.cls c).valueTypes
  | _ => []

end World

/-- No type of a list lies deeper than the deepest one. -/
theorem le_deepest {depth : HostType → Nat} {ts : List HostType} {t : HostType} (h : t ∈ ts) :
    depth t ≤ deepest depth ts := by
  induction ts with
  | nil => cases h
  | cons u us ih =>
    rcases List.mem_cons.mp h with rfl | h
    · exact Nat.le_max_left _ _
    · exact Nat.le_trans (ih h) (Nat.le_max_right _ _)

/-- The depth of a list is that of its members. -/
theorem deepest_congr {d d' : HostType → Nat} {ts : List HostType} (h : ∀ t ∈ ts, d t = d' t) :
    deepest d ts = deepest d' ts := by
  induction ts with
  | nil => rfl
  | cons t ts ih =>
    obtain ⟨hfirst, hrest⟩ := List.forall_mem_cons.mp h
    show max (d t) (deepest d ts) = max (d' t) (deepest d' ts)
    rw [hfirst, ih hrest]

/-- The depth of a type hangs on the classes that it mentions. -/
theorem HostType.nestingWith_congr {d d' : ClassRef → Nat} {n : Nat} {t : HostType} (ht : t.Below n)
    (h : ∀ c : ClassRef, c.ref.index < n → d c = d' c) : t.nestingWith d = t.nestingWith d' := by
  induction t with
  | array t ih | nullable t ih => exact congrArg Nat.succ (ih ht)
  | object c => exact h c (ht _ List.mem_cons_self)
  | _ => rfl

namespace World

variable {w : World}

/-- The members of a class that is there mention earlier classes. A class that is not there has no
members. -/
theorem InOrder.valueType (hw : w.InOrder) {c : ClassRef} {t : HostType}
    (ht : t ∈ (w.cls c).valueTypes) : t.Below c.ref.index ∧ c.ref.index < w.classes.size := by
  obtain ⟨m, hm, hmt⟩ := List.mem_filterMap.mp ht
  unfold cls at hm
  cases hc : w.classes.get? c.ref with
  | none =>
    rw [hc] at hm
    cases hm
  | some info =>
    rw [hc] at hm
    -- A type of values that is declared is a type of the member.
    refine ⟨hw.classes c.ref info hc m hm t ?_, (Array.getElem?_eq_some_iff.mp hc).1⟩
    cases m with
    | method m => cases hmt
    | property p => exact List.mem_singleton.mpr (Option.some.inj hmt).symm
    | field f => exact List.mem_singleton.mpr (Option.some.inj hmt).symm

/-- Looking deeper than there are classes before a class shows nothing more. -/
theorem InOrder.classNesting_eq (hw : w.InOrder) {n k : Nat} {c : ClassRef} (hn : c.ref.index < n)
    (hk : n ≤ k) : w.classNesting k c = w.classNesting n c := by
  induction n generalizing k c with
  | zero => exact absurd hn (Nat.not_lt_zero _)
  | succ n ih =>
    obtain ⟨k, rfl⟩ : ∃ j, k = j + 1 := ⟨k - 1, by omega⟩
    refine congrArg Nat.succ (deepest_congr fun t ht => ?_)
    refine HostType.nestingWith_congr (hw.valueType ht).1 fun d hd => ih ?_ ?_
    · omega
    · omega

/-- **An object type counts one more than the deepest member type of its class.** -/
theorem InOrder.nesting_object (hw : w.InOrder) (c : ClassRef) :
    w.nesting (.object c) = deepest w.nesting (w.cls c).valueTypes + 1 := by
  refine congrArg Nat.succ (deepest_congr fun t ht => ?_)
  obtain ⟨hbelow, hc⟩ := hw.valueType ht
  refine HostType.nestingWith_congr hbelow fun d hd => ?_
  exact (hw.classNesting_eq (Nat.lt_trans hd hc) (Nat.le_succ _)).symm

/-- **What is asked for is less deep.** -/
theorem InOrder.nesting_lt (hw : w.InOrder) {t p : HostType} (hp : p ∈ w.parts t) :
    w.nesting p < w.nesting t := by
  cases t with
  | array t | nullable t =>
    obtain rfl := List.mem_singleton.mp hp
    exact Nat.lt_succ_self _
  | object c =>
    rw [hw.nesting_object]
    exact Nat.lt_succ_of_le (le_deepest hp)
  | _ => cases hp

end World

/-! ### Conversions one within another -/

namespace Act

variable {ε ε' α β : Type}

/-- **One conversion**, with the conversions that it asks for left to a converter. -/
def convertStep (next : Converter) (via : BindingRef) : Converter
  | t, .nil => convertWith (buildObject next via) t .nil
  | .nullable inner, v => next inner v
  | .array element, .table r => do
    let vs ← look fun w => (w.table r).sequence
    let hs ← convertItems (next element) (.array element) element vs 1
    pure (.array hs)
  | t, v => convertWith (buildObject next via) t v

/-- Whether a conversion asks for others. -/
def asks : HostType → ScriptValue → Bool
  | _, .nil => false
  | .nullable _, _ | .array _, .table _ | .object _, .table _ => true
  | _, _ => false

/-- Conversions nested so many deep, with any converter at the bottom. -/
def convertDeep (bottom : Converter) (via : BindingRef) : Nat → Converter
  | 0 => convertStep bottom via
  | n + 1 => convertStep (convertDeep bottom via n) via

section Step

variable {next : Converter} {via : BindingRef} {v : ScriptValue}

/-- A conversion that asks for no others builds nothing either. -/
theorem convertStep_eq_convertWith {t : HostType} (h : asks t v = false) (build : Builder) :
    convertStep next via t v = convertWith build t v := by
  -- Whether a type with parts asks for them depends on the value.
  cases t with
  | nullable t =>
    cases v with
    | nil => simp only [convertStep, convertWith]
    | _ => cases h
  | array t =>
    cases v with
    | table r => cases h
    | _ => simp only [convertStep, convertWith]
  | object c =>
    cases v with
    | table r => cases h
    | _ => simp only [convertStep, convertWith, convertObject]
  | _ => cases v <;> simp only [convertStep, convertWith]

/-- How objects are built does not matter to it. -/
theorem convertWith_of_not_asks {t : HostType} (h : asks t v = false) (build build' : Builder) :
    convertWith build t v = convertWith build' t v := by
  have hstep (build : Builder) : convertStep (convertWith build') ⟨0⟩ t v = convertWith build t v :=
    convertStep_eq_convertWith h build
  exact (hstep build).symm.trans (hstep build')

/-- A value that is not nil is handed on to the type inside. -/
theorem convertStep_nullable {t : HostType} (h : asks (.nullable t) v = true) :
    convertStep next via (.nullable t) v = next t v := by
  cases v with
  | nil => cases h
  | _ => rfl

/-- It is so for conversions of any depth. -/
theorem convertWith_nullable {build : Builder} {t : HostType} (h : asks (.nullable t) v = true) :
    convertWith build (.nullable t) v = convertWith build t v := by
  cases v with
  | nil => cases h
  | _ => simp only [convertWith]

/-- A table is built into an object by assigning its entries. -/
theorem convertStep_object (c : ClassRef) (r : TableRef) :
    convertStep next via (.object c) (.table r) = buildObject next via c r := by
  simp only [convertStep, convertWith, convertObject]

/-- It is so for conversions of any depth. -/
theorem convertWith_object (build : Builder) (c : ClassRef) (r : TableRef) :
    convertWith build (.object c) (.table r) = build c r := by
  simp only [convertWith, convertObject]

end Step

/-! ### Conversion asks for no more -/

section Depth

variable {w₀ : World} {via : BindingRef}

/-- **One conversion hangs on the conversions to the parts of its type.** -/
theorem Agree.convertStep {next next' : Converter} (hfilling : ∀ t v, Filling 0 (next' t v))
    {t : HostType} (h : ∀ p ∈ w₀.parts t, ∀ v, Agree w₀ (next p v) (next' p v)) (via : BindingRef)
    (v : ScriptValue) :
    Agree w₀ (Act.convertStep next via t v) (Act.convertStep next' via t v) := by
  cases hasks : asks t v with
  | false =>
    -- No part is asked, so both do the same, whatever the parts do.
    rw [convertStep_eq_convertWith hasks (fun _ _ => throw (.missingConstructor "")),
      convertStep_eq_convertWith hasks]
    exact refl _
  | true =>
    -- Parts are asked about values of the parts of the type, and there the two converters agree.
    cases t with
    | nullable inner =>
      rw [convertStep_nullable hasks, convertStep_nullable hasks]
      exact h inner (List.mem_singleton_self inner) v
    | array element =>
      cases v with
      | table r =>
        have helement (v : ScriptValue) := (h element (List.mem_singleton_self element) v).butReason
        refine (refl _).bind (.look _) fun vs => ?_
        exact (convertItems (hfilling element) helement (.array element) element vs 1).before _
      | _ => cases hasks
    | object c =>
      cases v with
      | table r =>
        rw [convertStep_object, convertStep_object]
        exact buildObject (fun p hp v => (h p hp v).butReason) hfilling via r
      | _ => cases hasks
    | _ => cases v <;> cases hasks

/-- Conversions that are nested fill new objects only. -/
theorem filling_buildUpTo (k : Nat) (t : HostType) (v : ScriptValue) :
    Filling 0 (convertWith (buildUpTo via k) t v) :=
  .convertWith (.buildUpTo via k) t v

/-- A class that is not there has no constructor. -/
theorem agree_missing {c : ClassRef} (hc : w₀.classes.size ≤ c.ref.index) (next : Converter)
    (r : TableRef) : Agree w₀ (buildObject next via c r) (throw (.missingConstructor c.name)) := by
  intro w hw
  have hnone : w.classes.get? c.ref = none := by
    rw [hw.classes]
    exact Array.getElem?_eq_none hc
  have hconstruct : (construct c).outcome w = (.error (.missingConstructor c.name), w) := by
    unfold construct
    rw [outcome_bind_ok (outcome_look _ w), World.cls, hnone]
    rfl
  exact outcome_bind_error hconstruct

/-- The classes of a type are among those that are counted, or they are not there. -/
def Counted (w₀ : World) (k : Nat) (t : HostType) : Prop :=
  ∀ h ∈ t.handles, h.index < k ∨ w₀.classes.size ≤ h.index

/-- **One conversion, when classes are counted down.** A table that becomes an object takes one
class; the members of that class mention earlier ones. -/
theorem agree_buildUpTo (hw : w₀.InOrder) {next : Converter} {t : HostType} {k : Nat}
    (ht : Counted w₀ k t) (h : ∀ p ∈ w₀.parts t, ∀ n, Counted w₀ n p → ∀ v,
      Agree w₀ (next p v) (convertWith (buildUpTo via n) p v)) (v : ScriptValue) :
    Agree w₀ (convertStep next via t v) (convertWith (buildUpTo via k) t v) := by
  cases hasks : asks t v with
  | false =>
    rw [convertStep_eq_convertWith hasks]
    exact .refl _
  | true =>
    cases t with
    | nullable inner =>
      rw [convertStep_nullable hasks, convertWith_nullable hasks]
      exact h inner (List.mem_singleton_self inner) k ht v
    | array element =>
      cases v with
      | table r =>
        have hstep : convertWith (buildUpTo via k) (.array element) (.table r) =
            convertStep (convertWith (buildUpTo via k)) via (.array element) (.table r) := by
          simp only [convertWith, convertStep]
        rw [hstep]
        refine .convertStep (filling_buildUpTo k) (fun p hp v => ?_) via _
        obtain rfl := List.mem_singleton.mp hp
        exact h p hp k ht v
      | _ => cases hasks
    | object c =>
      cases v with
      | table r =>
        rw [convertWith_object]
        rcases ht _ List.mem_cons_self with hc | hc
        · obtain ⟨n, rfl⟩ : ∃ n, k = n + 1 := ⟨k - 1, by have : c.ref.index < k := hc; omega⟩
          have hstep : buildUpTo via (n + 1) c r =
              convertStep (convertWith (buildUpTo via n)) via (.object c) (.table r) := by
            rw [convertStep_object, buildUpTo]
          rw [hstep]
          refine .convertStep (filling_buildUpTo n) (fun p hp => h p hp n fun x hx => ?_) via _
          -- One class less is left, and that is enough.
          exact .inl (Nat.lt_of_lt_of_le ((hw.valueType hp).1 x hx) (Nat.le_of_lt_succ hc))
        · rw [convertStep_object]
          intro w hwc
          rw [agree_missing hc next r w hwc]
          cases k with
          | zero => rfl
          | succ n => exact (agree_missing hc _ r w hwc).symm
      | _ => cases hasks
    | _ => cases v <;> cases hasks

/-- **Below the nesting depth of a type nothing is asked**, by induction on how deep conversions
may nest. -/
theorem agree_convertDeep (hw : w₀.InOrder) (bottom : Converter) {d : Nat} {t : HostType}
    (hd : w₀.nesting t ≤ d) {k : Nat} (ht : Counted w₀ k t) (v : ScriptValue) :
    Agree w₀ (convertDeep bottom via d t v) (convertWith (buildUpTo via k) t v) := by
  induction d generalizing t k v with
  | zero =>
    exact agree_buildUpTo hw ht (fun p hp => absurd (hw.nesting_lt hp) (by omega)) v
  | succ d ih =>
    refine agree_buildUpTo hw ht (fun p hp n hn v => ih ?_ hn v) v
    have hlt := hw.nesting_lt hp
    omega

/-- To the depth of the type, the recursion that ends in anything at all does what the conversion does.
-/
theorem agree_toHost (hw : w₀.InOrder) (bottom : Converter) {d : Nat} {t : HostType}
    (hd : w₀.nesting t ≤ d) (v : ScriptValue) :
    Agree w₀ (convertDeep bottom via d t v) (toHost via t v) := by
  intro w hwc
  have hcounted : Counted w₀ w.classes.size t := fun h _ => by
    rw [hwc.classes]
    exact Nat.lt_or_ge _ _
  rw [agree_convertDeep hw bottom hd hcounted v w hwc, toHost, outcome_bind_ok (outcome_look _ w)]

/-- **Conversion is the recursion on itself**: nothing of it depends on counting classes. -/
theorem agree_convertStep (hw : w₀.InOrder) (t : HostType) (v : ScriptValue) :
    Agree w₀ (toHost via t v) (convertStep (toHost via) via t v) := by
  intro w hwc
  rw [← agree_toHost hw (toHost via) (Nat.le_succ (w₀.nesting t)) v w hwc]
  refine Agree.convertStep (Filling.toHost via) (fun p hp v => ?_) via v w hwc
  exact agree_toHost hw (toHost via) (Nat.le_of_lt (hw.nesting_lt hp)) v

end Depth

/-- **Conversion nests no deeper than its type.** In sessions of closed programs classes mention
classes that were built before. Where that is so, every conversion to a part of a type is to a type
of smaller nesting depth, and an object type is one deeper than the types of its members. Whatever
the value, also if tables contain themselves: a conversion does what its recursion says, and as soon
as conversions may nest as deep as the type does, it does not matter what would come below. -/
theorem conversion_nests_within_type :
    (∀ (c : Config) layout (ops : Program), Op.allClosed ops = true →
      ((World.start c layout).after ops).InOrder) ∧
    ∀ w : World, w.InOrder →
      (∀ t, ∀ p ∈ w.parts t, w.nesting p < w.nesting t) ∧
      (∀ c, w.nesting (.object c) = deepest w.nesting (w.cls c).valueTypes + 1) ∧
      ∀ via t v,
        (toHost via t v).outcome w = (convertStep (toHost via) via t v).outcome w ∧
        ∀ bottom d, w.nesting t ≤ d →
          (convertDeep bottom via d t v).outcome w = (toHost via t v).outcome w := by
  -- Classes refer to earlier classes only, since the variables that name them were assigned before.
  refine ⟨fun c layout ops h => ((World.Tidy.start c layout).after h).toInOrder, fun w hw => ?_⟩
  refine ⟨fun t p hp => hw.nesting_lt hp, hw.nesting_object, fun via t v => ⟨?_, ?_⟩⟩
  · exact agree_convertStep hw t v w (.refl w)
  · exact fun bottom d hd => agree_toHost hw bottom hd v w (.refl w)

/-- Nodes hold leaves, leaves hold anything, and a table holds itself under the name of both. -/
def knotSession : Program :=
  let stored (name : String) : Disposition := ⟨some name, none, false, false⟩
  [.cls (stored "leaf") ⟨"Leaf", [.field "inner" (.plain .any) "inner" true none], some [], none⟩,
    .cls (stored "node")
      ⟨"Node", [.field "inner" (.object "leaf") "inner" true none], some [], none⟩,
    .act (stored "knot") (.value (.bind (.map []))),
    .act ⟨none, none, false, false⟩
      (.table (.set (.var "knot" 0) (.string "inner") (.var "knot" 0)))]

/-- The table becomes a node with a leaf in it, two conversions deep; there it stays a table. -/
theorem conversion_nests_within_type_knotSession :
    let w := (World.start .default fun r => r.index).after knotSession
    let node : HostType := .object ⟨⟨1⟩, "Node"⟩
    let stuck : Converter := fun _ _ => throw (.missingConstructor "")
    Op.allClosed knotSession = true ∧ w.InOrder ∧ w.nesting node = 2 ∧
      (toHost ⟨0⟩ node (.table ⟨1⟩)).outcome w =
        (convertDeep stuck ⟨0⟩ 2 node (.table ⟨1⟩)).outcome w ∧
      ((toHost ⟨0⟩ node (.table ⟨1⟩)).outcome w).1.toOption.map HostValue.isObject = some true := by
  intro w node stuck
  obtain ⟨hsession, hnests⟩ := conversion_nests_within_type
  have hclosed : Op.allClosed knotSession = true := by decide
  have hw : w.InOrder := hsession .default _ knotSession hclosed
  have hdepth : w.nesting node = 2 := by decide +kernel
  obtain ⟨-, -, hconvert⟩ := hnests w hw
  have hdeep := (hconvert ⟨0⟩ node (.table ⟨1⟩)).2 stuck 2 (Nat.le_of_eq hdepth)
  exact ⟨hclosed, hw, hdepth, hdeep.symm, by decide +kernel⟩

end Act

end ScriptHost
