import Mathlib.Data.List.Forall2
import ScriptHost.Convert.ToHost
import ScriptHost.Proofs.Proxies.Entry

/-!
# Script values that stand for host values

What conversion to script makes is found again later: a table keeps the elements it was made with and
a proxy its target, whatever else is made. `World.Represents w x s` says that in the world `w` the
script value `s` is what conversion makes of the host value `x`: scalars one by one, for an array a
table that is the sequence of its elements, for an object or a class a proxy of it.

Main statements: `toScript_represents`, and `Represents.grows`, which keeps a representation while
a world grows. `roundTrip` takes a host value into script and back, and `roundTrip_eq` says that only
the way back can go wrong.
-/

set_option autoImplicit false

namespace ScriptHost

/-- **A script value stands for a host value.** -/
inductive World.Represents (w : World) : HostValue → ScriptValue → Prop where
  | null : Represents w .null .nil
  | bool (b : Bool) : Represents w (.bool b) (.boolean b)
  | int (i : Int64) : Represents w (.int i) (.integer i)
  | uint (u : UInt64) : Represents w (.uint u) (Act.ofUInt64 u)
  | float (x : Binary64) : Represents w (.float x) (.number x)
  | string (s : String) : Represents w (.string s) (.string s)
  | array {items : List HostValue} {t : TableRef} {vs : List ScriptValue}
      (ht : w.tables.get? t = some (.ofSequence vs)) (h : List.Forall₂ (Represents w) items vs) :
      Represents w (.array items) (.table t)
  | object {o : ObjectRef} {u : UserdataRef} (h : w.Targets u o) :
      Represents w (.object o) (.userdata u)
  | cls {c : ClassRef} {u : UserdataRef} {p : Proxy} (hp : w.proxy? u = some p)
      (hc : p.target = some (.type c)) : Represents w (.cls c) (.userdata u)
  | script (v : ScriptValue) : Represents w (.script v) v

namespace World

variable {w w' : World}

mutual

/-- What stands for a value stands for it as long as tables and userdata are as they were. -/
theorem Represents.of_stores (ht : ∀ t x, w.tables.get? t = some x → w'.tables.get? t = some x)
    (hu : ∀ u x, w.userdata.get? u = some x → w'.userdata.get? u = some x) :
    ∀ (x : HostValue) {s : ScriptValue}, w.Represents x s → w'.Represents x s
  | .null, _, .null => .null
  | .bool _, _, .bool b => .bool b
  | .int _, _, .int i => .int i
  | .uint _, _, .uint u => .uint u
  | .float _, _, .float x => .float x
  | .string _, _, .string s => .string s
  | .array items, _, .array htable h => .array (ht _ _ htable) (forall₂_of_stores ht hu items h)
  | .object _, _, .object ⟨p, t, hp, htarget, hsame⟩ =>
    .object ⟨p, t, proxy?_eq_some.mpr (hu _ _ (proxy?_eq_some.mp hp)), htarget, hsame⟩
  | .cls _, _, .cls hp hc => .cls (proxy?_eq_some.mpr (hu _ _ (proxy?_eq_some.mp hp))) hc
  | .script _, _, .script v => .script v

/-- The same for a list. -/
theorem Represents.forall₂_of_stores
    (ht : ∀ t x, w.tables.get? t = some x → w'.tables.get? t = some x)
    (hu : ∀ u x, w.userdata.get? u = some x → w'.userdata.get? u = some x) :
    ∀ (xs : List HostValue) {vs : List ScriptValue}, List.Forall₂ w.Represents xs vs →
      List.Forall₂ w'.Represents xs vs
  | [], _, .nil => .nil
  | x :: xs, _, .cons h hs => .cons (Represents.of_stores ht hu x h) (forall₂_of_stores ht hu xs hs)

end

/-- Every element of a table stands for an element. -/
theorem Represents.of_mem {items : List HostValue} {vs : List ScriptValue} {v : ScriptValue}
    (h : List.Forall₂ w.Represents items vs) (hv : v ∈ vs) : ∃ x ∈ items, w.Represents x v := by
  induction h with
  | nil => cases hv
  | cons hx _ ih =>
    rcases List.mem_cons.mp hv with rfl | hv
    · exact ⟨_, List.mem_cons_self, hx⟩
    · obtain ⟨y, hy, hv⟩ := ih hv
      exact ⟨y, List.mem_cons_of_mem _ hy, hv⟩

/-- What represents a value does so in every world with the same tables and userdata. -/
theorem Represents.of_eq {x : HostValue} {s : ScriptValue} (h : w.Represents x s)
    (ht : w'.tables = w.tables) (hu : w'.userdata = w.userdata) : w'.Represents x s :=
  .of_stores (fun t y hy => by rwa [ht]) (fun u y hy => by rwa [hu]) x h

/-- And in every world that has more of them. -/
theorem Represents.grows {x : HostValue} {s : ScriptValue} (h : w.Represents x s)
    (hg : w.Grows w') : w'.Represents x s :=
  .of_stores hg.tables hg.userdata x h

end World

/-! ### Conversion to script -/

namespace Act

variable {ε : Type} {via : BindingRef}

/-- The cached proxy of an object is a proxy of it, and so is a new one. -/
theorem proxyFor_targets {o : ObjectRef} {u : UserdataRef} {w w' : World}
    (h : (proxyFor via o : Act ε UserdataRef).outcome w = (.ok u, w')) : w'.Targets u o := by
  rw [outcome_proxyFor] at h
  cases hc : w.cachedProxy? via o with
  | some v =>
    rw [hc] at h
    cases h
    exact World.targets_of_cached hc
  | none =>
    rw [hc] at h
    cases h
    exact w.targets_withProxy via o

mutual

/-- **Conversion to script makes what stands for the value.** -/
theorem toScript_represents : ∀ (x : HostValue) {w w' : World} {s : ScriptValue},
    (toScript via x : Act ε ScriptValue).outcome w = (.ok s, w') → w'.Represents x s
  | .null, w, w', s, h | .bool _, w, w', s, h | .int _, w, w', s, h | .uint _, w, w', s, h
  | .float _, w, w', s, h | .string _, w, w', s, h | .script _, w, w', s, h => by
    unfold toScript at h
    cases h
    constructor
  | .array items, w, w', s, h => by
    obtain ⟨vs, w₁, hvs, rfl, rfl⟩ := toScript_array h
    -- The table is made last, when its entries represent the items.
    have hrepr := toScriptEach_represents items hvs
    have hg := w₁.grows_table (.ofSequence vs)
    refine .array (Store.get?_push_self _ _) ?_
    exact World.Represents.forall₂_of_stores hg.tables hg.userdata items hrepr
  | .object o, w, w', s, h => by
    obtain ⟨u, hu, rfl⟩ := toScript_object h
    exact .object (proxyFor_targets hu)
  | .cls c, w, w', s, h => by
    unfold toScript at h
    cases h
    exact .cls (World.proxy?_eq_some.mpr (Store.get?_push_self _ _)) rfl

/-- The same for a list. -/
theorem toScriptEach_represents : ∀ (xs : List HostValue) {pending : List Handle} {w w' : World}
    {vs : List ScriptValue},
    (toScriptEach via xs pending : Act ε _).outcome w = (.ok vs, w') →
      List.Forall₂ w'.Represents xs vs
  | [], _, w, w', vs, h => by
    unfold toScriptEach at h
    cases h
    exact .nil
  | x :: xs, pending, w, w', vs, h => by
    obtain ⟨v, w₁, rest, w₂, hv, hrest, rfl, rfl⟩ := toScriptEach_cons h
    -- What was made for the first element is still there when the others are converted.
    have hg := toScriptEach_grows hrest
    have hfirst : w₂.Represents x v :=
      .of_stores (w := w₁) hg.tables hg.userdata x (toScript_represents x hv)
    have hall := List.Forall₂.cons hfirst (toScriptEach_represents xs hrest)
    -- The world that is left differs from this one in what it holds only.
    refine World.Represents.forall₂_of_stores (w := w₂) ?_ ?_ (x :: xs) hall
    · exact fun _ _ h => h
    · exact fun _ _ h => h

end

/-! ### Back from script -/

variable {w : World}

/-- **Elements are read back one by one**, when each of them is. -/
theorem convertItems_represents {convert : ScriptValue → Act ConversionError HostValue}
    {target element : HostType} {back : HostValue → HostValue} {items : List HostValue}
    {vs : List ScriptValue} (h : List.Forall₂ w.Represents items vs)
    (hconvert : ∀ x ∈ items, ∀ s, w.Represents x s → (convert s).outcome w = (.ok (back x), w))
    (i : Nat) :
    (convertItems convert target element vs i).outcome w = (.ok (items.map back), w) := by
  induction h generalizing i with
  | nil => rfl
  -- An item that is converted leaves the world as it is, so the others are converted in the same one.
  | @cons x s xs vs hs _ ih =>
    have hrest := ih (fun y hy => hconvert y (List.mem_cons_of_mem x hy)) (i + 1)
    have hitem : (mapError (fun w _ => ConversionError.arrayElement target.name i s.kind
        (w.naturalType s) element.name) (convert s)).outcome w = (.ok (back x), w) := by
      rw [outcome_mapError, hconvert x List.mem_cons_self s hs]
    unfold convertItems
    rw [outcome_bind_ok hitem, outcome_bind_ok hrest]
    rfl

/-- nil is read back as null by the types that admit it. -/
theorem convertWith_nil {build : Builder} {t : HostType} (h : t.admitsNull = true) :
    convertWith build t .nil = pure .null := by
  unfold convertWith
  rw [if_pos h]

/-! ### There and back -/

/-- A host value into script and back to a type. It is held all the while, and so is what it became
in script. -/
def roundTrip (via : BindingRef) (t : HostType) (x : HostValue) : Act ConversionError HostValue :=
  holding (handles x) do
    let s ← toScript via x
    holding (handles s) (toHost via t s)

/-- The way into script succeeds, and the way back reads what it made. -/
theorem roundTrip_eq (via : BindingRef) (t : HostType) (x : HostValue) (w : World) :
    ∃ s w₁, (toScript via x : Act ConversionError ScriptValue).outcome
        { w with held := handles x ++ w.held } = (.ok s, w₁) ∧
      ((roundTrip via t x).outcome w).1 =
        ((toHost via t s).outcome { w₁ with held := handles s ++ w₁.held }).1 := by
  obtain ⟨s, w₁, hs, -⟩ := toScript_ok via x { w with held := handles x ++ w.held }
  refine ⟨s, w₁, hs, ?_⟩
  unfold roundTrip
  rw [outcome_holding, outcome_bind_ok hs, outcome_holding]

end Act

end ScriptHost
