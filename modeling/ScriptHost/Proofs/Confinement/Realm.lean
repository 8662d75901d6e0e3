import ScriptHost.Proofs.Confinement.Exposed
import ScriptHost.Proofs.Act.Outcome
import ScriptHost.Proofs.Proxies.Entry

/-!
# The realm of a binding

A realm is a binding together with the host code behind it: the host functions that are bound to it
and the bodies of the methods that it opens. `R.Confined S w` says that script, which has got hold
of the items in `S`, has nothing that leads out of the realm: tables hold nothing but such items,
functions are script's own or bound to the binding, proxies are of the binding and stand for targets
whose open members give nothing foreign. It is an invariant with `S` growing: `S` is what script has
had hold of so far, and no item is ever taken out of it.

The items include what was learnt of classes, that a member is open (`Item.opened`), because classes
never change either. In this way the history can be told in terms of `S`: `R.Admits S e` says that
what happened is what the binding lets script do. What host code does of its own accord is
none of script's business; a realm says what that is by `own`, which may look at what happened
before.

Main statements: `Confined.addAll` adds items, and the group after it follows a confined world
through each change that script can make to it.
-/

set_option autoImplicit false

namespace ScriptHost

/-! ### Actions at hand -/

/-- The actions that take what they need from what is at hand. That is all that script can do, and
what host code can do without looking behind objects, bindings and classes. In the body of a host
function a conversion is under the binding of the body. -/
def Action.isLocal (hosted : Bool) : Action → Bool
  | .value (.dump _) => false
  | .value _ | .table _ | .error _ => true
  | .call (.call _ _) | .call (.invoke _ _ _) | .call (.index _ _) | .call (.setIndex _ _ _)
  | .call (.coroutine _) | .call (.coroutineStatus _) | .call (.resume _ _)
  | .call (.guard _ _) => true
  | .call (.callFunction _ _) | .call (.callGlobal _ _) => hosted
  | .conversion (.toHost _ _) | .conversion (.toScript _) => hosted
  | .conversion _ => true
  | .cls (.instantiate _ _) | .cls (.construct _) | .cls (.setSlot _ _ _) => true
  | _ => false

mutual

/-- Whether an operation takes what it needs from what is at hand, with all bodies in it. -/
def Op.isLocal (hosted : Bool) : Op → Bool
  | .act _ a => a.isLocal hosted
  | .giveScript _ _ | .giveHost _ _ => true
  | .branch _ _ yes no => Op.allLocal hosted yes && Op.allLocal hosted no
  | .function _ _ _ _ body => Op.allLocal false body
  | _ => false

/-- The same for the operations of a program. -/
def Op.allLocal (hosted : Bool) : List Op → Bool
  | [] => true
  | op :: rest => op.isLocal hosted && Op.allLocal hosted rest

end

/-! ### Realms -/

/-- A binding and the host code behind it. -/
structure Realm where
  via : BindingRef
  /-- The policy and the visibility of the binding. -/
  settings : Binding
  /-- The host functions that are bound to the binding. -/
  functions : HostFunction → Prop
  /-- The bodies of the methods that the binding opens. -/
  methods : Program → Prop
  /-- What may happen after what happened before without script's doing. -/
  own : List Event → Event → Prop
  /-- What happened before script began, newest first. -/
  before : List Event

/-- What reading the member gives, where the receiver has these slots. -/
def Member.given? (slots : Slots) : Member → Option HostValue
  | .method _ => none
  | .property p => if p.isIndexer then none else p.getter.map fun
    | .constant v => v
    | .slot s => slots.read s
  | .field f => some (slots.read f.slot)

/-- The slots behind a target; a class has none. -/
def World.slotsOf (w : World) (t : Target) : Slots :=
  match t with
  | .type _ => []
  | .object o => (w.object o).payload.slotsOf

namespace Realm

variable (R : Realm)

/-- The binding opens a member of a class or of its instances: some key finds it, the visibility
admits it and the policy permits it. -/
def Opens (w : World) (c : ClassRef) (onInstance : Bool) (m : Member) : Prop :=
  ∃ k, m ∈ R.settings.resolve (w.cls c) k onInstance

/-- Open members give nothing that script has not, and run bodies of the realm. -/
def Clean (S : Set Item) (w : World) (c : ClassRef) (onInstance : Bool) (slots : Slots) : Prop :=
  ∀ m, R.Opens w c onInstance m →
    (∀ v, m.given? slots = some v → Inside S v) ∧ ∀ x, m = .method x → R.methods x.body

/-- The function is one of script, or bound to the binding. A method was read from a target under
which it is open. -/
def Bound (S : Set Item) (f : Function) : Prop :=
  match f.code with
  | .script body => Op.allLocal false body = true
  | .host via h => via = R.via ∧ R.functions h
  | .method via t m => via = R.via ∧ f.name = t.cls.name ++ "." ++ m.name ∧ R.methods m.body ∧
    .target t ∈ S ∧ .opened t.cls t.isInstance (.method m) ∈ S

/-- A proxy is of the binding, a travelling failure carries nothing that script has not. -/
def Tied (S : Set Item) : Userdata → Prop
  | .foreign _ _ => True
  | .proxy p => p.via = R.via ∧ ∀ t, p.target = some t → .target t ∈ S
  | .carrier e => Inside S e

/-- What script has got hold of is there and leads to nothing but items in `S`. -/
def Fine (S : Set Item) (w : World) : Item → Prop
  | .table t => ∃ x, w.tables.get? t = some x ∧ Inside S x
  | .function f => ∃ x, w.functions.get? f = some x ∧ R.Bound S x
  | .userdata u => ∃ x, w.userdata.get? u = some x ∧ R.Tied S x
  | .coroutine c => ∃ x, w.coroutines.get? c = some x ∧ .function x.function ∈ S
  | .target t => (∀ o, t = .object o → w.Has (.object o)) ∧
    R.Clean S w t.cls t.isInstance (w.slotsOf t)
  | .opened c onInstance m => R.Opens w c onInstance m

/-- **What script may do**: everything that starts is of the binding, and a member is open. -/
def Admits (S : Set Item) : Event → Prop
  | .getter via c m | .setter via c m _ => via = R.via ∧ ∃ onInstance, .opened c onInstance m ∈ S
  | .body via name params _ => via = R.via ∧
    ((∃ h, R.functions h ∧ name = h.name ∧ params = h.params) ∨
      ∃ c onInstance m, .opened c onInstance (.method m) ∈ S ∧ name = c.name ++ "." ++ m.name ∧
        params = m.params)
  | .wrapped via _ _ => via = R.via
  | .called f _ => .function f ∈ S
  | _ => True

/-- Everything that has happened since script began is the host's own or what script may do. -/
inductive Accounted (S : Set Item) : List Event → Prop where
  | start : Accounted S R.before
  | own {j : List Event} {e : Event} (hj : Accounted S j) (he : R.own j e) : Accounted S (e :: j)
  | admitted {j : List Event} {e : Event} (hj : Accounted S j) (he : R.Admits S e) :
    Accounted S (e :: j)

/-- The userdata value is a proxy of the binding, perhaps a disposed one. -/
def HasProxy (w : World) (u : UserdataRef) : Prop :=
  ∃ p, w.userdata.get? u = some (.proxy p) ∧ p.via = R.via ∧
    ∀ o, p.target = some (.object o) → w.Has (.object o)

/-- **Confinement**: what script has got hold of leads to nothing but `S`. -/
structure Confined (S : Set Item) (w : World) : Prop where
  /-- The binding is as the realm says. -/
  binding : ∃ b, w.bindings.get? R.via = some b ∧ b = { R.settings with cache := b.cache } ∧
    ∀ e ∈ b.cache, R.HasProxy w e.2
  /-- What script has is there and stays inside. -/
  items : ∀ i ∈ S, R.Fine S w i
  /-- What classes themselves make their instances give is nothing foreign. -/
  classes : ∀ c, R.Clean S w c true []
  /-- Neither is what constructors put into fresh instances. -/
  constructors : ∀ c slots, (w.cls c).constructor = some slots → R.Clean S w c true slots
  globals : .table w.globals ∈ S
  /-- What bodies read from variables is inside. -/
  vars : ∀ p ∈ w.vars, Inside S p.2
  journal : R.Accounted S w.journal

end Realm

namespace Realm

variable {R : Realm} {S S' T : Set Item} {w w' : World}

/-! ### More items -/

/-- What open members give stays inside when script has more. -/
theorem Clean.mono {c : ClassRef} {onInstance : Bool} {slots : Slots}
    (h : R.Clean S w c onInstance slots) (hS : S ⊆ S') : R.Clean S' w c onInstance slots :=
  fun m hm => ⟨fun v hv => ((h m hm).1 v hv).mono hS, (h m hm).2⟩

section Bound

variable {f : Function}

/-- A function of script has a local body. -/
theorem Bound.script {body : Program} (h : R.Bound S f) (hcode : f.code = .script body) :
    Op.allLocal false body = true := by
  unfold Bound at h
  rwa [hcode] at h

/-- A function of the host is bound to the binding, and is one of the realm. -/
theorem Bound.host {via : BindingRef} {hf : HostFunction} (h : R.Bound S f)
    (hcode : f.code = .host via hf) : via = R.via ∧ R.functions hf := by
  unfold Bound at h
  rwa [hcode] at h

/-- A method is bound to the binding and to a target under which it was open. -/
theorem Bound.method {via : BindingRef} {t : Target} {m : Method} (h : R.Bound S f)
    (hcode : f.code = .method via t m) :
    via = R.via ∧ f.name = t.cls.name ++ "." ++ m.name ∧ R.methods m.body ∧ .target t ∈ S ∧
      .opened t.cls t.isInstance (.method m) ∈ S := by
  unfold Bound at h
  rwa [hcode] at h

/-- What is bound stays bound when script has more. -/
theorem Bound.mono (h : R.Bound S f) (hS : S ⊆ S') : R.Bound S' f := by
  unfold Bound
  split
  · next hcode => exact h.script hcode
  · next hcode => exact h.host hcode
  · next hcode =>
    obtain ⟨hvia, hname, hbody, ht, hm⟩ := h.method hcode
    exact ⟨hvia, hname, hbody, hS ht, hS hm⟩

end Bound

/-- The same for a userdata. -/
theorem Tied.mono {x : Userdata} (h : R.Tied S x) (hS : S ⊆ S') : R.Tied S' x := by
  cases x with
  | «foreign» => trivial
  | proxy p => exact ⟨h.1, fun t ht => hS (h.2 t ht)⟩
  | carrier e => exact Inside.mono h hS

/-- And for any item. -/
theorem Fine.mono {i : Item} (h : R.Fine S w i) (hS : S ⊆ S') : R.Fine S' w i := by
  cases i with
  | table t =>
    obtain ⟨x, hx, hin⟩ := h
    exact ⟨x, hx, hin.mono hS⟩
  | function f =>
    obtain ⟨x, hx, hbound⟩ := h
    exact ⟨x, hx, hbound.mono hS⟩
  | userdata u =>
    obtain ⟨x, hx, htied⟩ := h
    exact ⟨x, hx, htied.mono hS⟩
  | coroutine c =>
    obtain ⟨x, hx, hf⟩ := h
    exact ⟨x, hx, hS hf⟩
  | target t => exact ⟨h.1, h.2.mono hS⟩
  | opened c onInstance m => exact h

/-- What script may do it may still do when it has more. -/
theorem Admits.mono {e : Event} (h : R.Admits S e) (hS : S ⊆ S') : R.Admits S' e := by
  cases e with
  | getter via c m | setter via c m v =>
    obtain ⟨hvia, onInstance, hm⟩ := h
    exact ⟨hvia, onInstance, hS hm⟩
  | body via name params args =>
    obtain ⟨hvia, hf | ⟨c, onInstance, m, hm, hname, hparams⟩⟩ := h
    · exact ⟨hvia, .inl hf⟩
    · exact ⟨hvia, .inr ⟨c, onInstance, m, hS hm, hname, hparams⟩⟩
  | called f inCoroutine => exact hS h
  | _ => exact h

/-- So the history stays accounted for. -/
theorem Accounted.mono {j : List Event} (h : R.Accounted S j) (hS : S ⊆ S') :
    R.Accounted S' j := by
  induction h with
  | start => exact .start
  | own _ he ih => exact .own ih he
  | admitted _ he ih => exact .admitted ih (he.mono hS)

/-- **Script may get hold of more**, as long as that is fine. -/
theorem Confined.addAll (h : R.Confined S w) (hT : ∀ i ∈ T, R.Fine (S ∪ T) w i) :
    R.Confined (S ∪ T) w where
  binding := h.binding
  items i hi := hi.elim (fun hi => (h.items i hi).mono Set.subset_union_left) (hT i)
  classes c := (h.classes c).mono Set.subset_union_left
  constructors c slots hc := (h.constructors c slots hc).mono Set.subset_union_left
  globals := .inl h.globals
  vars p hp := (h.vars p hp).mono Set.subset_union_left
  journal := h.journal.mono Set.subset_union_left

/-- Script may get hold of one more item, if that leads to nothing but what it has then. -/
theorem Confined.add (h : R.Confined S w) {i : Item} (hi : R.Fine (insert i S) w i) :
    R.Confined (insert i S) w := by
  rw [Set.insert_eq, Set.union_comm] at hi ⊢
  refine h.addAll fun j hj => ?_
  obtain rfl := Set.mem_singleton_iff.mp hj
  exact hi

/-! ### What is read in a confined world -/

/-- What is in a table that is inside. -/
theorem Confined.table (h : R.Confined S w) {t : TableRef} (ht : .table t ∈ S) :
    Inside S (w.table t) := by
  obtain ⟨x, hx, hin⟩ := h.items _ ht
  rwa [World.table, hx]

/-- A function that is inside is bound to the binding. -/
theorem Confined.function (h : R.Confined S w) {f : FunctionRef} (hf : .function f ∈ S) :
    R.Bound S (w.function f) := by
  obtain ⟨x, hx, hbound⟩ := h.items _ hf
  rwa [World.function, hx]

/-- A userdata that is inside is tied to it. -/
theorem Confined.userdatum (h : R.Confined S w) {u : UserdataRef} (hu : .userdata u ∈ S) :
    R.Tied S (w.userdatum u) := by
  obtain ⟨x, hx, htied⟩ := h.items _ hu
  rwa [World.userdatum, hx]

/-- The function of a coroutine that is inside. -/
theorem Confined.coroutine (h : R.Confined S w) {c : CoroutineRef} (hc : .coroutine c ∈ S) :
    .function (w.coroutine c).function ∈ S := by
  obtain ⟨x, hx, hf⟩ := h.items _ hc
  rwa [World.coroutine, hx]

/-- A proxy that is inside is of the binding, and its target is inside. -/
theorem Confined.proxy (h : R.Confined S w) {u : UserdataRef} (hu : .userdata u ∈ S) {p : Proxy}
    (hp : w.proxy? u = some p) : p.via = R.via ∧ ∀ t, p.target = some t → .target t ∈ S := by
  have htied := h.userdatum hu
  have hget := World.proxy?_eq_some.mp hp
  rwa [World.userdatum, hget] at htied

/-- What a proxy reaches is its target, and script has got hold of that. -/
theorem Confined.proxyTarget (h : R.Confined S w) {u : UserdataRef} (hu : .userdata u ∈ S)
    {t : Target} (ht : w.proxyTarget? u = some t) : .target t ∈ S := by
  obtain ⟨p, hp, htarget, -⟩ := World.proxyTarget?_eq_some.mp ht
  exact (h.proxy hu hp).2 t htarget

/-- What is read from a variable. -/
theorem Confined.var (h : R.Confined S w) {name : String} {s : Stored}
    (hs : w.var? name = some s) : Inside S s := by
  obtain ⟨p, hp, rfl⟩ := Option.map_eq_some_iff.mp hs
  exact h.vars p (List.mem_of_find?_eq_some hp)

/-- A proxy stands for what it reaches, other values for themselves. -/
theorem Confined.naturalValue (h : R.Confined S w) {v : ScriptValue} (hv : Inside S v) :
    Inside S (w.naturalValue v) := by
  cases v with
  | userdata u =>
    have hu := Inside.userdata_iff.mp hv
    simp only [World.naturalValue]
    split
    · next o ho => exact Inside.object_iff.mpr (h.proxyTarget hu ho)
    · next c hc => exact Inside.cls_iff.mpr (h.proxyTarget hu hc)
    · exact Inside.script_iff.mpr hv
  | function f => exact Inside.script_iff.mpr hv
  | table t => exact Inside.script_iff.mpr hv
  | _ => exact .of_exposed_eq_nil rfl

/-- What a carrier carries is inside. -/
theorem Confined.unwrapError (h : R.Confined S w) {e : ScriptError} (he : Inside S e) :
    Inside S (Act.unwrapError w e) := by
  unfold Act.unwrapError
  dsimp only
  split
  · next u hu =>
    split
    -- The error of the host that a carrier has inside is part of the carrier.
    · next inner hcarrier =>
      have hvalue : Inside S e.value := he
      rw [hu] at hvalue
      have htied := h.userdatum (Inside.userdata_iff.mp hvalue)
      rwa [hcarrier] at htied
    · exact he
  · exact he

/-- **Resolution under the binding** finds what it opens. -/
theorem Confined.resolve (h : R.Confined S w) {c : ClassRef} {k : MemberKey} {onInstance : Bool}
    {m : Member} (hm : m ∈ (w.binding R.via).resolve (w.cls c) k onInstance) :
    R.Opens w c onInstance m := by
  obtain ⟨b, hb, hsettings, -⟩ := h.binding
  have hbinding : w.binding R.via = b := by rw [World.binding, hb, Option.getD_some]
  rw [hbinding, hsettings] at hm
  exact ⟨k, hm⟩

/-- What an open member gives is inside. -/
theorem Confined.given (h : R.Confined S w) {t : Target} (ht : .target t ∈ S) {m : Member}
    (hm : R.Opens w t.cls t.isInstance m) {v : HostValue} (hv : m.given? (w.slotsOf t) = some v) :
    Inside S v :=
  ((h.items _ ht).2 m hm).1 v hv

/-! ### What script can change -/

/-- A new table changes nothing about an item. -/
theorem Fine.pushTable {i : Item} (h : R.Fine S w i) (x : Table) :
    R.Fine S { w with tables := w.tables.push x } i := by
  cases i with
  | table t =>
    obtain ⟨y, hy, hin⟩ := h
    exact ⟨y, Store.get?_push_of_some x hy, hin⟩
  | _ => exact h

/-- A new table is one more item. -/
theorem Confined.pushTable (h : R.Confined S w) {x : Table} (hx : Inside S x) :
    R.Confined (insert (Item.table w.tables.next) S) { w with tables := w.tables.push x } := by
  have hpushed : R.Confined S { w with tables := w.tables.push x } :=
    { h with items := fun i hi => (h.items i hi).pushTable x }
  exact hpushed.add ⟨x, Store.get?_push_self _ x, hx.mono (Set.subset_insert _ _)⟩

/-- A table that is inside may be changed to hold what is inside. -/
theorem Confined.setTable (h : R.Confined S w) (r : TableRef) {x : Table} (hx : Inside S x) :
    R.Confined S { w with tables := w.tables.set r x } := by
  refine { h with items := fun i hi => ?_ }
  have hfine := h.items i hi
  cases i with
  | table t =>
    obtain ⟨y, hy, hin⟩ := hfine
    by_cases ht : t = r
    · exact ⟨x, by rw [Store.get?_set, if_pos ht, hy, Option.map_some], hx⟩
    · exact ⟨y, by rw [Store.get?_set, if_neg ht, hy], hin⟩
  | _ => exact hfine

/-- A new function of the realm is one more item. -/
theorem Confined.pushFunction (h : R.Confined S w) {x : Function} (hx : R.Bound S x) :
    R.Confined (insert (Item.function w.functions.next) S)
      { w with functions := w.functions.push x } := by
  have hpushed : R.Confined S { w with functions := w.functions.push x } := by
    refine { h with items := fun i hi => ?_ }
    have hfine := h.items i hi
    cases i with
    | function f =>
      obtain ⟨y, hy, hbound⟩ := hfine
      exact ⟨y, Store.get?_push_of_some x hy, hbound⟩
    | _ => exact hfine
  exact hpushed.add ⟨x, Store.get?_push_self _ x, hx.mono (Set.subset_insert _ _)⟩

/-- A proxy that was there is still there behind a new userdata. -/
theorem HasProxy.pushUserdata {u : UserdataRef} (h : R.HasProxy w u) (x : Userdata) :
    R.HasProxy { w with userdata := w.userdata.push x } u := by
  obtain ⟨p, hp, hvia, htarget⟩ := h
  exact ⟨p, Store.get?_push_of_some x hp, hvia, htarget⟩

/-- New userdata of the realm is one more item. -/
theorem Confined.pushUserdata (h : R.Confined S w) {x : Userdata} (hx : R.Tied S x) :
    R.Confined (insert (Item.userdata w.userdata.next) S)
      { w with userdata := w.userdata.push x } := by
  -- The cache names proxies that are there, and those keep their places.
  have hpushed : R.Confined S { w with userdata := w.userdata.push x } := by
    obtain ⟨b, hb, hsettings, hcache⟩ := h.binding
    refine { h with
      binding := ⟨b, hb, hsettings, fun e he => (hcache e he).pushUserdata x⟩
      items := fun i hi => ?_ }
    have hfine := h.items i hi
    cases i with
    | userdata u =>
      obtain ⟨y, hy, htied⟩ := hfine
      exact ⟨y, Store.get?_push_of_some x hy, htied⟩
    | _ => exact hfine
  exact hpushed.add ⟨x, Store.get?_push_self _ x, hx.mono (Set.subset_insert _ _)⟩

/-- A new coroutine of a function that is inside. -/
theorem Confined.pushCoroutine (h : R.Confined S w) {x : Coroutine}
    (hx : .function x.function ∈ S) :
    R.Confined (insert (Item.coroutine w.coroutines.next) S)
      { w with coroutines := w.coroutines.push x } := by
  have hpushed : R.Confined S { w with coroutines := w.coroutines.push x } := by
    refine { h with items := fun i hi => ?_ }
    have hfine := h.items i hi
    cases i with
    | coroutine c =>
      obtain ⟨y, hy, hf⟩ := hfine
      exact ⟨y, Store.get?_push_of_some x hy, hf⟩
    | _ => exact hfine
  exact hpushed.add ⟨x, Store.get?_push_self _ x, .inr hx⟩

/-- A coroutine in another status runs the function it had. -/
theorem Confined.setStatus (h : R.Confined S w) (c : CoroutineRef) (status : CoroutineStatus) :
    R.Confined S { w with
      coroutines := w.coroutines.set c { w.coroutine c with status := status } } := by
  refine { h with items := fun i hi => ?_ }
  have hfine := h.items i hi
  cases i with
  -- Only the status of the coroutine changes, and its function is what counts.
  | coroutine d =>
    obtain ⟨y, hy, hf⟩ := hfine
    by_cases hd : d = c
    · subst hd
      refine ⟨{ w.coroutine d with status := status }, ?_, h.coroutine hi⟩
      rw [Store.get?_set, if_pos rfl, hy, Option.map_some]
    · exact ⟨y, by rw [Store.get?_set, if_neg hd, hy], hf⟩
  | _ => exact hfine

/-! Objects keep their classes, so what is open on them stays so. -/

/-- What counts for a proxy is that its object is there. -/
theorem HasProxy.of_objects {u : UserdataRef} (h : R.HasProxy w u)
    (hu : w'.userdata = w.userdata) (ho : ∀ o, w.Has (.object o) → w'.Has (.object o)) :
    R.HasProxy w' u := by
  obtain ⟨p, hp, hvia, htarget⟩ := h
  exact ⟨p, hu ▸ hp, hvia, fun o hp => ho o (htarget o hp)⟩

/-- A new object whose open members give nothing foreign is one more target. -/
theorem Confined.pushObject (h : R.Confined S w) (c : ClassRef) {slots : Slots}
    (hclean : R.Clean S w c true slots) :
    R.Confined (insert (Item.target (.object ⟨w.objects.next, c⟩)) S)
      { w with objects := w.objects.push ⟨c, .slots slots, .free⟩ } := by
  -- Objects that were there are still there.
  have hhas : ∀ o, w.Has (.object o) →
      ({ w with objects := w.objects.push ⟨c, .slots slots, .free⟩ } : World).Has (.object o) :=
    fun o ho => w.known_pushObject true _ (fun _ => ho) rfl
  have hpushed : R.Confined S { w with objects := w.objects.push ⟨c, .slots slots, .free⟩ } := by
    obtain ⟨b, hb, hsettings, hcache⟩ := h.binding
    refine { h with
      binding := ⟨b, hb, hsettings, fun e he => (hcache e he).of_objects rfl hhas⟩
      items := fun i hi => ?_ }
    have hfine := h.items i hi
    cases i with
    -- A target is clean because of its slots, and those are not touched by a new object.
    | target t =>
      refine ⟨fun o ho => hhas o (hfine.1 o ho), ?_⟩
      cases t with
      | type d => exact hfine.2
      | object o =>
        obtain ⟨x, hx, -⟩ := hfine.1 o rfl
        have hslots : ({ w with objects := w.objects.push ⟨c, .slots slots, .free⟩ } :
            World).slotsOf (.object o) = w.slotsOf (.object o) := by
          simp only [World.slotsOf, World.object, Store.get?_push_of_some _ hx, hx]
        rw [hslots]
        exact hfine.2
    | _ => exact hfine
  refine hpushed.add ⟨?_, ?_⟩
  · rintro o ⟨⟩
    exact ⟨_, Store.get?_push_self _ _, rfl⟩
  -- The new object has the slots that it was made with.
  · have hslots : ({ w with objects := w.objects.push ⟨c, .slots slots, .free⟩ } :
        World).slotsOf (.object ⟨w.objects.next, c⟩) = slots := by
      simp only [World.slotsOf, World.object, Store.get?_push_self]
      rfl
    rw [hslots]
    exact hclean.mono (Set.subset_insert _ _)

/-- A written slot gives what was written, the others give what they gave. -/
theorem given?_write {m : Member} {slots : Slots} {slot : String} {x v : HostValue}
    (h : m.given? (slots.write slot x) = some v) : v = x ∨ m.given? slots = some v := by
  cases m with
  | method m => cases h
  | property p =>
    simp only [Member.given?] at h ⊢
    -- A property reads a slot, which is the one that was written or another one, or it is constant.
    split at h
    · cases h
    · next hplain =>
      rw [if_neg hplain]
      cases hg : p.getter with
      | none =>
        rw [hg] at h
        cases h
      | some g =>
        rw [hg] at h
        cases g with
        | constant y => exact .inr h
        | slot s =>
          simp only [Option.map_some, Slots.read_write, Option.some.injEq] at h ⊢
          split at h
          · exact .inl h.symm
          · exact .inr h
  | field f =>
    simp only [Member.given?, Slots.read_write, Option.some.injEq] at h ⊢
    split at h
    · exact .inl h.symm
    · exact .inr h

/-- Slots after a write: what open members read was there before or has been written. -/
theorem Clean.write {c : ClassRef} {onInstance : Bool} {slots : Slots}
    (h : R.Clean S w c onInstance slots) (slot : String) {x : HostValue} (hx : Inside S x) :
    R.Clean S w c onInstance (slots.write slot x) := by
  refine fun m hm => ⟨fun v hv => ?_, (h m hm).2⟩
  rcases given?_write hv with rfl | hv
  · exact hx
  · exact (h m hm).1 v hv

/-- An instance gives what its class makes it give, and what its slots hold. -/
theorem Clean.ofSlots {c : ClassRef} {onInstance : Bool} {slots : Slots}
    (h : R.Clean S w c onInstance []) (hread : ∀ slot, Inside S (slots.read slot)) :
    R.Clean S w c onInstance slots := by
  refine fun m hm => ⟨fun v hv => ?_, (h m hm).2⟩
  cases m with
  | method x => cases hv
  | field f => exact Option.some.inj hv ▸ hread f.slot
  -- The getter decides: a constant comes from the class, and anything else from a slot.
  | property p =>
    have hgiven := (h _ hm).1
    simp only [Member.given?] at hv hgiven
    split at hv
    · cases hv
    · next hplain =>
      rw [if_neg hplain] at hgiven
      cases hg : p.getter with
      | none =>
        rw [hg] at hv
        cases hv
      | some g =>
        rw [hg] at hv hgiven
        cases g with
        | constant x => exact hgiven v hv
        | slot s => exact Option.some.inj hv ▸ hread s

/-- The world in which a slot was written. -/
def written (w : World) (o : ObjectRef) (slot : String) (v : HostValue) : World :=
  { w with
    objects := w.objects.set o.ref { w.object o with
      payload := .slots ((w.object o).payload.slotsOf.write slot v) } }

section Written

variable {o q : ObjectRef} {slot : String} {v : HostValue}

/-- Writing to an object leaves all objects there, with the classes that they had. -/
theorem has_written (h : w.Has (.object q)) : (written w o slot v).Has (.object q) := by
  have hknown : w.known true ⊆ (written w o slot v).known true := w.known_setObject true o rfl
  exact hknown (fun _ => h) rfl

/-- Whoever is the same object has one slot written, the others have the slots that they had. -/
theorem slotsOf_written (h : w.Has (.object q)) :
    (written w o slot v).slotsOf (.object q) =
      if q.ref = o.ref then (w.slotsOf (.object q)).write slot v else w.slotsOf (.object q) := by
  obtain ⟨x, hx, -⟩ := h
  have hobject : w.object q = x := by rw [World.object, hx, Option.getD_some]
  simp only [World.slotsOf]
  split
  -- The object itself: its slots have been written.
  · next hq =>
    have hsame : w.object o = x := by rw [World.object, ← hq, hx, Option.getD_some]
    have hread : (written w o slot v).objects.get? q.ref =
        some { w.object o with payload := .slots ((w.object o).payload.slotsOf.write slot v) } := by
      rw [written, Store.get?_set, if_pos hq, hx, Option.map_some]
    rw [World.object, hread, hobject, hsame]
    rfl
  -- Another object.
  · next hq =>
    have hread : (written w o slot v).objects.get? q.ref = some x := by
      rw [written, Store.get?_set, if_neg hq, hx]
    rw [World.object, hread, hobject]
    rfl

end Written

/-- What is written into a slot is inside, so that whoever reads it gets nothing foreign. -/
theorem Confined.writeSlot (h : R.Confined S w) (o : ObjectRef) (slot : String) {v : HostValue}
    (hv : Inside S v) : R.Confined S (written w o slot v) := by
  obtain ⟨b, hb, hsettings, hcache⟩ := h.binding
  refine { h with
    binding := ⟨b, hb, hsettings, fun e he => (hcache e he).of_objects rfl fun _ => has_written⟩
    items := fun i hi => ?_ }
  have hfine := h.items i hi
  cases i with
  | target t =>
    refine ⟨fun q hq => has_written (hfine.1 q hq), ?_⟩
    cases t with
    | type d => exact hfine.2
    | object q =>
      -- Of all slots only those of the written object differ, and there only in `v`.
      have hclean : R.Clean S w q.cls true (w.slotsOf (.object q)) := hfine.2
      rw [slotsOf_written (hfine.1 q rfl)]
      split
      · exact hclean.write slot hv
      · exact hclean
  | _ => exact hfine

/-! The journal, the variables and the cache. -/

/-- What script may do is written down. -/
theorem Confined.note (h : R.Confined S w) {e : Event} (he : R.Admits S e) :
    R.Confined S { w with journal := e :: w.journal } :=
  { h with journal := .admitted h.journal he }

/-- Variables that are dropped. -/
theorem Confined.dropVars (h : R.Confined S w) (keep : String × Stored → Bool) :
    R.Confined S { w with vars := w.vars.filter keep } :=
  { h with vars := fun p hp => h.vars p (List.mem_filter.mp hp).1 }

/-- A variable that is assigned with what is inside. -/
theorem Confined.pushVar (h : R.Confined S w) (name : String) {s : Stored} (hs : Inside S s) :
    R.Confined S { w with vars := (name, s) :: w.vars } :=
  { h with vars := List.forall_mem_cons.mpr ⟨hs, h.vars⟩ }

/-- An entry of a cache that was cleaned, and then written, is the new one or was there. -/
theorem mem_put {c : ProxyCache} {live : UserdataRef → Bool} {address : Nat} {u : UserdataRef}
    {e : Nat × UserdataRef} (he : e ∈ (c.clean live).put address u) : e = (address, u) ∨ e ∈ c := by
  have hclean : ∀ e ∈ c.clean live, e ∈ c := by
    intro e he
    unfold ProxyCache.clean at he
    split at he
    · exact (List.mem_filter.mp he).1
    · exact he
  rcases List.mem_cons.mp he with rfl | he
  · exact .inl rfl
  · exact .inr (hclean e (List.mem_filter.mp he).1)

/-- The binding's new proxy of an object that script may have is one more item. -/
theorem Confined.withProxy (h : R.Confined S w) {o : ObjectRef} (ho : .target (.object o) ∈ S) :
    R.Confined (insert (Item.userdata w.userdata.next) S) (w.withProxy R.via o) := by
  have hhas : w.Has (.object o) := (h.items _ ho).1 o rfl
  -- The new proxy is of the binding, and what it stands for is inside.
  have hpushed := h.pushUserdata (x := .proxy ⟨some (.object o), R.via, o.cls.name⟩)
    ⟨rfl, fun t ht => Option.some.inj ht ▸ ho⟩
  obtain ⟨b, hb, hsettings, hcache⟩ := h.binding
  obtain ⟨v, -, hb'⟩ := World.binding_withProxy hb o
  refine { hpushed with binding := ⟨_, hb', ?_, fun e he => ?_⟩, journal := ?_ }
  · rw [hsettings]
  -- The cache has got one more entry, for this proxy.
  · have hentry : R.HasProxy { w with
        userdata := w.userdata.push (.proxy ⟨some (.object o), R.via, o.cls.name⟩) } e.2 := by
      rcases mem_put he with rfl | he
      · refine ⟨_, Store.get?_push_self _ _, rfl, fun q hq => ?_⟩
        obtain rfl := Target.object.inj (Option.some.inj hq)
        exact hhas
      · exact (hcache e he).pushUserdata _
    exact hentry
  · exact .admitted hpushed.journal rfl

/-- **The cached proxy of an object that script may have** is of the binding and stands for this
object. -/
theorem Confined.cachedProxy (h : R.Confined S w) {o : ObjectRef} (ho : .target (.object o) ∈ S)
    {u : UserdataRef} (hu : w.cachedProxy? R.via o = some u) :
    R.Confined (insert (Item.userdata u) S)
      { w with journal := .wrapped R.via o u :: w.journal } := by
  obtain ⟨x, hx, hcls⟩ := (h.items _ ho).1 o rfl
  obtain ⟨b, hb, -, hcache⟩ := h.binding
  have hbinding : w.binding R.via = b := by rw [World.binding, hb, Option.getD_some]
  obtain ⟨hfind, -, t, ht, hsame⟩ := World.cachedProxy?_eq_some.mp hu
  rw [hbinding] at hfind
  obtain ⟨e, he, rfl⟩ := Option.map_eq_some_iff.mp hfind
  obtain ⟨p, hp, hvia, hstands⟩ := hcache e (List.mem_of_find?_eq_some he)
  refine (h.note (e := .wrapped R.via o e.2) rfl).add ⟨.proxy p, hp, hvia, fun t' ht' => .inr ?_⟩
  -- The proxy reaches the same object, and two handles to one object name one class.
  obtain ⟨q, hq, hqtarget, -⟩ := World.proxyTarget?_eq_some.mp ht
  obtain rfl : p = q := by
    rw [World.proxy?_eq_some, hp] at hq
    exact Userdata.proxy.inj (Option.some.inj hq)
  obtain rfl : t' = t := Option.some.inj (ht'.symm.trans hqtarget)
  cases t' with
  | type c => cases hsame
  | object o' =>
    have href : o'.ref = o.ref := World.same_iff.mp hsame
    obtain ⟨y, hy, hycls⟩ := hstands o' ht'
    have hxy : x = y := Option.some.inj (hx.symm.trans (href ▸ hy))
    have hobject : o' = o := by
      cases o'; cases o
      simp_all
    exact hobject ▸ ho

end Realm

end ScriptHost
