import ScriptHost.Proofs.Instants.Basic
import ScriptHost.Proofs.Proxies.Gone

/-!
# Who owns objects

Objects belong to the host. What counts for the life of an object are strong handles to it, and those
are in variables of the host, in slots of objects that live, in constants of classes that live, and in
what running code was given to work on (`World.strong`). Nothing that script can have is among them:
proxies and the functions read through them name their object weakly, and tables, errors and
coroutines hold script values only.

What a proxy does keep alive is the class of its object. A constant of that class may be an object,
which then lives as long as the proxy does. So the life of objects is independent of what script has
(`World.SameHost`) as far as the same classes live, and not further: `constant_dies_with_proxy`.

The first part is one look at liveness without a bound, the second an induction on why a thing is
dead. That what running code was given is all that is held between acts lasts through a run.
-/

set_option autoImplicit false

namespace ScriptHost

open Act

/-! ### Strong handles -/

namespace Handle

/-- The object that a handle is to, if it is to one. -/
def object? : Handle → Option (Ref .object)
  | ⟨.object, i⟩ => some ⟨i⟩
  | _ => none

/-- The objects among things, as often as there are handles to them. -/
def objectsAmong (hs : List Handle) : List (Ref .object) := hs.filterMap object?

/-- The objects among the things of two lists are those of the first and those of the second. -/
theorem objectsAmong_append (hs ks : List Handle) :
    objectsAmong (hs ++ ks) = objectsAmong hs ++ objectsAmong ks :=
  List.filterMap_append

theorem object?_handle (o : Ref .object) : o.handle.object? = some o := rfl

/-- A handle is to an object only if it is the handle of that object. -/
theorem object?_eq_some {h : Handle} {o : Ref .object} (hh : h.object? = some o) : h = o.handle := by
  obtain ⟨kind, index⟩ := h
  cases kind with
  | object =>
    obtain rfl := Option.some.inj hh
    rfl
  | _ => cases hh

/-- An object is among things if its handle is. -/
theorem mem_objectsAmong {hs : List Handle} {o : Ref .object} :
    o ∈ objectsAmong hs ↔ o.handle ∈ hs := by
  unfold objectsAmong
  rw [List.mem_filterMap]
  constructor
  · rintro ⟨h, hh, ho⟩
    exact object?_eq_some ho ▸ hh
  · exact fun ho => ⟨o.handle, ho, object?_handle o⟩

/-- Where nothing is an object there are none. -/
theorem objectsAmong_eq_nil {hs : List Handle} (h : ∀ k ∈ hs, k.kind ≠ .object) :
    objectsAmong hs = [] := by
  rw [List.eq_nil_iff_forall_not_mem]
  intro o ho
  exact h o.handle (mem_objectsAmong.mp ho) rfl

/-- The objects among what several things hold are collected one by one. -/
theorem objectsAmong_flatMap {α : Type} (xs : List α) (f : α → List Handle) :
    objectsAmong (xs.flatMap f) = xs.flatMap fun x => objectsAmong (f x) :=
  List.filterMap_flatMap

end Handle

mutual

/-- The strong handles in a host value. -/
def HostValue.objects : HostValue → List (Ref .object)
  | .array items => HostValue.objectsOfAll items
  | .object o => [o.ref]
  | _ => []

/-- The strong handles in the values of an array. -/
def HostValue.objectsOfAll : List HostValue → List (Ref .object)
  | [] => []
  | x :: xs => x.objects ++ HostValue.objectsOfAll xs

end

/-- The strong handles in a variable. -/
def Stored.objects : Stored → List (Ref .object)
  | .object o => [o.ref]
  | .host v => v.objects
  | _ => []

/-- The constant that a member gives, if it gives one. -/
def Member.constant? : Member → Option HostValue
  | .property p => match p.getter with
    | some (.constant v) => some v
    | _ => none
  | _ => none

/-- The values that a class gives whenever it is asked: the constants of its properties and what its
constructor starts from. -/
def HostClass.constants (c : HostClass) : List HostValue :=
  c.members.filterMap Member.constant? ++ (c.constructor.getD []).map Prod.snd

namespace World

/-- The values in the slots of an object. -/
def slotValues (w : World) (o : Ref .object) : List HostValue :=
  ((w.objects.get? o).map fun x => x.payload.slotsOf.map Prod.snd).getD []

/-- The constants of a class. -/
def constants (w : World) (c : Ref .cls) : List HostValue :=
  ((w.classes.get? c).map HostClass.constants).getD []

/-- **The strong handles to objects**, where running code works on what is in use. -/
def strong (w : World) (uses : List Handle) : List (Ref .object) :=
  Handle.objectsAmong uses ++ (w.vars.flatMap fun p => p.2.objects) ++
    ((w.objects.refs.filter fun o => w.alive o.handle).flatMap fun o =>
      (w.slotValues o).flatMap HostValue.objects) ++
    ((w.classes.refs.filter fun c => w.alive c.handle).flatMap fun c =>
      (w.constants c).flatMap HostValue.objects)

/-- How many strong handles there are to an object. -/
def strongCount (w : World) (uses : List Handle) (o : Ref .object) : Nat := (w.strong uses).count o

end World

/-! ### What holds objects -/

section Contents

open Handle (objectsAmong objectsAmong_append objectsAmong_eq_nil objectsAmong_flatMap)

mutual

/-- A host value holds the objects to which there are strong handles in it. -/
theorem HostValue.objectsAmong_held : ∀ v : HostValue, objectsAmong v.held = v.objects
  | .array items => HostValue.objectsAmong_heldAll items
  | .object _ | .null | .bool _ | .int _ | .uint _ | .float _ | .string _ | .cls _ => rfl
  | .script _ => objectsAmong_eq_nil fun _ => CallAction.kind_of_mem_handles

/-- An array holds those of its items. -/
theorem HostValue.objectsAmong_heldAll : ∀ xs : List HostValue,
    objectsAmong (HostValue.heldAll xs) = HostValue.objectsOfAll xs
  | [] => rfl
  | x :: xs => by
    show objectsAmong (x.held ++ HostValue.heldAll xs) = x.objects ++ HostValue.objectsOfAll xs
    rw [objectsAmong_append, HostValue.objectsAmong_held x, HostValue.objectsAmong_heldAll xs]

end

/-- A type mentions classes only. -/
theorem HostType.objectsAmong_handles (t : HostType) : objectsAmong (Holds.handles t) = [] := by
  induction t with
  | array t ih | nullable t ih => exact ih
  | _ => rfl

/-- Several things hold no objects if each of them holds none. -/
theorem objectsAmong_handles_list {α : Type} [Holds α] (h : ∀ x : α, objectsAmong (handles x) = [])
    (xs : List α) : objectsAmong (handles xs) = [] := by
  show objectsAmong (xs.flatMap handles) = []
  rw [objectsAmong_flatMap]
  exact List.flatMap_eq_nil_iff.mpr fun x _ => h x

/-- A script value holds no objects. -/
theorem ScriptValue.objectsAmong_handles (v : ScriptValue) : objectsAmong (handles v) = [] :=
  objectsAmong_eq_nil fun _ => CallAction.kind_of_mem_handles

/-- Errors carry script values at most, which hold none. -/
theorem HostFailure.objectsAmong_handles (e : HostFailure) : objectsAmong (handles e) = [] := by
  cases e with
  | script e => exact ScriptValue.objectsAmong_handles e.value
  | _ => rfl

/-- A variable holds the objects to which it has strong handles. -/
theorem Stored.objectsAmong_handles (s : Stored) : objectsAmong (handles s) = s.objects := by
  cases s with
  | script v => exact ScriptValue.objectsAmong_handles v
  | scripts vs => exact objectsAmong_handles_list ScriptValue.objectsAmong_handles vs
  | host v => exact v.objectsAmong_held
  | hostFunction f => exact objectsAmong_handles_list HostType.objectsAmong_handles f.params
  | raised e => exact ScriptValue.objectsAmong_handles e.value
  | failed e => exact HostFailure.objectsAmong_handles e
  | _ => rfl

/-- Slots hold the objects in their values. -/
theorem Slots.objectsAmong_handles (s : Slots) :
    objectsAmong (handles s) = (s.map Prod.snd).flatMap HostValue.objects := by
  show objectsAmong (s.flatMap fun p => p.2.held) = _
  rw [objectsAmong_flatMap, List.flatMap_map]
  exact List.flatMap_congr fun p _ => p.2.objectsAmong_held

/-- A member holds the objects in its constant, if it has one. -/
theorem Member.objectsAmong_handles (m : Member) :
    objectsAmong (handles m) = m.constant?.toList.flatMap HostValue.objects := by
  cases m with
  | method m => exact objectsAmong_handles_list HostType.objectsAmong_handles m.params
  | field f => exact HostType.objectsAmong_handles f.type
  | property p =>
    obtain ⟨name, type, isStatic, isPublic, arity, getter, setter⟩ := p
    show objectsAmong (handles type ++ _) = _
    rw [objectsAmong_append, HostType.objectsAmong_handles, List.nil_append]
    cases getter with
    | none => rfl
    | some g =>
      cases g with
      | slot _ => rfl
      | constant v =>
        show objectsAmong v.held = [v].flatMap HostValue.objects
        rw [v.objectsAmong_held, List.flatMap_singleton]

/-- A class holds the objects in its constants. -/
theorem HostClass.objectsAmong_handles (c : HostClass) :
    objectsAmong (handles c) = c.constants.flatMap HostValue.objects := by
  show objectsAmong (c.members.flatMap handles ++ handles (c.constructor.getD [])) = _
  unfold HostClass.constants
  rw [objectsAmong_append, Slots.objectsAmong_handles, List.flatMap_append, objectsAmong_flatMap,
    List.filterMap_eq_flatMap_toList, List.flatMap_assoc]
  congr 1
  exact List.flatMap_congr fun m _ => m.objectsAmong_handles

/-- Tables hold script values. -/
theorem Table.objectsAmong_handles (t : Table) : objectsAmong (handles t) = [] := by
  show objectsAmong (t.entries.flatMap fun e => handles e.key ++ handles e.value) = []
  rw [objectsAmong_flatMap]
  refine List.flatMap_eq_nil_iff.mpr fun e _ => ?_
  rw [objectsAmong_append, ScriptValue.objectsAmong_handles, ScriptValue.objectsAmong_handles,
    List.append_nil]

/-- Functions hold no objects, be they methods of one. -/
theorem Function.objectsAmong_handles (f : Function) : objectsAmong (handles f) = [] := by
  obtain ⟨name, origin, code⟩ := f
  cases code with
  | script _ => rfl
  | host _ h => exact objectsAmong_handles_list HostType.objectsAmong_handles h.params
  | method _ t m =>
    -- A method names its object, and what it keeps alive is the class.
    exact objectsAmong_handles_list HostType.objectsAmong_handles m.params

/-- Userdata hold no objects: a proxy names its object weakly. -/
theorem Userdata.objectsAmong_handles (d : Userdata) : objectsAmong (handles d) = [] := by
  cases d with
  | foreign _ _ => rfl
  | carrier e => exact e.objectsAmong_handles
  | proxy p =>
    show objectsAmong ((p.target.map Target.weakHandles).getD []) = []
    cases p.target <;> rfl

end Contents

/-! ### Alive while there is a strong handle -/

namespace World

variable {w w' : World} {o : Ref .object}

/-- A thing is alive when it is held from outside or by something alive. -/
theorem alive_iff {h : Handle} (hh : h ∈ w.things) :
    w.alive h = true ↔ h ∈ w.roots ∨ ∃ a, Keeps w.holdings a h ∧ w.alive a = true := by
  constructor
  · intro halive
    by_cases hroot : h ∈ w.roots
    · exact .inl hroot
    · refine .inr (by_contra fun hnone => ?_)
      -- Without a holder that is alive it would be dead.
      have hdead : Dead w.roots w.holdings h := .intro h hroot fun a ha =>
        dead_of_alive (Bool.eq_false_iff.mpr fun halive => hnone ⟨a, ha, halive⟩)
      exact not_dead_of_alive hh halive hdead
  · rintro (hroot | ⟨a, ha, halive⟩)
    · exact alive_of_root hroot
    · exact alive_of_keeps halive ha

/-- The roots among objects are those in use and those in variables. -/
theorem mem_roots_object :
    o.handle ∈ w.roots ↔
      o ∈ Handle.objectsAmong w.held ∨ o ∈ w.vars.flatMap fun p => p.2.objects := by
  have hvars : (w.vars.flatMap fun p => p.2.objects) =
      Handle.objectsAmong (w.vars.flatMap fun p => handles p.2) := by
    rw [Handle.objectsAmong_flatMap]
    exact List.flatMap_congr fun p _ => p.2.objectsAmong_handles.symm
  rw [hvars, Handle.mem_objectsAmong, Handle.mem_objectsAmong]
  unfold roots
  rw [List.mem_append, List.mem_append, List.mem_append]
  constructor
  · rintro (((hheld | hvar) | hframe) | hglobals)
    · exact .inl hheld
    · exact .inr hvar
    -- Neither the calls in progress nor the table of globals are objects.
    · obtain ⟨f, -, hf⟩ := List.mem_map.mp hframe
      cases hf
    · cases List.mem_singleton.mp hglobals
  · rintro (hheld | hvar)
    · exact .inl (.inl (.inl hheld))
    · exact .inl (.inl (.inr hvar))

/-- **What a thing keeps alive among objects**: an object what is in its slots, a class its constants,
and nothing else anything. -/
theorem objectsAmong_contents (w : World) (a : Handle) :
    Handle.objectsAmong (w.contents a) = match a.kind with
      | .object => (w.slotValues ⟨a.index⟩).flatMap HostValue.objects
      | .cls => (w.constants ⟨a.index⟩).flatMap HostValue.objects
      | _ => [] := by
  have hnone {α : Type} [Holds α] (hall : ∀ x : α, Handle.objectsAmong (handles x) = [])
      (x? : Option α) : Handle.objectsAmong (handles x?) = [] :=
    objectsAmong_handles_list hall x?.toList
  have hsome {α : Type} [Holds α] (x : α) :
      Handle.objectsAmong (handles (some x)) = Handle.objectsAmong (handles x) :=
    congrArg Handle.objectsAmong (List.flatMap_singleton handles x)
  obtain ⟨kind, index⟩ := a
  cases kind with
  | table => exact hnone Table.objectsAmong_handles _
  | function => exact hnone Function.objectsAmong_handles _
  | userdata => exact hnone Userdata.objectsAmong_handles _
  | coroutine => exact hnone (fun _ => rfl) _
  | binding => rfl
  -- Objects and classes are the two that hold some.
  | object =>
    show Handle.objectsAmong (handles (w.objects.get? ⟨index⟩)) = _
    unfold slotValues
    cases w.objects.get? ⟨index⟩ with
    | none => rfl
    | some x => exact (hsome x).trans (Slots.objectsAmong_handles x.payload.slotsOf)
  | cls =>
    show Handle.objectsAmong (handles (w.classes.get? ⟨index⟩)) = _
    unfold constants
    cases w.classes.get? ⟨index⟩ with
    | none => rfl
    | some c => exact (hsome c).trans c.objectsAmong_handles

/-- An object is kept alive by objects in whose slots it is and by classes that have it as a constant,
and by nothing else. -/
theorem keeps_object_iff {a : Handle} :
    Keeps w.holdings a o.handle ↔
      (∃ x : Ref .object, a = x.handle ∧ ∃ v ∈ w.slotValues x, o ∈ v.objects) ∨
        ∃ c : Ref .cls, a = c.handle ∧ ∃ v ∈ w.constants c, o ∈ v.objects := by
  have hkeeps : Keeps w.holdings a o.handle ↔ o ∈ Handle.objectsAmong (w.contents a) := by
    rw [keeps_iff, Handle.mem_objectsAmong]
  rw [hkeeps, objectsAmong_contents]
  constructor
  · intro ho
    obtain ⟨kind, index⟩ := a
    cases kind with
    | object => exact .inl ⟨⟨index⟩, rfl, List.mem_flatMap.mp ho⟩
    | cls => exact .inr ⟨⟨index⟩, rfl, List.mem_flatMap.mp ho⟩
    | _ => cases ho
  · rintro (⟨x, rfl, hx⟩ | ⟨c, rfl, hc⟩)
    · exact List.mem_flatMap.mpr hx
    · exact List.mem_flatMap.mpr hc

/-- An object with slots was made. -/
theorem made_of_slotValues {x : Ref .object} {v : HostValue} (hv : v ∈ w.slotValues x) :
    x ∈ w.objects.refs := by
  rw [Store.mem_refs]
  unfold slotValues at hv
  cases hx : w.objects.get? x with
  | some y => exact ⟨y, rfl⟩
  | none =>
    rw [hx] at hv
    cases hv

/-- A class with constants was made. -/
theorem made_of_constants {c : Ref .cls} {v : HostValue} (hv : v ∈ w.constants c) :
    c ∈ w.classes.refs := by
  rw [Store.mem_refs]
  unfold constants at hv
  cases hc : w.classes.get? c with
  | some info => exact ⟨info, rfl⟩
  | none =>
    rw [hc] at hv
    cases hv

/-- An object that was made is a thing. -/
theorem made_object (ho : o ∈ w.objects.refs) : o.handle ∈ w.things :=
  mem_things.mpr (Store.mem_refs.mp ho)

/-- **An object is alive exactly while there is a strong handle to it.** -/
theorem alive_iff_mem_strong (ho : o ∈ w.objects.refs) :
    w.alive o.handle = true ↔ o ∈ w.strong w.held := by
  rw [alive_iff (made_object ho), mem_roots_object]
  unfold strong
  rw [List.mem_append, List.mem_append, List.mem_append, List.mem_flatMap (l := List.filter _ _),
    List.mem_flatMap (l := List.filter _ _)]
  constructor
  -- It is a root, or something alive keeps it alive: an object or a class.
  · rintro (hroot | ⟨a, ha, halive⟩)
    · exact .inl (.inl hroot)
    · rcases keeps_object_iff.mp ha with ⟨x, rfl, v, hv, hov⟩ | ⟨c, rfl, v, hv, hov⟩
      · have hx : x ∈ w.objects.refs.filter fun x => w.alive x.handle :=
          List.mem_filter.mpr ⟨made_of_slotValues hv, halive⟩
        exact .inl (.inr ⟨x, hx, List.mem_flatMap.mpr ⟨v, hv, hov⟩⟩)
      · have hc : c ∈ w.classes.refs.filter fun c => w.alive c.handle :=
          List.mem_filter.mpr ⟨made_of_constants hv, halive⟩
        exact .inr ⟨c, hc, List.mem_flatMap.mpr ⟨v, hv, hov⟩⟩
  -- A strong handle is in a root, or in something that keeps the object alive and is alive itself.
  · rintro ((hroot | ⟨x, hx, hslot⟩) | ⟨c, hc, hconstant⟩)
    · exact .inl hroot
    · have hkeeps := keeps_object_iff.mpr (.inl ⟨x, rfl, List.mem_flatMap.mp hslot⟩)
      exact .inr ⟨x.handle, hkeeps, (List.mem_filter.mp hx).2⟩
    · have hkeeps := keeps_object_iff.mpr (.inr ⟨c, rfl, List.mem_flatMap.mp hconstant⟩)
      exact .inr ⟨c.handle, hkeeps, (List.mem_filter.mp hc).2⟩

/-- The count is positive exactly where there is a strong handle. -/
theorem strongCount_pos {uses : List Handle} : 0 < w.strongCount uses o ↔ o ∈ w.strong uses :=
  List.count_pos_iff

/-! ### What script has makes no difference -/

/-- The host has the same: the same objects and classes, and the same objects in use and in
variables. -/
structure SameHost (w w' : World) : Prop where
  objects : w'.objects = w.objects
  classes : w'.classes = w.classes
  held : Handle.objectsAmong w'.held = Handle.objectsAmong w.held
  vars : ∀ o, (o ∈ w'.vars.flatMap fun p => p.2.objects) ↔ o ∈ w.vars.flatMap fun p => p.2.objects

/-- The same classes live among those that have an object as a constant. -/
def SameHolders (w w' : World) : Prop :=
  ∀ c, (∃ v ∈ w.constants c, v.objects ≠ []) → w'.alive c.handle = w.alive c.handle

namespace SameHost

theorem refl (w : World) : w.SameHost w := ⟨rfl, rfl, rfl, fun _ => Iff.rfl⟩

theorem symm (h : w.SameHost w') : w'.SameHost w :=
  ⟨h.objects.symm, h.classes.symm, h.held.symm, fun o => (h.vars o).symm⟩

theorem trans {w'' : World} (h : w.SameHost w') (h' : w'.SameHost w'') : w.SameHost w'' :=
  ⟨h'.objects.trans h.objects, h'.classes.trans h.classes, h'.held.trans h.held,
    fun o => (h'.vars o).trans (h.vars o)⟩

/-- Slots have the same values where objects are the same. -/
theorem slotValues (h : w.SameHost w') (x : Ref .object) : w'.slotValues x = w.slotValues x := by
  unfold World.slotValues
  rw [h.objects]

/-- Classes have the same constants where they are the same. -/
theorem constants (h : w.SameHost w') (c : Ref .cls) : w'.constants c = w.constants c := by
  unfold World.constants
  rw [h.classes]

/-- Objects are kept alive by the same things. -/
theorem keeps (h : w.SameHost w') {a : Handle} :
    Keeps w'.holdings a o.handle ↔ Keeps w.holdings a o.handle := by
  simp only [keeps_object_iff, h.slotValues, h.constants]

/-- Variables without objects come and go. -/
theorem of_vars {vars : List (String × Stored)}
    (hvars : ∀ o, (o ∈ vars.flatMap fun p => p.2.objects) ↔ o ∈ w.vars.flatMap fun p => p.2.objects) :
    w.SameHost { w with vars := vars } :=
  ⟨rfl, rfl, rfl, hvars⟩

/-- What is dead stays dead when the host has the same and no class is alive again that holds it. -/
theorem dead (h : w.SameHost w') (hsame : w.SameHolders w')
    (hdead : Dead w.roots w.holdings o.handle) : Dead w'.roots w'.holdings o.handle := by
  generalize hx : o.handle = x at hdead
  induction hdead generalizing o with
  | intro x hroot hkeeps ih =>
    subst hx
    refine .intro _ ?_ fun a ha => ?_
    -- The roots among objects are the same.
    · rw [mem_roots_object, h.held, h.vars o, ← mem_roots_object]
      exact hroot
    · have hkept := h.keeps.mp ha
      rcases keeps_object_iff.mp hkept with ⟨x, rfl, -⟩ | ⟨c, rfl, v, hv, ho⟩
      · exact ih _ hkept rfl
      -- A class is the only holder on which script has a say.
      · have hlike := hsame c ⟨v, hv, List.ne_nil_of_mem ho⟩
        rw [(alive_eq_false_iff (mem_things_of_keeps hkept)).mpr (hkeeps _ hkept)] at hlike
        exact dead_of_alive hlike

/-- **Objects live on what the host has**, as far as the same classes live. -/
theorem alive (h : w.SameHost w') (hsame : w.SameHolders w') (ho : o ∈ w.objects.refs) :
    w'.alive o.handle = w.alive o.handle := by
  have ho' : o ∈ w'.objects.refs := h.objects ▸ ho
  have hsame' : w'.SameHolders w := fun c hc => (hsame c (h.constants c ▸ hc)).symm
  have hdead : w'.alive o.handle = false ↔ w.alive o.handle = false := by
    rw [alive_eq_false_iff (made_object ho), alive_eq_false_iff (made_object ho')]
    exact ⟨h.symm.dead hsame', h.dead hsame⟩
  rwa [Bool.eq_iff_iff, ← Bool.not_eq_false, ← Bool.not_eq_false, not_iff_not]

end SameHost

/-- One thing that happens on the side of script: something is made, changed, forgotten or written
down that is no object and no class. -/
inductive ScriptStep : World → World → Prop
  | table (w : World) (t : Table) : ScriptStep w { w with tables := w.tables.push t }
  | setTable (w : World) (r : TableRef) (t : Table) :
      ScriptStep w { w with tables := w.tables.set r t }
  /-- A function is made, be it a method that is read through a proxy. -/
  | function (w : World) (f : Function) : ScriptStep w { w with functions := w.functions.push f }
  /-- A proxy, an error that travels or something foreign is made. -/
  | userdata (w : World) (d : Userdata) : ScriptStep w { w with userdata := w.userdata.push d }
  /-- A proxy is disposed. -/
  | setUserdata (w : World) (u : UserdataRef) (d : Userdata) :
      ScriptStep w { w with userdata := w.userdata.set u d }
  | coroutine (w : World) (c : Coroutine) :
      ScriptStep w { w with coroutines := w.coroutines.push c }
  | setCoroutine (w : World) (r : CoroutineRef) (c : Coroutine) :
      ScriptStep w { w with coroutines := w.coroutines.set r c }
  /-- A cache gets an entry, or forgets one. -/
  | cache (w : World) (b : BindingRef) (cache : ProxyCache) :
      ScriptStep w { w with bindings := w.bindings.set b { w.binding b with cache := cache } }
  | noted (w : World) (e : Event) : ScriptStep w { w with journal := e :: w.journal }
  | logged (w : World) (a : Answer) : ScriptStep w { w with log := a :: w.log }
  /-- A variable is assigned, where no object is put in and none was before. -/
  | assigned (w : World) (name : String) (s : Stored) (hs : s.objects = [])
      (hold : ∀ p ∈ w.vars, p.1 = name → p.2.objects = []) :
      ScriptStep w { w with vars := (name, s) :: w.vars.filter fun p => p.1 != name }
  /-- A variable without objects is dropped. -/
  | dropped (w : World) (name : String) (hold : ∀ p ∈ w.vars, p.1 = name → p.2.objects = []) :
      ScriptStep w { w with vars := w.vars.filter fun p => p.1 != name }

/-- Forgetting a variable without objects loses none of them. -/
theorem mem_vars_filter {name : String} (hold : ∀ p ∈ w.vars, p.1 = name → p.2.objects = []) :
    (o ∈ (w.vars.filter fun p => p.1 != name).flatMap fun p => p.2.objects) ↔
      o ∈ w.vars.flatMap fun p => p.2.objects := by
  rw [List.mem_flatMap, List.mem_flatMap]
  constructor
  · rintro ⟨p, hp, ho⟩
    exact ⟨p, (List.mem_filter.mp hp).1, ho⟩
  · rintro ⟨p, hp, ho⟩
    -- A variable in which an object is has another name.
    have hne : p.1 ≠ name := fun heq => List.ne_nil_of_mem ho (hold p hp heq)
    exact ⟨p, List.mem_filter.mpr ⟨hp, bne_iff_ne.mpr hne⟩, ho⟩

/-- What happens on the side of script leaves the host what it has. -/
theorem ScriptStep.sameHost (h : ScriptStep w w') : w.SameHost w' := by
  cases h with
  | assigned name s hs hold =>
    refine .of_vars fun o => ?_
    rw [List.flatMap_cons, hs, List.nil_append]
    exact mem_vars_filter hold
  | dropped name hold => exact .of_vars fun o => mem_vars_filter hold
  | _ => exact ⟨rfl, rfl, rfl, fun _ => Iff.rfl⟩

/-- So does all that happens there, one step after another. -/
theorem sameHost_of_scriptSteps (h : Relation.ReflTransGen ScriptStep w w') : w.SameHost w' := by
  induction h with
  | refl => exact .refl w
  | tail _ hstep ih => exact ih.trans hstep.sameHost

/-- **What programs do with proxies and with what they read through them** happens on the side of
script. -/
structure LeavesHost (w : World) : Prop where
  wrapped : ∀ via o, Relation.ReflTransGen ScriptStep w
    ((proxyFor via o : Act HostFailure UserdataRef).outcome w).2
  created : ∀ via t, Relation.ReflTransGen ScriptStep w
    ((newProxy via t : Act HostFailure UserdataRef).outcome w).2
  bound : ∀ via t m, Relation.ReflTransGen ScriptStep w ((methodFunction via t m).outcome w).2
  raised : ∀ e, Relation.ReflTransGen ScriptStep w ((toScriptError e).outcome w).2
  disposed : ∀ u, Relation.ReflTransGen ScriptStep w
    ((dispose u : Act HostFailure Unit).outcome w).2
  stored : ∀ t key v, Relation.ReflTransGen ScriptStep w ((setEntry t key v).outcome w).2
  copied : ∀ name v, (∀ p ∈ w.vars, p.1 = name → p.2.objects = []) →
    Relation.ReflTransGen ScriptStep w
      ((assign name (.script v) : Act HostFailure Unit).outcome w).2

/-- Each act is a few steps, or none. -/
theorem leavesHost (w : World) : w.LeavesHost where
  wrapped via o := by
    rw [outcome_proxyFor]
    cases w.cachedProxy? via o with
    | some u => exact .single (.noted w _)
    | none => exact .tail (.tail (.single (.userdata w _)) (.cache _ via _)) (.noted _ _)
  created via t := .single (.userdata w _)
  bound via t m := .single (.function w _)
  raised e := by
    cases e with
    | script e => exact .refl
    | _ => exact .single (.userdata w _)
  disposed u := by
    rw [outcome_dispose]
    cases w.proxy? u with
    | some p => exact .single (.setUserdata w u _)
    | none => exact .refl
  stored t key v := by
    unfold setEntry
    rw [outcome_bind_ok (outcome_look _ w)]
    cases (w.table t).set key v with
    | ok entries => exact .single (.setTable w t entries)
    | error fault => exact .refl
  copied name v hold := .single (.assigned w name _ rfl hold)

/-! ### What is taken is given back -/

/-- **Whatever reads, writes, converts or calls gives back the handles that it takes**, whatever comes
of it. -/
structure GivesBack (n : Nat) : Prop where
  read : ∀ p key, (readProxy p key).Restores
  write : ∀ p key v, (writeProxy p key v).Restores
  wrap : ∀ via o, (proxyFor via o : Act HostFailure UserdataRef).Restores
  toScript : ∀ via v, (toScript via v : Act HostFailure ScriptValue).Restores
  toHost : ∀ via t v, (toHost via t v).Restores
  index : ∀ b t key, (index b t key).Restores
  setIndex : ∀ b t key v, (setIndex b t key v).Restores
  call : ∀ b f args, (callWithin n b f args).Restores
  resume : ∀ c args, (Act.resume (callWithin n) c args).Restores
  hostCall : ∀ b via f args, (hostCall (callWithin n) b via f args).Restores
  run : ∀ s p, (Op.runAll (callWithin n) s p).Restores

/-- All of these are composed of the operations. -/
theorem givesBack (n : Nat) : GivesBack n where
  read p key := (readProxy_composed (b := false) (.inl rfl) (.univ p.target) key).restores
  write p key v :=
    (writeProxy_composed (b := false) (.inl rfl) (.univ p.target) key (.univ v)).restores
  wrap via o := (Composed.proxyFor (b := false) via o (.univ o)).restores
  toScript via v := (toScript_composed (b := false) via v (.univ v)).restores
  toHost via t v := (toHost_composed (b := false) (.inl rfl) via t (.univ v)).restores
  index b t key := (index_composed (K := Set.univ) (.self b) t key).restores
  setIndex b t key v := (setIndex_composed (.self b) t (.univ key) (.univ v)).restores
  call := callWithin_restores n
  resume c args :=
    (resume_composed (b := true) (callWithin_composed .all n) c (.univ args)).restores
  hostCall b via f args :=
    (hostCall_composed (callWithin_composed .all n) (.self b) via f (.univ args)).restores
  run s p := (Op.runAll_composed (callWithin_composed .all n) (.univ s)
    (fun h => absurd h Bool.false_ne_true) p (Op.allWithin_all false p)).restores

end World

/-- What is held are the objects in use, at every instant. -/
def Site.Accounts (here : Site) (w : World) : Prop :=
  Handle.objectsAmong w.held = Handle.objectsAmong here.uses

namespace Site.Accounts

/-- What is no object may be held in addition. -/
theorem keeping {here : Site} {w : World} {hs : List Handle} (h : here.Accounts w)
    (hhs : ∀ k ∈ hs, k.kind ≠ .object) : here.Accounts (w.keeping hs) := by
  show Handle.objectsAmong (hs ++ w.held) = _
  rw [Handle.objectsAmong_append, Handle.objectsAmong_eq_nil hhs]
  exact h

/-- Objects that code is given to work on are in use and held. -/
theorem workingOn {here : Site} {w : World} (h : here.Accounts w) (hs : List Handle) :
    (here.workingOn hs).Accounts (w.keeping hs) := by
  show Handle.objectsAmong (hs ++ w.held) = Handle.objectsAmong (hs ++ here.uses)
  rw [Handle.objectsAmong_append, Handle.objectsAmong_append]
  exact congrArg _ h

/-- Acts give back what they take, and bodies and borrows hold what they are given to work on. -/
theorem lasting : Lasting Site.Accounts where
  effects h heff := (congrArg Handle.objectsAmong heff.fixed.held).trans h
  keeping h hhs := h.keeping hhs
  resuming h := h
  entered h _ := h
  workingOn h := h.workingOn _
  lent h := h

/-- The strong handles may be counted by what is held. -/
theorem strong {here : Site} {w : World} (h : here.Accounts w) :
    w.strong here.uses = w.strong w.held := by
  unfold World.strong
  rw [h]

end Site.Accounts

/-- **Script owns no object.** In every session:

* at every instant an object that was made is alive exactly while there is a strong handle to it: in
  a variable of the host, in a slot of an object that lives, among the constants of a class that
  lives, or among what running code was given to work on;
* a call that returns a proxy of an object to which there is no strong handle then returns one that
  is released and refuses every access.

In every world:

* accesses, conversions and calls give back the handles that they take;
* proxies, cache entries, methods read through proxies, errors that travel, tables and variables that
  hold script values are made, changed and dropped on the side of script, and whatever happens there
  leaves alive which objects are alive, as long as the same classes live that have an object as a
  constant. -/
theorem script_owns_no_object (c : Config) (layout : Ref .object → Nat) (ops : Program) :
    (∀ i ∈ (World.start c layout).instants ops,
      (∀ o ∈ i.world.objects.refs,
        i.world.alive o.handle = true ↔ 0 < i.world.strongCount i.site.uses o) ∧
      ∀ b f args, i.task = .call b f args → ∀ vs w',
        (callWithin i.site.left b f args).outcome i.world = (.ok vs, w') →
        ∀ u p o, .userdata u ∈ vs → w'.proxy? u = some p → p.target = some (.object o) →
          o.ref ∈ w'.objects.refs → w'.strongCount i.site.uses o.ref = 0 →
          w'.isReleased p = true ∧ w'.Refuses p (.objectReleased o.cls.name)) ∧
    (∀ n, World.GivesBack n) ∧
    ∀ w : World, w.LeavesHost ∧
      ∀ w', Relation.ReflTransGen World.ScriptStep w w' → w.SameHolders w' →
        ∀ o ∈ w.objects.refs, w'.alive o.handle = w.alive o.handle := by
  -- At the instants of a session, what is held are the objects in use.
  refine ⟨fun i hi => ?_, World.givesBack, fun w => ⟨w.leavesHost, fun w' hsteps hsame o ho => ?_⟩⟩
  · have haccounts : i.site.Accounts i.world :=
      Site.Accounts.lasting.instants (fun h => h) ops (w := World.start c layout) rfl i hi
    refine ⟨fun o ho => ?_, fun b f args _ vs w' hcall u p o hu hp htarget ho hzero => ?_⟩
    · rw [World.strongCount_pos, haccounts.strong]
      exact World.alive_iff_mem_strong ho
    · -- The call has given back what it took, so what is held are still the objects in use.
      have hcomposed : Composed .all b Set.univ (callWithin i.site.left b f args) Known :=
        callWithin_composed .all i.site.left b b f args (.self b) (.univ args)
      have hafter := Site.Accounts.lasting.outcome haccounts hcomposed
      rw [hcall] at hafter
      -- Without a strong handle the object is dead, so its proxy is released.
      have hdead : w'.alive o.ref.handle = false := by
        rw [Bool.eq_false_iff]
        intro halive
        have hstrong := (World.alive_iff_mem_strong ho).mp halive
        rw [← hafter.strong, ← World.strongCount_pos, hzero] at hstrong
        exact Nat.lt_irrefl 0 hstrong
      exact ⟨World.isReleased_of_dead htarget hdead, World.refuses_released htarget hdead⟩
  · exact (World.sameHost_of_scriptSteps hsteps).alive hsame ho

namespace Ownership

/-- The result is stored under a name. -/
def into (name : String) : Disposition := ⟨some name, none, false, true⟩

/-- The result is neither stored nor told. -/
def quietly : Disposition := ⟨none, none, false, true⟩

/-- A box is the constant of a class of cards. The host lets go of all three but for a weak handle to
the box, and script has a proxy of the card. -/
def boxed : Program :=
  [.cls (into "Box") ⟨"Box", [], none, none⟩,
    .act (into "box") (.cls (.instantiate "Box" [])),
    .act (into "weak") (.cls (.downgrade (some "box"))),
    .cls (into "Card")
      ⟨"Card", [.staticProperty "Secret" (.plain .any) (.var "box" 0)], none, none⟩,
    .act (into "card") (.cls (.instantiate "Card" [])),
    .act (into "p") (.proxy (.wrap (some "card"))),
    .act quietly (.value (.drop "box")),
    .act quietly (.value (.drop "Card")),
    .act quietly (.value (.drop "card"))]

/-- The proxy is dropped. -/
def letGo : Op := .act quietly (.value (.drop "p"))

/-- The world that these operations leave. -/
def afterBoxed : World := (World.start .default fun r => r.index).after boxed

/-- A function gives back the gift that was made for it from a table. -/
def handedOver : Program :=
  [.cls (into "Gift") ⟨"Gift", [], some [], none⟩,
    .hostFunction quietly "hand" [.object "Gift"] .global [.giveHost quietly (.list [.arg 0])],
    .act (into "gift") (.cls (.construct "Gift")),
    .act (into "g") (.proxy (.wrap (some "gift"))),
    .act (into "p") (.call (.call (.global "hand") (.list [.map []]))),
    .act quietly (.call (.call (.global "hand") (.list [.var "g" 0])))]

/-- What a call that is about to be made returns a proxy of: how many strong handles there are to the
object, and whether the proxy is released. -/
def received (i : Instant) : Option (Nat × Bool) :=
  match i.task with
  | .call b f args => match (callWithin i.site.left b f args).outcome i.world with
    | (.ok [.userdata u], w') => (w'.proxy? u).bind fun p => match p.target with
      | some (.object o) => some (w'.strongCount i.site.uses o.ref, w'.isReleased p)
      | _ => none
    | _ => none
  | .body _ _ => none

end Ownership

open Ownership in
/-- The gift that was made for the call is released when the caller gets its proxy, and the one that
the host keeps is not. To forget a proxy of it makes no difference to either. -/
theorem script_owns_no_object_handedOver :
    let w := World.start .default fun r => r.index
    let w' := w.after handedOver
    (w.instants handedOver).filterMap received = [(0, true), (1, false)] ∧
    (∀ i ∈ w.instants handedOver, ∀ o ∈ i.world.objects.refs,
      i.world.alive o.handle = true ↔ 0 < i.world.strongCount i.site.uses o) ∧
    (∀ i ∈ w.instants handedOver, ∀ b f args, i.task = .call b f args → ∀ u v,
      (callWithin i.site.left b f args).outcome i.world = (.ok [.userdata u], v) →
      ∀ p o, v.proxy? u = some p → p.target = some (.object o) → o.ref ∈ v.objects.refs →
        v.strongCount i.site.uses o.ref = 0 → v.isReleased p = true) ∧
    ∀ o ∈ w'.objects.refs,
      ({ w' with vars := w'.vars.filter fun p => p.1 != "g" } : World).alive o.handle =
        w'.alive o.handle := by
  intro w w'
  obtain ⟨hcounts, -, hside⟩ := script_owns_no_object .default (fun r => r.index) handedOver
  refine ⟨by decide +kernel, fun i hi => (hcounts i hi).1, ?_, ?_⟩
  · intro i hi b f args htask u v hcall p o hp htarget ho hzero
    exact ((hcounts i hi).2 b f args htask [.userdata u] v hcall u p o List.mem_cons_self hp htarget
      ho hzero).1
  -- No class has a constant, so what script forgets makes no difference to objects.
  · have hnone : ∀ c ∈ w'.classes.refs, (w'.constants c).isEmpty = true := by decide +kernel
    have hg : ∀ p ∈ w'.vars, p.1 = "g" → p.2.objects = [] := by decide +kernel
    refine (hside w').2 _ (.single (.dropped w' "g" hg)) fun c hc => ?_
    obtain ⟨v, hv, -⟩ := hc
    have hempty := hnone c (World.made_of_constants hv)
    rw [List.isEmpty_iff.mp hempty] at hv
    cases hv

open Ownership in
/-- **A constant dies with a proxy.** The box is alive while script has a proxy of the card, which
keeps the class of cards alive, and dies when the proxy is dropped. The proxy is not of the box. -/
theorem constant_dies_with_proxy :
    afterBoxed.var? "p" matches some (.script (.userdata ⟨0⟩)) ∧
    ((afterBoxed.proxy? ⟨0⟩).bind Proxy.target) = some (.object ⟨⟨1⟩, ⟨⟨1⟩, "Card"⟩⟩) ∧
    afterBoxed.alive (Ref.handle (⟨0⟩ : Ref .object)) = true ∧
    (afterBoxed.step letGo).2.alive (Ref.handle (⟨0⟩ : Ref .object)) = false := by
  decide +kernel

end ScriptHost
