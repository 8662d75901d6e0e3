import Mathlib.Data.Set.Basic
import ScriptHost.Proofs.Act.License
import ScriptHost.Proofs.Conversion.Sequence

/-!
# What values name

A handle to an object says which class the object is an instance of, and a handle to userdata says
that there is such userdata. Nothing but the way handles are given out makes them say so truly.
`Names` lists these handles where they occur in a value: on the side of script only userdata, because
script names objects through proxies. `Known K x` says that all of them are among `K`, which only
grows while a run goes on: what was known stays known (`Known.mono`).

`World.Known K` says the same of everything that is stored in a world. What `K` has to be is settled
by `World.known`: what is true of the world or, where that does not matter, everything.
-/

set_option autoImplicit false

namespace ScriptHost

/-- What a value names: an object, as an instance of a class, or userdata. -/
inductive Mention where
  | object (o : ObjectRef)
  | userdata (u : UserdataRef)

/-- The objects and the userdata that occur in a value. -/
class Names (α : Type) where
  named : α → List Mention

export Names (named)

/-- All that occurs in a value is known. -/
def Known {α : Type} [Names α] (K : Set Mention) (x : α) : Prop := ∀ o ∈ named x, o ∈ K

/-! ### Where names occur -/

instance : Names ObjectRef := ⟨fun o => [.object o]⟩

instance : Names UserdataRef := ⟨fun u => [.userdata u]⟩

instance {α : Type} [Names α] : Names (List α) := ⟨fun xs => xs.flatMap named⟩

instance {α : Type} [Names α] : Names (Option α) := ⟨fun x => x.toList.flatMap named⟩

/-- Something under a name. -/
instance {α : Type} [Names α] : Names (String × α) := ⟨fun p => named p.2⟩

instance : Names ScriptValue where
  named
    | .userdata u => named u
    | _ => []

instance : Names Entry := ⟨fun e => named e.key ++ named e.value⟩

instance : Names Table := ⟨fun t => named t.entries⟩

mutual

/-- What occurs in a host value. -/
def HostValue.named : HostValue → List Mention
  | .array items => namedAll items
  | .object o => Names.named o
  | .script v => Names.named v
  | _ => []

/-- What occurs in the elements of an array. -/
def HostValue.namedAll : List HostValue → List Mention
  | [] => []
  | x :: xs => named x ++ namedAll xs

end

instance : Names HostValue := ⟨HostValue.named⟩

instance : Names Target := ⟨fun t => named t.receiver?⟩

instance : Names ScriptError := ⟨fun e => named e.value⟩

/-- A conversion fails with texts only. -/
instance : Names ConversionError := ⟨fun _ => []⟩

instance : Names HostFailure where
  named
    | .script e => named e
    | _ => []

instance : Names Failure where
  named
    | .raised e => named e
    | .failed e => named e

/-- A proxy names its target, although it does not keep it alive. -/
instance : Names Userdata where
  named
    | .foreign _ _ => []
    | .proxy p => named p.target
    | .carrier e => named e

instance : Names Payload := ⟨fun p => named p.slotsOf⟩

instance : Names Object := ⟨fun o => named o.payload⟩

instance : Names Getter where
  named
    | .constant v => named v
    | .slot _ => []

instance : Names Member where
  named
    | .property p => named p.getter
    | _ => []

instance : Names HostClass := ⟨fun c => named c.members ++ named c.constructor⟩

instance : Names Code where
  named
    | .method _ t _ => named t
    | _ => []

instance : Names Function := ⟨fun f => named f.code⟩

instance : Names Stored where
  named
    | .script v => named v
    | .scripts vs => named vs
    | .host v => named v
    | .object o | .weak o => named o
    | .raised e => named e
    | .failed e => named e
    | _ => []

instance : Names Given where
  named
    | .script vs => named vs
    | .host vs => named vs

instance : Names Scope where
  named s := match s.side with
    | .top => []
    | .script args => named args
    | .host _ receiver args => named receiver ++ named args

instance : Names Outcome where
  named
    | .give g => named g
    | .answer _ => []

/-! ### Knowing -/

namespace Known

variable {α : Type} [Names α] {K K' : Set Mention}

/-- **What is known stays known.** -/
theorem mono {x : α} (h : Known K x) (hK : K ⊆ K') : Known K' x := fun o ho => hK (h o ho)

/-- Where everything is known, everything is. -/
theorem univ (x : α) : Known Set.univ x := fun _ _ => trivial

/-- Where nothing occurs, all is known. -/
theorem of_named_eq_nil {x : α} (h : Names.named x = []) : Known K x := fun o ho => by
  rw [h] at ho
  cases ho

/-- A list names what its items name. -/
theorem list_iff {xs : List α} : Known K xs ↔ ∀ x ∈ xs, Known K x := by
  constructor
  · intro h x hx o ho
    exact h o (List.mem_flatMap.mpr ⟨x, hx, ho⟩)
  · intro h o ho
    obtain ⟨x, hx, ho⟩ := List.mem_flatMap.mp ho
    exact h x hx o ho

theorem nil : Known K ([] : List α) := fun _ h => nomatch h

theorem cons {x : α} {xs : List α} (h : Known K x) (hs : Known K xs) : Known K (x :: xs) :=
  list_iff.mpr (List.forall_mem_cons.mpr ⟨h, list_iff.mp hs⟩)

theorem head {x : α} {xs : List α} (h : Known K (x :: xs)) : Known K x :=
  list_iff.mp h x List.mem_cons_self

theorem tail {x : α} {xs : List α} (h : Known K (x :: xs)) : Known K xs :=
  list_iff.mpr fun y hy => list_iff.mp h y (List.mem_cons_of_mem x hy)

theorem map {β : Type} {f : β → α} {xs : List β} (h : ∀ x ∈ xs, Known K (f x)) :
    Known K (xs.map f) :=
  list_iff.mpr (List.forall_mem_map.mpr h)

theorem none : Known K (Option.none : Option α) := fun _ h => nomatch h

/-- An optional value names what it holds. -/
theorem some_iff {x : α} : Known K (some x) ↔ Known K x := by
  unfold Known
  simp [Names.named]

theorem object_iff {o : ObjectRef} : Known K o ↔ .object o ∈ K := by
  simp [Known, Names.named]

theorem userdata_iff {u : UserdataRef} : Known K u ↔ .userdata u ∈ K := by
  simp [Known, Names.named]

theorem getD {x? : Option α} {x : α} (h : Known K x?) (hx : Known K x) : Known K (x?.getD x) := by
  cases x? with
  | none => exact hx
  | some y => exact some_iff.mp h

theorem getElem? {xs : List α} (h : Known K xs) (i : Nat) : Known K xs[i]? := by
  cases hi : xs[i]? with
  | none => exact none
  | some x => exact some_iff.mpr (list_iff.mp h x (List.mem_of_getElem? hi))

/-- What an array names, its elements do. -/
theorem array_iff {items : List HostValue} : Known K (HostValue.array items) ↔ Known K items := by
  have hnamed : ∀ xs : List HostValue, HostValue.namedAll xs = xs.flatMap HostValue.named := by
    intro xs
    induction xs with
    | nil => rfl
    | cons x xs ih => rw [HostValue.namedAll, ih, List.flatMap_cons]
  have hitems : named (HostValue.array items) = named items := by
    show HostValue.named (.array items) = _
    rw [HostValue.named, hnamed]
    rfl
  unfold Known
  rw [hitems]

/-! What a scope and a variable name, they hand on. -/

/-- The receiver of a body is one of the things that its scope names. -/
theorem receiver {s : Scope} (h : Known K s) : Known K s.receiver? := fun o ho => by
  refine h o ?_
  obtain ⟨b, _ | _ | ⟨via, r, args⟩⟩ := s
  · cases ho
  · cases ho
  · exact List.mem_append_left _ ho

theorem hostReceiver {s : Scope} (h : Known K s) {via : BindingRef} {o : ObjectRef}
    {args : List HostValue} (hs : s.side = .host via (some o) args) :
    Known K (HostValue.object o) := by
  have hr : s.receiver? = some o := by rw [Scope.receiver?, hs]
  have ho : Known K o := some_iff.mp (hr ▸ h.receiver)
  exact ho

theorem args {s : Scope} (h : Known K s) {via : BindingRef} {r : Option ObjectRef}
    {args : List HostValue} (hs : s.side = .host via r args) : Known K args := fun o ho => by
  refine h o ?_
  simp only [Names.named, hs]
  exact List.mem_append_right _ ho

theorem arg {s : Scope} (h : Known K s) {via : BindingRef} {r : Option ObjectRef}
    {args : List HostValue} (hs : s.side = .host via r args) (i : Nat) :
    Known K ((args[i]?).getD .null) :=
  ((h.args hs).getElem? i).getD (of_named_eq_nil rfl)

theorem scriptArgs {s : Scope} (h : Known K s) {args : List ScriptValue}
    (hs : s.side = .script args) : Known K args := fun o ho => by
  refine h o ?_
  simpa only [Names.named, hs] using ho

theorem scriptArg {s : Scope} (h : Known K s) {args : List ScriptValue}
    (hs : s.side = .script args) (i : Nat) : Known K ((args[i]?).getD .nil) :=
  ((h.scriptArgs hs).getElem? i).getD (of_named_eq_nil rfl)

theorem topScope : Known K Scope.top := of_named_eq_nil rfl

/-- A script body is given its arguments, and names nothing else. -/
theorem scriptScope {inCoroutine : Bool} {args : List ScriptValue} (hargs : Known K args) :
    Known K (Scope.mk inCoroutine (.script args)) := hargs

/-- A host body is given its arguments and its receiver. -/
theorem hostScope {inCoroutine : Bool} {via : BindingRef} {r : Option ObjectRef}
    {args : List HostValue} (hr : Known K r) (hargs : Known K args) :
    Known K (Scope.mk inCoroutine (.host via r args)) := fun o ho =>
  (List.mem_append.mp ho).elim (hr o) (hargs o)

/-- What a body gives goes to script without the values that script does not take. -/
theorem givenScript {g : Option Given} (h : Known K g) : Known K (Act.givenScript g) := by
  rcases g with _ | vs | vs
  · exact .nil
  · exact some_iff.mp h
  · exact .nil

theorem givenHost {g : Option Given} (h : Known K g) : Known K (Act.givenHost g) := by
  rcases g with _ | vs | vs
  · exact .nil
  · exact .nil
  · exact some_iff.mp h

/-- A class names what its members and its defaults name. -/
theorem hostClass {c : HostClass} (hmembers : Known K c.members)
    (hconstructor : Known K c.constructor) : Known K c := fun o ho =>
  (List.mem_append.mp ho).elim (hmembers o) (hconstructor o)

/-- A variable that holds nothing for script is nil there. -/
theorem asScript {s : Stored} (h : Known K s) (position : Nat) :
    Known K (s.asScript position) := by
  have hnil : Known K ScriptValue.nil := of_named_eq_nil rfl
  cases s with
  | script v => exact h
  | scripts vs => exact (getElem? h position).getD hnil
  -- Of host values only those that wrap a script value give one back.
  | host v =>
    cases v with
    | script v => exact h
    | _ => exact hnil
  | raised e => exact h
  | failed e =>
    cases e with
    | script e => exact h
    | _ => exact hnil
  | _ => exact hnil

theorem asScripts {s : Stored} (h : Known K s) : Known K s.asScripts := by
  cases s with
  | scripts vs => exact h
  | _ => exact .cons (h.asScript 0) .nil

theorem asHost {s : Stored} (h : Known K s) (position : Nat) : Known K (s.asHost position) := by
  cases s with
  | host v => exact h
  | object o => exact h
  | cls c => exact of_named_eq_nil rfl
  | _ => exact h.asScript position

/-- A failure that was stored names what the variable does. -/
theorem failure {s : Stored} (h : Known K s) {f : Failure} (hf : s.failure? = some f) :
    Known K f := by
  cases s with
  | raised e => exact Option.some.inj hf ▸ h
  | failed e => exact Option.some.inj hf ▸ h
  | _ => cases hf

end Known

/-! ### Tables -/

namespace Table

/-- The entries under strings are entries. -/
theorem All.stringEntries {P : ScriptValue → Prop} {t : Table} (h : t.All P)
    {p : String × ScriptValue} (hp : p ∈ Act.stringEntries t) : P p.2 := by
  obtain ⟨q, hq, hpair⟩ := List.mem_filterMap.mp (List.mem_mergeSort.mp hp)
  obtain ⟨e, he, rfl⟩ := List.mem_map.mp hq
  obtain ⟨s, -, rfl⟩ := Option.map_eq_some_iff.mp hpair
  exact (h e he).2

variable {K : Set Mention} {t t' : Table} {key value : ScriptValue} {vs : List ScriptValue}

/-- A table names what its keys and its values name. -/
theorem known_iff : Known K t ↔ t.All (Known K) := by
  have hentry : ∀ e : Entry, Known K e ↔ Known K e.key ∧ Known K e.value := by
    intro e
    unfold Known
    exact List.forall_mem_append
  have hentries : Known K t ↔ Known K t.entries := Iff.rfl
  simp only [hentries, Known.list_iff, hentry]
  rfl

theorem known_empty : Known K empty := .nil

/-- What is not in the table is nil and names nothing. -/
theorem known_get (h : Known K t) (key : ScriptValue) : Known K (t.get key) :=
  (known_iff.mp h).get (.of_named_eq_nil rfl) key

/-- A table that was written holds what it held, and the key and the value. -/
theorem known_set (h : Known K t) (hkey : Known K key) (hvalue : Known K value)
    (hset : t.set key value = .ok t') : Known K t' :=
  known_iff.mpr ((known_iff.mp h).set hkey hvalue hset)

/-- The keys of a sequence are integers and name nothing. -/
theorem known_ofSequence (h : Known K vs) : Known K (ofSequence vs) :=
  known_iff.mpr (.ofSequence (Known.list_iff.mp h) fun _ => .of_named_eq_nil rfl)

theorem known_sequence (h : Known K t) : Known K t.sequence :=
  Known.list_iff.mpr fun _ hv => (known_iff.mp h).sequence hv

theorem known_stringEntries (h : Known K t) : Known K (Act.stringEntries t) :=
  Known.list_iff.mpr fun _ hp => (known_iff.mp h).stringEntries hp

end Table

/-! ### Slots -/

namespace Slots

variable {K : Set Mention} {s : Slots}

/-- Reading a slot gives what was stored, or null. -/
theorem known_read (h : Known K s) (name : String) : Known K (s.read name) := by
  unfold read
  cases hp : s.find? fun p => p.1 == name with
  | none => exact fun _ ho => nomatch ho
  | some p => exact Known.list_iff.mp h p (List.mem_of_find?_eq_some hp)

/-- Writing a slot adds what is written and nothing else. -/
theorem known_write (h : Known K s) (name : String) {v : HostValue} (hv : Known K v) :
    Known K (s.write name v) := by
  induction s with
  | nil => exact .cons hv .nil
  | cons p rest ih =>
    obtain ⟨n, x⟩ := p
    have hrest : Known K (write rest name v) := ih h.tail
    unfold write
    split
    · exact .cons hv h
    · split
      · exact .cons hv h.tail
      · exact .cons h.head hrest

theorem known_ofList {ps : List (String × HostValue)} (h : Known K ps) : Known K (ofList ps) := by
  have hfold : ∀ (ps : List (String × HostValue)) (s : Slots), Known K ps → Known K s →
      Known K (ps.foldl (fun s p => s.write p.1 p.2) s) := by
    intro ps
    induction ps with
    | nil => exact fun s _ hs => hs
    | cons p ps ih => exact fun s hps hs => ih _ hps.tail (known_write hs p.1 hps.head)
  exact hfold ps [] h .nil

end Slots

/-! ### Worlds -/

namespace World

/-- Everything that is stored names known things only. -/
structure Known (K : Set Mention) (w : World) : Prop where
  tables : ∀ t x, w.tables.get? t = some x → ScriptHost.Known K x
  functions : ∀ f x, w.functions.get? f = some x → ScriptHost.Known K x
  userdata : ∀ u x, w.userdata.get? u = some x → ScriptHost.Known K x
  objects : ∀ o x, w.objects.get? o = some x → ScriptHost.Known K x
  classes : ∀ c x, w.classes.get? c = some x → ScriptHost.Known K x
  vars : ∀ p ∈ w.vars, ScriptHost.Known K p.2

/-- What is mentioned is there: the object, as an instance of the class, or the userdata. -/
def Has (w : World) : Mention → Prop
  | .object o => ∃ x, w.objects.get? o.ref = some x ∧ x.cls = o.cls
  | .userdata u => ∃ x, w.userdata.get? u = some x

/-- What is known of a world: what is there or, where that does not matter, everything. -/
def known (w : World) (strict : Bool) : Set Mention := {n | strict = true → w.Has n}

variable {w w' : World} {K K' : Set Mention}

/-- More may be known. All stores are read the same. -/
theorem Known.mono (h : w.Known K) (hK : K ⊆ K') : w.Known K' where
  tables t x hx := (h.tables t x hx).mono hK
  functions f x hx := (h.functions f x hx).mono hK
  userdata u x hx := (h.userdata u x hx).mono hK
  objects o x hx := (h.objects o x hx).mono hK
  classes c x hx := (h.classes c x hx).mono hK
  vars p hp := (h.vars p hp).mono hK

/-- Where everything is known, nothing is asked of the world. -/
theorem known_univ (w : World) : w.Known Set.univ where
  tables _ _ _ := .univ _
  functions _ _ _ := .univ _
  userdata _ _ _ := .univ _
  objects _ _ _ := .univ _
  classes _ _ _ := .univ _
  vars _ _ := .univ _

/-- Where nothing is asked of the world everything is known. -/
theorem known_false (w : World) : w.known false = Set.univ :=
  Set.eq_univ_of_forall fun _ h => nomatch h

/-! What is read from a world is known. -/

/-- A reference that names no table stands for an empty one. -/
theorem Known.table (h : w.Known K) (t : TableRef) : ScriptHost.Known K (w.table t) := by
  unfold World.table
  cases ht : w.tables.get? t with
  | none => exact Table.known_empty
  | some x => exact h.tables t x ht

theorem Known.function (h : w.Known K) (f : FunctionRef) : ScriptHost.Known K (w.function f) := by
  unfold World.function
  cases hf : w.functions.get? f with
  | none => exact fun _ ho => nomatch ho
  | some x => exact h.functions f x hf

theorem Known.userdatum (h : w.Known K) (u : UserdataRef) :
    ScriptHost.Known K (w.userdatum u) := by
  unfold World.userdatum
  cases hu : w.userdata.get? u with
  | none => exact fun _ ho => nomatch ho
  | some x => exact h.userdata u x hu

theorem Known.object (h : w.Known K) (o : ObjectRef) : ScriptHost.Known K (w.object o) := by
  unfold World.object
  cases ho : w.objects.get? o.ref with
  | none => exact fun _ ho => nomatch ho
  | some x => exact h.objects o.ref x ho

theorem Known.cls (h : w.Known K) (c : ClassRef) : ScriptHost.Known K (w.cls c) := by
  unfold World.cls
  cases hc : w.classes.get? c.ref with
  | none => exact fun _ ho => nomatch ho
  | some x => exact h.classes c.ref x hc

/-- What a variable holds was stored by an operation, so it is known. -/
theorem Known.var (h : w.Known K) {name : String} {s : Stored} (hs : w.var? name = some s) :
    ScriptHost.Known K s := by
  obtain ⟨p, hp, rfl⟩ := Option.map_eq_some_iff.mp hs
  exact h.vars p (List.mem_of_find?_eq_some hp)

/-- A proxy names its target. -/
theorem Known.proxy (h : w.Known K) {u : UserdataRef} {p : Proxy} (hp : w.proxy? u = some p) :
    ScriptHost.Known K p.target := by
  have hu := h.userdatum u
  unfold World.proxy? at hp
  split at hp
  · next q hq =>
    rw [hq, Option.some.inj hp] at hu
    exact hu
  · cases hp

/-- A target that is reached is reached as it is. -/
theorem reach?_eq_some {t t' : Target} (h : w.reach? t = some t') : t = t' := by
  cases t with
  | type c => exact Option.some.inj h
  | object o =>
    simp only [reach?] at h
    split at h
    · exact Option.some.inj h
    · cases h

/-- What a proxy reaches is what it was made for. -/
theorem Known.proxyTarget (h : w.Known K) {u : UserdataRef} {t : Target}
    (ht : w.proxyTarget? u = some t) : ScriptHost.Known K t := by
  obtain ⟨p, hp, htarget⟩ := Option.bind_eq_some_iff.mp ht
  obtain ⟨t', ht', hreach⟩ := Option.bind_eq_some_iff.mp htarget
  obtain rfl := reach?_eq_some hreach
  have hknown := h.proxy hp
  rw [ht'] at hknown
  exact Known.some_iff.mp hknown

/-- A proxy stands for what it reaches, other values for themselves. -/
theorem Known.naturalValue (h : w.Known K) {v : ScriptValue} (hv : ScriptHost.Known K v) :
    ScriptHost.Known K (w.naturalValue v) := by
  cases v with
  | userdata u =>
    simp only [World.naturalValue]
    split
    · next o ho => exact Known.some_iff.mp (h.proxyTarget ho)
    · exact .of_named_eq_nil rfl
    · exact hv
  | _ => exact .of_named_eq_nil rfl

/-- What a carrier carries is known. -/
theorem Known.unwrapError (h : w.Known K) {e : ScriptError} (he : ScriptHost.Known K e) :
    ScriptHost.Known K (Act.unwrapError w e) := by
  unfold Act.unwrapError
  dsimp only
  split
  · next u _ =>
    split
    · next inner hcarrier =>
      have hu := h.userdatum u
      rw [hcarrier] at hu
      exact hu
    · exact he
  · exact he

/-- Resolution finds members of the class. -/
theorem Known.resolve (h : w.Known K) (b : Binding) (c : ClassRef) (k : MemberKey)
    (onInstance : Bool) : ScriptHost.Known K (b.resolve (w.cls c) k onInstance) := by
  have hmembers : ScriptHost.Known K (w.cls c).members := fun o ho =>
    h.cls c o (List.mem_append_left _ ho)
  refine Known.list_iff.mpr fun m hm => ?_
  exact Known.list_iff.mp hmembers m (Binding.mem_members_of_resolve hm)

/-! What is stored stays known when more is stored, or something else, as long as that is known. -/

/-- A new table adds what it names to what is stored. -/
theorem Known.pushTable (h : w.Known K) {t : Table} (ht : ScriptHost.Known K t) :
    ({ w with tables := w.tables.push t } : World).Known K := by
  refine { h with tables := fun r x hr => ?_ }
  rcases Store.get?_push_cases hr with ⟨-, rfl⟩ | hr
  · exact ht
  · exact h.tables r x hr

theorem Known.setTable (h : w.Known K) (r : TableRef) {t : Table} (ht : ScriptHost.Known K t) :
    ({ w with tables := w.tables.set r t } : World).Known K := by
  refine { h with tables := fun q x hq => ?_ }
  rcases Store.get?_set_cases hq with rfl | hq
  · exact ht
  · exact h.tables q x hq

theorem Known.pushFunction (h : w.Known K) {f : Function} (hf : ScriptHost.Known K f) :
    ({ w with functions := w.functions.push f } : World).Known K := by
  refine { h with functions := fun g x hg => ?_ }
  rcases Store.get?_push_cases hg with ⟨-, rfl⟩ | hg
  · exact hf
  · exact h.functions g x hg

theorem Known.pushUserdata (h : w.Known K) {x : Userdata} (hx : ScriptHost.Known K x) :
    ({ w with userdata := w.userdata.push x } : World).Known K := by
  refine { h with userdata := fun u y hy => ?_ }
  rcases Store.get?_push_cases hy with ⟨-, rfl⟩ | hy
  · exact hx
  · exact h.userdata u y hy

/-- A userdata that is replaced may name less than before. -/
theorem Known.setUserdata (h : w.Known K) (u : UserdataRef) {x : Userdata}
    (hx : ScriptHost.Known K x) :
    ({ w with userdata := w.userdata.set u x } : World).Known K := by
  refine { h with userdata := fun v y hy => ?_ }
  rcases Store.get?_set_cases hy with rfl | hy
  · exact hx
  · exact h.userdata v y hy

theorem Known.pushObject (h : w.Known K) {x : Object} (hx : ScriptHost.Known K x) :
    ({ w with objects := w.objects.push x } : World).Known K := by
  refine { h with objects := fun o y hy => ?_ }
  rcases Store.get?_push_cases hy with ⟨-, rfl⟩ | hy
  · exact hx
  · exact h.objects o y hy

/-- An object may be replaced by one that names known things. -/
theorem Known.setObject (h : w.Known K) (o : Ref .object) {x : Object}
    (hx : ScriptHost.Known K x) :
    ({ w with objects := w.objects.set o x } : World).Known K := by
  refine { h with objects := fun q y hy => ?_ }
  rcases Store.get?_set_cases hy with rfl | hy
  · exact hx
  · exact h.objects q y hy

theorem Known.pushClass (h : w.Known K) {c : HostClass} (hc : ScriptHost.Known K c) :
    ({ w with classes := w.classes.push c } : World).Known K := by
  refine { h with classes := fun d y hy => ?_ }
  rcases Store.get?_push_cases hy with ⟨-, rfl⟩ | hy
  · exact hc
  · exact h.classes d y hy

/-- Fewer variables name fewer things. -/
theorem Known.dropVars (h : w.Known K) (keep : String × Stored → Bool) :
    ({ w with vars := w.vars.filter keep } : World).Known K :=
  { h with vars := fun p hp => h.vars p (List.mem_filter.mp hp).1 }

theorem Known.pushVar (h : w.Known K) (name : String) {s : Stored} (hs : ScriptHost.Known K s) :
    ({ w with vars := (name, s) :: w.vars } : World).Known K :=
  { h with vars := List.forall_mem_cons.mpr ⟨hs, h.vars⟩ }

/-! What is there stays there: objects stay of their class, and userdata stays userdata. -/

/-- Where all objects keep their classes and all userdata is kept, what was known stays known. -/
theorem known_subset (strict : Bool)
    (hobjects : ∀ o x, w.objects.get? o = some x → ∃ y, w'.objects.get? o = some y ∧ y.cls = x.cls)
    (huserdata : ∀ u x, w.userdata.get? u = some x → ∃ y, w'.userdata.get? u = some y) :
    w.known strict ⊆ w'.known strict := by
  intro n hn hs
  cases n with
  | object o =>
    obtain ⟨x, hx, hcls⟩ := hn hs
    obtain ⟨y, hy, hsame⟩ := hobjects o.ref x hx
    exact ⟨y, hy, hsame.trans hcls⟩
  | userdata u =>
    obtain ⟨x, hx⟩ := hn hs
    exact huserdata u x hx

/-- Userdata are added at the end, so those that were known still are. -/
theorem known_pushUserdata (w : World) (strict : Bool) (x : Userdata) :
    w.known strict ⊆ ({ w with userdata := w.userdata.push x } : World).known strict :=
  known_subset strict (fun _ x hx => ⟨x, hx, rfl⟩) fun _ y hy =>
    ⟨y, Store.get?_push_of_some x hy⟩

theorem known_setUserdata (w : World) (strict : Bool) (u : UserdataRef) (x : Userdata) :
    w.known strict ⊆ ({ w with userdata := w.userdata.set u x } : World).known strict := by
  refine known_subset strict (fun _ x hx => ⟨x, hx, rfl⟩) fun v y hy => ?_
  by_cases hvu : v = u
  · exact ⟨x, by rw [Store.get?_set, if_pos hvu, hy, Option.map_some]⟩
  · exact ⟨y, by rw [Store.get?_set, if_neg hvu, hy]⟩

/-- Objects are added at the end as well. -/
theorem known_pushObject (w : World) (strict : Bool) (x : Object) :
    w.known strict ⊆ ({ w with objects := w.objects.push x } : World).known strict :=
  known_subset strict (fun _ y hy => ⟨y, Store.get?_push_of_some x hy, rfl⟩) fun _ y hy => ⟨y, hy⟩

/-- An object that is changed and stays of its class is known as before. -/
theorem known_setObject (w : World) (strict : Bool) (o : ObjectRef) {x : Object}
    (hx : x.cls = (w.object o).cls) :
    w.known strict ⊆ ({ w with objects := w.objects.set o.ref x } : World).known strict := by
  refine known_subset strict (fun q y hy => ?_) fun _ y hy => ⟨y, hy⟩
  by_cases hqo : q = o.ref
  · have hobject : w.object o = y := by rw [object, ← hqo, hy, Option.getD_some]
    refine ⟨x, ?_, by rw [hx, hobject]⟩
    rw [Store.get?_set, if_pos hqo, hy, Option.map_some]
  · exact ⟨y, by rw [Store.get?_set, if_neg hqo, hy], rfl⟩

/-- An object that changes and keeps its class is still the object that was known. -/
theorem Known.changeObject {strict : Bool} (h : w.Known (w.known strict)) (o : ObjectRef)
    {x : Object} (hcls : x.cls = (w.object o).cls) (hx : ScriptHost.Known (w.known strict) x) :
    w.known strict ⊆ ({ w with objects := w.objects.set o.ref x } : World).known strict ∧
      ({ w with objects := w.objects.set o.ref x } : World).Known
        (({ w with objects := w.objects.set o.ref x } : World).known strict) :=
  have hsub := w.known_setObject strict o hcls
  ⟨hsub, (h.setObject o.ref hx).mono hsub⟩

theorem Known.changeBorrow {strict : Bool} (h : w.Known (w.known strict)) (o : ObjectRef)
    (b : Borrow) :
    w.known strict ⊆ ({ w with
        objects := w.objects.set o.ref { w.object o with borrow := b } } : World).known strict ∧
      ({ w with objects := w.objects.set o.ref { w.object o with borrow := b } } : World).Known
        (({ w with
          objects := w.objects.set o.ref { w.object o with borrow := b } } : World).known strict) :=
  h.changeObject o rfl (h.object o)

/-- Userdata that is made is there from then on. -/
theorem Known.makeUserdata {strict : Bool} (h : w.Known (w.known strict)) {x : Userdata}
    (hx : ScriptHost.Known (w.known strict) x) :
    let w' : World := { w with userdata := w.userdata.push x }
    w.known strict ⊆ w'.known strict ∧ w'.Known (w'.known strict) ∧
      ScriptHost.Known (w'.known strict) w.userdata.next :=
  have hsub := w.known_pushUserdata strict x
  ⟨hsub, (h.pushUserdata hx).mono hsub, Known.userdata_iff.mpr fun _ => ⟨x, Store.get?_push_self _ _⟩⟩

/-- An object that is made is there from then on, as an instance of its class. -/
theorem Known.makeObject {strict : Bool} (h : w.Known (w.known strict)) {x : Object}
    (hx : ScriptHost.Known (w.known strict) x) :
    let w' : World := { w with objects := w.objects.push x }
    w.known strict ⊆ w'.known strict ∧ w'.Known (w'.known strict) ∧
      ScriptHost.Known (w'.known strict) (⟨w.objects.next, x.cls⟩ : ObjectRef) :=
  have hsub := w.known_pushObject strict x
  ⟨hsub, (h.pushObject hx).mono hsub,
    Known.object_iff.mpr fun _ => ⟨x, Store.get?_push_self _ _, rfl⟩⟩

end World

end ScriptHost
