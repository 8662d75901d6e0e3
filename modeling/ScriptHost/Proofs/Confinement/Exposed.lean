import Mathlib.Data.Set.Insert
import ScriptHost.Proofs.Act.Known

/-!
# What values expose to script

A value that script has is a way to more: a table to what it holds, a function to what it gives, a
proxy to the members of its target. `exposed x` lists the ways that begin in `x`, and `Inside S x`
says that all of them are among `S`. A host value exposes what its conversion to script would: an
object or a class stands for its proxies, and a script value that passes through for itself. A
variable of a session exposes what a body reads from it.

Nothing here says what is behind a way; that depends on the world and is said by `Realm.Fine`.
-/

set_option autoImplicit false

namespace ScriptHost

/-- What script may get hold of. -/
inductive Item where
  | table (t : TableRef)
  | function (f : FunctionRef)
  | userdata (u : UserdataRef)
  | coroutine (c : CoroutineRef)
  /-- A class or an object, through a proxy. -/
  | target (t : Target)
  /-- A member of a class or of its instances, by its name or its index. -/
  | opened (c : ClassRef) (onInstance : Bool) (m : Member)

/-- The items that a value gives script hold of. -/
class Exposes (α : Type) where
  exposed : α → List Item

export Exposes (exposed)

/-- All that a value exposes is among these items. -/
def Inside {α : Type} [Exposes α] (S : Set Item) (x : α) : Prop := ∀ i ∈ exposed x, i ∈ S

/-! ### Where items occur -/

instance {α : Type} [Exposes α] : Exposes (List α) := ⟨fun xs => xs.flatMap exposed⟩

instance {α : Type} [Exposes α] : Exposes (Option α) := ⟨fun x => x.toList.flatMap exposed⟩

/-- Something under a name. -/
instance {α : Type} [Exposes α] : Exposes (String × α) := ⟨fun p => exposed p.2⟩

instance : Exposes ScriptValue where
  exposed
    | .table t => [.table t]
    | .function f => [.function f]
    | .userdata u => [.userdata u]
    | _ => []

instance : Exposes Entry := ⟨fun e => exposed e.key ++ exposed e.value⟩

instance : Exposes Table := ⟨fun t => exposed t.entries⟩

instance : Exposes ObjectRef := ⟨fun o => [.target (.object o)]⟩

mutual

/-- What script would get hold of if the value were converted. -/
def HostValue.exposed : HostValue → List Item
  | .array items => exposedAll items
  | .object o => [.target (.object o)]
  | .cls c => [.target (.type c)]
  | .script v => Exposes.exposed v
  | _ => []

/-- The same for the elements of an array. -/
def HostValue.exposedAll : List HostValue → List Item
  | [] => []
  | x :: xs => exposed x ++ exposedAll xs

end

instance : Exposes HostValue := ⟨HostValue.exposed⟩

instance : Exposes ScriptError := ⟨fun e => exposed e.value⟩

/-- A conversion fails with texts only. -/
instance : Exposes ConversionError := ⟨fun _ => []⟩

instance : Exposes HostFailure where
  exposed
    | .script e => exposed e
    | _ => []

instance : Exposes Failure where
  exposed
    | .raised e => exposed e
    | .failed e => exposed e

/-- What a body reads from a variable: values of either side, what was raised, coroutines. -/
instance : Exposes Stored where
  exposed
    | .script v => exposed v
    | .scripts vs => exposed vs
    | .host v => exposed v
    | .object o => exposed o
    | .cls c => [.target (.type c)]
    | .coroutine c => [.coroutine c]
    | .raised e => exposed e
    | .failed e => exposed e
    | .weak _ | .binding _ | .hostFunction _ => []

instance : Exposes Given where
  exposed
    | .script vs => exposed vs
    | .host vs => exposed vs

instance : Exposes Outcome where
  exposed
    | .give g => exposed g
    | .answer _ => []

/-- A result exposes what it leaves for a variable. -/
instance : Exposes Result := ⟨fun r => exposed r.store⟩

/-! ### Being inside -/

namespace Inside

variable {α : Type} [Exposes α] {S S' : Set Item}

/-- **What is inside stays inside** when more is exposed. -/
theorem mono {x : α} (h : Inside S x) (hS : S ⊆ S') : Inside S' x := fun i hi => hS (h i hi)

/-- What exposes nothing is inside everything. -/
theorem of_exposed_eq_nil {x : α} (h : exposed x = []) : Inside S x := fun i hi => by
  rw [h] at hi
  cases hi

/-- A list is inside if all its items are. -/
theorem list_iff {xs : List α} : Inside S xs ↔ ∀ x ∈ xs, Inside S x := by
  constructor
  · intro h x hx i hi
    exact h i (List.mem_flatMap.mpr ⟨x, hx, hi⟩)
  · intro h i hi
    obtain ⟨x, hx, hi⟩ := List.mem_flatMap.mp hi
    exact h x hx i hi

theorem nil : Inside S ([] : List α) := fun _ h => nomatch h

theorem cons {x : α} {xs : List α} (h : Inside S x) (hs : Inside S xs) : Inside S (x :: xs) :=
  list_iff.mpr (List.forall_mem_cons.mpr ⟨h, list_iff.mp hs⟩)

theorem head {x : α} {xs : List α} (h : Inside S (x :: xs)) : Inside S x :=
  list_iff.mp h x List.mem_cons_self

theorem tail {x : α} {xs : List α} (h : Inside S (x :: xs)) : Inside S xs :=
  list_iff.mpr fun y hy => list_iff.mp h y (List.mem_cons_of_mem x hy)

/-- Two lists, one after the other. -/
theorem append {xs ys : List α} (h : Inside S xs) (h' : Inside S ys) : Inside S (xs ++ ys) :=
  list_iff.mpr (List.forall_mem_append.mpr ⟨list_iff.mp h, list_iff.mp h'⟩)

theorem none : Inside S (Option.none : Option α) := fun _ h => nomatch h

theorem some_iff {x : α} : Inside S (some x) ↔ Inside S x := by
  unfold Inside
  simp [Exposes.exposed]

/-- What an option has, or what stands in for it. -/
theorem getD {x? : Option α} {x : α} (h : Inside S x?) (hx : Inside S x) :
    Inside S (x?.getD x) := by
  cases x? with
  | none => exact hx
  | some y => exact some_iff.mp h

/-- An item of a list, if there is one at this place. -/
theorem getElem? {xs : List α} (h : Inside S xs) (i : Nat) : Inside S xs[i]? := by
  cases hi : xs[i]? with
  | none => exact none
  | some x => exact some_iff.mpr (list_iff.mp h x (List.mem_of_getElem? hi))

/-- Nil is inside everything. -/
theorem nilValue : Inside S ScriptValue.nil := of_exposed_eq_nil rfl

/-- A table that is inside is one of the things that are. -/
theorem table_iff {t : TableRef} : Inside S (ScriptValue.table t) ↔ .table t ∈ S := by
  simp [Inside, Exposes.exposed]

/-- So is a function. -/
theorem function_iff {f : FunctionRef} : Inside S (ScriptValue.function f) ↔ .function f ∈ S := by
  simp [Inside, Exposes.exposed]

/-- So is a userdata. -/
theorem userdata_iff {u : UserdataRef} : Inside S (ScriptValue.userdata u) ↔ .userdata u ∈ S := by
  simp [Inside, Exposes.exposed]

/-- An object that is inside is one that a proxy may stand for. -/
theorem object_iff {o : ObjectRef} : Inside S (HostValue.object o) ↔ .target (.object o) ∈ S := by
  simp [Inside, Exposes.exposed, HostValue.exposed]

/-- So is a class. -/
theorem cls_iff {c : ClassRef} : Inside S (HostValue.cls c) ↔ .target (.type c) ∈ S := by
  simp [Inside, Exposes.exposed, HostValue.exposed]

/-- So is an object that is named by itself. -/
theorem objectRef_iff {o : ObjectRef} : Inside S o ↔ .target (.object o) ∈ S := by
  simp [Inside, Exposes.exposed]

/-- A script value that passes through exposes itself. -/
theorem script_iff {v : ScriptValue} : Inside S (HostValue.script v) ↔ Inside S v := by
  simp [Inside, Exposes.exposed, HostValue.exposed]

/-- Script values that pass through in a list. -/
theorem passed {vs : List ScriptValue} (h : Inside S vs) : Inside S (vs.map HostValue.script) := by
  rw [list_iff]
  intro v hv
  obtain ⟨x, hx, rfl⟩ := List.mem_map.mp hv
  exact script_iff.mpr (list_iff.mp h x hx)

/-- What an array exposes, its elements do. -/
theorem array_iff {items : List HostValue} :
    Inside S (HostValue.array items) ↔ Inside S items := by
  have hexposed : ∀ xs : List HostValue, HostValue.exposedAll xs = xs.flatMap HostValue.exposed := by
    intro xs
    induction xs with
    | nil => rfl
    | cons x xs ih => rw [HostValue.exposedAll, ih, List.flatMap_cons]
  have hitems : exposed (HostValue.array items) = exposed items := by
    show HostValue.exposed (.array items) = _
    rw [HostValue.exposed, hexposed]
    rfl
  unfold Inside
  rw [hitems]

/-! What a variable exposes is what it is read as. -/

/-- What was stored, seen as a script value: some part of what was stored, or nil. -/
theorem asScript {s : Stored} (h : Inside S s) (position : Nat) :
    Inside S (s.asScript position) := by
  cases s with
  | script v => exact h
  | scripts vs => exact (getElem? h position).getD nilValue
  | host v =>
    cases v with
    | script v => exact script_iff.mp h
    | _ => exact nilValue
  | raised e => exact h
  | failed e =>
    cases e with
    | script e => exact h
    | _ => exact nilValue
  | _ => exact nilValue

/-- What was stored, seen as a host value. -/
theorem asHost {s : Stored} (h : Inside S s) (position : Nat) :
    Inside S (s.asHost position) := by
  cases s with
  | host v => exact h
  | object o => exact object_iff.mpr (objectRef_iff.mp h)
  | cls c => exact cls_iff.mpr (h _ List.mem_cons_self)
  | _ => exact script_iff.mpr (h.asScript position)

/-- What was stored, seen as a list of script values. -/
theorem asScripts {s : Stored} (h : Inside S s) : Inside S s.asScripts := by
  cases s with
  | scripts vs => exact h
  | _ => exact .cons (h.asScript 0) .nil

/-- A failure that was stored exposes what the variable does. -/
theorem failure {s : Stored} (h : Inside S s) {f : Failure} (hf : s.failure? = some f) :
    Inside S f := by
  cases s with
  | raised e => exact Option.some.inj hf ▸ h
  | failed e => exact Option.some.inj hf ▸ h
  | _ => cases hf

/-- A failure is stored as it is. -/
theorem stored {f : Failure} (h : Inside S f) : Inside S f.stored := by
  cases f <;> exact h

/-- A value that was given to the script side. -/
theorem givenScript {g : Option Given} (h : Inside S g) : Inside S (Act.givenScript g) := by
  rcases g with _ | vs | vs
  · exact .nil
  · exact some_iff.mp h
  · exact .nil

/-- A value that was given to the host side. -/
theorem givenHost {g : Option Given} (h : Inside S g) : Inside S (Act.givenHost g) := by
  rcases g with _ | vs | vs
  · exact .nil
  · exact .nil
  · exact some_iff.mp h

end Inside

/-! ### Tables -/

namespace Table

variable {S : Set Item} {t t' : Table} {key value : ScriptValue} {vs : List ScriptValue}

/-- A table is inside if its keys and its values are. -/
theorem inside_iff : Inside S t ↔ t.All (Inside S) := by
  have hentry : ∀ e : Entry, Inside S e ↔ Inside S e.key ∧ Inside S e.value := by
    intro e
    unfold Inside
    exact List.forall_mem_append
  have hentries : Inside S t ↔ Inside S t.entries := Iff.rfl
  simp only [hentries, Inside.list_iff, hentry]
  rfl

theorem inside_empty : Inside S empty := .nil

/-- What is found in a table that is inside. -/
theorem inside_get (h : Inside S t) (key : ScriptValue) : Inside S (t.get key) :=
  (inside_iff.mp h).get .nilValue key

/-- A table after an assignment. -/
theorem inside_set (h : Inside S t) (hkey : Inside S key) (hvalue : Inside S value)
    (hset : t.set key value = .ok t') : Inside S t' :=
  inside_iff.mpr ((inside_iff.mp h).set hkey hvalue hset)

/-- The keys of a sequence are integers and expose nothing. -/
theorem inside_ofSequence (h : Inside S vs) : Inside S (ofSequence vs) :=
  inside_iff.mpr (.ofSequence (Inside.list_iff.mp h) fun _ => .of_exposed_eq_nil rfl)

/-- The sequence part of a table that is inside. -/
theorem inside_sequence (h : Inside S t) : Inside S t.sequence :=
  Inside.list_iff.mpr fun _ hv => (inside_iff.mp h).sequence hv

/-- The entries of a table under string keys. -/
theorem inside_stringEntries (h : Inside S t) : Inside S (Act.stringEntries t) :=
  Inside.list_iff.mpr fun _ hp => (inside_iff.mp h).stringEntries hp

end Table

/-! ### Slots -/

namespace Slots

/-- A slot is looked up from the front. -/
theorem read_cons (n : String) (x : HostValue) (rest : Slots) (name : String) :
    read ((n, x) :: rest) name = if n = name then x else read rest name := by
  unfold read
  by_cases h : n = name <;> simp [h]

/-- **A slot reads as what was written last**, and the others read as before. -/
theorem read_write (s : Slots) (slot : String) (v : HostValue) (name : String) :
    (s.write slot v).read name = if slot = name then v else s.read name := by
  induction s with
  | nil => exact read_cons slot v [] name
  | cons p rest ih =>
    obtain ⟨n, x⟩ := p
    unfold write
    split
    · rw [read_cons]
    · split
      · next heq =>
        subst heq
        rw [read_cons, read_cons]
        split <;> rfl
      · next hne =>
        rw [read_cons, ih, read_cons]
        -- The first slot is another than the one that is written.
        by_cases hn : n = name
        · rw [if_pos hn, if_pos hn, if_neg fun h => hne (h.trans hn.symm)]
        · rw [if_neg hn, if_neg hn]

/-- Slots hold what was assigned to them. -/
theorem inside_read_ofList {S : Set Item} {ps : List (String × HostValue)} (h : Inside S ps)
    (name : String) : Inside S ((ofList ps).read name) := by
  -- Slots are written one after another, so this is on the writes that are left and the slots that are
  -- there.
  have hfold : ∀ (ps : List (String × HostValue)) (s : Slots), Inside S ps →
      Inside S (s.read name) → Inside S ((ps.foldl (fun s p => s.write p.1 p.2) s).read name) := by
    intro ps
    induction ps with
    | nil => exact fun _ _ hs => hs
    | cons p rest ih =>
      intro s hps hs
      refine ih _ hps.tail ?_
      rw [read_write]
      split
      · exact hps.head
      · exact hs
  exact hfold ps [] h (.of_exposed_eq_nil rfl)

end Slots

end ScriptHost
