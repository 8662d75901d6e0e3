import ScriptHost.Proofs.Act.Known
import ScriptHost.Proofs.Conversion.Revival

/-!
# Holding nothing dead

Whatever runs after a moment has nothing in hand that was dead at that moment: `w₀.AllSafe x` says
that a value holds nothing that is dead in `w₀`. As for `Known` there is one lemma for each way in
which a value is a part of another.

Things come into hand by looking around, with one exception: a type can be written down with a
class in it. Programs as they are written name the classes of their types by variables, and have no
handles in them: they are closed. `World.Closed` says so of all bodies that are stored.
-/

set_option autoImplicit false

namespace ScriptHost

/-! ### Closed programs -/

/-- Whether the classes of a type are named by variables. -/
def TypeExpr.isClosed : TypeExpr → Bool
  | .plain t => t.handles.isEmpty
  | .array e | .nullable e => e.isClosed
  | .object _ => true

/-- Whether no class stands in the type of an action by itself. -/
def Action.isClosed : Action → Bool
  | .conversion (.toHost _ t) => t.isClosed
  | _ => true

mutual

/-- Whether no handles are in an operation, with all bodies in it. -/
def Op.isClosed : Op → Bool
  | .act _ a => a.isClosed
  | .giveScript _ _ | .giveHost _ _ => true
  | .branch _ _ yes no => Op.allClosed yes && Op.allClosed no
  | .borrow _ _ _ body => Op.allClosed body
  | .function _ _ _ _ body => Op.allClosed body
  | .hostFunction _ _ params _ body => params.all TypeExpr.isClosed && Op.allClosed body
  | .cls _ spec => Op.specClosed spec

/-- The same for the operations of a program. -/
def Op.allClosed : List Op → Bool
  | [] => true
  | op :: rest => op.isClosed && Op.allClosed rest

/-- The same for the types and the methods that a class declares. -/
def Op.specClosed : ClassSpec (List Op) → Bool
  | ⟨_, ds, _, _⟩ => Op.declarationsClosed ds

/-- The same for a list of declarations. -/
def Op.declarationsClosed : List (Declaration (List Op)) → Bool
  | [] => true
  | d :: ds => Op.declarationClosed d && Op.declarationsClosed ds

/-- Whether no handles are in the types of one declaration, and in its body if it is a method. -/
def Op.declarationClosed : Declaration (List Op) → Bool
  | .field _ t _ _ _ | .property _ t _ _ _ _ | .indexer _ t _ _
  | .staticProperty _ t _ => t.isClosed
  | .method _ params _ body => params.all TypeExpr.isClosed && Op.allClosed body
  | .nonPublic => true

end

/-- The body of a method is closed. -/
def Member.Closed : Member → Prop
  | .method m => Op.allClosed m.body
  | _ => True

/-- The body that the code runs is closed. -/
def Code.Closed : Code → Prop
  | .script body => Op.allClosed body
  | .host _ f => Op.allClosed f.body
  | .method _ _ m => Op.allClosed m.body

/-- The body of a stored host function is closed; other stored things have none. -/
def Stored.Closed : Stored → Prop
  | .hostFunction f => Op.allClosed f.body
  | _ => True

namespace World

/-- Every body that can be run from the world is closed. -/
structure Closed (w : World) : Prop where
  functions : ∀ f x, w.functions.get? f = some x → x.code.Closed
  classes : ∀ c info, w.classes.get? c = some info → ∀ m ∈ info.members, m.Closed
  vars : ∀ p ∈ w.vars, p.2.Closed

/-- Nothing can be run before a session begins. -/
theorem Closed.start (c : Config) (layout : Ref .object → Nat) : (start c layout).Closed where
  functions f x h := by simp [World.start, Store.empty, Store.get?] at h
  classes f x h := by simp [World.start, Store.empty, Store.get?] at h
  vars p hp := by cases hp

end World

/-! ### Holding nothing dead -/

/-- A conversion fails with texts only. -/
instance : Holds ConversionError := ⟨fun _ => []⟩

instance : Holds Scope where
  handles s := match s.side with
    | .top => []
    | .script args => handles args
    | .host _ receiver args => handles receiver ++ handles args

/-- What an operation leaves for a variable, and what it keeps until it is answered. -/
instance : Holds Result := ⟨fun r => handles r.store ++ r.kept⟩

instance : Holds Outcome where
  handles
    | .give g => handles g
    | .answer _ => []

namespace World

/-- All that the value holds is safe. -/
def AllSafe (w₀ : World) {α : Type} [Holds α] (x : α) : Prop := ∀ h ∈ handles x, w₀.Safe h

namespace AllSafe

variable {α : Type} [Holds α] {w₀ : World}

/-- What holds nothing at all holds nothing dead. -/
theorem of_eq_nil {x : α} (h : handles x = []) : w₀.AllSafe x := fun k hk => by
  rw [h] at hk
  cases hk

/-- A list holds nothing dead if none of its items does. -/
theorem list_iff {xs : List α} : w₀.AllSafe xs ↔ ∀ x ∈ xs, w₀.AllSafe x := by
  constructor
  · intro h x hx k hk
    exact h k (List.mem_flatMap.mpr ⟨x, hx, hk⟩)
  · intro h k hk
    obtain ⟨x, hx, hk⟩ := List.mem_flatMap.mp hk
    exact h x hx k hk

theorem nil : w₀.AllSafe ([] : List α) := fun _ h => nomatch h

theorem cons {x : α} {xs : List α} (h : w₀.AllSafe x) (hs : w₀.AllSafe xs) :
    w₀.AllSafe (x :: xs) :=
  list_iff.mpr (List.forall_mem_cons.mpr ⟨h, list_iff.mp hs⟩)

theorem head {x : α} {xs : List α} (h : w₀.AllSafe (x :: xs)) : w₀.AllSafe x :=
  list_iff.mp h x List.mem_cons_self

theorem tail {x : α} {xs : List α} (h : w₀.AllSafe (x :: xs)) : w₀.AllSafe xs :=
  list_iff.mpr fun y hy => list_iff.mp h y (List.mem_cons_of_mem x hy)

theorem map {β : Type} {f : β → α} {xs : List β} (h : ∀ x ∈ xs, w₀.AllSafe (f x)) :
    w₀.AllSafe (xs.map f) :=
  list_iff.mpr (List.forall_mem_map.mpr h)

theorem none : w₀.AllSafe (Option.none : Option α) := fun _ h => nomatch h

theorem some_iff {x : α} : w₀.AllSafe (some x) ↔ w₀.AllSafe x := by
  have hhandles : handles (some x) = handles x := List.flatMap_singleton handles x
  unfold AllSafe
  rw [hhandles]

/-- What an option holds, or what stands in for it. -/
theorem getD {x? : Option α} {x : α} (h : w₀.AllSafe x?) (hx : w₀.AllSafe x) :
    w₀.AllSafe (x?.getD x) := by
  cases x? with
  | none => exact hx
  | some y => exact some_iff.mp h

/-- An item of a list, if there is one at this place. -/
theorem getElem? {xs : List α} (h : w₀.AllSafe xs) (i : Nat) : w₀.AllSafe xs[i]? := by
  cases hi : xs[i]? with
  | none => exact none
  | some x => exact some_iff.mpr (list_iff.mp h x (List.mem_of_getElem? hi))

/-- One handle is one thing. -/
theorem singleton {h : Handle} (hh : w₀.Safe h) : ∀ k ∈ [h], w₀.Safe k :=
  List.forall_mem_singleton.mpr hh

/-- A value that refers to a table holds only the table. -/
theorem table {t : TableRef} (ht : w₀.Safe t.handle) : w₀.AllSafe (ScriptValue.table t) :=
  singleton ht

/-- The same for a function. -/
theorem function {f : FunctionRef} (hf : w₀.Safe f.handle) :
    w₀.AllSafe (ScriptValue.function f) :=
  singleton hf

/-- And for a userdata. -/
theorem userdata {u : UserdataRef} (hu : w₀.Safe u.handle) :
    w₀.AllSafe (ScriptValue.userdata u) :=
  singleton hu

/-- An array holds what its elements hold. -/
theorem array_iff {items : List HostValue} :
    w₀.AllSafe (HostValue.array items) ↔ w₀.AllSafe items := by
  have hall : ∀ xs : List HostValue, HostValue.heldAll xs = xs.flatMap HostValue.held := by
    intro xs
    induction xs with
    | nil => rfl
    | cons x xs ih => rw [HostValue.heldAll, ih, List.flatMap_cons]
  have hitems : handles (HostValue.array items) = handles items := by
    show HostValue.held (.array items) = _
    rw [HostValue.held, hall]
    rfl
  unfold AllSafe
  rw [hitems]

/-! What a scope and a variable hold, they hand on. -/

/-- The receiver of a body is one of the things that its scope holds. -/
theorem receiver {s : Scope} (h : w₀.AllSafe s) : w₀.AllSafe s.receiver? := fun k hk => by
  refine h k ?_
  obtain ⟨b, _ | _ | ⟨via, r, args⟩⟩ := s
  · cases hk
  · cases hk
  · exact List.mem_append_left _ hk

/-- The receiver as a value, in a method that the host runs. -/
theorem hostReceiver {s : Scope} (h : w₀.AllSafe s) {via : BindingRef} {o : ObjectRef}
    {args : List HostValue} (hs : s.side = .host via (some o) args) :
    w₀.AllSafe (HostValue.object o) := by
  have hr : s.receiver? = some o := by rw [Scope.receiver?, hs]
  have ho : w₀.AllSafe o := some_iff.mp (hr ▸ h.receiver)
  exact ho

/-- The arguments of a host body. -/
theorem args {s : Scope} (h : w₀.AllSafe s) {via : BindingRef} {r : Option ObjectRef}
    {args : List HostValue} (hs : s.side = .host via r args) : w₀.AllSafe args := fun k hk => by
  refine h k ?_
  simp only [Holds.handles, hs]
  exact List.mem_append_right _ hk

/-- One of them, null when there are too few. -/
theorem arg {s : Scope} (h : w₀.AllSafe s) {via : BindingRef} {r : Option ObjectRef}
    {args : List HostValue} (hs : s.side = .host via r args) (i : Nat) :
    w₀.AllSafe ((args[i]?).getD .null) :=
  ((h.args hs).getElem? i).getD (of_eq_nil rfl)

/-- The arguments of a script body. -/
theorem scriptArgs {s : Scope} (h : w₀.AllSafe s) {args : List ScriptValue}
    (hs : s.side = .script args) : w₀.AllSafe args := fun k hk => by
  refine h k ?_
  simpa only [Holds.handles, hs] using hk

/-- One of them, nil when there are too few. -/
theorem scriptArg {s : Scope} (h : w₀.AllSafe s) {args : List ScriptValue}
    (hs : s.side = .script args) (i : Nat) : w₀.AllSafe ((args[i]?).getD .nil) :=
  ((h.scriptArgs hs).getElem? i).getD (of_eq_nil rfl)

/-- Outside of all bodies there is nothing in hand. -/
theorem topScope : w₀.AllSafe Scope.top := of_eq_nil rfl

/-- A value that was written down or looked up for the script side. -/
theorem givenScript {g : Option Given} (h : w₀.AllSafe g) : w₀.AllSafe (Act.givenScript g) := by
  rcases g with _ | vs | vs
  · exact .nil
  · exact some_iff.mp h
  · exact .nil

/-- The same for the host side. -/
theorem givenHost {g : Option Given} (h : w₀.AllSafe g) : w₀.AllSafe (Act.givenHost g) := by
  rcases g with _ | vs | vs
  · exact .nil
  · exact .nil
  · exact some_iff.mp h

/-- What was stored, seen as a script value: some part of what was stored, or nil. -/
theorem asScript {s : Stored} (h : w₀.AllSafe s) (position : Nat) :
    w₀.AllSafe (s.asScript position) := by
  have hnil : w₀.AllSafe ScriptValue.nil := of_eq_nil rfl
  cases s with
  | script v => exact h
  | scripts vs => exact (getElem? h position).getD hnil
  | host v =>
    cases v with
    | script v => exact h
    | _ => exact hnil
  | raised e => exact h
  | failed e =>
    cases e with
    | script e => exact h
    | _ => exact hnil
  | _ => exact hnil

/-- What was stored, seen as a list of script values. -/
theorem asScripts {s : Stored} (h : w₀.AllSafe s) : w₀.AllSafe s.asScripts := by
  cases s with
  | scripts vs => exact h
  | _ => exact .cons (h.asScript 0) .nil

/-- What was stored, seen as a host value. -/
theorem asHost {s : Stored} (h : w₀.AllSafe s) (position : Nat) :
    w₀.AllSafe (s.asHost position) := by
  cases s with
  | host v => exact h
  | object o => exact h
  | cls c => exact h
  | _ => exact h.asScript position

/-- A failure that was stored holds what the variable does. -/
theorem failure {s : Stored} (h : w₀.AllSafe s) {f : Failure} (hf : s.failure? = some f) :
    w₀.AllSafe f := by
  cases s with
  | raised e => exact Option.some.inj hf ▸ h
  | failed e => exact Option.some.inj hf ▸ h
  | _ => cases hf

/-- A failure is stored as it is. -/
theorem stored {f : Failure} (h : w₀.AllSafe f) : w₀.AllSafe f.stored := by
  cases f <;> exact h

/-- A member that is hidden holds what it held. -/
theorem hide {m : Member} (h : w₀.AllSafe m) : w₀.AllSafe m.hide := by
  cases m <;> exact h

/-- A class holds what its members and its constructor hold. -/
theorem hostClass {c : HostClass} (hmembers : w₀.AllSafe c.members)
    (hconstructor : w₀.AllSafe c.constructor) : w₀.AllSafe c := fun k hk => by
  rcases List.mem_append.mp hk with hk | hk
  · exact hmembers k hk
  · exact (hconstructor.getD (x := ([] : Slots)) (of_eq_nil rfl)) k hk

end AllSafe

end World

/-! ### Tables and slots -/

namespace Table

variable {w₀ : World} {t t' : Table} {key value : ScriptValue} {vs : List ScriptValue}

/-- A table holds what its keys and its values hold. -/
theorem allSafe_iff : w₀.AllSafe t ↔ t.All w₀.AllSafe := by
  constructor
  · intro h e he
    exact ⟨fun k hk => h k (List.mem_flatMap.mpr ⟨e, he, List.mem_append_left _ hk⟩),
      fun k hk => h k (List.mem_flatMap.mpr ⟨e, he, List.mem_append_right _ hk⟩)⟩
  · intro h k hk
    obtain ⟨e, he, hk⟩ := List.mem_flatMap.mp hk
    exact (List.mem_append.mp hk).elim ((h e he).1 k) ((h e he).2 k)

/-- What is found in a table. -/
theorem allSafe_get (h : w₀.AllSafe t) (key : ScriptValue) : w₀.AllSafe (t.get key) :=
  (allSafe_iff.mp h).get (.of_eq_nil rfl) key

/-- A table after an assignment holds what it held, the key and the value. -/
theorem allSafe_set (h : w₀.AllSafe t) (hkey : w₀.AllSafe key) (hvalue : w₀.AllSafe value)
    (hset : t.set key value = .ok t') : w₀.AllSafe t' :=
  allSafe_iff.mpr ((allSafe_iff.mp h).set hkey hvalue hset)

/-- A table that was made from a list. -/
theorem allSafe_ofSequence (h : w₀.AllSafe vs) : w₀.AllSafe (ofSequence vs) :=
  allSafe_iff.mpr (.ofSequence (World.AllSafe.list_iff.mp h) fun _ => .of_eq_nil rfl)

/-- The sequence part of a table. -/
theorem allSafe_sequence (h : w₀.AllSafe t) : w₀.AllSafe t.sequence :=
  World.AllSafe.list_iff.mpr fun _ hv => (allSafe_iff.mp h).sequence hv

end Table

namespace Slots

variable {w₀ : World} {s : Slots}

/-- Slots hold what the values in them hold. -/
theorem allSafe_iff : w₀.AllSafe s ↔ ∀ p ∈ s, w₀.AllSafe p.2 := by
  constructor
  · intro h p hp k hk
    exact h k (List.mem_flatMap.mpr ⟨p, hp, hk⟩)
  · intro h k hk
    obtain ⟨p, hp, hk⟩ := List.mem_flatMap.mp hk
    exact h p hp k hk

/-- What is read from a slot. -/
theorem allSafe_read (h : w₀.AllSafe s) (name : String) : w₀.AllSafe (s.read name) := by
  unfold read
  cases hp : s.find? fun p => p.1 == name with
  | none => exact .of_eq_nil rfl
  | some p => exact allSafe_iff.mp h p (List.mem_of_find?_eq_some hp)

/-- Slots after a write: the value that was written took the place of an old one or came in addition.
-/
theorem allSafe_write (h : w₀.AllSafe s) (name : String) {v : HostValue} (hv : w₀.AllSafe v) :
    w₀.AllSafe (s.write name v) := by
  rw [allSafe_iff] at h ⊢
  induction s with
  | nil => exact List.forall_mem_singleton.mpr hv
  | cons p rest ih =>
    obtain ⟨n, x⟩ := p
    obtain ⟨hfirst, hrest⟩ := List.forall_mem_cons.mp h
    unfold write
    split
    -- The slot is there.
    · exact List.forall_mem_cons.mpr ⟨hv, h⟩
    · split
      -- Its place is before this one.
      · exact List.forall_mem_cons.mpr ⟨hv, hrest⟩
      · exact List.forall_mem_cons.mpr ⟨hfirst, ih hrest⟩

/-- Slots that were made from a list. -/
theorem allSafe_ofList {ps : List (String × HostValue)} (h : ∀ p ∈ ps, w₀.AllSafe p.2) :
    w₀.AllSafe (ofList ps) := by
  have hfold : ∀ (ps : List (String × HostValue)) (s : Slots), (∀ p ∈ ps, w₀.AllSafe p.2) →
      w₀.AllSafe s → w₀.AllSafe (ps.foldl (fun s p => s.write p.1 p.2) s) := by
    intro ps
    induction ps with
    | nil => exact fun s _ hs => hs
    | cons p ps ih =>
      intro s hps hs
      obtain ⟨hfirst, hrest⟩ := List.forall_mem_cons.mp hps
      exact ih _ hrest (allSafe_write hs p.1 hfirst)
  exact hfold ps [] h (.of_eq_nil rfl)

end Slots

end ScriptHost
