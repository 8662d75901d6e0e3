import ScriptHost.Proofs.Afterlife.Safe
import ScriptHost.Proofs.Order.Quiet

/-!
# Classes are built in order

The types of a class's members name classes by variables, and a variable holds a class only when the
class has been built. So a class mentions classes that were built before it and no others:
`World.InOrder` says this of all classes of a world, and of the variables that they are the classes
that are there. Programs have to be closed for that, since a handle written down in a type could be
of a class that is not there yet. A world is tidy if its classes are in order and no table has a
string as a key twice.

`Orderly n m Q` says of an act: where there are `n` classes in a tidy world, it leaves no fewer
classes in a tidy world, and what it gives satisfies `Q` of their number. Quiet acts are orderly of
their own.
-/

set_option autoImplicit false

namespace ScriptHost

/-! ### Mentioning classes -/

/-- The classes that the type mentions are among the first `n`. -/
def HostType.Below (n : Nat) (t : HostType) : Prop := ∀ h ∈ t.handles, h.index < n

/-- The types that a member declares. -/
def Member.types : Member → List HostType
  | .method m => m.params
  | .property p => [p.type]
  | .field f => [f.type]

/-- All types that a member declares mention classes among the first ones. -/
def Member.Below (n : Nat) (m : Member) : Prop := ∀ t ∈ m.types, t.Below n

/-- A class that is held is among the first `n`. -/
def Stored.Below (n : Nat) : Stored → Prop
  | .cls c => c.ref.index < n
  | _ => True

/-- What is among the first classes is among more of them. -/
theorem HostType.Below.mono {n k : Nat} {t : HostType} (h : t.Below n) (hk : n ≤ k) : t.Below k :=
  fun x hx => Nat.lt_of_lt_of_le (h x hx) hk

/-- So it is for members. -/
theorem Member.Below.mono {n k : Nat} {m : Member} (h : m.Below n) (hk : n ≤ k) : m.Below k :=
  fun t ht => (h t ht).mono hk

/-- Hiding changes no types. -/
theorem Member.Below.hide {n : Nat} {m : Member} (h : m.Below n) : m.hide.Below n := by
  cases m <;> exact h

/-- So it is for what variables hold. -/
theorem Stored.Below.mono {n k : Nat} {s : Stored} (h : s.Below n) (hk : n ≤ k) : s.Below k := by
  cases s with
  | cls c => exact Nat.lt_of_lt_of_le h hk
  | _ => trivial

namespace World

/-- **Classes are built in order**: each mentions classes that were built before it, and what
variables hold has been built. -/
structure InOrder (w : World) : Prop where
  closed : w.Closed
  classes : ∀ c info, w.classes.get? c = some info → ∀ m ∈ info.members, m.Below c.index
  vars : ∀ p ∈ w.vars, p.2.Below w.classes.size

namespace InOrder

variable {w w' : World}

/-- There are no classes before any operation. -/
theorem start (c : Config) (layout : Ref .object → Nat) : (start c layout).InOrder where
  closed := .start c layout
  classes c info h := by simp [World.start, Store.empty, Store.get?] at h
  vars p hp := nomatch hp

/-- Where nothing was defined nothing gets out of order. -/
theorem of_same (hw : w.InOrder) (h : w.SameDefinitions w') : w'.InOrder where
  closed := ⟨h.functions ▸ hw.closed.functions, h.classes ▸ hw.closed.classes,
    h.vars ▸ hw.closed.vars⟩
  classes := h.classes ▸ hw.classes
  vars := by
    rw [h.vars, h.classes]
    exact hw.vars

/-- A function with a closed body may be made. -/
theorem pushFunction (hw : w.InOrder) {f : Function} (hf : f.code.Closed) :
    ({ w with functions := w.functions.push f } : World).InOrder := by
  refine { hw with closed := { hw.closed with functions := fun r x hx => ?_ } }
  rcases Store.get?_push_cases hx with ⟨-, rfl⟩ | hx
  · exact hf
  · exact hw.closed.functions r x hx

/-- **A class is built**: all that it mentions was there. -/
theorem pushClass (hw : w.InOrder) {c : HostClass} (hclosed : ∀ m ∈ c.members, m.Closed)
    (hc : ∀ m ∈ c.members, m.Below w.classes.size) :
    ({ w with classes := w.classes.push c } : World).InOrder where
  closed := by
    refine { hw.closed with classes := fun d info hd => ?_ }
    rcases Store.get?_push_cases hd with ⟨-, rfl⟩ | hd
    · exact hclosed
    · exact hw.closed.classes d info hd
  classes d info hd := by
    rcases Store.get?_push_cases hd with ⟨rfl, rfl⟩ | hd
    · exact hc
    · exact hw.classes d info hd
  vars p hp := (hw.vars p hp).mono (by simp)

/-- Variables may be dropped. -/
theorem filterVars (hw : w.InOrder) (f : String × Stored → Bool) :
    ({ w with vars := w.vars.filter f } : World).InOrder where
  closed := { hw.closed with vars := fun p hp => hw.closed.vars p (List.mem_filter.mp hp).1 }
  classes := hw.classes
  vars p hp := hw.vars p (List.mem_filter.mp hp).1

/-- A variable may hold what was built. -/
theorem pushVar (hw : w.InOrder) (name : String) {s : Stored} (hclosed : s.Closed)
    (hs : s.Below w.classes.size) : ({ w with vars := (name, s) :: w.vars } : World).InOrder where
  closed := { hw.closed with vars := List.forall_mem_cons.mpr ⟨hclosed, hw.closed.vars⟩ }
  classes := hw.classes
  vars := List.forall_mem_cons.mpr ⟨hs, hw.vars⟩

/-- What a variable holds. -/
theorem var (hw : w.InOrder) {name : String} {s : Stored} (h : w.var? name = some s) :
    s.Closed ∧ s.Below w.classes.size := by
  obtain ⟨p, hp, rfl⟩ := Option.map_eq_some_iff.mp h
  have hmem := List.mem_of_find?_eq_some hp
  exact ⟨hw.closed.vars p hmem, hw.vars p hmem⟩

/-- The code of a function is closed. -/
theorem code (hw : w.InOrder) (f : FunctionRef) : (w.function f).code.Closed := by
  unfold World.function
  cases hf : w.functions.get? f with
  | none => rfl
  | some x => exact hw.closed.functions f x hf

/-- Members that are found are closed. -/
theorem resolve (hw : w.InOrder) {b : Binding} {c : ClassRef} {k : MemberKey} {onInstance : Bool}
    {m : Member} (hm : m ∈ b.resolve (w.cls c) k onInstance) : m.Closed := by
  have hmember := Binding.mem_members_of_resolve hm
  unfold World.cls at hmember
  cases hc : w.classes.get? c.ref with
  | none =>
    rw [hc] at hmember
    cases hmember
  | some info =>
    rw [hc] at hmember
    exact hw.closed.classes c.ref info hc m hmember

end InOrder

/-- **A tidy world**: its classes are in order, and no table has a string as a key twice. -/
structure Tidy (w : World) : Prop extends w.InOrder where
  strings : w.StringsOnce

namespace Tidy

variable {w w' : World}

/-- A world before any operation is tidy. -/
theorem start (c : Config) (layout : Ref .object → Nat) : (start c layout).Tidy where
  toInOrder := .start c layout
  strings r x hx := by
    -- There is one table, the globals, and nothing is in it.
    rcases Store.get?_push_cases (s := .empty) hx with ⟨-, rfl⟩ | hx
    · exact .empty
    · simp [Store.empty, Store.get?] at hx

/-- What was not defined makes nothing untidy. -/
theorem of_same (hw : w.Tidy) (h : w.SameDefinitions w') : w'.Tidy where
  toInOrder := hw.toInOrder.of_same h
  strings := h.tables hw.strings

end Tidy

end World

/-! ### Orderly acts -/

namespace Act

/-- **The act leaves a tidy world**, and gives what is promised of the number of classes. -/
def Orderly {ε α : Type} (n : Nat) (m : Act ε α) (Q : Nat → α → Prop) : Prop :=
  ∀ w : World, w.Tidy → n ≤ w.classes.size →
    (m.outcome w).2.Tidy ∧ w.classes.size ≤ (m.outcome w).2.classes.size ∧
      ∀ a, (m.outcome w).1 = .ok a → Q (m.outcome w).2.classes.size a

/-- Nothing was defined, and nothing is promised. -/
theorem Quiet.orderly {ε α : Type} {n : Nat} {m : Act ε α} (h : Quiet m) :
    Orderly n m fun _ _ => True := fun w hw _ => by
  have hsame := h w
  exact ⟨hw.of_same hsame, hsame.classes ▸ Nat.le_refl _, fun _ _ => trivial⟩

/-- After a quiet act there are as many classes as before. -/
theorem Quiet.andThen {ε α β : Type} {n : Nat} {m : Act ε α} {f : α → Act ε β}
    {Q : Nat → β → Prop} (hm : Quiet m) (hf : ∀ a, Orderly n (f a) Q) : Orderly n (m >>= f) Q := by
  intro w hw hn
  have hsame := hm w
  -- A quiet act that fails leaves the classes as well.
  rcases hout : m.outcome w with ⟨e | a, w₁⟩ <;> rw [hout] at hsame
  · rw [outcome_bind_error hout]
    exact ⟨hw.of_same hsame, hsame.classes ▸ Nat.le_refl _, nofun⟩
  · rw [outcome_bind_ok hout]
    obtain ⟨hw₂, hsize, hQ⟩ := hf a w₁ (hw.of_same hsame) (hsame.classes ▸ hn)
    exact ⟨hw₂, hsame.classes ▸ hsize, hQ⟩

namespace Orderly

variable {ε ε' α β : Type} {n : Nat} {P Q : Nat → α → Prop}

theorem pure {a : α} (h : ∀ k, n ≤ k → Q k a) : Orderly n (pure a : Act ε α) Q :=
  fun _ hw hn => ⟨hw, Nat.le_refl _, fun _ hb => Except.ok.inj hb ▸ h _ hn⟩

theorem done (a : α) : Orderly n (Pure.pure a : Act ε α) fun _ _ => True := .pure fun _ _ => trivial

theorem throw (e : ε) : Orderly n (throw e : Act ε α) Q := fun _ hw _ => ⟨hw, Nat.le_refl _, nofun⟩

theorem failWith (f : World → ε) : Orderly n (failWith f : Act ε α) Q :=
  fun _ hw _ => ⟨hw, Nat.le_refl _, nofun⟩

theorem look {f : World → α} (h : ∀ w, w.Tidy → n ≤ w.classes.size → Q w.classes.size (f w)) :
    Orderly n (look f : Act ε α) Q :=
  fun w hw hn => ⟨hw, Nat.le_refl _, fun _ hb => Except.ok.inj hb ▸ h w hw hn⟩

theorem ofExcept {r : Except ε α} (h : ∀ a, r = .ok a → ∀ k, n ≤ k → Q k a) :
    Orderly n (ofExcept r) Q :=
  fun _ hw hn => ⟨hw, Nat.le_refl _, fun a ha => h a ha _ hn⟩

/-- **One act after another.** The second one starts with the classes that there are by then. -/
theorem bind {m : Act ε α} {f : α → Act ε β} {Q : Nat → β → Prop} (hm : Orderly n m P)
    (hf : ∀ k, n ≤ k → ∀ a, P k a → Orderly k (f a) Q) : Orderly n (m >>= f) Q := by
  intro w hw hn
  obtain ⟨hw₁, hsize, hP⟩ := hm w hw hn
  rcases hout : m.outcome w with ⟨e | a, w₁⟩ <;> rw [hout] at hw₁ hsize hP
  · rw [outcome_bind_error hout]
    exact ⟨hw₁, hsize, nofun⟩
  · rw [outcome_bind_ok hout]
    -- The second act counts from the classes that the first one left.
    have hf' := hf w₁.classes.size (Nat.le_trans hn hsize) a (hP a rfl)
    obtain ⟨hw₂, hsize', hQ⟩ := hf' w₁ hw₁ (Nat.le_refl _)
    exact ⟨hw₂, Nat.le_trans hsize hsize', hQ⟩

/-- One act after another, whatever the first one gives. -/
theorem andThen {m : Act ε α} {f : α → Act ε β} {Q : Nat → β → Prop} (hm : Orderly n m P)
    (hf : ∀ k, n ≤ k → ∀ a, Orderly k (f a) Q) : Orderly n (m >>= f) Q :=
  hm.bind fun k hk a _ => hf k hk a

theorem attempt {m : Act ε α} (h : Orderly n m Q) :
    Orderly n (attempt m : Act ε' (Except ε α)) fun k r => ∀ a, r = .ok a → Q k a := by
  intro w hw hn
  obtain ⟨hw₁, hsize, hQ⟩ := h w hw hn
  exact ⟨hw₁, hsize, fun r hr a ha => hQ a ((Except.ok.inj hr).trans ha)⟩

theorem mapError {m : Act ε α} (f : World → ε → ε') (h : Orderly n m Q) :
    Orderly n (mapError f m) Q := by
  intro w hw hn
  obtain ⟨hw₁, hsize, hQ⟩ := h w hw hn
  rw [outcome_mapError]
  rcases hout : m.outcome w with ⟨e | a, w₁⟩ <;> rw [hout] at hw₁ hsize hQ
  · exact ⟨hw₁, hsize, nofun⟩
  · exact ⟨hw₁, hsize, fun b hb => hQ b (congrArg _ (Except.ok.inj hb))⟩

theorem holding {m : Act ε α} (hs : List Handle) (h : Orderly n m Q) :
    Orderly n (holding hs m) Q := by
  intro w hw hn
  obtain ⟨hw₁, hsize, hQ⟩ := h { w with held := hs ++ w.held } (hw.of_same ⟨rfl, rfl, rfl, id⟩) hn
  rw [outcome_holding]
  exact ⟨hw₁.of_same ⟨rfl, rfl, rfl, id⟩, hsize, hQ⟩

/-! ### Definitions -/

theorem newFunction {f : Function} (hf : f.code.Closed) :
    Orderly n (newFunction f : Act ε FunctionRef) fun _ _ => True :=
  fun _ hw _ => ⟨⟨hw.pushFunction hf, hw.strings⟩, Nat.le_refl _, fun _ _ => trivial⟩

/-- A class that was built is there. -/
theorem newClass {c : HostClass} (hclosed : ∀ m ∈ c.members, m.Closed)
    (hc : ∀ m ∈ c.members, m.Below n) :
    Orderly n (newClass c : Act ε ClassRef) fun k d => d.ref.index < k := by
  intro w hw hn
  have hsize : (w.classes.push c).size = w.classes.size + 1 := w.classes.size_push c
  refine ⟨⟨hw.pushClass hclosed fun m hm => (hc m hm).mono hn, hw.strings⟩, ?_, fun d hd => ?_⟩
  · exact hsize ▸ Nat.le_succ _
  · obtain rfl := Except.ok.inj hd
    exact hsize ▸ Nat.lt_succ_self _

theorem assign (name : String) {s : Stored} (hclosed : s.Closed) (hs : s.Below n) :
    Orderly n (assign name s : Act ε Unit) fun _ _ => True :=
  fun _ hw hn => ⟨⟨(hw.filterVars _).pushVar name hclosed (hs.mono hn), hw.strings⟩, Nat.le_refl _,
    fun _ _ => trivial⟩

theorem dropVar (name : String) :
    Orderly n (change fun w => { w with vars := w.vars.filter fun p => p.1 != name } : Act ε Unit)
      fun _ _ => True :=
  fun _ hw _ => ⟨⟨hw.filterVars _, hw.strings⟩, Nat.le_refl _, fun _ _ => trivial⟩

/-! ### Brackets -/

theorem whileBorrowed {m : Act ε α} (o : ObjectRef) (mutably : Bool) (fail : HostFailure → ε)
    (h : Orderly n m Q) (hQ : ∀ k k' a, k ≤ k' → Q k a → Q k' a) :
    Orderly n (whileBorrowed o mutably fail m) Q := by
  refine ((Quiet.borrowed o mutably .slots).mapError _).andThen fun ob => ?_
  refine (Quiet.setObject _ _).andThen fun _ => h.attempt.bind fun k hk r hr => ?_
  refine (Quiet.look _).andThen fun now => (Quiet.setObject _ _).andThen fun _ => ?_
  exact .ofExcept fun a ha k' hk' => hQ k k' a hk' (hr a ha)

theorem framed {m : Act ε α} (inCoroutine : Bool) (f : FunctionRef)
    (h : Orderly n m fun _ _ => True) : Orderly n (framed inCoroutine f m) fun _ _ => True := by
  intro w hw hn
  have hentered : (w.entered inCoroutine f).Tidy := hw.of_same ⟨rfl, rfl, rfl, id⟩
  obtain ⟨hw₁, hsize, -⟩ := h _ hentered hn
  rw [outcome_framed]
  exact ⟨hw₁.of_same ⟨rfl, rfl, rfl, id⟩, hsize, fun _ _ => trivial⟩

end Orderly

end Act

end ScriptHost
