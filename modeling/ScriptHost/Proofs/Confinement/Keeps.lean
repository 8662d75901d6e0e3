import ScriptHost.Proofs.Confinement.Realm

/-!
# Acts that keep script inside a realm

`R.Keeps S m Q` says of an act: started in any world that is confined to `S` or more, it leaves a
confined world behind, where script may have got hold of more items, and of these it is known that
what the act gives satisfies `Q` and what it fails with exposes nothing else. It is closed under all
the ways to put acts together, so that a proof follows the text of the act, as it does for
`Composed`; here the primitive acts ask for what confinement needs.

Looking teaches something: `Keeps.learn` lets script keep what it saw, a member that is open, as an
item.
-/

set_option autoImplicit false

namespace ScriptHost

open Act

namespace Realm

/-- A value is as promised, and an error exposes nothing else. -/
def Granted {ε α : Type} [Exposes ε] (Q : Set Item → α → Prop) (S : Set Item) : Except ε α → Prop
  | .ok a => Q S a
  | .error e => Inside S e

/-- **The act keeps script inside the realm**, and gives what is promised. -/
def Keeps (R : Realm) (S : Set Item) {ε α : Type} [Exposes ε] (m : Act ε α)
    (Q : Set Item → α → Prop) : Prop :=
  ∀ S₁, S ⊆ S₁ → ∀ w, R.Confined S₁ w →
    ∃ S₂, S₁ ⊆ S₂ ∧ R.Confined S₂ (m.outcome w).2 ∧ Granted Q S₂ (m.outcome w).1

namespace Keeps

variable {R : Realm} {S S' : Set Item} {ε ε' α β : Type} [Exposes ε] [Exposes ε']
  {P Q : Set Item → α → Prop}

/-! ### Putting acts together -/

/-- Giving what is inside, and stays inside. -/
theorem pure {a : α} (h : ∀ {S'}, S ⊆ S' → Q S' a) : R.Keeps S (Pure.pure a : Act ε α) Q :=
  fun S₁ hS _ hw => ⟨S₁, subset_rfl, hw, h hS⟩

/-- Giving something that exposes only what script has. -/
theorem give [Exposes α] {a : α} (h : Inside S a) : R.Keeps S (Pure.pure a : Act ε α) Inside :=
  .pure fun hS => h.mono hS

/-- Giving something of which nothing is promised. -/
theorem done {a : α} : R.Keeps S (Pure.pure a : Act ε α) fun _ _ => True :=
  .pure fun _ => trivial

/-- Failing with something that is inside. -/
theorem throw {e : ε} (h : Inside S e) : R.Keeps S (MonadExcept.throw e : Act ε α) Q :=
  fun S₁ hS _ hw => ⟨S₁, subset_rfl, hw, h.mono hS⟩

/-- Failing with something that exposes nothing. -/
theorem fails {e : ε} (h : exposed e = []) : R.Keeps S (MonadExcept.throw e : Act ε α) Q :=
  .throw (.of_exposed_eq_nil h)

/-- **One act after another.** The second one starts with all that script has got hold of by then. -/
theorem bind {m : Act ε α} {f : α → Act ε β} {Q : Set Item → β → Prop} (hm : R.Keeps S m P)
    (hf : ∀ {S'}, S ⊆ S' → ∀ a, P S' a → R.Keeps S' (f a) Q) : R.Keeps S (m >>= f) Q := by
  intro S₁ hS w hw
  obtain ⟨S₂, hS₂, hw₂, hP⟩ := hm S₁ hS w hw
  rcases hout : m.outcome w with ⟨e | a, w₂⟩ <;> rw [hout] at hw₂ hP
  · rw [outcome_bind_error hout]
    exact ⟨S₂, hS₂, hw₂, hP⟩
  · rw [outcome_bind_ok hout]
    obtain ⟨S₃, hS₃, hw₃, hQ⟩ := hf (hS.trans hS₂) a hP S₂ subset_rfl w₂ hw₂
    exact ⟨S₃, hS₂.trans hS₃, hw₃, hQ⟩

/-- One act after another, whatever the first one gives. -/
theorem andThen {m : Act ε α} {f : α → Act ε β} {Q : Set Item → β → Prop} (hm : R.Keeps S m P)
    (hf : ∀ {S'}, S ⊆ S' → ∀ a, R.Keeps S' (f a) Q) : R.Keeps S (m >>= f) Q :=
  hm.bind fun hS a _ => hf hS a

/-- An error that is caught is inside. -/
theorem attempt {m : Act ε α} (h : R.Keeps S m P) :
    R.Keeps S (Act.attempt m : Act ε' (Except ε α)) (Granted P) :=
  h

/-- An error may be replaced by one that is inside. -/
theorem mapError {m : Act ε α} (f : World → ε → ε')
    (hf : ∀ {S'} w e, R.Confined S' w → Inside S' e → Inside S' (f w e)) (h : R.Keeps S m P) :
    R.Keeps S (Act.mapError f m) P := by
  intro S₁ hS w hw
  obtain ⟨S₂, hS₂, hw₂, hP⟩ := h S₁ hS w hw
  rw [outcome_mapError]
  rcases hout : m.outcome w with ⟨e | a, w₂⟩ <;> rw [hout] at hw₂ hP
  · exact ⟨S₂, hS₂, hw₂, hf w₂ e hw₂ hP⟩
  · exact ⟨S₂, hS₂, hw₂, hP⟩

/-- What has come about already. -/
theorem ofExcept {r : Except ε α} (h : ∀ {S'}, S ⊆ S' → Granted Q S' r) :
    R.Keeps S (Act.ofExcept r) Q :=
  fun S₁ hS _ hw => ⟨S₁, subset_rfl, hw, h hS⟩

/-- What is held for a while is nothing that script gets hold of. -/
theorem holding {m : Act ε α} (hs : List Handle) (h : R.Keeps S m P) :
    R.Keeps S (Act.holding hs m) P := by
  intro S₁ hS w hw
  have hheld : R.Confined S₁ { w with held := hs ++ w.held } := { hw with }
  obtain ⟨S₂, hS₂, hw₂, hP⟩ := h S₁ hS _ hheld
  exact ⟨S₂, hS₂, { hw₂ with }, hP⟩

/-! ### Looking -/

/-- Whoever looks may learn of more items. -/
theorem learn {f : World → α} (h : ∀ {S'}, S ⊆ S' → ∀ w, R.Confined S' w →
      ∃ T, (∀ i ∈ T, R.Fine (S' ∪ T) w i) ∧ Q (S' ∪ T) (f w)) :
    R.Keeps S (Act.look f : Act ε α) Q := by
  intro S₁ hS w hw
  obtain ⟨T, hT, hQ⟩ := h hS w hw
  exact ⟨S₁ ∪ T, Set.subset_union_left, hw.addAll hT, hQ⟩

/-- A look is safe if it is safe in every confined world. -/
theorem look {f : World → α} (h : ∀ {S'}, S ⊆ S' → ∀ w, R.Confined S' w → Q S' (f w)) :
    R.Keeps S (Act.look f : Act ε α) Q :=
  fun S₁ hS w hw => ⟨S₁, subset_rfl, hw, h hS w hw⟩

/-- A look of which nothing is promised. -/
theorem seen {f : World → α} : R.Keeps S (Act.look f : Act ε α) fun _ _ => True :=
  .look fun _ _ _ => trivial

/-- An error may be made up from the world. -/
theorem failWith {f : World → ε} (h : ∀ w, Inside S (f w)) :
    R.Keeps S (Act.failWith f : Act ε α) Q :=
  fun S₁ hS w hw => ⟨S₁, subset_rfl, hw, (h w).mono hS⟩

/-- A value that is raised. -/
theorem raise {v : ScriptValue} (hv : Inside S v) :
    R.Keeps S (Act.raise v : Act ScriptError α) Q :=
  .failWith fun _ => hv

/-- A message that is raised holds nothing. -/
theorem runtimeError (message : String) :
    R.Keeps S (Act.runtimeError message : Act ScriptError α) Q :=
  .raise (.of_exposed_eq_nil rfl)

/-! ### Making things -/

/-- A table that is made of what is inside is inside from then on. -/
theorem newTable {t : Table} (ht : Inside S t) :
    R.Keeps S (Act.newTable t : Act ε TableRef) fun S' r => .table r ∈ S' := fun S₁ hS w hw =>
  ⟨insert (Item.table w.tables.next) S₁, Set.subset_insert _ _, hw.pushTable (ht.mono hS),
    Set.mem_insert _ _⟩

/-- The same for a function that is bound to what is inside. -/
theorem newFunction {f : Function} (hf : R.Bound S f) :
    R.Keeps S (Act.newFunction f : Act ε FunctionRef) fun S' r => .function r ∈ S' :=
  fun S₁ hS w hw =>
  ⟨insert (Item.function w.functions.next) S₁, Set.subset_insert _ _, hw.pushFunction (hf.mono hS),
    Set.mem_insert _ _⟩

/-- The same for a userdata. -/
theorem newUserdata {x : Userdata} (hx : R.Tied S x) :
    R.Keeps S (Act.newUserdata x : Act ε UserdataRef) fun S' r => .userdata r ∈ S' :=
  fun S₁ hS w hw =>
  ⟨insert (Item.userdata w.userdata.next) S₁, Set.subset_insert _ _, hw.pushUserdata (hx.mono hS),
    Set.mem_insert _ _⟩

/-- A proxy of the binding, for a target that script may have. -/
theorem newProxy {t : Target} (ht : .target t ∈ S) :
    R.Keeps S (Act.newProxy R.via t : Act ε UserdataRef) fun S' r => .userdata r ∈ S' :=
  .newUserdata ⟨rfl, fun _ heq => Option.some.inj heq ▸ ht⟩

/-- The same for a coroutine. -/
theorem newCoroutine {f : FunctionRef} (hf : .function f ∈ S) :
    R.Keeps S (Act.newCoroutine ⟨f, .suspended⟩ : Act ε CoroutineRef)
      fun S' r => .coroutine r ∈ S' :=
  fun S₁ hS w hw =>
  ⟨insert (Item.coroutine w.coroutines.next) S₁, Set.subset_insert _ _,
    hw.pushCoroutine (x := ⟨f, .suspended⟩) (hS hf), Set.mem_insert _ _⟩

/-- The proxy of an object that is inside, whether it is a new one or the cached one. -/
theorem proxyFor {o : ObjectRef} (ho : .target (.object o) ∈ S) :
    R.Keeps S (Act.proxyFor R.via o : Act ε UserdataRef) fun S' u => .userdata u ∈ S' := by
  intro S₁ hS w hw
  rw [outcome_proxyFor]
  cases hc : w.cachedProxy? R.via o with
  | some u =>
    exact ⟨insert (Item.userdata u) S₁, Set.subset_insert _ _, hw.cachedProxy (hS ho) hc,
      Set.mem_insert _ _⟩
  | none =>
    exact ⟨insert (Item.userdata w.userdata.next) S₁, Set.subset_insert _ _, hw.withProxy (hS ho),
      Set.mem_insert _ _⟩

/-! ### Changing things -/

/-- An entry is written, or the key is no key. -/
theorem writeTable (r : TableRef) {key value : ScriptValue} {fail : KeyFault → Act ε Unit}
    (hr : .table r ∈ S) (hkey : Inside S key) (hvalue : Inside S value)
    (hfail : ∀ fault, R.Keeps S (fail fault) fun _ _ => True) :
    R.Keeps S (Act.look (fun w => w.table r) >>= fun t => match t.set key value with
      | .ok t => setTable r t
      | .error fault => fail fault) fun _ _ => True := by
  intro S₁ hS w hw
  rw [outcome_bind_ok (outcome_look _ w)]
  cases hset : (w.table r).set key value with
  | ok t =>
    -- The table holds what it held, and besides it a key and a value that script has.
    have ht := Table.inside_set (hw.table (hS hr)) (hkey.mono hS) (hvalue.mono hS) hset
    exact ⟨S₁, subset_rfl, hw.setTable r ht, trivial⟩
  | error fault => exact hfail fault S₁ hS w hw

/-- A table that is inside takes what is inside. -/
theorem setEntry {r : TableRef} {key value : ScriptValue} (hr : .table r ∈ S)
    (hkey : Inside S key) (hvalue : Inside S value) :
    R.Keeps S (Act.setEntry r key value) fun _ _ => True :=
  writeTable r hr hkey hvalue fun _ => .fails rfl

/-- A slot takes what is inside, whatever the object is. -/
theorem writeSlot (o : ObjectRef) (slot : String) {v : HostValue} (hv : Inside S v) :
    R.Keeps S (Act.writeSlot o slot v) fun _ _ => True := by
  intro S₁ hS w hw
  rw [outcome_writeSlot]
  cases (w.object o).refusal? true .slots with
  | some e => exact ⟨S₁, subset_rfl, hw, .of_exposed_eq_nil rfl⟩
  | none => exact ⟨S₁, subset_rfl, hw.writeSlot o slot (hv.mono hS), trivial⟩

/-- **What script may do** is written down. -/
theorem note {e : Event} (he : R.Admits S e) :
    R.Keeps S (Act.note e : Act ε Unit) fun _ _ => True :=
  fun S₁ hS _ hw => ⟨S₁, subset_rfl, hw.note (he.mono hS), trivial⟩

theorem log (a : Answer) : R.Keeps S (Act.log a : Act ε Unit) fun _ _ => True :=
  fun S₁ _ _ hw => ⟨S₁, subset_rfl, { hw with }, trivial⟩

/-- A variable takes what is inside. -/
theorem assign (name : String) {s : Stored} (hs : Inside S s) :
    R.Keeps S (Act.assign name s : Act ε Unit) fun _ _ => True :=
  fun S₁ hS _ hw => ⟨S₁, subset_rfl, (hw.dropVars _).pushVar name (hs.mono hS), trivial⟩

theorem drop (name : String) :
    R.Keeps S (change fun w => { w with vars := w.vars.filter fun p => p.1 != name } : Act ε Unit)
      fun _ _ => True :=
  fun S₁ _ _ hw => ⟨S₁, subset_rfl, hw.dropVars _, trivial⟩

/-! ### Brackets -/

/-- What comes after the guard runs outside of coroutines. -/
theorem guard (inCoroutine : Bool) (name : String) :
    R.Keeps S (Act.guard inCoroutine name) fun _ _ => inCoroutine = false := by
  intro S₁ hS w hw
  rw [outcome_guard]
  cases inCoroutine with
  | true => exact ⟨S₁, subset_rfl, hw.note (e := .refused name) trivial, .of_exposed_eq_nil rfl⟩
  | false => exact ⟨S₁, subset_rfl, hw, rfl⟩

/-- A call of a function that script has. -/
theorem framed {m : Act ε α} (inCoroutine : Bool) {f : FunctionRef} (hf : .function f ∈ S)
    (h : R.Keeps S m P) : R.Keeps S (Act.framed inCoroutine f m) P := by
  intro S₁ hS w hw
  rw [outcome_framed]
  have hentered : R.Confined S₁ (w.entered inCoroutine f) :=
    { hw.note (e := .called f inCoroutine) (hS hf) with }
  obtain ⟨S₂, hS₂, hw₂, hP⟩ := h S₁ hS _ hentered
  exact ⟨S₂, hS₂, { hw₂.note (e := .returned f) trivial with }, hP⟩

/-- A coroutine that script has runs a function that script has. -/
theorem resume {call : Caller} {c : CoroutineRef} (hc : .coroutine c ∈ S)
    {args : List ScriptValue}
    (h : ∀ {S'}, S ⊆ S' → ∀ f, .function f ∈ S' → R.Keeps S' (call true f args) Inside) :
    R.Keeps S (Act.resume call c args) Inside := by
  intro S₁ hS w hw
  rw [outcome_resume]
  cases (w.coroutine c).status with
  | running => exact runtimeError _ S₁ subset_rfl w hw
  | dead => exact runtimeError _ S₁ subset_rfl w hw
  -- The function of the coroutine is inside, since the coroutine is.
  | suspended =>
    have hresuming : R.Confined S₁ (w.resuming c) :=
      (hw.setStatus c .running).note (e := .resumed c) trivial
    obtain ⟨S₂, hS₂, hw₂, hP⟩ := h hS _ (hw.coroutine (hS hc)) S₁ subset_rfl _ hresuming
    exact ⟨S₂, hS₂, (hw₂.setStatus c .dead).note (e := .finished c) trivial, hP⟩

end Keeps

end Realm

end ScriptHost
