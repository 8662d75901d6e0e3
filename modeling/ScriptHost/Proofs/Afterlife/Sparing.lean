import ScriptHost.Proofs.Afterlife.Since
import ScriptHost.Proofs.Proxies.Entry

/-!
# Acts that revive nothing

`Sparing w₀ m Q` says of an act: started in any world that came after `w₀`, it leaves such a world
behind, what it gives satisfies `Q`, and what it fails with holds nothing dead. It is closed under
all the ways to put acts together. The primitive acts that make and change things ask that what they
are given is safe; `World.Since` is followed through each change first.

Since `w₀` stays the same all the time, nothing has to be carried over from one act to the next but
that what is in hand is safe.
-/

set_option autoImplicit false

namespace ScriptHost

open Act

namespace World

/-! ### Changes -/

namespace Since

variable {w₀ w w' : World}

/-- A change that revives nothing and touches no proxy and no function. -/
theorem moves (h : w₀.Since w) (hm : w₀.Moves w w') (hclosed : w'.Closed)
    (hu : w'.userdata = w.userdata) (hf : w'.functions = w.functions) : w₀.Since w' where
  spares := h.spares.moves hm
  closed := hclosed
  proxies := hu ▸ h.proxies
  functions := hf ▸ h.functions

/-- What is written to the journal, to the log or to a cache holds nothing. -/
theorem noted (h : w₀.Since w) (hroots : w'.roots = w.roots) (ht : w'.tables = w.tables)
    (hf : w'.functions = w.functions) (hu : w'.userdata = w.userdata)
    (ho : w'.objects = w.objects) (hc : w'.classes = w.classes)
    (hco : w'.coroutines = w.coroutines) (hv : w'.vars = w.vars) : w₀.Since w' :=
  h.moves ⟨ht ▸ .refl _, hf ▸ .refl _, hu ▸ .refl _, ho ▸ .refl _, hc ▸ .refl _, hco ▸ .refl _,
    fun _ hx => .inl (hroots ▸ hx)⟩ ⟨hf ▸ h.closed.functions, hc ▸ h.closed.classes,
      hv ▸ h.closed.vars⟩ hu hf

theorem note (h : w₀.Since w) (e : Event) : w₀.Since { w with journal := e :: w.journal } :=
  h.noted rfl rfl rfl rfl rfl rfl rfl rfl

/-- Something else may be held, if it is safe. -/
theorem holding (h : w₀.Since w) {hs : List Handle} (hhs : ∀ x ∈ hs, w₀.Safe x) :
    w₀.Since { w with held := hs } where
  spares := h.spares.holding hhs
  closed := { h.closed with }
  proxies := h.proxies
  functions := h.functions

/-- Something may be held in addition, if it is safe. -/
theorem keeping (h : w₀.Since w) {hs : List Handle} (hhs : ∀ x ∈ hs, w₀.Safe x) :
    w₀.Since { w with held := hs ++ w.held } :=
  h.holding fun x hx => (List.mem_append.mp hx).elim (hhs x) (h.held x)

/-- A new table. -/
theorem pushTable (h : w₀.Since w) {t : Table} (ht : w₀.AllSafe t) :
    w₀.Since { w with tables := w.tables.push t } :=
  h.moves { Moves.refl w₀ w with tables := .push _ ht } { h.closed with } rfl rfl

/-- An assignment to a table that was there. -/
theorem setTable (h : w₀.Since w) (r : TableRef) {t : Table} (ht : w₀.AllSafe t) :
    w₀.Since { w with tables := w.tables.set r t } :=
  h.moves { Moves.refl w₀ w with tables := .set _ r fun k hk => .inr (ht k hk) }
    { h.closed with } rfl rfl

/-- A new function: those that were there keep their places. -/
theorem pushFunction (h : w₀.Since w) {f : Function} (hf : w₀.AllSafe f) (hc : f.code.Closed) :
    w₀.Since { w with functions := w.functions.push f } where
  spares := h.spares.moves { Moves.refl w₀ w with functions := .push _ hf }
  closed := by
    refine { h.closed with functions := fun r x hx => ?_ }
    rcases Store.get?_push_cases hx with ⟨-, rfl⟩ | hx
    · exact hc
    · exact h.closed.functions r x hx
  proxies := h.proxies
  functions r x hx := Store.get?_push_of_some f (h.functions r x hx)

/-- A new userdata: proxies that were there keep their places and their targets. -/
theorem pushUserdata (h : w₀.Since w) {d : Userdata} (hd : w₀.AllSafe d) :
    w₀.Since { w with userdata := w.userdata.push d } where
  spares := h.spares.moves { Moves.refl w₀ w with userdata := .push _ hd }
  closed := { h.closed with }
  proxies u p hp := by
    obtain ⟨t, ht, hcases⟩ := h.proxies u p hp
    exact ⟨t, Store.get?_push_of_some d ht, hcases⟩
  functions := h.functions

/-- A proxy that is disposed stands for nothing and holds nothing. -/
theorem dispose (h : w₀.Since w) {u : UserdataRef} {q : Proxy} (hq : w.proxy? u = some q) :
    w₀.Since { w with userdata := w.userdata.set u (.proxy { q with target := none }) } where
  spares := h.spares.moves
    { Moves.refl w₀ w with userdata := .set _ u fun _ hk => nomatch hk }
  closed := { h.closed with }
  proxies v p hp := by
    obtain ⟨t, ht, hcases⟩ := h.proxies v p hp
    rw [Store.get?_set, ht]
    split
    · next heq =>
      -- It is the proxy itself: it stands for nothing from now on.
      subst heq
      have hsame := (World.proxy?_eq_some.mp hq).symm.trans ht
      obtain rfl := Userdata.proxy.inj (Option.some.inj hsame)
      exact ⟨none, rfl, .inr rfl⟩
    · exact ⟨t, rfl, hcases⟩
  functions := h.functions

/-- A new object. -/
theorem pushObject (h : w₀.Since w) {x : Object} (hx : w₀.AllSafe x) :
    w₀.Since { w with objects := w.objects.push x } :=
  h.moves { Moves.refl w₀ w with objects := .push _ hx } { h.closed with } rfl rfl

/-- An object is changed. What it holds afterwards, it held before or is safe. -/
theorem setObject (h : w₀.Since w) (o : ObjectRef) {x : Object}
    (hx : ∀ k ∈ handles x, k ∈ handles (w.object o) ∨ w₀.Safe k) :
    w₀.Since { w with objects := w.objects.set o.ref x } := by
  refine h.moves { Moves.refl w₀ w with objects := .set _ o.ref fun k hk => ?_ }
    { h.closed with } rfl rfl
  refine (hx k hk).imp_left fun hold => ?_
  unfold World.object at hold
  -- A reference that leads nowhere gives an object that holds nothing.
  cases ho : w.objects.get? o.ref with
  | none =>
    rw [ho] at hold
    cases hold
  | some y =>
    rw [ho] at hold
    exact mem_handles_some.mpr hold

/-- What is written into a slot takes its place among what the object held. -/
theorem writeSlot (h : w₀.Since w) (o : ObjectRef) (slot : String) {v : HostValue}
    (hv : w₀.AllSafe v) : w₀.Since { w with
      objects := w.objects.set o.ref { w.object o with
        payload := .slots ((w.object o).payload.slotsOf.write slot v) } } := by
  refine h.setObject o fun k hk => ?_
  -- Every handle in the new slots comes from the value or from the old slots.
  have hwritten : ∀ s : Slots, k ∈ handles (s.write slot v) → k ∈ handles v ∨ k ∈ handles s := by
    intro s
    induction s with
    | nil =>
      intro hk
      exact .inl (List.flatMap_singleton (fun p : String × HostValue => handles p.2) (slot, v) ▸ hk)
    | cons p rest ih =>
      obtain ⟨n, x⟩ := p
      intro hk
      unfold Slots.write at hk
      split at hk
      · exact List.mem_append.mp hk
      · split at hk
        · exact (List.mem_append.mp hk).imp_right (List.mem_append_right _)
        · rcases List.mem_append.mp hk with hk | hk
          · exact .inr (List.mem_append_left _ hk)
          · exact (ih hk).imp_right (List.mem_append_right _)
  exact (hwritten _ hk).symm.imp_right (hv k)

/-- Who has borrowed an object makes no difference to what it holds. -/
theorem lent (h : w₀.Since w) (o : ObjectRef) (b : Borrow) :
    w₀.Since { w with objects := w.objects.set o.ref { w.object o with borrow := b } } :=
  h.setObject o fun _ hk => .inl hk

/-- A new class. -/
theorem pushClass (h : w₀.Since w) {c : HostClass} (hc : w₀.AllSafe c)
    (hclosed : ∀ m ∈ c.members, m.Closed) :
    w₀.Since { w with classes := w.classes.push c } := by
  refine h.moves { Moves.refl w₀ w with classes := .push _ hc }
    { h.closed with classes := fun d info hd => ?_ } rfl rfl
  rcases Store.get?_push_cases hd with ⟨-, rfl⟩ | hd
  · exact hclosed
  · exact h.closed.classes d info hd

/-- A new coroutine. -/
theorem pushCoroutine (h : w₀.Since w) {f : FunctionRef} (hf : w₀.Safe f.handle) :
    w₀.Since { w with coroutines := w.coroutines.push ⟨f, .suspended⟩ } :=
  h.moves { Moves.refl w₀ w with coroutines := .push _ (AllSafe.singleton hf) } { h.closed with }
    rfl rfl

/-- A coroutine runs the same function all the time. -/
theorem setStatus (h : w₀.Since w) (c : CoroutineRef) (s : CoroutineStatus) :
    w₀.Since { w with coroutines := w.coroutines.set c { w.coroutine c with status := s } } := by
  unfold World.coroutine
  cases hc : w.coroutines.get? c with
  | some x =>
    refine h.moves { Moves.refl w₀ w with coroutines := .set _ c fun k hk => .inl ?_ }
      { h.closed with } rfl rfl
    rw [hc]
    exact mem_handles_some.mpr hk
  | none =>
    -- Where there is no coroutine nothing is changed.
    refine h.moves { Moves.refl w₀ w with coroutines := ⟨fun r x hr => ?_, fun r k hk => ?_⟩ }
      { h.closed with } rfl rfl
    · rw [Store.get?_set, hr]
      split <;> exact ⟨_, rfl⟩
    · rw [Store.get?_set] at hk
      split at hk
      · next heq =>
        subst heq
        rw [hc] at hk
        cases hk
      · exact .inl hk

/-- Variables that are dropped. -/
theorem dropVars (h : w₀.Since w) (f : String × Stored → Bool) :
    w₀.Since { w with vars := w.vars.filter f } := by
  have hmem : ∀ p ∈ w.vars.filter f, p ∈ w.vars := fun p hp => (List.mem_filter.mp hp).1
  refine h.moves { Moves.refl w₀ w with roots := fun k hk => .inl ?_ }
    { h.closed with vars := fun p hp => h.closed.vars p (hmem p hp) } rfl rfl
  unfold World.roots at hk ⊢
  simp only [List.mem_append] at hk ⊢
  refine hk.imp_left (Or.imp_left (Or.imp_right fun hvar => ?_))
  obtain ⟨p, hp, hk⟩ := List.mem_flatMap.mp hvar
  exact List.mem_flatMap.mpr ⟨p, hmem p hp, hk⟩

/-- A variable that is assigned. -/
theorem pushVar (h : w₀.Since w) (name : String) {s : Stored} (hs : w₀.AllSafe s)
    (hc : s.Closed) : w₀.Since { w with vars := (name, s) :: w.vars } := by
  refine h.moves { Moves.refl w₀ w with roots := fun k hk => ?_ }
    { h.closed with vars := List.forall_mem_cons.mpr ⟨hc, h.closed.vars⟩ } rfl rfl
  unfold World.roots at hk ⊢
  rw [List.flatMap_cons] at hk
  simp only [List.mem_append] at hk ⊢
  rcases hk with ((hk | hk | hk) | hk) | hk
  · exact .inl (.inl (.inl (.inl hk)))
  · exact .inr (hs k hk)
  · exact .inl (.inl (.inl (.inr hk)))
  · exact .inl (.inl (.inr hk))
  · exact .inl (.inr hk)

/-- The frame of a call holds its function. -/
theorem entered (h : w₀.Since w) (b : Bool) {f : FunctionRef} (hf : w₀.Safe f.handle) :
    w₀.Since (w.entered b f) := by
  refine h.moves { Moves.refl w₀ w with roots := fun k hk => ?_ } { h.closed with } rfl rfl
  unfold World.roots World.entered at hk
  unfold World.roots
  simp only [List.map_cons, List.mem_append, List.mem_cons] at hk ⊢
  rcases hk with (hk | rfl | hk) | hk
  · exact .inl (.inl (.inl hk))
  · exact .inr hf
  · exact .inl (.inl (.inr hk))
  · exact .inl (.inr hk)

/-- A coroutine that is left. -/
theorem left (h : w₀.Since w) (f : FunctionRef) : w₀.Since (w.left f) := by
  refine h.moves { Moves.refl w₀ w with roots := fun k hk => .inl ?_ } { h.closed with } rfl rfl
  unfold World.roots World.left at hk
  unfold World.roots
  simp only [List.mem_append, List.map_tail] at hk ⊢
  exact hk.imp_left (Or.imp_right List.mem_of_mem_tail)

/-- A coroutine that is resumed. -/
theorem resuming (h : w₀.Since w) (c : CoroutineRef) : w₀.Since (w.resuming c) :=
  (h.setStatus c .running).note (.resumed c)

/-- A coroutine that has run to its end. -/
theorem finishing (h : w₀.Since w) (c : CoroutineRef) : w₀.Since (w.finishing c) :=
  (h.setStatus c .dead).note (.finished c)

/-- A new proxy in the cache of a binding. The cache holds nothing. -/
theorem withProxy (h : w₀.Since w) (via : BindingRef) {o : ObjectRef} (ho : w₀.AllSafe o.cls) :
    w₀.Since (w.withProxy via o) := by
  have hproxy : w₀.AllSafe (Userdata.proxy ⟨some (.object o), via, o.cls.name⟩) := ho
  exact (h.pushUserdata hproxy).noted rfl rfl rfl rfl rfl rfl rfl rfl

end Since

end World

/-! ### Acts -/

namespace Act

/-- A value is as promised, and an error holds nothing dead. -/
def Yields (w₀ : World) {ε α : Type} [Holds ε] (Q : α → Prop) : Except ε α → Prop
  | .ok a => Q a
  | .error e => w₀.AllSafe e

/-- **The act revives nothing**: whatever happened since a moment, it leaves a world that came after
that moment, and gives what is promised. -/
def Sparing (w₀ : World) {ε α : Type} [Holds ε] (m : Act ε α) (Q : α → Prop) : Prop :=
  ∀ w, w₀.Since w → w₀.Since (m.outcome w).2 ∧ Yields w₀ Q (m.outcome w).1

namespace Sparing

variable {w₀ : World} {ε ε' α β : Type} [Holds ε] [Holds ε'] {P Q : α → Prop}

/-- What it comes to when the act succeeds. -/
theorem ok {m : Act ε α} {a : α} {w w' : World} (h : Sparing w₀ m Q) (hw : w₀.Since w)
    (hout : m.outcome w = (.ok a, w')) : w₀.Since w' ∧ Q a := by
  have hm := h w hw
  rw [hout] at hm
  exact hm

/-! ### Putting acts together -/

/-- Giving what is as promised. -/
theorem pure {a : α} (h : Q a) : Sparing w₀ (Pure.pure a : Act ε α) Q := fun _ hw => ⟨hw, h⟩

/-- Giving something of which nothing is promised. -/
theorem done {a : α} : Sparing w₀ (Pure.pure a : Act ε α) fun _ => True := .pure trivial

/-- Failing with something that is safe. -/
theorem throw {e : ε} (h : w₀.AllSafe e) : Sparing w₀ (MonadExcept.throw e : Act ε α) Q :=
  fun _ hw => ⟨hw, h⟩

/-- Failing with something that holds nothing. -/
theorem fails {e : ε} (h : handles e = []) : Sparing w₀ (MonadExcept.throw e : Act ε α) Q :=
  .throw (.of_eq_nil h)

/-- **One act after another.** -/
theorem bind {m : Act ε α} {f : α → Act ε β} {Q : β → Prop} (hm : Sparing w₀ m P)
    (hf : ∀ a, P a → Sparing w₀ (f a) Q) : Sparing w₀ (m >>= f) Q := by
  intro w hw
  obtain ⟨hw₁, hP⟩ := hm w hw
  rcases hout : m.outcome w with ⟨e | a, w₁⟩ <;> rw [hout] at hw₁ hP
  · rw [outcome_bind_error hout]
    exact ⟨hw₁, hP⟩
  · rw [outcome_bind_ok hout]
    exact hf a hP w₁ hw₁

/-- One act after another, whatever the first one gives. -/
theorem andThen {m : Act ε α} {f : α → Act ε β} {Q : β → Prop} (hm : Sparing w₀ m P)
    (hf : ∀ a, Sparing w₀ (f a) Q) : Sparing w₀ (m >>= f) Q :=
  hm.bind fun a _ => hf a

/-- An error that is caught is given, and it is safe. -/
theorem attempt {m : Act ε α} (h : Sparing w₀ m P) :
    Sparing w₀ (Act.attempt m : Act ε' (Except ε α)) (Yields w₀ P) := h

/-- What has come about already. -/
theorem ofExcept {r : Except ε α} (h : Yields w₀ Q r) : Sparing w₀ (Act.ofExcept r) Q :=
  fun _ hw => ⟨hw, h⟩

/-- An error that is reworded holds nothing dead afterwards either. -/
theorem mapError {m : Act ε α} (f : World → ε → ε')
    (hf : ∀ w e, w₀.Since w → w₀.AllSafe e → w₀.AllSafe (f w e)) (h : Sparing w₀ m P) :
    Sparing w₀ (Act.mapError f m) P := by
  intro w hw
  obtain ⟨hw₁, hP⟩ := h w hw
  rw [outcome_mapError]
  rcases hout : m.outcome w with ⟨e | a, w₁⟩ <;> rw [hout] at hw₁ hP
  · exact ⟨hw₁, hf w₁ e hw₁ hP⟩
  · exact ⟨hw₁, hP⟩

/-- What is held meanwhile has to be safe, and what was held before is held afterwards. -/
theorem holding {m : Act ε α} {hs : List Handle} (hhs : ∀ x ∈ hs, w₀.Safe x) (h : Sparing w₀ m P) :
    Sparing w₀ (Act.holding hs m) P := by
  intro w hw
  obtain ⟨hw₁, hP⟩ := h _ (hw.keeping hhs)
  exact ⟨hw₁.holding hw.held, hP⟩

/-! ### Looking -/

/-- A look is safe if it is safe in every world that came after. -/
theorem look {f : World → α} (h : ∀ w, w₀.Since w → Q (f w)) :
    Sparing w₀ (Act.look f : Act ε α) Q :=
  fun w hw => ⟨hw, h w hw⟩

/-- A look of which nothing is promised. -/
theorem seen {f : World → α} : Sparing w₀ (Act.look f : Act ε α) fun _ => True :=
  .look fun _ _ => trivial

/-- An error may be made up from the world. -/
theorem failWith {f : World → ε} (h : ∀ w, w₀.AllSafe (f w)) :
    Sparing w₀ (Act.failWith f : Act ε α) Q :=
  fun w hw => ⟨hw, h w⟩

/-- A value that is raised. -/
theorem raise {v : ScriptValue} (hv : w₀.AllSafe v) :
    Sparing w₀ (Act.raise v : Act ScriptError α) Q :=
  .failWith fun _ => hv

/-- A message that is raised holds nothing. -/
theorem runtimeError (message : String) :
    Sparing w₀ (Act.runtimeError message : Act ScriptError α) Q :=
  .raise (.of_eq_nil rfl)

/-! ### Making things -/

/-- What is new was not dead before, whatever it holds. -/
theorem newTable {t : Table} (ht : w₀.AllSafe t) :
    Sparing w₀ (Act.newTable t : Act ε TableRef) fun r => w₀.Safe r.handle :=
  fun _ hw => ⟨hw.pushTable ht, hw.spares.safe_next World.mem_things.mp⟩

/-- The same for a function, whose body has to be closed besides. -/
theorem newFunction {f : Function} (hf : w₀.AllSafe f) (hc : f.code.Closed) :
    Sparing w₀ (Act.newFunction f : Act ε FunctionRef) fun r => w₀.Safe r.handle :=
  fun _ hw => ⟨hw.pushFunction hf hc, hw.spares.safe_next World.mem_things.mp⟩

theorem newUserdata {d : Userdata} (hd : w₀.AllSafe d) :
    Sparing w₀ (Act.newUserdata d : Act ε UserdataRef) fun r => w₀.Safe r.handle :=
  fun _ hw => ⟨hw.pushUserdata hd, hw.spares.safe_next World.mem_things.mp⟩

/-- The same for a proxy. -/
theorem newProxy (via : BindingRef) {t : Target} (ht : w₀.AllSafe t.cls) :
    Sparing w₀ (Act.newProxy via t : Act ε UserdataRef) fun r => w₀.Safe r.handle :=
  newUserdata (d := .proxy ⟨some t, via, t.cls.name⟩) ht

/-- An object that is made holds its class and nothing dead. -/
theorem newObject (c : ClassRef) (hc : w₀.AllSafe c) {x : Payload} (hx : w₀.AllSafe x) :
    Sparing w₀ (Act.newObject ⟨c, x, .free⟩ : Act ε ObjectRef) w₀.AllSafe :=
  fun _ hw => ⟨hw.pushObject (x := ⟨c, x, .free⟩) hx,
    List.forall_mem_cons.mpr ⟨hw.spares.safe_next World.mem_things.mp, hc⟩⟩

/-- The same for a class. -/
theorem newClass {c : HostClass} (hc : w₀.AllSafe c) (hclosed : ∀ m ∈ c.members, m.Closed) :
    Sparing w₀ (Act.newClass c : Act ε ClassRef) w₀.AllSafe := by
  intro w hw
  have hnext : w₀.Safe w.classes.next.handle := hw.spares.safe_next World.mem_things.mp
  exact ⟨hw.pushClass hc hclosed, World.AllSafe.singleton hnext⟩

theorem newCoroutine {f : FunctionRef} (hf : w₀.Safe f.handle) :
    Sparing w₀ (Act.newCoroutine ⟨f, .suspended⟩ : Act ε CoroutineRef)
      fun c => w₀.Safe c.handle :=
  fun _ hw => ⟨hw.pushCoroutine hf, hw.spares.safe_next World.mem_things.mp⟩

theorem newBinding (b : Binding) :
    Sparing w₀ (Act.newBinding b : Act ε BindingRef) fun _ => True :=
  fun _ hw => ⟨hw.noted rfl rfl rfl rfl rfl rfl rfl rfl, trivial⟩

/-- The proxy of an object is safe: the cached one is alive, a new one is new. -/
theorem proxyFor (via : BindingRef) {o : ObjectRef} (ho : w₀.AllSafe o) :
    Sparing w₀ (Act.proxyFor via o : Act ε UserdataRef) fun u => w₀.Safe u.handle := by
  intro w hw
  rw [outcome_proxyFor]
  cases hc : w.cachedProxy? via o with
  | some u => exact ⟨hw.note _, hw.safe_of_alive (World.cachedProxy?_eq_some.mp hc).2.1⟩
  | none =>
    have hcls : w₀.AllSafe o.cls := fun x hx => ho x (List.mem_cons_of_mem _ hx)
    exact ⟨hw.withProxy via hcls, hw.spares.safe_next World.mem_things.mp⟩

/-! ### Changing things -/

/-- **Disposing a proxy** detaches it, or does nothing if it is none. -/
theorem dispose (u : UserdataRef) : Sparing w₀ (Act.dispose u : Act ε Unit) fun _ => True := by
  intro w hw
  rw [outcome_dispose]
  cases hp : w.proxy? u with
  | some p => exact ⟨hw.dispose hp, trivial⟩
  | none => exact ⟨hw, trivial⟩

/-- An entry is written, or the key is no key. -/
theorem writeTable {r : TableRef} {key value : ScriptValue} {fail : KeyFault → Act ε Unit}
    (hr : w₀.Safe r.handle) (hkey : w₀.AllSafe key) (hvalue : w₀.AllSafe value)
    (hfail : ∀ fault, Sparing w₀ (fail fault) fun _ => True) :
    Sparing w₀ (Act.look (fun w => w.table r) >>= fun t => match t.set key value with
      | .ok t => setTable r t
      | .error fault => fail fault) fun _ => True := by
  refine Sparing.bind (P := w₀.AllSafe) (.look fun w hw => hw.table hr) fun t ht => ?_
  cases hset : t.set key value with
  | ok t' => exact fun w hw => ⟨hw.setTable r (Table.allSafe_set ht hkey hvalue hset), trivial⟩
  | error fault => exact hfail fault

/-- A table that is in hand takes what is in hand. -/
theorem setEntry {r : TableRef} {key value : ScriptValue} (hr : w₀.Safe r.handle)
    (hkey : w₀.AllSafe key) (hvalue : w₀.AllSafe value) :
    Sparing w₀ (Act.setEntry r key value) fun _ => True :=
  writeTable hr hkey hvalue fun _ => .fails rfl

/-- A slot takes what is in hand. -/
theorem writeSlot (o : ObjectRef) (slot : String) {v : HostValue} (hv : w₀.AllSafe v) :
    Sparing w₀ (Act.writeSlot o slot v) fun _ => True := by
  intro w hw
  rw [outcome_writeSlot]
  cases (w.object o).refusal? true .slots with
  | some e => exact ⟨hw, .of_eq_nil rfl⟩
  | none => exact ⟨hw.writeSlot o slot hv, trivial⟩

theorem note (e : Event) : Sparing w₀ (Act.note e : Act ε Unit) fun _ => True :=
  fun _ hw => ⟨hw.note e, trivial⟩

theorem log (a : Answer) : Sparing w₀ (Act.log a : Act ε Unit) fun _ => True :=
  fun _ hw => ⟨hw.noted rfl rfl rfl rfl rfl rfl rfl rfl, trivial⟩

/-- A variable takes what is in hand. -/
theorem assign (name : String) {s : Stored} (hs : w₀.AllSafe s) (hc : s.Closed) :
    Sparing w₀ (Act.assign name s : Act ε Unit) fun _ => True :=
  fun _ hw => ⟨(hw.dropVars _).pushVar name hs hc, trivial⟩

theorem drop (name : String) :
    Sparing w₀ (change fun w => { w with vars := w.vars.filter fun p => p.1 != name } :
      Act ε Unit) fun _ => True :=
  fun _ hw => ⟨hw.dropVars _, trivial⟩

/-! ### Brackets -/

/-- The guard changes nothing and its errors hold nothing. -/
theorem guard (inCoroutine : Bool) (name : String) :
    Sparing w₀ (Act.guard inCoroutine name) fun _ => True := by
  intro w hw
  rw [outcome_guard]
  cases inCoroutine with
  | true => exact ⟨hw.note _, .of_eq_nil rfl⟩
  | false => exact ⟨hw, trivial⟩

/-- The frame of a call holds the function meanwhile. -/
theorem framed {m : Act ε α} (inCoroutine : Bool) {f : FunctionRef} (hf : w₀.Safe f.handle)
    (h : Sparing w₀ m P) : Sparing w₀ (Act.framed inCoroutine f m) P := by
  intro w hw
  rw [outcome_framed]
  obtain ⟨hw₁, hP⟩ := h _ (hw.entered inCoroutine hf)
  exact ⟨hw₁.left f, hP⟩

/-- A coroutine that can be resumed holds its function. -/
theorem resume {call : Caller} {c : CoroutineRef} (hc : w₀.Safe c.handle)
    {args : List ScriptValue} {Q : List ScriptValue → Prop}
    (h : ∀ f : FunctionRef, w₀.Safe f.handle → Sparing w₀ (call true f args) Q) :
    Sparing w₀ (Act.resume call c args) Q := by
  intro w hw
  rw [outcome_resume]
  cases hstatus : (w.coroutine c).status with
  | running => exact runtimeError _ w hw
  | dead => exact runtimeError _ w hw
  | suspended =>
    obtain ⟨x, hx, hfunction⟩ := World.coroutine_of_suspended hstatus
    obtain ⟨hw₁, hQ⟩ := h _ (hfunction ▸ hw.coroutineFunction hc hx) _ (hw.resuming c)
    exact ⟨hw₁.finishing c, hQ⟩

/-- An object is lent while the act runs, and given back. -/
theorem whileBorrowed (o : ObjectRef) (mutably : Bool) {fail : HostFailure → ε} {m : Act ε α}
    (hfail : ∀ e, w₀.AllSafe (fail (.binding e))) (h : Sparing w₀ m P) :
    Sparing w₀ (Act.whileBorrowed o mutably fail m) P := by
  intro w hw
  rw [outcome_whileBorrowed]
  cases (w.object o).refusal? mutably .slots with
  | some e => exact ⟨hw, hfail e⟩
  | none =>
    obtain ⟨hw₁, hP⟩ := h _ (hw.lent o _)
    exact ⟨hw₁.lent o _, hP⟩

end Sparing

end Act

end ScriptHost
