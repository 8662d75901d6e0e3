import ScriptHost.Session

/-!
# Outcomes of acts

What each way of putting acts together does to the outcome and to the world. Everything that is
proved about acts looks at them through these equations.
-/

set_option autoImplicit false

namespace ScriptHost

namespace Act

variable {ε ε' α β : Type}

@[simp] theorem outcome_make (f : World → Except ε α × World) (w : World) :
    (make f).outcome w = f w := rfl

@[simp] theorem outcome_pure (a : α) (w : World) :
    (pure a : Act ε α).outcome w = (.ok a, w) := rfl

@[simp] theorem outcome_throw (e : ε) (w : World) :
    (throw e : Act ε α).outcome w = (.error e, w) := rfl

@[simp] theorem outcome_ofExcept (r : Except ε α) (w : World) :
    (ofExcept r).outcome w = (r, w) := rfl

/-- The second act runs where the first one left off, unless the first one failed. -/
theorem outcome_bind (m : Act ε α) (f : α → Act ε β) (w : World) :
    (m >>= f).outcome w = match m.outcome w with
      | (.ok a, w') => (f a).outcome w'
      | (.error e, w') => (.error e, w') := by
  have hbind : (m >>= f).outcome w = ExceptT.bindCont f (m.outcome w).1 (m.outcome w).2 := rfl
  rw [hbind]
  rcases m.outcome w with ⟨_ | _, _⟩ <;> rfl

theorem outcome_bind_ok {m : Act ε α} {f : α → Act ε β} {w w' : World} {a : α}
    (h : m.outcome w = (.ok a, w')) : (m >>= f).outcome w = (f a).outcome w' := by
  rw [outcome_bind, h]

theorem outcome_bind_error {m : Act ε α} {f : α → Act ε β} {w w' : World} {e : ε}
    (h : m.outcome w = (.error e, w')) : (m >>= f).outcome w = (.error e, w') := by
  rw [outcome_bind, h]

/-- What comes after an act has to agree only on what the act can give. -/
theorem outcome_bind_congr {m : Act ε α} {f g : α → Act ε β} {w : World}
    (h : ∀ a w', m.outcome w = (.ok a, w') → (f a).outcome w' = (g a).outcome w') :
    (m >>= f).outcome w = (m >>= g).outcome w := by
  rcases hm : m.outcome w with ⟨e | a, w'⟩
  · rw [outcome_bind_error hm, outcome_bind_error hm]
  · rw [outcome_bind_ok hm, outcome_bind_ok hm]
    exact h a w' hm

/-- What succeeded in two parts succeeded in both. -/
theorem outcome_bind_eq_ok {m : Act ε α} {f : α → Act ε β} {w w' : World} {b : β}
    (h : (m >>= f).outcome w = (.ok b, w')) :
    ∃ a w₁, m.outcome w = (.ok a, w₁) ∧ (f a).outcome w₁ = (.ok b, w') := by
  rcases hm : m.outcome w with ⟨e | a, w₁⟩
  · rw [outcome_bind_error hm] at h
    cases h
  · rw [outcome_bind_ok hm] at h
    exact ⟨a, w₁, rfl, h⟩

/-- What failed in two parts failed in one of them. -/
theorem outcome_bind_eq_error {m : Act ε α} {f : α → Act ε β} {w w' : World} {e : ε}
    (h : (m >>= f).outcome w = (.error e, w')) :
    m.outcome w = (.error e, w') ∨
      ∃ a w₁, m.outcome w = (.ok a, w₁) ∧ (f a).outcome w₁ = (.error e, w') := by
  rcases hm : m.outcome w with ⟨e' | a, w₁⟩
  · rw [outcome_bind_error hm] at h
    cases h
    exact .inl rfl
  · rw [outcome_bind_ok hm] at h
    exact .inr ⟨a, w₁, rfl, h⟩

@[simp] theorem outcome_look (f : World → α) (w : World) :
    (look f : Act ε α).outcome w = (.ok (f w), w) := rfl

@[simp] theorem outcome_change (f : World → World) (w : World) :
    (change f : Act ε Unit).outcome w = (.ok (), f w) := rfl

@[simp] theorem outcome_failWith (f : World → ε) (w : World) :
    (failWith f : Act ε α).outcome w = (.error (f w), w) := rfl

@[simp] theorem outcome_attempt (m : Act ε α) (w : World) :
    (attempt m : Act ε' (Except ε α)).outcome w = (.ok (m.outcome w).1, (m.outcome w).2) := rfl

theorem outcome_mapError (f : World → ε → ε') (m : Act ε α) (w : World) :
    (mapError f m).outcome w = match m.outcome w with
      | (.ok a, w') => (.ok a, w')
      | (.error e, w') => (.error (f w' e), w') := rfl

/-- An error is rewritten and a value is not, so a value was there before. -/
theorem outcome_mapError_eq_ok {f : World → ε → ε'} {m : Act ε α} {w w' : World} {a : α}
    (h : (mapError f m).outcome w = (.ok a, w')) : m.outcome w = (.ok a, w') := by
  rw [outcome_mapError] at h
  rcases hm : m.outcome w with ⟨e | b, w₁⟩ <;> rw [hm] at h
  · cases h
  · cases h
    rfl

/-- The error that was there before, and the world that it was rewritten in. -/
theorem outcome_mapError_eq_error {f : World → ε → ε'} {m : Act ε α} {w w' : World} {e : ε'}
    (h : (mapError f m).outcome w = (.error e, w')) :
    ∃ e', m.outcome w = (.error e', w') ∧ e = f w' e' := by
  rw [outcome_mapError] at h
  rcases hm : m.outcome w with ⟨e' | a, w₁⟩ <;> rw [hm] at h
  · cases h
    exact ⟨e', rfl, rfl⟩
  · cases h

@[simp] theorem outcome_note (e : Event) (w : World) :
    (note e : Act ε Unit).outcome w = (.ok (), { w with journal := e :: w.journal }) := rfl

/-- Holding changes what is kept alive while the act runs, and nothing else. -/
@[simp] theorem outcome_holding (hs : List Handle) (m : Act ε α) (w : World) :
    (holding hs m).outcome w = ((m.outcome { w with held := hs ++ w.held }).1,
      { (m.outcome { w with held := hs ++ w.held }).2 with held := w.held }) := rfl

/-! ### The acts of calls and accesses -/

end Act

namespace World

/-- The world as a call finds it: with a frame for the function. -/
def entered (w : World) (inCoroutine : Bool) (f : FunctionRef) : World :=
  { w with frames := f :: w.frames, journal := .called f inCoroutine :: w.journal }

/-- The world after a call, without the frame. -/
def left (w : World) (f : FunctionRef) : World :=
  { w with frames := w.frames.tail, journal := .returned f :: w.journal }

/-- The world as a coroutine finds it: the coroutine is running. -/
def resuming (w : World) (c : CoroutineRef) : World :=
  { w with
    coroutines := w.coroutines.set c { w.coroutine c with status := .running }
    journal := .resumed c :: w.journal }

/-- The world after a coroutine: it is dead. -/
def finishing (w : World) (c : CoroutineRef) : World :=
  { w with
    coroutines := w.coroutines.set c { w.coroutine c with status := .dead }
    journal := .finished c :: w.journal }

end World

namespace Act

variable {ε α : Type}

/-- The guard fails exactly inside a coroutine, and notes whom it refused. -/
theorem outcome_guard (inCoroutine : Bool) (name : String) (w : World) :
    (guard inCoroutine name).outcome w = bif inCoroutine then
      (.error (.reentrancy name), { w with journal := .refused name :: w.journal })
    else (.ok (), w) := by
  cases inCoroutine <;> rfl

/-- The frame is pushed before the act and popped after it, whatever the outcome. -/
theorem outcome_framed (inCoroutine : Bool) (f : FunctionRef) (m : Act ε α) (w : World) :
    (framed inCoroutine f m).outcome w =
      let v := m.outcome (w.entered inCoroutine f)
      (v.1, v.2.left f) := by
  rfl

/-- Disposal takes the target from a proxy. Of what is no proxy there is nothing to dispose. -/
theorem outcome_dispose (u : UserdataRef) (w : World) :
    (dispose u : Act ε Unit).outcome w = match w.proxy? u with
      | some p =>
        (.ok (), { w with userdata := w.userdata.set u (.proxy { p with target := none }) })
      | none => (.ok (), w) := by
  unfold dispose
  rw [outcome_bind]
  simp only [outcome_look]
  cases w.proxy? u <;> rfl

/-- An object is made if its payload is what the class holds. -/
theorem outcome_instantiate (c : ClassRef) (p : Payload) (w : World) :
    (instantiate c p).outcome w =
      if p.type = (w.cls c).holds then
        (.ok ⟨w.objects.next, c⟩, { w with objects := w.objects.push ⟨c, p, .free⟩ })
      else (.error (.registration (.typeMismatch c.name p.type.name)), w) := by
  unfold instantiate
  rw [outcome_bind_ok (outcome_look _ w)]
  split <;> rfl

theorem outcome_borrowed (o : ObjectRef) (mutably : Bool) (t : PayloadType) (w : World) :
    (borrowed o mutably t).outcome w = match (w.object o).refusal? mutably t with
      | some e => (.error (.binding e), w)
      | none => (.ok (w.object o), w) := by
  unfold borrowed
  rw [outcome_bind]
  simp only [outcome_look]
  cases (w.object o).refusal? mutably t <;> rfl

/-- A write borrows the object for writing as long as it lasts, so it is refused like such a borrow. -/
theorem outcome_writeSlot (o : ObjectRef) (slot : String) (v : HostValue) (w : World) :
    (writeSlot o slot v).outcome w = match (w.object o).refusal? true .slots with
      | some e => (.error (.binding e), w)
      | none => (.ok (), { w with
          objects := w.objects.set o.ref { w.object o with
            payload := .slots ((w.object o).payload.slotsOf.write slot v) } }) := by
  unfold writeSlot
  rw [outcome_bind, outcome_borrowed]
  cases (w.object o).refusal? true .slots <;> rfl

/-- The act runs while the object is lent, and afterwards the object is borrowed as before. If the loan
is refused, the act does not run. -/
theorem outcome_whileBorrowed (o : ObjectRef) (mutably : Bool) (fail : HostFailure → ε)
    (m : Act ε α) (w : World) :
    (whileBorrowed o mutably fail m).outcome w = match (w.object o).refusal? mutably .slots with
      | some e => (.error (fail (.binding e)), w)
      | none =>
        let v := m.outcome { w with
          objects := w.objects.set o.ref { w.object o with
            borrow := ((w.object o).lend mutably).getD (w.object o).borrow } }
        (v.1, { v.2 with
          objects := v.2.objects.set o.ref
            { v.2.object o with borrow := (w.object o).borrow } }) := by
  unfold whileBorrowed
  rw [outcome_bind, outcome_mapError, outcome_borrowed]
  cases (w.object o).refusal? mutably .slots <;> rfl

/-- Only a suspended coroutine runs. It is running while its function is called, and dead afterwards,
whatever the outcome. -/
theorem outcome_resume (call : Caller) (c : CoroutineRef) (args : List ScriptValue) (w : World) :
    (resume call c args).outcome w = match (w.coroutine c).status with
      | .running => (runtimeError "cannot resume non-suspended coroutine" :
          Act ScriptError (List ScriptValue)).outcome w
      | .dead => (runtimeError "cannot resume dead coroutine" :
          Act ScriptError (List ScriptValue)).outcome w
      | .suspended =>
        let v := (call true (w.coroutine c).function args).outcome (w.resuming c)
        (v.1, v.2.finishing c) := by
  unfold resume
  rw [outcome_bind]
  simp only [outcome_look]
  cases (w.coroutine c).status <;> rfl

/-- A target is reached as long as it is there. -/
theorem outcome_reachTarget (t : Target) (w : World) :
    (reachTarget t).outcome w = match w.reach? t with
      | some t => (.ok t, w)
      | none => (.error (.binding (.objectReleased t.cls.name)), w) := by
  unfold reachTarget
  rw [outcome_bind]
  simp only [outcome_look]
  cases w.reach? t <;> rfl

theorem outcome_reachTarget_ok {t : Target} {w : World} (h : w.reach? t = some t) :
    (reachTarget t).outcome w = (.ok t, w) := by
  rw [outcome_reachTarget, h]

theorem outcome_reachTarget_gone {t : Target} {w : World} (h : w.reach? t = none) :
    (reachTarget t).outcome w = (.error (.binding (.objectReleased t.cls.name)), w) := by
  rw [outcome_reachTarget, h]

/-- What is run for a function is settled by its code. -/
theorem outcome_invokeCode (run : Runner) (inCoroutine : Bool) (f : FunctionRef)
    (args : List ScriptValue) (w : World) :
    (invokeCode run inCoroutine f args).outcome w = (match (w.function f).code with
      | .script body => runScriptBody run inCoroutine args body
      | .host via h =>
        runHostCode inCoroutine via h.name h.params args
          (runHostBody run inCoroutine via none h.body)
      | .method via named m => do
        let t ← raising (reachTarget named)
        holding (handles t) do
          let rest ← look fun w => withoutSelf w t m.params.length args
          runHostCode inCoroutine via (w.function f).name m.params rest fun hostArgs => do
            let receiver ← methodReceiver t m
            runHostBody run inCoroutine via receiver m.body hostArgs).outcome w := by
  unfold invokeCode
  exact outcome_bind_ok (outcome_look _ w)

/-! ### Proxies of objects -/

end Act

namespace World

/-- The world in which a binding has a new proxy of an object. The proxy is there before the cache
is cleaned for it. -/
def withProxy (w : World) (via : BindingRef) (o : ObjectRef) : World :=
  let u := w.userdata.next
  let v := { w with userdata := w.userdata.push (.proxy ⟨some (.object o), via, o.cls.name⟩) }
  { v with
    bindings := v.bindings.set via { v.binding via with
      cache := ((v.binding via).cache.clean fun u => v.alive u.handle).put (v.layout o.ref) u }
    journal := .wrapped via o u :: v.journal }

end World

namespace Act

variable {ε : Type}

/-- The cached proxy changes nothing but the journal; a new one is put into the cache. -/
theorem outcome_proxyFor (via : BindingRef) (o : ObjectRef) (w : World) :
    (proxyFor via o : Act ε UserdataRef).outcome w = match w.cachedProxy? via o with
      | some u => (.ok u, { w with journal := .wrapped via o u :: w.journal })
      | none => (.ok w.userdata.next, w.withProxy via o) := by
  unfold proxyFor
  rw [outcome_bind]
  simp only [outcome_look]
  cases w.cachedProxy? via o <;> rfl

end Act

end ScriptHost
