import ScriptHost.Proofs.Afterlife.Disposal

/-!
# Functions read through a proxy

A method that is read through a proxy becomes a function of its own. It names the object as weakly as
the proxy does, and has nothing more to do with the proxy: as long as the object lives every call
reaches it, and afterwards every call says that it is gone.

A call holds its function, and with it the class, before it asks for the object. For a function that
is not dead this revives nothing (`World.Binds.reaches`).
-/

set_option autoImplicit false

namespace ScriptHost

open Act

namespace World

variable {w w₀ : World} {f : FunctionRef} {o : ObjectRef} {m : Method}

/-- The function runs the method on the object. -/
def Binds (w : World) (f : FunctionRef) (o : ObjectRef) (m : Method) : Prop :=
  ∃ via, (w.function f).code = .method via (.object o) m

/-- A function with such code is there. -/
theorem Binds.made (hb : w.Binds f o m) : ∃ x, w.functions.get? f = some x := by
  obtain ⟨via, hcode⟩ := hb
  unfold World.function at hcode
  cases hx : w.functions.get? f with
  | none =>
    rw [hx] at hcode
    cases hcode
  | some x => exact ⟨x, rfl⟩

/-- **A function goes on running what it ran.** -/
theorem Since.binds (h : w₀.Since w) (hb : w₀.Binds f o m) : w.Binds f o m := by
  obtain ⟨x, hx⟩ := hb.made
  obtain ⟨via, hcode⟩ := hb
  have hsame : w.function f = w₀.function f := by
    unfold World.function
    rw [hx, h.functions f x hx]
  exact ⟨via, hsame ▸ hcode⟩

/-- The object that a function is bound to was made, whether it is still alive or not. -/
theorem Faithful.has_of_binds (hw : w.Faithful) (hb : w.Binds f o m) : w.Has (.object o) := by
  obtain ⟨x, hx⟩ := hb.made
  obtain ⟨via, hcode⟩ := hb
  have hfunction : w.function f = x := by rw [World.function, hx, Option.getD_some]
  have hnamed : Mention.object o ∈ named x := by
    show Mention.object o ∈ named x.code
    rw [← hfunction, hcode]
    exact List.mem_cons_self
  exact hw.known.functions f x hx _ hnamed rfl

/-- Reading through a proxy whose object lives gives such a function, if the key denotes a method. -/
theorem binds_readProxy {p : Proxy} {key : ScriptValue} {k : MemberKey}
    (ht : p.target = some (.object o)) (halive : w.alive o.ref.handle = true)
    (hkey : MemberKey.ofValue? key = some k)
    (hm : (w.binding p.via).resolve (w.cls o.cls) k true = [.method m]) :
    ∃ f w', (readProxy p key).outcome w = (.ok (.function f), w') ∧ w'.Binds f o m := by
  have hnamed : (namedTarget p).outcome w = (.ok (.object o), w) := by
    unfold namedTarget
    rw [ht]
    rfl
  have hreached : (reachTarget (.object o)).outcome w = (.ok (.object o), w) := by
    rw [outcome_reachTarget, reach?_object halive]
  -- The function that is made names the object, and the proxy is not mentioned in it.
  let made : Function := ⟨o.cls.name ++ "." ++ m.name, .host, .method p.via (.object o) m⟩
  refine ⟨w.functions.next, { w with functions := w.functions.push made }, ?_, p.via, ?_⟩
  · unfold readProxy
    rw [outcome_bind_ok hnamed, outcome_bind_ok hreached, hkey]
    have hlook : (look fun w => (w.binding p.via).resolve (w.cls o.cls) k true :
        Act HostFailure (List Member)).outcome w = (.ok [.method m], w) := by
      rw [outcome_look, hm]
    exact outcome_bind_ok hlook
  · unfold World.function
    rw [Store.get?_push_self]
    rfl

/-! ### Calls -/

/-- A call holds its function in addition. -/
theorem extends_entered (w : World) (b : Bool) (f : FunctionRef) : w.Extends (w.entered b f) := by
  refine .of_roots (fun x hx => ?_) fun a ha => ⟨ha, rfl⟩
  simp only [roots, World.entered, List.map_cons, List.mem_append, List.mem_cons] at hx ⊢
  tauto

/-- An instance method gets the object as its receiver. -/
theorem receiver_startMethod {v : World} {b : Bool} {via : BindingRef} {name : String}
    {args : List ScriptValue} {r : List HostValue × Option ObjectRef}
    (hr : ((startMethod b via name (.object o) m args).outcome v).1 = .ok r)
    (hm : m.isStatic = false) : r.2 = some o := by
  have hout : (startMethod b via name (.object o) m args).outcome v = (.ok r, _) := Prod.ext hr rfl
  -- First the arguments are looked through and converted, then the receiver is settled.
  obtain ⟨rest, v₁, -, hout⟩ := outcome_bind_eq_ok hout
  obtain ⟨hostArgs, v₂, -, hout⟩ := outcome_bind_eq_ok hout
  obtain ⟨receiver, v₃, hreceiver, hout⟩ := outcome_bind_eq_ok hout
  cases hout
  have hself : (methodReceiver (.object o) m).outcome v₂ = (.ok (some o), v₂) := by
    unfold methodReceiver
    rw [hm]
    rfl
  rw [outcome_raising_ok hself] at hreceiver
  cases hreceiver
  rfl

/-- **A function runs its method on the object, or says that it is gone.** Where the object lives, a
body that is started is that of the method and works on the object. -/
structure Reaches (w : World) (f : FunctionRef) (o : ObjectRef) (m : Method) : Prop where
  alive : w.alive o.ref.handle = true → ∀ b args,
    (reachTarget (.object o)).outcome (w.entered b f) = (.ok (.object o), w.entered b f) ∧
      ∀ t w', (startCode b f args).outcome (w.entered b f) = (.ok t, w') →
        t.body = m.body ∧ o.ref.handle ∈ t.given ∧
          (m.isStatic = false → t.scope.receiver? = some o)
  gone : w.alive o.ref.handle = false → ∀ n b args,
    RaisesAs (callWithin (n + 1) b f args) w (.binding (.objectReleased o.cls.name))

/-- **Calls of a function that is not dead** reach the object exactly as long as it lives. -/
theorem Binds.reaches (hb : w.Binds f o m) (hclosed : w.Closed) (hw : w.Faithful)
    (hf : w.Safe f.handle) : w.Reaches f o m where
  alive halive b args := by
    -- The frame of the call holds more, and so the object is alive inside as well.
    have hmade := (hw.has_of_binds hb).made
    have halive' := (w.extends_entered b f).alive hmade halive
    have hreached : (reachTarget (.object o)).outcome (w.entered b f) =
        (.ok (.object o), w.entered b f) := by
      rw [outcome_reachTarget, reach?_object halive']
    refine ⟨hreached, fun t w' hstart => ?_⟩
    -- What started went through all of these steps.
    obtain ⟨via, hcode⟩ := hb
    have hcode' : ((w.entered b f).function f).code = .method via (.object o) m := hcode
    obtain ⟨fn, w₁, hlook, hstart⟩ := outcome_bind_eq_ok hstart
    cases hlook
    rw [hcode'] at hstart
    obtain ⟨t', w₂, htarget, hstart⟩ := outcome_bind_eq_ok hstart
    rw [outcome_raising_ok hreached] at htarget
    cases htarget
    obtain ⟨r, w₃, hmethod, hstart⟩ := outcome_bind_eq_ok hstart
    cases hstart
    refine ⟨rfl, List.mem_append_right _ List.mem_cons_self, fun hm => ?_⟩
    rw [outcome_holding] at hmethod
    exact receiver_startMethod (congrArg Prod.fst hmethod) hm
  gone hdead n b args := by
    -- To hold a function that is not dead revives nothing.
    have hentered := (Since.refl hclosed).entered b hf
    have hmade := (hw.has_of_binds hb).made
    have hdead' := hentered.spares.alive_eq_false hmade hdead
    obtain ⟨via, hcode⟩ := hb
    have hcode' : ((w.entered b f).function f).code = .method via (.object o) m := hcode
    refine .framed (.of_eq (outcome_invokeCode _ _ _ _ _) ?_)
    rw [hcode']
    have hgone := outcome_reachTarget (.object o) (w.entered b f)
    rw [reach?_eq_none hdead'] at hgone
    exact (RaisesAs.of_failure hgone nofun).bind

end World

end ScriptHost
