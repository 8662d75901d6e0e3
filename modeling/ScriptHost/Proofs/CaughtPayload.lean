import ScriptHost.Proofs.ErrorChain
import ScriptHost.Proofs.Tables.RawEquality

/-!
# Payloads that script catches

A script error is raised inside a chain of calls, host functions in it pass on the failure that their
own call gave them, and a script function above catches what comes out. `Forwarding x k n b f args w`
is such a chain with `k` host functions that pass the failure on.

Each of them takes the error out of script and puts it back. That changes nothing of a plain error,
whatever its value is. A carrier is opened on the way out, and what goes back in is a new carrier of
the same failure; or, if the carrier was made for a script error, that error, which is then on its way
itself. `World.Arrives` says what has become of an error after so many host functions, and
`Forwarding.arrives` is the induction.
-/

set_option autoImplicit false

namespace ScriptHost

open Act

namespace World

/-- An error whose value is there: no carrier, a carrier of a host failure, or a carrier of a script
error of this kind. -/
inductive Genuine (w : World) : ScriptError → Prop where
  | plain (x : ScriptError) (hx : w.Plain x.value) : w.Genuine x
  | carrier (u : UserdataRef) (traceback : Option String) (e : HostFailure)
      (hu : w.userdata.get? u = some (.carrier e)) (he : e.isScript = false) :
      w.Genuine ⟨.userdata u, traceback⟩
  | nested (u : UserdataRef) (traceback : Option String) (x : ScriptError)
      (hu : w.userdata.get? u = some (.carrier (.script x))) (hx : w.Genuine x) :
      w.Genuine ⟨.userdata u, traceback⟩

/-- What an error has become when so many host functions passed it on. -/
inductive Arrives (w : World) : Nat → ScriptError → ScriptError → Prop where
  /-- A plain error is what it was. -/
  | plain (k : Nat) (x : ScriptError) (hx : w.Plain x.value) : w.Arrives k x x
  /-- No host function had it. -/
  | direct (x : ScriptError) : w.Arrives 0 x x
  /-- A host failure got a new carrier. -/
  | renewed (k : Nat) (u u' : UserdataRef) (traceback traceback' : Option String) (e : HostFailure)
      (hu : w.userdata.get? u = some (.carrier e)) (he : e.isScript = false) (hne : u' ≠ u)
      (hu' : w.userdata.get? u' = some (.carrier e)) :
      w.Arrives (k + 1) ⟨.userdata u, traceback⟩ ⟨.userdata u', traceback'⟩
  /-- A script error came out of its carrier and went on. -/
  | opened (k : Nat) (u : UserdataRef) (traceback : Option String) (x y : ScriptError)
      (hu : w.userdata.get? u = some (.carrier (.script x))) (h : w.Arrives k x y) :
      w.Arrives (k + 1) ⟨.userdata u, traceback⟩ y

variable {w w' : World} {k : Nat} {x y : ScriptError} {e : HostFailure} {u : UserdataRef}

/-! ### What is said of errors lasts -/

/-- A carrier goes on carrying what it carries. -/
theorem Later.carrier (hl : w.Later w') (h : w.userdata.get? u = some (.carrier e)) :
    w'.userdata.get? u = some (.carrier e) := by
  obtain ⟨d, hd, hiff⟩ := hl u _ h
  rw [hd, (hiff e).mpr rfl]

/-- The value of an error does not go away. -/
theorem Genuine.later (h : w.Genuine x) (hl : w.Later w') : w'.Genuine x := by
  induction h with
  | plain x hx => exact .plain x (hx.later hl)
  | carrier u tb e hu he => exact .carrier u tb e (hl.carrier hu) he
  | nested u tb x hu _ ih => exact .nested u tb x (hl.carrier hu) ih

/-- What an error has become it stays. -/
theorem Arrives.later (h : w.Arrives k x y) (hl : w.Later w') : w'.Arrives k x y := by
  induction h with
  | plain k x hx => exact .plain k x (hx.later hl)
  | direct x => exact .direct x
  | renewed k u u' tb tb' e hu he hne hu' =>
    exact .renewed k u u' tb tb' e (hl.carrier hu) he hne (hl.carrier hu')
  | opened k u tb x y hu _ ih => exact .opened k u tb x y (hl.carrier hu) ih

/-! ### What the host sees of an error -/

/-- A value that is no carrier is handed to the host as it was raised. -/
theorem unwrap_plain (hx : w.Plain x.value) : unwrapError w x = .script x :=
  (Shows.plain x hx).unwrap

/-- A carrier is opened, and its traceback is lost. -/
theorem unwrap_carrier (hu : w.userdata.get? u = some (.carrier e)) (traceback : Option String) :
    unwrapError w ⟨.userdata u, traceback⟩ = e := by
  simp [unwrapError, World.userdatum, hu]

/-- What is raised into script for a failure: a script error as it is, and for any other failure a
new carrier. -/
def RaisedFor (w : World) (e : HostFailure) (y : ScriptError) (w' : World) : Prop :=
  w.Later w' ∧ match e with
    | .script x => y = x
    | e => ∃ u traceback, y = ⟨.userdata u, traceback⟩ ∧ w.userdata.get? u = none ∧
        w'.userdata.get? u = some (.carrier e)

/-- A failure that is raised is a script error that went through the host, which is the one it was, or
gets a new carrier. -/
theorem raises_raisedFor {α : Type} {m : Act HostFailure α} {v : World}
    (h : m.outcome v = (.error e, w)) : Raises (fun y w' => w.RaisedFor e y w') (raising m) v := by
  cases hs : e.isScript with
  | true =>
    -- A script error goes on as it is.
    cases e with
    | script x => exact ⟨x, w, outcome_raising_script h, .refl w, rfl⟩
    | _ => cases hs
  -- For anything else the carrier is made now, so it is not one that was there.
  | false =>
    refine ⟨_, _, outcome_raising_carried h hs, .push _ rfl, ?_⟩
    have hnew : w.userdata.get? w.userdata.next = none := Store.get?_next _
    have hmade := Store.get?_push_self w.userdata (.carrier e)
    cases e with
    | script x => cases hs
    | _ => exact ⟨_, _, rfl, hnew, hmade⟩

/-- What is raised for a failure that is no script error is a new carrier of it. -/
theorem RaisedFor.carrier {y : ScriptError} (h : w.RaisedFor e y w') (he : e.isScript = false) :
    ∃ u traceback, y = ⟨.userdata u, traceback⟩ ∧ w.userdata.get? u = none ∧
      w'.userdata.get? u = some (.carrier e) := by
  cases e with
  | script x => cases he
  | _ => exact h.2

/-- **One host function**: what had arrived is taken out of script, and later raised again. -/
theorem Arrives.hop {v : World} {z : ScriptError} (h : w.Arrives k x y) (hx : w.Genuine x)
    (hv : w.Later v) (hz : v.RaisedFor (unwrapError w y) z w') : w'.Arrives (k + 1) x z := by
  have hl : w.Later w' := hv.trans hz.1
  -- What is new was not there before, so it is another carrier than the first one.
  have hother {u u' : UserdataRef} {e : HostFailure} (hu : w.userdata.get? u = some (.carrier e))
      (hu' : v.userdata.get? u' = none) : u' ≠ u := by
    rintro rfl
    cases (hv.carrier hu).symm.trans hu'
  induction h with
  | plain k x hplain =>
    rw [unwrap_plain hplain] at hz
    rw [hz.2]
    exact .plain _ x (hplain.later hl)
  | direct x =>
    cases hx with
    | plain x hplain =>
      rw [unwrap_plain hplain] at hz
      rw [hz.2]
      exact .plain _ x (hplain.later hl)
    | carrier u tb e hu he =>
      rw [unwrap_carrier hu] at hz
      obtain ⟨u', tb', rfl, hnew, hmade⟩ := hz.carrier he
      exact .renewed 0 u u' tb tb' e (hl.carrier hu) he (hother hu hnew) hmade
    | nested u tb x hu hx =>
      rw [unwrap_carrier hu] at hz
      rw [hz.2]
      exact .opened 0 u tb x x (hl.carrier hu) (.direct x)
  | renewed k u u₁ tb tb₁ e hu he hne hu₁ =>
    rw [unwrap_carrier hu₁] at hz
    obtain ⟨u', tb', rfl, hnew, hmade⟩ := hz.carrier he
    exact .renewed _ u u' tb tb' e (hl.carrier hu) he (hother hu hnew) hmade
  | opened k u tb x y hu _ ih =>
    refine .opened _ u tb x z (hl.carrier hu) (ih ?_ hz)
    cases hx with
    | plain _ hplain =>
      obtain ⟨d, hd, hne⟩ := hplain u rfl
      exact absurd (Option.some.inj (hd.symm.trans hu)) (hne _)
    | carrier _ _ e hu' he =>
      obtain rfl := Userdata.carrier.inj (Option.some.inj (hu'.symm.trans hu))
      cases he
    | nested _ _ x' hu' hx' =>
      cases Option.some.inj (hu'.symm.trans hu)
      exact hx'

end World

/-! ### Chains of host functions -/

/-- Calling `f` in `w`, with so many calls left to nest, starts a chain that raises `x` at its inner
end, and `k` host functions in it pass the failure on. -/
inductive Forwarding (x : ScriptError) :
    Nat → Nat → Bool → FunctionRef → List ScriptValue → World → Prop where
  /-- A script function raises the error. -/
  | raised {n : Nat} {b : Bool} {f : FunctionRef} {args : List ScriptValue} {w w' : World}
      (hbody : ScriptFails n b f args w x w') (hx : w'.Genuine x) : Forwarding x 0 (n + 1) b f args w
  /-- A host function raises it. -/
  | started {n : Nat} {f : FunctionRef} {args : List ScriptValue} {w w' : World}
      (hbody : HostFails n f args w (.script x) w') (hx : w'.Genuine x) :
      Forwarding x 0 (n + 1) false f args w
  /-- A script function passes on the error that a call gave it. -/
  | called {k n : Nat} {b : Bool} {f g : FunctionRef} {args vs : List ScriptValue}
      {w w' v v' : World} {y : ScriptError} (h : Forwarding x k n b g vs v)
      (hcall : (callWithin n b g vs).outcome v = (.error y, v')) (hl : v'.Later w')
      (hbody : ScriptFails n b f args w y w') : Forwarding x k (n + 1) b f args w
  /-- A host function passes on the failure that a call through the boundary gave it. -/
  | forwarded {k n : Nat} {f g : FunctionRef} {args vs : List ScriptValue} {hs : List HostValue}
      {via : BindingRef} {w w' u v v' : World} {e : HostFailure}
      (hargs : (toScriptAll via hs : Act HostFailure _).outcome u = (.ok vs, v))
      (h : Forwarding x k n false g vs v)
      (hcall : (hostCall (callWithin n) false via (.function g) hs).outcome u = (.error e, v'))
      (hl : v'.Later w') (hbody : HostFails n f args w e w') :
      Forwarding x (k + 1) (n + 1) false f args w

namespace Forwarding

variable {x : ScriptError} {k n : Nat} {b : Bool} {f : FunctionRef} {args : List ScriptValue}
  {w : World}

/-- What has arrived stays the same in all worlds with the same userdata. -/
theorem lasting (x : ScriptError) (k : Nat) :
    Lasting fun y w => w.Genuine x ∧ w.Arrives k x y :=
  fun _ _ _ hw h => ⟨h.1.later (.of_eq hw), h.2.later (.of_eq hw)⟩

/-- **What comes out of a chain** is what so many host functions make of what was raised. -/
theorem arrives (h : Forwarding x k n b f args w) :
    Raises (fun y w' => w'.Genuine x ∧ w'.Arrives k x y) (callWithin n b f args) w := by
  -- What a call gave has arrived where it was given, and so it has at the end of the body.
  induction h with
  | raised hbody hx =>
    exact ⟨x, _, hbody.outcome, hx.later (.of_eq rfl), .direct x⟩
  | started hbody hx =>
    refine hbody.raisesTo (lasting x 0) fun m u hm => ?_
    exact ⟨x, _, outcome_raising_script hm, hx, .direct x⟩
  | called _ hcall hl hbody ih =>
    obtain ⟨y, v', hy, hx, harrives⟩ := ih
    cases hy.symm.trans hcall
    have hl' := hl.trans (.of_eq rfl)
    exact ⟨_, _, hbody.outcome, hx.later hl', harrives.later hl'⟩
  | forwarded hargs _ hcall hl hbody ih =>
    obtain ⟨y, v', hy, hx, harrives⟩ := ih
    -- The host function has what the boundary took out of script.
    cases (outcome_hostCall_error hargs hy).symm.trans hcall
    refine hbody.raisesTo (lasting x _) fun m u hm => ?_
    obtain ⟨z, w', hz, hraised⟩ := World.raises_raisedFor hm
    have hl' := hl.trans hraised.1
    exact ⟨z, w', hz, hx.later hl', harrives.hop hx hl hraised⟩

/-! ### Bodies that raise and bodies that pass on -/

variable {w₁ w₂ : World} {p rest : Program} {d : Disposition}

/-- A script function that raises a value is the inner end of a chain. -/
theorem of_raise {value : ScriptExpr} {v : ScriptValue}
    (hf : (w.function f).code = .script (p ++ .act d (.error (.raise value)) :: rest))
    (hd : d.catchAs = none)
    (hp : (Op.runAll (callWithin n) ⟨b, .script args⟩ p).outcome
      { w.entered b f with held := handles args ++ w.held } = (.ok none, w₁))
    (hv : (value.eval ⟨b, .script args⟩).outcome w₁ = (.ok v, w₂))
    (hx : w₂.Genuine ⟨v, some w₂.traceback⟩) :
    Forwarding ⟨v, some w₂.traceback⟩ 0 (n + 1) b f args w := by
  -- The operation that raises is the last one of the body that is run.
  have haction : (ErrorAction.run ⟨b, .script args⟩ (.raise value)).outcome w₁ =
      (.error (.raised ⟨v, some w₂.traceback⟩), w₂) := by
    unfold ErrorAction.run
    rw [outcome_bind_ok hv]
    rfl
  refine .raised (ScriptFails.of_action hf hd hp haction) (hx.later ?_)
  exact .of_eq rfl

/-- A host function that calls a global and returns the failure passes it on. -/
theorem of_callGlobal {via : BindingRef} {name global : String} {params : List HostType}
    {items : HostItems} {hostArgs hs : List HostValue} {g : FunctionRef} {vs : List ScriptValue}
    {v u : World}
    (hf : (w.function f).code =
      .host via ⟨name, params, p ++ .act d (.call (.callGlobal global items)) :: rest⟩)
    (haccept : Accepts via name params args (w.entered false f) hostArgs v)
    (hd : d.catchAs = none)
    (hp : (Op.runAll (callWithin n) ⟨false, .host via none hostArgs⟩ p).outcome
      { v with held := handles hostArgs ++ v.held } = (.ok none, w₁))
    (hhs : (items.eval ⟨false, .host via none hostArgs⟩).outcome w₁ = (.ok hs, w₂))
    (hg : (w₂.table w₂.globals).get (.string global) = .function g)
    (hvs : (toScriptAll via hs : Act HostFailure _).outcome
      { w₂ with held := g.handle :: w₂.held } = (.ok vs, u))
    (h : Forwarding x k n false g vs u) : Forwarding x (k + 1) (n + 1) false f args w := by
  -- The inner call fails with what has arrived there, and the host function gets it unwrapped.
  obtain ⟨y, w', hy, -⟩ := h.arrives
  have hcall := outcome_hostCall_error hvs hy
  have haction : ((CallAction.callGlobal global items).run (callWithin n)
      ⟨false, .host via none hostArgs⟩).outcome w₁ =
      (.error (.failed (unwrapError w' y)), { w' with held := w₂.held }) :=
    CallAction.callGlobal_fails hhs hg hcall
  refine .forwarded hvs h hcall ?_ (.of_action hf haccept hd hp haction)
  exact .of_eq rfl

end Forwarding

/-! ### What the catcher sees -/

namespace World.Arrives

variable {w : World} {k : Nat} {x y : ScriptError}

end World.Arrives

section CarrierWorld

/-- What raises a carrier again and what passes the failure on. -/
def uncaught : Disposition := ⟨none, none, false, false⟩

end CarrierWorld

end ScriptHost
