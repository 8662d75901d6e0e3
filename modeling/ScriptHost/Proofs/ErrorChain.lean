import ScriptHost.Proofs.Carrier

/-!
# Errors through chains of calls

A chain of calls ends with an innermost body that fails; every other body in it fails with the error
that its own call gave it. Script functions call or resume, host functions and methods call through
the view they have of their caller, and nothing on the host side runs below a resumption.

`Chain e n b f args w` says that calling `f` in `w` starts such a chain, whose innermost body fails
with `e`. `Chain.raises` is the induction: every link raises an error that shows `e`, so that the
host above it gets `e` again, with nothing added and nothing lost. `error_chain` is the statement
for the calls that a host makes.
-/

set_option autoImplicit false

namespace ScriptHost

open Act

/-! ### Bodies that fail -/

/-- The script function `f`, called in `w` with so many calls left to its body, fails with `x`. -/
def ScriptFails (n : Nat) (b : Bool) (f : FunctionRef) (args : List ScriptValue) (w : World)
    (x : ScriptError) (w' : World) : Prop :=
  ∃ body, (w.function f).code = .script body ∧
    (runScriptBody (Op.runAll (callWithin n)) b args body).outcome (w.entered b f) = (.error x, w')

/-- The arguments of a call are accepted; what comes next is the body. -/
def Accepts (via : BindingRef) (name : String) (params : List HostType) (args : List ScriptValue)
    (w : World) (hostArgs : List HostValue) (w' : World) : Prop :=
  ∃ v, (holding (handles args) (acceptArgs via name params args)).outcome w = (.ok hostArgs, v) ∧
    w' = { v with journal := .body via name params hostArgs :: v.journal }

/-- The host function or method `f`, called in `w` with so many calls left to its body, accepts its
arguments, and its body fails with `e`. -/
inductive HostFails (n : Nat) (f : FunctionRef) (args : List ScriptValue) (w : World)
    (e : HostFailure) (w' : World) : Prop where
  | function {via : BindingRef} {h : HostFunction} {hostArgs : List HostValue} {v : World}
      (hf : (w.function f).code = .host via h)
      (haccept : Accepts via h.name h.params args (w.entered false f) hostArgs v)
      (hbody : (runHostBody (Op.runAll (callWithin n)) false via none h.body hostArgs).outcome v =
        (.error e, w'))
  | method {via : BindingRef} {named t : Target} {m : Method} {rest : List ScriptValue}
      {receiver : Option ObjectRef} {hostArgs : List HostValue} {u v : World}
      (hf : (w.function f).code = .method via named m)
      (hreach : (w.entered false f).reach? named = some t)
      (hu : u = { w.entered false f with held := handles t ++ w.held })
      (hrest : rest = withoutSelf u t m.params.length args)
      (haccept : Accepts via (w.function f).name m.params rest u hostArgs v)
      (hreceiver : (methodReceiver t m).outcome v = (.ok receiver, v))
      (hbody : (runHostBody (Op.runAll (callWithin n)) false via receiver m.body hostArgs).outcome
        v = (.error e, w'))

section Links

variable {n : Nat} {b : Bool} {f : FunctionRef} {args : List ScriptValue} {w w' : World}
  {e : HostFailure}

/-- A script function fails with the error of its body. -/
theorem ScriptFails.outcome {x : ScriptError} (h : ScriptFails n b f args w x w') :
    (callWithin (n + 1) b f args).outcome w = (.error x, w'.left f) := by
  obtain ⟨body, hf, hrun⟩ := h
  have hcode : ((w.entered b f).function f).code = .script body := hf
  have hinvoke : (invokeCode (Op.runAll (callWithin n)) b f args).outcome (w.entered b f) =
      (.error x, w') := by
    rw [outcome_invokeCode, hcode]
    exact hrun
  rw [callWithin, outcome_framed, hinvoke]

/-- A script function passes on the error of its body. -/
theorem ScriptFails.raises {x : ScriptError} (h : ScriptFails n b f args w x w')
    (hx : w'.Shows x e) : RaisesAs (callWithin (n + 1) b f args) w e :=
  ⟨x, w'.left f, h.outcome, hx.later (.of_eq rfl)⟩

/-- The failure of a host body is raised into script. -/
theorem Act.Raises.runHostCode {P : ScriptError → World → Prop} {via : BindingRef} {name : String}
    {params : List HostType} {hostArgs : List HostValue} {v : World}
    {body : List HostValue → Act HostFailure (List HostValue)}
    (haccept : Accepts via name params args w hostArgs v)
    (hbody : ∀ m : Act HostFailure (List HostValue), ∀ u,
      m.outcome u = (body hostArgs).outcome v → Raises P (raising m) u) :
    Raises P (runHostCode false via name params args body) w := by
  obtain ⟨u, hargs, rfl⟩ := haccept
  -- The guard lets pass, the arguments are accepted, and what is left to fail is the body.
  have hguard : (raising (Act.guard false name)).outcome w = (.ok (), w) :=
    outcome_raising_ok (outcome_guard false name w)
  refine .after hguard (.after (outcome_raising_ok hargs) (.bind (hbody _ u ?_)))
  rw [outcome_bind_ok (outcome_note _ _)]

/-- A host function or method raises what is raised for the failure of its body. -/
theorem HostFails.raisesTo {P : ScriptError → World → Prop} (hP : Lasting P)
    (h : HostFails n f args w e w')
    (hto : ∀ m : Act HostFailure (List HostValue), ∀ u, m.outcome u = (.error e, w') →
      Raises P (raising m) u) : Raises P (callWithin (n + 1) false f args) w := by
  refine .framed hP (.of_eq (outcome_invokeCode _ _ _ _ _) ?_)
  cases h with
  -- A host function fails in its body, after its arguments were accepted.
  | @function via h hostArgs v hf haccept hbody =>
    have hcode : ((w.entered false f).function f).code = .host via h := hf
    rw [hcode]
    exact .runHostCode haccept fun m u hm => hto m u (hm.trans hbody)
  -- A method looks for its target and for its receiver first.
  | @method via named t m rest receiver hostArgs u v hf hreach hu hrest haccept hreceiver hbody =>
    have hcode : ((w.entered false f).function f).code = .method via named m := hf
    rw [hcode]
    have htarget : (raising (reachTarget named)).outcome (w.entered false f) =
        (.ok t, w.entered false f) :=
      outcome_raising_ok (by rw [outcome_reachTarget, hreach])
    subst hu hrest
    refine .after htarget (.holding hP (.after (outcome_look _ _) ?_))
    refine .runHostCode haccept fun m u hm => hto m u (hm.trans ?_)
    rw [outcome_bind_ok hreceiver]
    exact hbody

/-- A host function or method raises what its body fails with. -/
theorem HostFails.raises (h : HostFails n f args w e w')
    (he : ∀ x, e = .script x → w'.Plain x.value) :
    RaisesAs (callWithin (n + 1) false f args) w e :=
  h.raisesTo (lasting_shows e) fun _ _ hm => RaisesAs.of_failure hm he

/-- A call from the host gets the error of the function as the host sees it. -/
theorem outcome_hostCall_error {call : Caller} {via : BindingRef} {hs : List HostValue}
    {vs : List ScriptValue} {v : World} {x : ScriptError}
    (hvs : (toScriptAll via hs : Act HostFailure _).outcome w = (.ok vs, v))
    (hcall : (call b f vs).outcome v = (.error x, w')) :
    (hostCall call b via (.function f) hs).outcome w = (.error (unwrapError w' x), w') := by
  have happly : (apply call b (.function f) vs).outcome v = (.error x, w') := hcall
  unfold hostCall
  rw [outcome_bind_ok hvs, catching, outcome_mapError, happly]

end Links

/-! ### Chains -/

/-- Calling `f` in `w`, with so many calls left to nest, starts a chain whose innermost body fails
with `e`. -/
inductive Chain (e : HostFailure) :
    Nat → Bool → FunctionRef → List ScriptValue → World → Prop where
  /-- A script body raises a value that is no carrier. -/
  | raised {n : Nat} {b : Bool} {f : FunctionRef} {args : List ScriptValue} {w w' : World}
      {x : ScriptError} (hbody : ScriptFails n b f args w x w') (he : e = .script x)
      (hx : w'.Plain x.value) : Chain e (n + 1) b f args w
  /-- A host body fails. If it does so by raising a value, that is no carrier. -/
  | failed {n : Nat} {f : FunctionRef} {args : List ScriptValue} {w w' : World}
      (hbody : HostFails n f args w e w') (hx : ∀ x, e = .script x → w'.Plain x.value) :
      Chain e (n + 1) false f args w
  /-- A script body fails with the error that a call gave it. -/
  | called {n : Nat} {b : Bool} {f g : FunctionRef} {args vs : List ScriptValue}
      {w w' v v' : World} {x : ScriptError} (h : Chain e n b g vs v)
      (hcall : (callWithin n b g vs).outcome v = (.error x, v')) (hl : v'.Later w')
      (hbody : ScriptFails n b f args w x w') : Chain e (n + 1) b f args w
  /-- A script body fails with the error that a resumption gave it. -/
  | resumed {n : Nat} {b : Bool} {f : FunctionRef} {c : CoroutineRef}
      {args vs : List ScriptValue} {w w' v v' : World} {x : ScriptError}
      (hs : (v.coroutine c).status = .suspended)
      (h : Chain e n true (v.coroutine c).function vs (v.resuming c))
      (hcall : (resume (callWithin n) c vs).outcome v = (.error x, v')) (hl : v'.Later w')
      (hbody : ScriptFails n b f args w x w') : Chain e (n + 1) b f args w
  /-- A host body fails with the failure that a call through the boundary gave it. -/
  | returned {n : Nat} {f g : FunctionRef} {args vs : List ScriptValue} {hs : List HostValue}
      {via : BindingRef} {w w' u v v' : World} {e' : HostFailure}
      (hargs : (toScriptAll via hs : Act HostFailure _).outcome u = (.ok vs, v))
      (h : Chain e n false g vs v)
      (hcall : (hostCall (callWithin n) false via (.function g) hs).outcome u = (.error e', v'))
      (hl : v'.Later w') (hbody : HostFails n f args w e' w') : Chain e (n + 1) false f args w

namespace Chain

variable {e : HostFailure} {n : Nat} {b : Bool} {f : FunctionRef} {args : List ScriptValue}
  {w : World}

/-- **Every link raises what the innermost body failed with**, by induction on the chain. What an
error shows does not change between the call that gave it and the end of the body. -/
theorem raises (h : Chain e n b f args w) : RaisesAs (callWithin n b f args) w e := by
  -- What a call raised shows `e` where it was raised, and so it does at the end of the body.
  induction h with
  | raised hbody he hx =>
    subst he
    exact hbody.raises (.plain _ hx)
  | failed hbody hx => exact hbody.raises hx
  | called _ hcall hl hbody ih => exact hbody.raises ((ih.shows hcall).later hl)
  | resumed hs _ hcall hl hbody ih =>
    have hresume := RaisesAs.resume hs ih
    exact hbody.raises ((hresume.shows hcall).later hl)
  | @returned n f g args vs hs via w w' u v v' e' hargs _ hcall hl hbody ih =>
    -- The boundary opens the error of the call, and the body fails with what was inside.
    obtain ⟨x, v'', hx, hshows⟩ := ih
    have hcaught := hcall.symm.trans (outcome_hostCall_error hargs hx)
    obtain ⟨hfailure, rfl⟩ := Prod.mk.inj hcaught
    have he : e' = e := (Except.error.inj hfailure).trans hshows.unwrap
    subst he
    exact hbody.raises fun y hy => (hshows.plain_of_script hy).later hl

end Chain

/-- **The host above a chain gets what the innermost body failed with.** -/
theorem Chain.hostCall {e : HostFailure} {n : Nat} {f : FunctionRef} {vs : List ScriptValue}
    {hs : List HostValue} {via : BindingRef} {u v : World} (h : Chain e n false f vs v)
    (hvs : (toScriptAll via hs : Act HostFailure _).outcome u = (.ok vs, v)) :
    ∃ w', (Act.hostCall (callWithin n) false via (.function f) hs).outcome u = (.error e, w') := by
  obtain ⟨x, w', hx, hshows⟩ := h.raises
  refine ⟨w', ?_⟩
  rw [outcome_hostCall_error hvs hx, hshows.unwrap]

/-! ### Bodies that pass on what they got -/

section Passing

variable {call : Caller} {s : Scope} {w w₁ w₂ w' : World} {failure : Failure}

/-- A failure that is not caught goes on. -/
theorem Disposition.settle_error {d : Disposition} (hd : d.catchAs = none)
    {m : Act Failure Result} (hm : m.outcome w = (.error failure, w')) :
    (d.settle m).outcome w = (.error failure, w') := by
  unfold settle
  rw [outcome_bind, outcome_attempt, hm]
  simp only [hd]
  rfl

/-- A program that gives nothing is followed by the rest. -/
theorem Op.runAll_append {p q : Program} (hp : (Op.runAll call s p).outcome w = (.ok none, w₁)) :
    (Op.runAll call s (p ++ q)).outcome w = (Op.runAll call s q).outcome w₁ := by
  -- No operation of the first part gave anything: the second part starts where it ended.
  induction p generalizing w with
  | nil =>
    unfold Op.runAll at hp
    cases hp
    rfl
  | cons op rest ih =>
    unfold Op.runAll at hp
    rw [List.cons_append, Op.runAll]
    rcases hop : (op.run call s).outcome w with ⟨_ | a | g, v⟩
    · rw [outcome_bind_error hop] at hp
      cases hp
    · rw [outcome_bind_ok hop] at hp ⊢
      exact ih hp
    · rw [outcome_bind_ok hop] at hp
      cases hp

/-- A body fails with the first failure that is not caught. -/
theorem Op.runAll_fails {p rest : Program} {d : Disposition} {a : Action}
    (hp : (Op.runAll call s p).outcome w = (.ok none, w₁)) (hd : d.catchAs = none)
    (ha : (a.run call s).outcome w₁ = (.error failure, w')) :
    (Op.runAll call s (p ++ .act d a :: rest)).outcome w = (.error failure, w') := by
  have hop : ((Op.act d a).run call s).outcome w₁ = (.error failure, w') := by
    unfold Op.run
    exact d.settle_error hd ha
  rw [Op.runAll_append hp, Op.runAll]
  exact outcome_bind_error hop

/-- A call that raises fails the operation. -/
theorem CallAction.call_raises {callee : ScriptExpr} {args : ScriptItems} {f : ScriptValue}
    {vs : List ScriptValue} {x : ScriptError} (hf : (callee.eval s).outcome w = (.ok f, w₁))
    (hvs : (holding (handles f) (args.eval s)).outcome w₁ = (.ok vs, w₂))
    (hcall : (apply call s.inCoroutine f vs).outcome { w₂ with held := handles f ++ w₂.held } =
      (.error x, w')) :
    ((CallAction.call callee args).run call s).outcome w =
      (.error (.raised x), { w' with held := w₂.held }) := by
  unfold CallAction.run
  rw [outcome_bind_ok hf, outcome_bind_ok hvs, outcome_holding, outcome_bind, throwing,
    outcome_mapError, hcall]

/-- So does a resumption. -/
theorem CallAction.resume_raises {name : String} {c : CoroutineRef} {args : ScriptItems}
    {vs : List ScriptValue} {x : ScriptError} (hc : (coroutineVar name).outcome w = (.ok c, w₁))
    (hvs : (args.eval s).outcome w₁ = (.ok vs, w₂))
    (hcall : (Act.resume call c vs).outcome { w₂ with held := [c.handle] ++ w₂.held } =
      (.error x, w')) :
    ((CallAction.resume name args).run call s).outcome w =
      (.error (.raised x), { w' with held := w₂.held }) := by
  unfold CallAction.run
  rw [outcome_bind_ok hc, outcome_bind_ok hvs, outcome_holding, outcome_bind, throwing,
    outcome_mapError, hcall]

/-- A call of the host that fails does so in a body of the host. -/
theorem CallAction.callFunction_fails {callee : ScriptExpr} {args : HostItems} {f : ScriptValue}
    {vs : List HostValue} {e : HostFailure} (hf : (callee.eval s).outcome w = (.ok f, w₁))
    (hvs : (holding (handles f) (args.eval s)).outcome w₁ = (.ok vs, w₂))
    (hcall : (hostCall call s.inCoroutine (s.binding w₂) f vs).outcome
      { w₂ with held := handles f ++ w₂.held } = (.error e, w')) :
    ((CallAction.callFunction callee args).run call s).outcome w =
      (.error (.failed e), { w' with held := w₂.held }) := by
  unfold CallAction.run
  rw [outcome_bind_ok hf, outcome_bind_ok hvs, outcome_bind_ok (outcome_look _ _),
    outcome_holding, outcome_bind, failing, outcome_mapError, hcall]

/-- So does a call of a global function. -/
theorem CallAction.callGlobal_fails {name : String} {args : HostItems} {f : ScriptValue}
    {vs : List HostValue} {e : HostFailure} (hvs : (args.eval s).outcome w = (.ok vs, w₁))
    (hf : (w₁.table w₁.globals).get (.string name) = f)
    (hcall : (hostCall call s.inCoroutine (s.binding w₁) f vs).outcome
      { w₁ with held := handles f ++ w₁.held } = (.error e, w')) :
    ((CallAction.callGlobal name args).run call s).outcome w =
      (.error (.failed e), { w' with held := w₁.held }) := by
  unfold CallAction.run
  subst hf
  rw [outcome_bind_ok hvs, outcome_bind_ok (outcome_look _ _), outcome_bind_ok (outcome_look _ _),
    outcome_bind, outcome_holding, failing, outcome_mapError, hcall]

/-- The same for a call through the entry point of the host. -/
theorem CallAction.bridgeCall_fails {callee : ScriptExpr} {args : HostItems} {f : ScriptValue}
    {vs : List HostValue} {e : HostFailure} (hf : (callee.eval s).outcome w = (.ok f, w₁))
    (hvs : (holding (handles f) (args.eval s)).outcome w₁ = (.ok vs, w₂))
    (hcall : (hostCall call false w₂.bridge f vs).outcome
      { w₂ with held := handles f ++ w₂.held } = (.error e, w')) :
    ((CallAction.bridgeCall callee args).run call s).outcome w =
      (.error (.failed e), { w' with held := w₂.held }) := by
  unfold CallAction.run
  rw [outcome_bind_ok hf, outcome_bind_ok hvs, outcome_bind_ok (outcome_look _ _),
    outcome_holding, outcome_bind, failing, outcome_mapError, hcall]

/-- And for a call of a global function through it. -/
theorem CallAction.bridgeCallGlobal_fails {name : String} {args : HostItems} {f : ScriptValue}
    {vs : List HostValue} {e : HostFailure} (hvs : (args.eval s).outcome w = (.ok vs, w₁))
    (hf : (w₁.table w₁.globals).get (.string name) = f)
    (hcall : (hostCall call false w₁.bridge f vs).outcome
      { w₁ with held := handles f ++ w₁.held } = (.error e, w')) :
    ((CallAction.bridgeCallGlobal name args).run call s).outcome w =
      (.error (.failed e), { w' with held := w₁.held }) := by
  unfold CallAction.run
  subst hf
  rw [outcome_bind_ok hvs, outcome_bind_ok (outcome_look _ _), outcome_bind_ok (outcome_look _ _),
    outcome_bind, outcome_holding, failing, outcome_mapError, hcall]

end Passing

section PassingLinks

variable {n : Nat} {b : Bool} {f : FunctionRef} {args : List ScriptValue} {w w₁ w' : World}
  {p rest : Program} {d : Disposition} {a : Action}

/-- A script function fails with the error of an action that it does not catch. -/
theorem ScriptFails.of_action {x : ScriptError}
    (hf : (w.function f).code = .script (p ++ .act d a :: rest)) (hd : d.catchAs = none)
    (hp : (Op.runAll (callWithin n) ⟨b, .script args⟩ p).outcome
      { w.entered b f with held := handles args ++ w.held } = (.ok none, w₁))
    (ha : (a.run (callWithin n) ⟨b, .script args⟩).outcome w₁ = (.error (.raised x), w')) :
    ScriptFails n b f args w x { w' with held := w.held } := by
  refine ⟨_, hf, ?_⟩
  -- The operation that fails is the first one that does, so the body fails with it.
  have hrun : (Op.runAll (callWithin n) ⟨b, .script args⟩ (p ++ .act d a :: rest)).outcome
      { w.entered b f with held := handles args ++ w.held } = (.error (.raised x), w') :=
    Op.runAll_fails hp hd ha
  have hinto : (intoScript (Op.runAll (callWithin n) ⟨b, .script args⟩
      (p ++ .act d a :: rest))).outcome { w.entered b f with held := handles args ++ w.held } =
      (.error x, w') := by
    unfold intoScript
    rw [outcome_bind, outcome_attempt, hrun]
    rfl
  unfold runScriptBody
  refine outcome_bind_error ?_
  rw [outcome_holding]
  exact congrArg (fun r => (r.1, { r.2 with held := w.held })) hinto

/-- A host function fails with the failure of an action that it does not catch. -/
theorem HostFails.of_action {via : BindingRef} {name : String} {params : List HostType}
    {hostArgs : List HostValue} {v : World} {e : HostFailure}
    (hf : (w.function f).code = .host via ⟨name, params, p ++ .act d a :: rest⟩)
    (haccept : Accepts via name params args (w.entered false f) hostArgs v)
    (hd : d.catchAs = none)
    (hp : (Op.runAll (callWithin n) ⟨false, .host via none hostArgs⟩ p).outcome
      { v with held := handles hostArgs ++ v.held } = (.ok none, w₁))
    (ha : (a.run (callWithin n) ⟨false, .host via none hostArgs⟩).outcome w₁ =
      (.error (.failed e), w')) :
    HostFails n f args w e { w' with held := v.held } := by
  refine .function hf haccept ?_
  -- The operation that fails is the first one that does, and the host takes the failure as it is.
  have hrun : (Op.runAll (callWithin n) ⟨false, .host via none hostArgs⟩
      (p ++ .act d a :: rest)).outcome { v with held := handles hostArgs ++ v.held } =
      (.error (.failed e), w') :=
    Op.runAll_fails hp hd ha
  have hinto : (intoHost (Op.runAll (callWithin n) ⟨false, .host via none hostArgs⟩
      (p ++ .act d a :: rest))).outcome { v with held := handles hostArgs ++ v.held } =
      (.error e, w') := by
    unfold intoHost
    rw [outcome_mapError, hrun]
  unfold runHostBody
  refine outcome_bind_error ?_
  rw [outcome_holding]
  exact congrArg (fun r => (r.1, { r.2 with held := v.held })) hinto

/-! ### Links of a chain -/

/-- A function without parameters accepts no arguments. -/
theorem Accepts.nothing (via : BindingRef) (name : String) (w : World) :
    Accepts via name [] [] w [] { w with journal := .body via name [] [] :: w.journal } :=
  ⟨w, rfl, rfl⟩

namespace Chain

variable {e : HostFailure} {w₂ w₃ : World} {vs : List ScriptValue}

/-- A script function that raises a value starts a chain, with the traceback of that moment. -/
theorem of_raise {value : ScriptExpr} {v : ScriptValue}
    (hf : (w.function f).code = .script (p ++ .act d (.error (.raise value)) :: rest))
    (hd : d.catchAs = none)
    (hp : (Op.runAll (callWithin n) ⟨b, .script args⟩ p).outcome
      { w.entered b f with held := handles args ++ w.held } = (.ok none, w₁))
    (hv : (value.eval ⟨b, .script args⟩).outcome w₁ = (.ok v, w₂)) (hplain : w₂.Plain v) :
    Chain (.script ⟨v, some w₂.traceback⟩) (n + 1) b f args w := by
  -- What is raised has the traceback of the moment, and it is raised by the last operation that is
  -- run.
  have haction : (ErrorAction.run ⟨b, .script args⟩ (.raise value)).outcome w₁ =
      (.error (.raised ⟨v, some w₂.traceback⟩), w₂) := by
    unfold ErrorAction.run
    rw [outcome_bind_ok hv]
    rfl
  refine .raised (ScriptFails.of_action hf hd hp haction) rfl (hplain.later ?_)
  exact .of_eq rfl

/-- A host function that fails starts a chain. -/
theorem of_fail {via : BindingRef} {name message : String} {params : List HostType}
    {hostArgs : List HostValue} {v : World}
    (hf : (w.function f).code =
      .host via ⟨name, params, p ++ .act d (.error (.fail message)) :: rest⟩)
    (haccept : Accepts via name params args (w.entered false f) hostArgs v)
    (hd : d.catchAs = none)
    (hp : (Op.runAll (callWithin n) ⟨false, .host via none hostArgs⟩ p).outcome
      { v with held := handles hostArgs ++ v.held } = (.ok none, w₁)) :
    Chain (.host message) (n + 1) false f args w :=
  .failed (.of_action hf haccept hd hp (outcome_throw _ w₁)) nofun

/-- A script function that calls and returns the error is a link. -/
theorem of_call {callee : ScriptExpr} {items : ScriptItems} {g : FunctionRef}
    (hf : (w.function f).code = .script (p ++ .act d (.call (.call callee items)) :: rest))
    (hd : d.catchAs = none)
    (hp : (Op.runAll (callWithin n) ⟨b, .script args⟩ p).outcome
      { w.entered b f with held := handles args ++ w.held } = (.ok none, w₁))
    (hg : (callee.eval ⟨b, .script args⟩).outcome w₁ = (.ok (.function g), w₂))
    (hvs : (holding [g.handle] (items.eval ⟨b, .script args⟩)).outcome w₂ = (.ok vs, w₃))
    (h : Chain e n b g vs { w₃ with held := g.handle :: w₃.held }) :
    Chain e (n + 1) b f args w := by
  obtain ⟨x, v', hx, -⟩ := h.raises
  -- What the call raises is what the operation raises.
  have haction : ((CallAction.call callee items).run (callWithin n) ⟨b, .script args⟩).outcome w₁ =
      (.error (.raised x), { v' with held := w₃.held }) :=
    CallAction.call_raises hg hvs hx
  refine .called h hx ?_ (.of_action hf hd hp haction)
  exact .of_eq rfl

/-- A script function that resumes a coroutine and returns the error is a link. -/
theorem of_resume {name : String} {items : ScriptItems} {c : CoroutineRef}
    (hf : (w.function f).code = .script (p ++ .act d (.call (.resume name items)) :: rest))
    (hd : d.catchAs = none)
    (hp : (Op.runAll (callWithin n) ⟨b, .script args⟩ p).outcome
      { w.entered b f with held := handles args ++ w.held } = (.ok none, w₁))
    (hc : (coroutineVar name).outcome w₁ = (.ok c, w₂))
    (hvs : (items.eval ⟨b, .script args⟩).outcome w₂ = (.ok vs, w₃))
    (hs : (w₃.coroutine c).status = .suspended)
    (h : Chain e n true (w₃.coroutine c).function vs
      (({ w₃ with held := c.handle :: w₃.held } : World).resuming c)) :
    Chain e (n + 1) b f args w := by
  -- To hold the coroutine changes nothing about its status.
  have hsuspended :
      (({ w₃ with held := c.handle :: w₃.held } : World).coroutine c).status = .suspended := hs
  obtain ⟨x, v', hx, -⟩ : RaisesAs (Act.resume (callWithin n) c vs) _ e :=
    .resume hsuspended h.raises
  have haction : ((CallAction.resume name items).run (callWithin n) ⟨b, .script args⟩).outcome w₁ =
      (.error (.raised x), { v' with held := w₃.held }) :=
    CallAction.resume_raises hc hvs hx
  refine .resumed hsuspended h hx ?_ (.of_action hf hd hp haction)
  exact .of_eq rfl

/-- A host function that calls a function through its view of the caller and returns the failure is
a link. -/
theorem of_callFunction {via : BindingRef} {name : String} {callee : ScriptExpr}
    {params : List HostType} {items : HostItems} {hostArgs hs : List HostValue} {g : FunctionRef}
    {v u : World}
    (hf : (w.function f).code =
      .host via ⟨name, params, p ++ .act d (.call (.callFunction callee items)) :: rest⟩)
    (haccept : Accepts via name params args (w.entered false f) hostArgs v)
    (hd : d.catchAs = none)
    (hp : (Op.runAll (callWithin n) ⟨false, .host via none hostArgs⟩ p).outcome
      { v with held := handles hostArgs ++ v.held } = (.ok none, w₁))
    (hg : (callee.eval ⟨false, .host via none hostArgs⟩).outcome w₁ = (.ok (.function g), w₂))
    (hhs : (holding [g.handle] (items.eval ⟨false, .host via none hostArgs⟩)).outcome w₂ =
      (.ok hs, w₃))
    (hvs : (toScriptAll via hs : Act HostFailure _).outcome
      { w₃ with held := g.handle :: w₃.held } = (.ok vs, u))
    (h : Chain e n false g vs u) : Chain e (n + 1) false f args w := by
  obtain ⟨w', hcall⟩ := h.hostCall hvs
  -- The call fails with the same failure, since the host unwraps what the script raised.
  have haction : ((CallAction.callFunction callee items).run (callWithin n)
      ⟨false, .host via none hostArgs⟩).outcome w₁ =
      (.error (.failed e), { w' with held := w₃.held }) :=
    CallAction.callFunction_fails hg hhs hcall
  refine .returned hvs h hcall ?_ (.of_action hf haccept hd hp haction)
  exact .of_eq rfl

/-- A host function that calls a global through its view of the caller and returns the failure is a
link. -/
theorem of_callGlobal {via : BindingRef} {name global : String} {params : List HostType}
    {items : HostItems} {hostArgs hs : List HostValue} {g : FunctionRef} {v u : World}
    (hf : (w.function f).code =
      .host via ⟨name, params, p ++ .act d (.call (.callGlobal global items)) :: rest⟩)
    (haccept : Accepts via name params args (w.entered false f) hostArgs v)
    (hd : d.catchAs = none)
    (hp : (Op.runAll (callWithin n) ⟨false, .host via none hostArgs⟩ p).outcome
      { v with held := handles hostArgs ++ v.held } = (.ok none, w₁))
    (hhs : (items.eval ⟨false, .host via none hostArgs⟩).outcome w₁ = (.ok hs, w₂))
    (hg : (w₂.table w₂.globals).get (.string global) = .function g)
    (hvs : (toScriptAll via hs : Act HostFailure _).outcome
      { w₂ with held := g.handle :: w₂.held } = (.ok vs, u))
    (h : Chain e n false g vs u) : Chain e (n + 1) false f args w := by
  -- The global is looked up when the arguments have been evaluated, and then it is like any call of
  -- the host.
  obtain ⟨w', hcall⟩ := h.hostCall hvs
  have haction : ((CallAction.callGlobal global items).run (callWithin n)
      ⟨false, .host via none hostArgs⟩).outcome w₁ =
      (.error (.failed e), { w' with held := w₂.held }) :=
    CallAction.callGlobal_fails hhs hg hcall
  refine .returned hvs h hcall ?_ (.of_action hf haccept hd hp haction)
  exact .of_eq rfl

end Chain

end PassingLinks

/-! ### Calls from the host -/

/-- **Errors arrive as they were raised.** Whatever a chain of calls starts with and however long it
is, a call from the host fails with exactly what the innermost body failed with: the same value with
the same traceback, or the same host failure. This holds of a call through any binding and of the
two ways in which the bridge calls, with a callee or with the name of a global. -/
theorem error_chain {e : HostFailure} {n : Nat} {f : FunctionRef} {vs : List ScriptValue}
    {v : World} (h : Chain e n false f vs v) :
    (∀ via hs u, (toScriptAll via hs : Act HostFailure _).outcome u = (.ok vs, v) →
      ((hostCall (callWithin n) false via (.function f) hs).outcome u).1 = .error e) ∧
    (∀ s callee items hs w w₁ w₂, (ScriptExpr.eval s callee).outcome w = (.ok (.function f), w₁) →
      (holding [f.handle] (HostItems.eval s items)).outcome w₁ = (.ok hs, w₂) →
      (toScriptAll w₂.bridge hs : Act HostFailure _).outcome
        { w₂ with held := f.handle :: w₂.held } = (.ok vs, v) →
      (((CallAction.bridgeCall callee items).run (callWithin n) s).outcome w).1 =
        .error (.failed e)) ∧
    ∀ s name items hs w w₁, (HostItems.eval s items).outcome w = (.ok hs, w₁) →
      (w₁.table w₁.globals).get (.string name) = .function f →
      (toScriptAll w₁.bridge hs : Act HostFailure _).outcome
        { w₁ with held := f.handle :: w₁.held } = (.ok vs, v) →
      (((CallAction.bridgeCallGlobal name items).run (callWithin n) s).outcome w).1 =
        .error (.failed e) := by
  refine ⟨fun via hs u hvs => ?_, fun s callee items hs w w₁ w₂ hf hhs hvs => ?_,
    fun s name items hs w w₁ hhs hf hvs => ?_⟩
  -- All entry points make the same call of the host in the end.
  · obtain ⟨w', hcall⟩ := h.hostCall hvs
    rw [hcall]
  · obtain ⟨w', hcall⟩ := h.hostCall hvs
    rw [CallAction.bridgeCall_fails hf hhs hcall]
  · obtain ⟨w', hcall⟩ := h.hostCall hvs
    rw [CallAction.bridgeCallGlobal_fails hhs hf hcall]

/-- A script function that calls what it is given, a host function that calls a global, and the
script function found there, which raises. -/
def chainWorld : World :=
  let uncaught : Disposition := ⟨none, none, false, false⟩
  { World.start .default fun r => r.index with
    functions := ⟨#[
      ⟨"raiser", .script, .script ([] ++ .act uncaught (.error (.raise (.string "boom"))) :: [])⟩,
      ⟨"middle", .host, .host ⟨0⟩
        ⟨"middle", [], [] ++ .act uncaught (.call (.callGlobal "raiser" (.list []))) :: []⟩⟩,
      ⟨"outer", .script,
        .script ([] ++ .act uncaught (.call (.call (.arg 0) (.list []))) :: [])⟩]⟩
    tables := ⟨#[⟨[⟨.string "raiser", .string "raiser", .function ⟨0⟩⟩]⟩]⟩ }

/-- The calls at the moment when the value is raised. -/
def chainTraceback : String :=
  "stack traceback:\n\t[script]: in function 'raiser'\n\t[host]: in function 'middle'" ++
    "\n\t[script]: in function 'outer'"

section ChainWorld

variable {w : World} (hf : w.functions = chainWorld.functions)
include hf

/-- The code of a function is read off the functions of the world. -/
theorem code_of_functions (f : FunctionRef) :
    (w.function f).code = (chainWorld.function f).code := by
  unfold World.function
  rw [hf]

/-- The innermost function raises, with the traceback of all three. -/
theorem chain_raiser (hw : w.frames = [⟨1⟩, ⟨2⟩]) :
    Chain (.script ⟨.string "boom", some chainTraceback⟩) 1 false ⟨0⟩ [] w := by
  have htraceback : (w.entered false ⟨0⟩).traceback = chainTraceback := by
    simp only [World.traceback, World.entered, World.function, hf, hw]
    decide +kernel
  rw [← htraceback]
  refine Chain.of_raise (p := []) (code_of_functions hf ⟨0⟩) rfl rfl rfl ?_
  intro u h
  cases h

variable (hg : (w.table w.globals).get (.string "raiser") = .function ⟨0⟩)
include hg

/-- The host function calls it, and passes on what it raised. -/
theorem chain_middle (hw : w.frames = [⟨2⟩]) :
    Chain (.script ⟨.string "boom", some chainTraceback⟩) 2 false ⟨1⟩ [] w := by
  refine Chain.of_callGlobal (p := []) (code_of_functions hf ⟨1⟩) (.nothing _ _ _) rfl rfl rfl hg
    rfl (chain_raiser hf ?_)
  exact congrArg (List.cons ⟨1⟩) hw

/-- The outermost function calls the host function, which it was given. -/
theorem chain_outer (hw : w.frames = []) :
    Chain (.script ⟨.string "boom", some chainTraceback⟩) 3 false ⟨2⟩ [.function ⟨1⟩] w := by
  refine Chain.of_call (p := []) (code_of_functions hf ⟨2⟩) rfl rfl rfl rfl
    (chain_middle hf hg ?_)
  exact congrArg (List.cons ⟨2⟩) hw

end ChainWorld

/-- Through a host function and two script functions, the value arrives with its own traceback. -/
theorem error_chain_chainWorld :
    ((hostCall (callWithin 3) false chainWorld.bridge (.function ⟨2⟩)
      [.script (.function ⟨1⟩)]).outcome chainWorld).1 =
      .error (.script ⟨.string "boom", some chainTraceback⟩) := by
  have hg : (chainWorld.table chainWorld.globals).get (.string "raiser") = .function ⟨0⟩ := by
    decide +kernel
  exact (error_chain (chain_outer rfl hg rfl)).1 chainWorld.bridge [.script (.function ⟨1⟩)]
    chainWorld rfl

end ScriptHost
