import ScriptHost.Proofs.Act.Effects

/-!
# Acts taken apart at their calls

An action that calls is one act, and so is the code of a function. To say what holds while the callee
runs, the act is taken apart there: into what comes before the call (`CallAction.prepare`), the call
that is asked for (`Request`), and what is made of its outcome (`Request.back`). The code of a
function is taken apart at its body in the same way (`startCode`, `Start`).

Main statements: `CallAction.run_eq` and `invokeCode_eq`, by which the parts put together are the act.
They hold of callers and runners that let go of what they held (`Act.Restores`), as all acts of a
session do: an act that holds things all the time holds them in each part.
-/

set_option autoImplicit false

namespace ScriptHost

open Act

namespace Act

variable {ε ε' α β : Type}

/-- Acts are what they do. -/
theorem ext {m m' : Act ε α} (h : ∀ w, m.outcome w = m'.outcome w) : m = m' := funext h

/-- In the end only that is held which was held before. -/
def Restores (m : Act ε α) : Prop := ∀ w, (m.outcome w).2.held = w.held

/-- What is held at the end, by the outcome. -/
theorem Restores.held {m : Act ε α} (h : m.Restores) {r : Except ε α} {w w' : World}
    (hout : m.outcome w = (r, w')) : w'.held = w.held := by
  have hm := h w
  rw [hout] at hm
  exact hm

/-- Composed acts let go of what they held. -/
theorem Composed.restores [Names ε] {b : Bool} {K : Set Mention} {m : Act ε α}
    {Q : Set Mention → α → Prop} (h : Composed .all b K m Q) : m.Restores := fun w =>
  (h.effects w.within_all).1.fixed.held

/-- A bracket lets go of what it held, whatever the act inside does. -/
theorem restores_holding (hs : List Handle) (m : Act ε α) : (holding hs m).Restores := fun _ => rfl

theorem Restores.attempt {m : Act ε α} (h : m.Restores) :
    (Act.attempt m : Act ε' (Except ε α)).Restores := h

theorem Restores.mapError {m : Act ε α} (h : m.Restores) (f : World → ε → ε') :
    (Act.mapError f m).Restores := by
  intro w
  have hw := h w
  rw [outcome_mapError]
  rcases hm : m.outcome w with ⟨e | a, w₁⟩ <;> rw [hm] at hw <;> exact hw

/-! ### Parts of brackets -/

/-- What is held all the time is held in both parts. -/
theorem holding_bind {m : Act ε α} (h : m.Restores) (hs : List Handle) (f : α → Act ε β) :
    holding hs (m >>= f) = holding hs m >>= fun a => holding hs (f a) := by
  refine ext fun w => ?_
  have hheld := h { w with held := hs ++ w.held }
  rw [outcome_holding, outcome_bind, outcome_bind, outcome_holding]
  rcases hm : m.outcome { w with held := hs ++ w.held } with ⟨e | a, w₁⟩
  · rfl
  · rw [hm] at hheld
    -- The second part finds what the first one left, held again.
    have hagain : ({ w₁ with held := hs ++ w.held } : World) = w₁ :=
      congrArg (fun ks => ({ w₁ with held := ks } : World)) hheld.symm
    show _ = (holding hs (f a)).outcome { w₁ with held := w.held }
    rw [outcome_holding]
    show _ = (((f a).outcome { w₁ with held := hs ++ w.held }).1,
      ({ ((f a).outcome { w₁ with held := hs ++ w.held }).2 with held := w.held } : World))
    rw [hagain]

/-- Brackets in brackets hold what both hold. -/
theorem holding_holding (hs ks : List Handle) (m : Act ε α) :
    holding hs (holding ks m) = holding (ks ++ hs) m := by
  refine ext fun w => ?_
  simp only [outcome_holding, List.append_assoc]

/-- What is done once the outcome is there. -/
theorem mapError_eq_bind (f : World → ε → ε') (m : Act ε α) :
    mapError f m = attempt m >>= fun r => mapError f (ofExcept r) := by
  refine ext fun w => ?_
  rw [outcome_bind, outcome_attempt, outcome_mapError]
  rcases m.outcome w with ⟨e | a, w₁⟩ <;> rfl

/-- Errors are changed part by part. -/
theorem mapError_bind (f : World → ε → ε') (m : Act ε α) (g : α → Act ε β) :
    mapError f (m >>= g) = mapError f m >>= fun a => mapError f (g a) := by
  refine ext fun w => ?_
  rw [outcome_bind, outcome_mapError, outcome_mapError, outcome_bind]
  rcases m.outcome w with ⟨e | a, w₁⟩ <;> rfl

/-- The outcome is there before it is brought to script. -/
theorem intoScript_eq_bind {m : Act Failure α} :
    intoScript m = attempt m >>= fun r => intoScript (ofExcept r) := by
  refine ext fun w => ?_
  rw [outcome_bind, outcome_attempt]
  unfold intoScript
  rw [outcome_bind, outcome_attempt]
  rcases m.outcome w with ⟨e | a, w₁⟩ <;> rfl

/-- An act that is raised fails with the script value of its error. -/
theorem outcome_raising (m : Act HostFailure α) (w : World) :
    (raising m).outcome w = match m.outcome w with
      | (.ok a, w') => (.ok a, w')
      | (.error e, w') => (toScriptError e >>= fun s => (throw s : Act ScriptError α)).outcome w' := by
  unfold raising
  rw [outcome_bind, outcome_attempt]
  rcases m.outcome w with ⟨e | a, w₁⟩ <;> rfl

/-- Raising goes part by part. -/
theorem raising_bind (m : Act HostFailure α) (f : α → Act HostFailure β) :
    raising (m >>= f) = raising m >>= fun a => raising (f a) := by
  refine ext fun w => ?_
  rw [outcome_raising, outcome_bind, outcome_bind, outcome_raising]
  rcases m.outcome w with ⟨e | a, w₁⟩
  · dsimp only
    rw [outcome_bind, outcome_bind]
    rcases (toScriptError e).outcome w₁ with ⟨s | s, w₂⟩ <;> rfl
  · exact (outcome_raising (f a) w₁).symm

/-- An act that never fails is raised as it is. -/
theorem raising_holding_attempt (hs : List Handle) (m : Act ε α) :
    raising (holding hs (attempt m)) = holding hs (attempt m) := by
  refine ext fun w => ?_
  unfold raising
  rw [outcome_bind, outcome_attempt, outcome_holding, outcome_attempt, outcome_holding,
    outcome_attempt]
  rfl

/-- An event is no failure. -/
theorem raising_note (e : Event) : raising (note e) = note e := ext fun _ => rfl

end Act

/-! ### Operations that call -/

/-- How an operation calls. -/
inductive Calling where
  | apply (inCoroutine : Bool) (callee : ScriptValue) (args : List ScriptValue)
  | resume (c : CoroutineRef) (args : List ScriptValue)

/-- The call. -/
def Calling.run (call : Caller) : Calling → Act ScriptError (List ScriptValue)
  | .apply inCoroutine callee args => Act.apply call inCoroutine callee args
  | .resume c args => Act.resume call c args

/-- The arguments of the call. -/
def Calling.args : Calling → List ScriptValue
  | .apply _ _ args | .resume _ args => args

/-- A call that an operation asks for, with what it keeps alive meanwhile and what it makes of the
outcome. -/
structure Request where
  calling : Calling
  kept : List Handle
  back : Except ScriptError (List ScriptValue) → Act Failure Result

/-- The call, and what becomes of its outcome. -/
def Request.carryOut (q : Request) (call : Caller) : Act Failure Result := do
  let r ← holding q.kept (attempt (q.calling.run call))
  q.back r

/-- A call of the host on behalf of an operation: the outcome comes back as the host sees it. -/
def hostRequest (inCoroutine : Bool) (callee : ScriptValue) (args : List ScriptValue) : Request where
  calling := .apply inCoroutine callee args
  kept := handles callee
  back r := holding (handles callee) do
    let rs ← failing (catching (Act.ofExcept r))
    replyScripts rs

/-- The same for a callee that is let go of before the results are looked at. -/
def globalRequest (inCoroutine : Bool) (callee : ScriptValue) (args : List ScriptValue) :
    Request where
  calling := .apply inCoroutine callee args
  kept := handles callee
  back r := do
    let rs ← holding (handles callee) (failing (catching (Act.ofExcept r)))
    replyScripts rs

/-- The outcome of a call on the script side, while something is kept alive. -/
def scriptBack (hs : List Handle) (r : Except ScriptError (List ScriptValue)) :
    Act Failure Result :=
  holding hs do
    let rs ← throwing (Act.ofExcept r)
    replyScripts rs

/-- **What an action does before it calls**: the call that it asks for or, of an action that calls
nothing, all it does. -/
def CallAction.prepare (s : Scope) : CallAction → Act Failure (Request ⊕ Result)
  | .call callee args => do
    let f ← callee.eval s
    let vs ← holding (handles f) (args.eval s)
    pure (.inl ⟨.apply s.inCoroutine f vs, handles f, scriptBack (handles f)⟩)
  | .invoke target key args => do
    let t ← target.eval s
    let k ← holding (handles t) (key.eval s)
    let vs ← holding (handles t ++ handles k) (args.eval s)
    let f ← holding (handles t)
      (throwing (holding (handles k ++ handles vs) (Act.index s.inCoroutine t k)))
    pure (.inl ⟨.apply s.inCoroutine f vs, handles f ++ handles t, scriptBack (handles t)⟩)
  | .resume name args => do
    let c ← coroutineVar name
    let vs ← args.eval s
    pure (.inl ⟨.resume c vs, [c.handle], scriptBack [c.handle]⟩)
  | .bridgeCall callee args => do
    let f ← callee.eval s
    let vs ← holding (handles f) (args.eval s)
    let via ← look fun w => w.bridge
    let vs ← holding (handles f) (failing (toScriptAll via vs))
    pure (.inl (hostRequest false f vs))
  | .bridgeCallGlobal name args => do
    let vs ← args.eval s
    let via ← look fun w => w.bridge
    let f ← look fun w => (w.table w.globals).get (.string name)
    let vs ← holding (handles f) (failing (toScriptAll via vs))
    pure (.inl (globalRequest false f vs))
  | .callFunction callee args => do
    let f ← callee.eval s
    let vs ← holding (handles f) (args.eval s)
    let via ← look fun w => s.binding w
    let vs ← holding (handles f) (failing (toScriptAll via vs))
    pure (.inl (hostRequest s.inCoroutine f vs))
  | .callGlobal name args => do
    let vs ← args.eval s
    let via ← look fun w => s.binding w
    let f ← look fun w => (w.table w.globals).get (.string name)
    let vs ← holding (handles f) (failing (toScriptAll via vs))
    pure (.inl (globalRequest s.inCoroutine f vs))
  -- What these are given to call with makes no difference.
  | a => do
    let r ← a.run (callWithin 0) s
    pure (.inr r)

/-- In the end every call has let go of what it held. -/
def Caller.Restores (call : Caller) : Prop := ∀ b f args, (call b f args).Restores

/-- The callers of a session let go of what they held. -/
theorem callWithin_restores (n : Nat) : (callWithin n).Restores := fun b f args =>
  (callWithin_composed .all n b b f args (.self b) (.univ args)).restores

namespace Calling

variable {call : Caller}

/-- So do calls, whether of functions or by resuming. -/
theorem restores (hcall : call.Restores) (c : Calling) : (c.run call).Restores := by
  intro w
  cases c with
  | apply b callee args =>
    cases callee with
    | function f => exact hcall b f args w
    | _ => rfl
  | resume c args =>
    show ((Act.resume call c args).outcome w).2.held = w.held
    rw [outcome_resume]
    cases (w.coroutine c).status with
    | suspended => exact hcall true (w.coroutine c).function args (w.resuming c)
    | _ => rfl

end Calling

namespace CallAction

variable {call : Caller} {s : Scope}

/-- A call whose outcome is thrown, in parts. -/
theorem throwing_carryOut (c : Calling) (hs ks : List Handle) :
    holding hs (throwing (holding ks (c.run call)) >>= fun rs => replyScripts rs) =
      Request.carryOut ⟨c, ks ++ hs, scriptBack hs⟩ call := by
  have hparts : throwing (holding ks (c.run call)) =
      (holding ks (attempt (c.run call)) >>= fun r => throwing (Act.ofExcept r) :
        Act Failure (List ScriptValue)) := mapError_eq_bind _ _
  rw [hparts, bind_assoc, holding_bind (restores_holding ks _), holding_holding]
  rfl

/-- The same where nothing else is held during the call. -/
theorem throwing_carryOut_self (hcall : call.Restores) (c : Calling) (hs : List Handle) :
    holding hs (throwing (c.run call) >>= fun rs => replyScripts rs) =
      Request.carryOut ⟨c, hs, scriptBack hs⟩ call := by
  have hparts : throwing (c.run call) =
      (attempt (c.run call) >>= fun r => throwing (Act.ofExcept r) :
        Act Failure (List ScriptValue)) := mapError_eq_bind _ _
  rw [hparts, bind_assoc, holding_bind (c.restores hcall).attempt]
  rfl

/-- A script error is caught once the outcome is there. -/
theorem failing_catching {α : Type} (m : Act ScriptError α) :
    failing (catching m) = attempt m >>= fun r => failing (catching (Act.ofExcept r)) := by
  refine ext fun w => ?_
  unfold failing catching
  rw [outcome_bind, outcome_attempt, outcome_mapError, outcome_mapError]
  rcases m.outcome w with ⟨e | a, w₁⟩ <;> rfl

/-- A call of the host, in parts. -/
theorem failing_hostCall (b : Bool) (via : BindingRef) (f : ScriptValue) (vs : List HostValue) :
    failing (hostCall call b via f vs) = failing (toScriptAll via vs) >>= fun vs =>
      attempt ((Calling.apply b f vs).run call) >>= fun r => failing (catching (Act.ofExcept r)) := by
  refine (mapError_bind _ _ _).trans ?_
  exact congrArg _ (funext fun vs => failing_catching _)

/-- Arguments go to script without anything left held. -/
theorem toScriptAll_restores (via : BindingRef) (vs : List HostValue) :
    (failing (toScriptAll via vs)).Restores :=
  (failing_composed (toScriptAll_composed (l := .all) (b := true) via (.univ vs))).restores

/-- Arguments go to script before the call, and the results are looked at while the callee is
kept. -/
theorem hostRequest_carryOut (hcall : call.Restores) (b : Bool) (via : BindingRef) (f : ScriptValue)
    (vs : List HostValue) :
    holding (handles f) (failing (hostCall call b via f vs) >>= fun rs => replyScripts rs) =
      holding (handles f) (failing (toScriptAll via vs)) >>= fun vs =>
        (hostRequest b f vs).carryOut call := by
  rw [failing_hostCall, bind_assoc, holding_bind (toScriptAll_restores via vs)]
  refine bind_congr fun vs => ?_
  rw [bind_assoc, holding_bind ((Calling.apply b f vs).restores hcall).attempt]
  rfl

/-- The same where the callee is let go of before. -/
theorem globalRequest_carryOut (hcall : call.Restores) (b : Bool) (via : BindingRef)
    (f : ScriptValue) (vs : List HostValue) :
    (holding (handles f) (failing (hostCall call b via f vs)) >>= fun rs => replyScripts rs) =
      holding (handles f) (failing (toScriptAll via vs)) >>= fun vs =>
        (globalRequest b f vs).carryOut call := by
  rw [failing_hostCall, holding_bind (toScriptAll_restores via vs), bind_assoc]
  refine bind_congr fun vs => ?_
  rw [holding_bind ((Calling.apply b f vs).restores hcall).attempt, bind_assoc]
  rfl

/-- No object is among what an action keeps alive while it calls. -/
def KeepsNoObject (x : Request ⊕ Result) : Prop := ∀ q, x = .inl q → ∀ h ∈ q.kept, h.kind ≠ .object

/-- A script value holds functions, tables and userdata, and no object by itself. -/
theorem kind_of_mem_handles {v : ScriptValue} {h : Handle} (hh : h ∈ handles v) :
    h.kind ≠ .object := by
  cases v with
  | function f | table t | userdata u =>
    obtain rfl := List.mem_singleton.mp hh
    nofun
  | _ => cases hh

/-- A call that is asked for hands over what is known, and keeps no object. -/
structure Prepared (K : Set Mention) (x : Request ⊕ Result) : Prop where
  kept : KeepsNoObject x
  args : ∀ q, x = .inl q → Known K q.calling.args

variable {b : Bool} {K : Set Mention}

theorem prepared_inl {q : Request} (hkept : ∀ h ∈ q.kept, h.kind ≠ .object)
    (hargs : Known K q.calling.args) : Prepared K (.inl q) := by
  refine ⟨fun q' hq => ?_, fun q' hq => ?_⟩
  · obtain rfl := Sum.inl.inj hq
    exact hkept
  · obtain rfl := Sum.inl.inj hq
    exact hargs

theorem prepared_inr (r : Result) : Prepared K (.inr r) := ⟨nofun, nofun⟩

/-- A call of the host keeps its callee alive. -/
theorem prepareHost_composed (via : BindingRef) (f : ScriptValue) {vs : List HostValue}
    (hvs : Known K vs) {request : List ScriptValue → Request}
    (hkept : ∀ vs, (request vs).kept = handles f)
    (hargs : ∀ vs, (request vs).calling.args = vs) :
    Composed .all b K (holding (handles f) (failing (toScriptAll via vs)) >>= fun vs =>
      pure (.inl (request vs)) : Act Failure (Request ⊕ Result)) Prepared := by
  refine (Composed.holding _ (failing_composed (toScriptAll_composed via hvs))).bind
    fun _ vs hvs => .pure _ (prepared_inl (fun h hh => ?_) ((hargs vs).symm ▸ hvs))
  rw [hkept] at hh
  exact kind_of_mem_handles hh

/-- Before it calls, an action does what composed acts do. -/
theorem prepare_composed (hk : Known K s) (a : CallAction) :
    Composed .all s.inCoroutine K (a.prepare s) Prepared := by
  have hother (a : CallAction) : Composed .all s.inCoroutine K
      (a.run (callWithin 0) s >>= fun r => pure (.inr r)) Prepared :=
    (a.run_composed (callWithin_composed .all 0) hk (License.all_admits false _) nofun).andThen
      fun _ r => .pure _ (prepared_inr r)
  -- Each operand that is evaluated is held while the next one is.
  cases a with
  | call callee args =>
    refine (callee.eval_composed hk).andThen fun hK f => ?_
    refine (Composed.holding _ (args.eval_composed (hk.mono hK))).bind fun _ vs hvs => ?_
    exact .pure _ (prepared_inl (fun _ => kind_of_mem_handles) hvs)
  | invoke target key args =>
    refine pair_composed hk fun hK t k _ _ => ?_
    refine (Composed.holding _ (args.eval_composed (hk.mono hK))).bind fun _ vs hvs => ?_
    have hindex {K} : Composed .all s.inCoroutine K (Act.index s.inCoroutine t k) Known :=
      index_composed (.self s.inCoroutine) t k
    refine (Composed.holding _ (throwing_composed (.holding _ hindex))).andThen fun hK f => ?_
    -- Neither the target nor the key is an object, being script values.
    refine .pure _ (prepared_inl (fun h hh => ?_) (hvs.mono hK))
    exact (List.mem_append.mp hh).elim kind_of_mem_handles kind_of_mem_handles
  | resume name args =>
    refine (plainVar_composed _ _ _).andThen fun hK c => ?_
    refine (args.eval_composed (hk.mono hK)).bind fun _ vs hvs => ?_
    refine .pure _ (prepared_inl (fun h hh => ?_) hvs)
    obtain rfl := List.mem_singleton.mp hh
    nofun
  | bridgeCall callee args =>
    refine (callee.eval_composed hk).andThen fun hK f => ?_
    refine (Composed.holding _ (args.eval_composed (hk.mono hK))).bind fun _ vs hvs => ?_
    refine bridge_composed.andThen fun hK via => ?_
    exact prepareHost_composed via f (hvs.mono hK) (fun _ => rfl) fun _ => rfl
  | bridgeCallGlobal name args =>
    refine (args.eval_composed hk).bind fun _ vs hvs => ?_
    refine bridge_composed.andThen fun hK via => ?_
    refine (global_composed name).andThen fun hK' f => ?_
    exact prepareHost_composed via f (hvs.mono (hK.trans hK')) (fun _ => rfl) fun _ => rfl
  | callFunction callee args =>
    refine (callee.eval_composed hk).andThen fun hK f => ?_
    refine (Composed.holding _ (args.eval_composed (hk.mono hK))).bind fun _ vs hvs => ?_
    refine (scopeBinding_composed s).andThen fun hK via => ?_
    exact prepareHost_composed via f (hvs.mono hK) (fun _ => rfl) fun _ => rfl
  | callGlobal name args =>
    refine (args.eval_composed hk).bind fun _ vs hvs => ?_
    refine (scopeBinding_composed s).andThen fun hK via => ?_
    refine (global_composed name).andThen fun hK' f => ?_
    exact prepareHost_composed via f (hvs.mono (hK.trans hK')) (fun _ => rfl) fun _ => rfl
  | index target key => exact hother _
  | setIndex target key value => exact hother _
  | coroutine function => exact hother _
  | coroutineStatus name => exact hother _
  | guard name inCoroutine => exact hother _
  | createFunction name => exact hother _

/-- What becomes of a request, or of what was done instead. -/
def settle (call : Caller) : Request ⊕ Result → Act Failure Result
  | .inl q => q.carryOut call
  | .inr r => pure r

/-- **An action is its parts put together.** -/
theorem run_eq (hcall : call.Restores) (a : CallAction) :
    a.run call s = a.prepare s >>= settle call := by
  cases a with
  | call callee args =>
    simp only [CallAction.run, prepare, bind_assoc, pure_bind]
    refine bind_congr fun f => bind_congr fun vs => ?_
    exact throwing_carryOut_self hcall (.apply s.inCoroutine f vs) (handles f)
  | invoke target key args =>
    simp only [CallAction.run, prepare, bind_assoc, pure_bind]
    refine bind_congr fun t => bind_congr fun k => bind_congr fun vs => ?_
    -- The function is found while the target is held, and the key and the arguments with it.
    have hparts : throwing (Act.invoke call s.inCoroutine t k vs) = _ := mapError_bind _ _ _
    rw [hparts, bind_assoc, holding_bind ((restores_holding _ _).mapError _)]
    exact bind_congr fun f => throwing_carryOut (.apply s.inCoroutine f vs) _ _
  | resume name args =>
    simp only [CallAction.run, prepare, bind_assoc, pure_bind]
    refine bind_congr fun c => bind_congr fun vs => ?_
    exact throwing_carryOut_self hcall (.resume c vs) [c.handle]
  | bridgeCall callee args =>
    simp only [CallAction.run, prepare, bind_assoc, pure_bind]
    refine bind_congr fun f => bind_congr fun vs => bind_congr fun via => ?_
    exact hostRequest_carryOut hcall false via f vs
  | bridgeCallGlobal name args =>
    simp only [CallAction.run, prepare, bind_assoc, pure_bind]
    refine bind_congr fun vs => bind_congr fun via => bind_congr fun f => ?_
    exact globalRequest_carryOut hcall false via f vs
  | callFunction callee args =>
    simp only [CallAction.run, prepare, bind_assoc, pure_bind]
    refine bind_congr fun f => bind_congr fun vs => bind_congr fun via => ?_
    exact hostRequest_carryOut hcall s.inCoroutine via f vs
  | callGlobal name args =>
    simp only [CallAction.run, prepare, bind_assoc, pure_bind]
    refine bind_congr fun vs => bind_congr fun via => bind_congr fun f => ?_
    exact globalRequest_carryOut hcall s.inCoroutine via f vs
  | _ =>
    simp only [prepare, bind_assoc, pure_bind]
    exact (bind_pure _).symm

end CallAction

/-! ### Code that starts a body -/

/-- A body that is started, with what it is given to work on and what is made of its outcome. -/
structure Start where
  scope : Scope
  body : Program
  given : List Handle
  finish : Except Failure (Option Given) → Act ScriptError (List ScriptValue)

/-- The body runs, and what becomes of its outcome. -/
def Start.carryOut (t : Start) (run : Runner) : Act ScriptError (List ScriptValue) := do
  let r ← holding t.given (attempt (run t.scope t.body))
  t.finish r

namespace Act

/-- Host code up to its body: the guard, and the arguments. -/
def startHostCode (inCoroutine : Bool) (via : BindingRef) (name : String) (params : List HostType)
    (args : List ScriptValue) : Act ScriptError (List HostValue) := do
  raising (guard inCoroutine name)
  let hostArgs ← raising (holding (handles args) (acceptArgs via name params args))
  note (.body via name params hostArgs)
  pure hostArgs

/-- A method up to its body: its arguments, without the proxy it was called on, and its receiver. -/
def startMethod (inCoroutine : Bool) (via : BindingRef) (name : String) (t : Target) (m : Method)
    (args : List ScriptValue) : Act ScriptError (List HostValue × Option ObjectRef) := do
  let rest ← look fun w => withoutSelf w t m.params.length args
  let hostArgs ← startHostCode inCoroutine via name m.params rest
  let receiver ← raising (methodReceiver t m)
  pure (hostArgs, receiver)

/-- What comes back from a host body goes to script. -/
def finishHostBody (via : BindingRef) (hs : List Handle) (r : Except Failure (Option Given)) :
    Act ScriptError (List ScriptValue) := do
  let g ← raising (holding hs (intoHost (Act.ofExcept r)))
  toScriptAll via (givenHost g)

/-- **What the code of a function does before its body.** -/
def startCode (inCoroutine : Bool) (f : FunctionRef) (args : List ScriptValue) :
    Act ScriptError Start := do
  let fn ← look fun w => w.function f
  match fn.code with
  | .script body =>
    pure ⟨⟨inCoroutine, .script args⟩, body, handles args, fun r => do
      let g ← holding (handles args) (intoScript (Act.ofExcept r))
      pure (givenScript g)⟩
  | .host via h => do
    let hostArgs ← startHostCode inCoroutine via h.name h.params args
    pure ⟨⟨inCoroutine, .host via none hostArgs⟩, h.body, handles hostArgs,
      finishHostBody via (handles hostArgs)⟩
  | .method via named m => do
    let t ← raising (reachTarget named)
    let p ← holding (handles t) (startMethod inCoroutine via fn.name t m args)
    pure ⟨⟨inCoroutine, .host via p.2 p.1⟩, m.body, handles p.1 ++ handles t,
      fun r => holding (handles t) (finishHostBody via (handles p.1) r)⟩

/-- In the end every body has let go of what it held. -/
def Runner.Restores (run : Runner) : Prop := ∀ s p, (run s p).Restores

section

variable {run : Runner} {b : Bool} {via : BindingRef} {name : String} {params : List HostType}

/-- What comes after the guard is outside every coroutine. -/
theorem startHostCode_composed {K : Set Mention} {args : List ScriptValue} (hargs : Known K args) :
    Composed .all b K (startHostCode b via name params args) Known := by
  refine (raising_composed (.guard b name (.inl rfl))).bind fun hK _ hb => ?_
  have haccepted := acceptArgs_composed (l := .all) (.inl hb) via name params (hargs.mono hK)
  refine (raising_composed (.holding _ haccepted)).bind fun _ hostArgs hgiven => ?_
  refine (Composed.started (.body via name params hostArgs) rfl hgiven.1 (.inl hb)).andThen ?_
  exact fun hK _ => .pure _ (hgiven.2.mono hK)

/-- A method gets known arguments and a known receiver. -/
theorem startMethod_composed {K : Set Mention} {t : Target} (ht : Known K t) (m : Method)
    {args : List ScriptValue} (hargs : Known K args) :
    Composed .all b K (startMethod b via name t m args) fun K' p =>
      Known K' p.1 ∧ Known K' p.2 := by
  refine Composed.bind (P := Known) (.look _ (.inl rfl) ?_) fun hK rest hrest => ?_
  · exact fun hK w _ _ => Known.withoutSelf w t _ (hargs.mono hK)
  refine (startHostCode_composed hrest).bind fun hK' hostArgs hgiven => ?_
  have hreceiver := methodReceiver_composed (l := .all) (b := b) (ht.mono (hK.trans hK')) m
  exact (raising_composed hreceiver).bind fun hK r hr => .pure _ ⟨hgiven.mono hK, hr⟩

/-- A body is started by composed acts, and knows what it works on. -/
theorem startCode_composed {K : Set Mention} (f : FunctionRef) {args : List ScriptValue}
    (hargs : Known K args) :
    Composed .all b K (startCode b f args) fun K' t => Known K' t.scope := by
  refine Composed.bind (P := fun K' fn => Known K' fn.code) (.look _ (.inl rfl) ?_)
    fun hK fn hcode => ?_
  · exact fun _ w _ hk => hk.function f
  replace hargs := hargs.mono hK
  split
  -- A script body gets its arguments as they are, a host body what they convert to.
  · exact .pure _ (Known.scriptScope hargs)
  · exact (startHostCode_composed hargs).bind fun _ _ hgiven => .pure _ (.hostScope .none hgiven)
  · next via named m heq =>
    rw [heq] at hcode
    -- A method is reached through the proxy that it was found on, which may have gone since.
    refine (raising_composed (reachTarget_composed hcode)).bind fun hK t ht => ?_
    exact (Composed.holding _ (startMethod_composed ht m (hargs.mono hK))).bind
      fun _ _ hgiven => .pure _ (.hostScope hgiven.2 hgiven.1)

/-- A host body in parts. -/
theorem raising_runHostBody (hrun : Runner.Restores run) (receiver : Option ObjectRef) (p : Program)
    (args : List HostValue) :
    raising (runHostBody run b via receiver p args) =
      holding (handles args) (attempt (run ⟨b, .host via receiver args⟩ p)) >>= fun r =>
        raising (holding (handles args) (intoHost (Act.ofExcept r))) >>= fun g =>
          pure (givenHost g) := by
  unfold runHostBody
  rw [raising_bind]
  have hparts : intoHost (run ⟨b, .host via receiver args⟩ p) = _ := mapError_eq_bind _ _
  rw [hparts, holding_bind (hrun _ _).attempt, raising_bind, raising_holding_attempt, bind_assoc]
  rfl

/-- Host code in parts, where something has to be found out before its body can run. -/
theorem runHostCode_eq (hrun : Runner.Restores run) (args : List ScriptValue)
    (needs : Act HostFailure (Option ObjectRef)) (p : Program) :
    (runHostCode b via name params args fun hostArgs =>
      needs >>= fun receiver => runHostBody run b via receiver p hostArgs) =
    startHostCode b via name params args >>= fun hostArgs =>
      raising needs >>= fun receiver =>
        holding (handles hostArgs) (attempt (run ⟨b, .host via receiver hostArgs⟩ p)) >>=
          finishHostBody via (handles hostArgs) := by
  simp only [runHostCode, startHostCode, bind_assoc, pure_bind]
  -- The guard comes first, and then the arguments.
  refine bind_congr fun _ => bind_congr fun hostArgs => ?_
  rw [raising_bind, raising_note, bind_assoc]
  refine bind_congr fun _ => ?_
  rw [raising_bind, bind_assoc]
  -- The receiver is found after the event and before the body.
  refine bind_congr fun receiver => ?_
  rw [raising_runHostBody hrun]
  simp only [bind_assoc, pure_bind]
  rfl

/-- **The code of a function is its parts put together.** -/
theorem invokeCode_eq (hrun : Runner.Restores run) (f : FunctionRef) (args : List ScriptValue) :
    invokeCode run b f args = startCode b f args >>= fun t => t.carryOut run := by
  unfold invokeCode startCode
  rw [bind_assoc]
  refine bind_congr fun fn => ?_
  cases fn.code with
  | script body =>
    simp only [pure_bind, runScriptBody]
    -- A script body holds its arguments all the time.
    rw [intoScript_eq_bind, holding_bind (hrun _ _).attempt, bind_assoc]
    rfl
  | host via h =>
    have hparts : runHostCode b via h.name h.params args (runHostBody run b via none h.body) =
        startHostCode b via h.name h.params args >>= fun hostArgs =>
          holding (handles hostArgs) (attempt (run ⟨b, .host via none hostArgs⟩ h.body)) >>=
            finishHostBody via (handles hostArgs) :=
      -- A host function needs no receiver.
      runHostCode_eq hrun args (pure none) h.body
    simp only [bind_assoc, pure_bind, hparts]
    rfl
  | method via named m =>
    simp only [bind_assoc, pure_bind]
    refine bind_congr fun t => ?_
    have hparts : (look (fun w => withoutSelf w t m.params.length args) >>= fun rest =>
        runHostCode b via fn.name m.params rest fun hostArgs =>
          methodReceiver t m >>= fun receiver => runHostBody run b via receiver m.body hostArgs) =
        startMethod b via fn.name t m args >>= fun p =>
          holding (handles p.1) (attempt (run ⟨b, .host via p.2 p.1⟩ m.body)) >>=
            finishHostBody via (handles p.1) := by
      simp only [startMethod, bind_assoc, pure_bind]
      exact bind_congr fun rest => runHostCode_eq hrun rest _ _
    have hstart : (startMethod b via fn.name t m args).Restores :=
      (startMethod_composed (.univ t) m (.univ args)).restores
    -- The target is held throughout.
    rw [hparts, holding_bind hstart]
    refine bind_congr fun p => ?_
    rw [holding_bind (restores_holding _ _), holding_holding]
    rfl

end

end Act

end ScriptHost
