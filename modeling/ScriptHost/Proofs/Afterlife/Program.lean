import ScriptHost.Proofs.Afterlife.Action
import ScriptHost.Proofs.Instants.Parts

/-!
# Programs revive nothing

Actions that call and the code of functions are followed through their parts: what comes before the
call or the body (`CallAction.prepare_sparing`, `startCode_sparing`), and what is made of its
outcome. The second part may come long after the first. It needs nothing but what was held all the
time in between, so it revives nothing that died in the meantime either: that is `Request.Supported`
and `Start.Supported`, which hold of every world from which to count.

Main statements: `Op.run_sparing`, by recursion on the operation, and `callWithin_sparing`, by
induction on how deep calls may nest.
-/

set_option autoImplicit false

namespace ScriptHost

open Act
open World (AllSafe)

variable {w₀ : World} {s : Scope}

/-! ### Operations that call -/

/-- What is called: a value, or the function of a coroutine. -/
def Calling.callee : Calling → List Handle
  | .apply _ callee _ => handles callee
  | .resume c _ => [c.handle]

/-- **What is kept meanwhile is enough** for the call and for what is made of its outcome. -/
structure Request.Supported (q : Request) : Prop where
  callee : q.calling.callee ⊆ q.kept
  back : ∀ {w₀ : World}, (∀ h ∈ q.kept, w₀.Safe h) → ∀ r, Yields w₀ w₀.AllSafe r →
    Sparing w₀ (q.back r) (Result.Storable w₀)

/-- A request for a call of what is in hand. -/
structure Request.Fit (w₀ : World) (q : Request) : Prop where
  args : w₀.AllSafe q.calling.args
  kept : ∀ h ∈ q.kept, w₀.Safe h
  supported : q.Supported

/-- What an action asks for, or did instead. -/
def CallAction.Fit (w₀ : World) : Request ⊕ Result → Prop
  | .inl q => q.Fit w₀
  | .inr r => r.Storable w₀

section Requests

/-- A call on the script side. -/
theorem scriptRequest_fit {c : Calling} (hargs : w₀.AllSafe c.args) {kept hs : List Handle}
    (hkept : ∀ h ∈ kept, w₀.Safe h) (hcallee : c.callee ⊆ kept) (hsub : hs ⊆ kept) :
    Request.Fit w₀ ⟨c, kept, scriptBack hs⟩ where
  args := hargs
  kept := hkept
  supported :=
    { callee := hcallee
      back := fun hsafe _ hr => .holding (fun h hh => hsafe h (hsub hh))
        ((Sparing.ofExcept hr).throwing.bind fun _ hvs => .replyScripts hvs) }

variable (b : Bool) {callee : ScriptValue} {args : List ScriptValue}
  (hcallee : w₀.AllSafe callee) (hargs : w₀.AllSafe args)
include hcallee hargs

/-- A call of the host. -/
theorem hostRequest_fit : (hostRequest b callee args).Fit w₀ where
  args := hargs
  kept := hcallee
  supported :=
    { callee := List.Subset.refl _
      back := fun hsafe _ hr => .holding hsafe
        ((Sparing.ofExcept hr).catching.failing.bind fun _ hvs => .replyScripts hvs) }

/-- A call of a global function. -/
theorem globalRequest_fit : (globalRequest b callee args).Fit w₀ where
  args := hargs
  kept := hcallee
  supported :=
    { callee := List.Subset.refl _
      back := fun hsafe _ hr =>
        (Sparing.holding hsafe (Sparing.ofExcept hr).catching.failing).bind fun _ hvs =>
          .replyScripts hvs }

end Requests

/-- **Before it calls** an action revives nothing, and what it asks for is in hand. -/
theorem CallAction.prepare_sparing (hs : w₀.AllSafe s) (a : CallAction) :
    Sparing w₀ (a.prepare s) (CallAction.Fit w₀) := by
  -- The arguments of a call of the host go to script before the call.
  have hhost (via : BindingRef) {f : ScriptValue} (hf : w₀.AllSafe f) {vs : List HostValue}
      (hvs : w₀.AllSafe vs) {request : List ScriptValue → Request}
      (hrequest : ∀ xs, w₀.AllSafe xs → (request xs).Fit w₀) :
      Sparing w₀ (holding (handles f) (failing (toScriptAll via vs)) >>= fun xs =>
        pure (.inl (request xs)) : Act Failure (Request ⊕ Result)) (CallAction.Fit w₀) :=
    (Sparing.holding hf (Sparing.toScriptAll via hvs).failing).bind fun xs hxs =>
      .pure (hrequest xs hxs)
  cases a with
  | call callee args =>
    refine (callee.eval_sparing hs).bind fun f hf => ?_
    refine (Sparing.holding hf (args.eval_sparing hs)).bind fun vs hvs => .pure ?_
    exact scriptRequest_fit (c := .apply _ f vs) hvs hf (List.Subset.refl _) (List.Subset.refl _)
  | invoke target key args =>
    refine (target.eval_sparing hs).bind fun t ht => ?_
    refine (Sparing.holding ht (key.eval_sparing hs)).bind fun k hk => ?_
    have hheld := List.forall_mem_append.mpr ⟨ht, hk⟩
    refine (Sparing.holding hheld (args.eval_sparing hs)).bind fun vs hvs => ?_
    have hindex := Sparing.holding (List.forall_mem_append.mpr ⟨hk, hvs⟩)
      (Sparing.index s.inCoroutine ht k)
    refine (Sparing.holding ht hindex.throwing).bind fun f hf => .pure ?_
    exact scriptRequest_fit (c := .apply _ f vs) hvs (List.forall_mem_append.mpr ⟨hf, ht⟩)
      (List.subset_append_left _ _) (List.subset_append_right _ _)
  | resume name args =>
    refine (Sparing.coroutineVar name).bind fun c hc => ?_
    refine (args.eval_sparing hs).bind fun vs hvs => .pure ?_
    exact scriptRequest_fit (c := .resume c vs) hvs (AllSafe.singleton hc) (List.Subset.refl _)
      (List.Subset.refl _)
  | bridgeCall callee args =>
    refine (callee.eval_sparing hs).bind fun f hf => ?_
    refine (Sparing.holding hf (args.eval_sparing hs)).bind fun vs hvs => ?_
    exact Sparing.seen.andThen fun via => hhost via hf hvs fun _ => hostRequest_fit _ hf
  | bridgeCallGlobal name args =>
    refine (args.eval_sparing hs).bind fun vs hvs => Sparing.seen.andThen fun via => ?_
    refine Sparing.bind (P := w₀.AllSafe) (.look fun _ hw => hw.global _) fun f hf => ?_
    exact hhost via hf hvs fun _ => globalRequest_fit _ hf
  | callFunction callee args =>
    refine (callee.eval_sparing hs).bind fun f hf => ?_
    refine (Sparing.holding hf (args.eval_sparing hs)).bind fun vs hvs => ?_
    exact Sparing.seen.andThen fun via => hhost via hf hvs fun _ => hostRequest_fit _ hf
  | callGlobal name args =>
    refine (args.eval_sparing hs).bind fun vs hvs => Sparing.seen.andThen fun via => ?_
    refine Sparing.bind (P := w₀.AllSafe) (.look fun _ hw => hw.global _) fun f hf => ?_
    exact hhost via hf hvs fun _ => globalRequest_fit _ hf
  -- These call nothing: they are done.
  | index target key =>
    refine Sparing.bind (P := Result.Storable w₀) (.pair hs fun t k ht hk => ?_)
      fun _ hr => .pure hr
    refine .holding (List.forall_mem_append.mpr ⟨ht, hk⟩) ?_
    exact (Sparing.index s.inCoroutine ht k).throwing.bind fun _ hv => .replyScript hv
  | setIndex target key value =>
    refine Sparing.bind (P := Result.Storable w₀) (.pair hs fun t k ht hk => ?_)
      fun _ hr => .pure hr
    have hheld := List.forall_mem_append.mpr ⟨ht, hk⟩
    refine (Sparing.holding hheld (value.eval_sparing hs)).bind fun v hv => ?_
    have hset := (Sparing.setIndex s.inCoroutine ht hk hv).throwing
    exact (Sparing.holding (List.forall_mem_append.mpr ⟨hheld, hv⟩) hset).andThen fun _ => .tell _
  | coroutine function =>
    refine Sparing.bind (P := Result.Storable w₀)
      ((function.eval_sparing hs).bind fun v hv => ?_) fun _ hr => .pure hr
    cases v with
    | function f =>
      refine (Sparing.newCoroutine (hv _ List.mem_cons_self)).bind fun c hc => ?_
      exact .replyWith (v := .coroutine c) (AllSafe.singleton hc) trivial _
    | _ => exact .fails rfl
  | coroutineStatus name =>
    exact ((Sparing.coroutineVar name).andThen fun _ => .reply _).bind fun _ hr => .pure hr
  | guard name inCoroutine =>
    exact ((Sparing.guard _ name).failing.andThen fun _ => .tell _).bind fun _ hr => .pure hr
  | createFunction name =>
    refine Sparing.bind (P := Result.Storable w₀)
      ((Sparing.hostFunctionVar name).bind fun f hf => ?_) fun _ hr => .pure hr
    refine Sparing.seen.andThen fun via => ?_
    exact (bindHostFunction_sparing hf.1 hf.2 via).bind fun _ hr => .replyScript (.function hr)

/-- Calling a function that is in hand revives nothing. -/
def Caller.Sparing (w₀ : World) (call : Caller) : Prop :=
  ∀ b f args, w₀.Safe f.handle → w₀.AllSafe args → Act.Sparing w₀ (call b f args) w₀.AllSafe

/-- A call that is made: the caller has the callee and the arguments in hand. -/
theorem Calling.run_sparing {call : Caller} (hcall : call.Sparing w₀) {c : Calling}
    (hcallee : ∀ h ∈ c.callee, w₀.Safe h) (hargs : w₀.AllSafe c.args) :
    Sparing w₀ (c.run call) w₀.AllSafe := by
  cases c with
  | apply b callee args =>
    cases callee with
    | function f => exact hcall b f args (hcallee _ List.mem_cons_self) hargs
    | _ => exact .runtimeError _
  | resume c args =>
    exact .resume (hcallee _ List.mem_cons_self) fun f hf => hcall true f args hf hargs

/-- **An action that calls**, put together from its parts. -/
theorem CallAction.run_sparing {call : Caller} (hcall : call.Sparing w₀) (hback : call.Restores)
    (hs : w₀.AllSafe s) (a : CallAction) :
    Sparing w₀ (a.run call s) (Result.Storable w₀) := by
  rw [a.run_eq hback]
  refine (a.prepare_sparing hs).bind fun x hx => ?_
  cases x with
  | inl q =>
    have hcallee : ∀ h ∈ q.calling.callee, w₀.Safe h := fun h hh =>
      hx.kept h (hx.supported.callee hh)
    have hcalled := Calling.run_sparing hcall hcallee hx.args
    exact Sparing.bind (.holding hx.kept hcalled.attempt) (hx.supported.back hx.kept)
  | inr r => exact .pure hx

/-! ### The code of functions -/

/-- **A body works on what it was given**, and with that and its outcome the rest of the code gets
along. -/
def Start.Supported (t : Start) : Prop :=
  ∀ {w₀ : World}, (∀ h ∈ t.given, w₀.Safe h) → w₀.AllSafe t.scope ∧
    ∀ r, Yields w₀ w₀.AllSafe r → Sparing w₀ (t.finish r) w₀.AllSafe

/-- A closed body that is given what is in hand. -/
structure Start.Fit (w₀ : World) (t : Start) : Prop where
  given : ∀ h ∈ t.given, w₀.Safe h
  body : Op.allClosed t.body
  supported : t.Supported

/-- Arguments are converted one after another. Missing ones are nil, which holds nothing. -/
theorem acceptEach_sparing (via : BindingRef) {ts : List HostType} (hts : w₀.AllSafe ts)
    {args : List ScriptValue} (hargs : w₀.AllSafe args) :
    Sparing w₀ (acceptEach via ts args) w₀.AllSafe := by
  induction ts generalizing args with
  | nil => exact .pure .nil
  | cons t ts ih =>
    have hfirst : w₀.AllSafe (args.headD .nil) ∧ w₀.AllSafe args.tail := by
      cases args with
      | nil => exact ⟨.of_eq_nil rfl, .nil⟩
      | cons v vs => exact ⟨hargs.head, hargs.tail⟩
    refine (Sparing.toHost via hts.head hfirst.1).converting.bind fun x hx => ?_
    exact (Sparing.holding hx (ih hts.tail hfirst.2)).bind fun xs hxs => .pure (.cons hx hxs)

/-- A body of the host gets the converted arguments. -/
theorem startHostCode_sparing (b : Bool) (via : BindingRef) (name : String)
    {params : List HostType} (hparams : w₀.AllSafe params) {args : List ScriptValue}
    (hargs : w₀.AllSafe args) :
    Sparing w₀ (startHostCode b via name params args) w₀.AllSafe := by
  have haccepted : Sparing w₀ (acceptArgs via name params args) w₀.AllSafe := by
    unfold acceptArgs
    split
    · exact .fails rfl
    · exact acceptEach_sparing via hparams hargs
  refine (Sparing.guard b name).raising.andThen fun _ => ?_
  refine (Sparing.holding hargs haccepted).raising.bind fun xs hxs => ?_
  exact (Sparing.note _).andThen fun _ => .pure hxs

/-- The arguments without the receiver are some of the arguments. -/
theorem World.AllSafe.withoutSelf (w : World) (t : Target) (arity : Nat) {args : List ScriptValue}
    (hargs : w₀.AllSafe args) : w₀.AllSafe (withoutSelf w t arity args) := by
  unfold Act.withoutSelf
  split
  · cases args with
    | nil => exact .nil
    | cons v vs => exact hargs.tail
  · exact hargs

/-- The receiver is what the target names. -/
theorem methodReceiver_sparing (t : Target) (m : Method) :
    Sparing w₀ (methodReceiver t m) fun r => handles r ⊆ handles t := by
  unfold methodReceiver
  split
  · exact .pure (List.nil_subset _)
  · cases t with
    | type c => exact .fails rfl
    | object o => exact .pure fun h hh => World.mem_handles_some.mp hh

/-- What comes back from a host body goes to script, while its arguments are held. -/
theorem finishHostBody_sparing (via : BindingRef) {hs : List Handle} (hhs : ∀ h ∈ hs, w₀.Safe h)
    {r : Except Failure (Option Given)} (hr : Yields w₀ w₀.AllSafe r) :
    Sparing w₀ (finishHostBody via hs r) w₀.AllSafe :=
  (Sparing.holding hhs (Sparing.ofExcept hr).intoHost).raising.bind fun _ hg =>
    .toScriptAll via hg.givenHost

/-- **The code of a function up to its body** revives nothing, if the function is in hand. -/
theorem startCode_sparing (b : Bool) {f : FunctionRef} (hf : w₀.Safe f.handle)
    {args : List ScriptValue} (hargs : w₀.AllSafe args) :
    Sparing w₀ (startCode b f args) (Start.Fit w₀) := by
  refine Sparing.bind (P := fun fn => w₀.AllSafe fn ∧ fn.code.Closed)
    (.look fun w hw => ⟨hw.function hf, hw.code f⟩) fun fn hfn => ?_
  obtain ⟨hsafe, hclosed⟩ := hfn
  unfold World.AllSafe at hsafe
  simp only [Holds.handles] at hsafe
  split
  · next body hcode =>
    -- The body of a script function works on the arguments, which are held while it runs.
    rw [hcode] at hclosed
    refine .pure ⟨hargs, hclosed, fun hgiven => ⟨hgiven, fun r hr => ?_⟩⟩
    exact (Sparing.holding hgiven (Sparing.ofExcept hr).intoScript).bind fun _ hg =>
      .pure hg.givenScript
  · next via h hcode =>
    -- That of a host function works on what the arguments were converted to.
    rw [hcode] at hsafe hclosed
    refine (startHostCode_sparing b via h.name hsafe hargs).bind fun xs hxs => .pure ?_
    exact ⟨hxs, hclosed, fun hgiven => ⟨hgiven, fun _ => finishHostBody_sparing via hgiven⟩⟩
  · next via named m hcode =>
    -- A method holds what it reached as well: its receiver is that.
    rw [hcode] at hsafe hclosed
    obtain ⟨hnamed, hparams⟩ := List.forall_mem_append.mp hsafe
    refine (Sparing.reachTarget hnamed).raising.bind fun t ht => ?_
    have hstart : Sparing w₀ (startMethod b via fn.name t m args)
        fun p => w₀.AllSafe p.1 ∧ handles p.2 ⊆ handles t := by
      refine Sparing.bind (P := w₀.AllSafe) (.look fun w _ => hargs.withoutSelf w t _)
        fun rest hr => ?_
      refine (startHostCode_sparing b via fn.name hparams hr).bind fun xs hxs => ?_
      exact (methodReceiver_sparing t m).raising.bind fun _ hreceiver => .pure ⟨hxs, hreceiver⟩
    refine (Sparing.holding ht hstart).bind fun p hp => .pure ?_
    refine ⟨List.forall_mem_append.mpr ⟨hp.1, ht⟩, hclosed, fun hgiven => ?_⟩
    obtain ⟨hgivenArgs, htarget⟩ := List.forall_mem_append.mp hgiven
    refine ⟨List.forall_mem_append.mpr ⟨fun h hh => htarget h (hp.2 hh), hgivenArgs⟩, ?_⟩
    exact fun _ hr => .holding htarget (finishHostBody_sparing via hgivenArgs hr)

/-! ### Operations -/

namespace Act.Sparing

/-- An answer that is delivered is text. -/
theorem deliver (d : Disposition) (a : Answer) : Sparing w₀ (d.deliver a) w₀.AllSafe := by
  have hanswer (a : Answer) : w₀.AllSafe (Outcome.answer a) := .of_eq_nil rfl
  unfold Disposition.deliver
  cases d.logged with
  | true => exact (log a).andThen fun _ => .pure (hanswer _)
  | false => exact .pure (hanswer _)

/-- What is stored may be stored: a result because of what left it, a failure because failures have
no bodies. -/
theorem settle (d : Disposition) {m : Act Failure Result} (h : Sparing w₀ m (Result.Storable w₀)) :
    Sparing w₀ (d.settle m) w₀.AllSafe := by
  refine Sparing.bind (.attempt h) fun r hr => ?_
  rcases r with f | r
  -- A failure goes into a variable, where it was to be caught, or on.
  · cases d.catchAs with
    | none => exact .throw hr
    | some name =>
      have hstored : w₀.AllSafe f.stored := AllSafe.stored hr
      have hclosed : f.stored.Closed := by cases f <;> trivial
      exact seen.andThen fun a => (assign name hstored hclosed).andThen fun _ => deliver d a
  -- What the result keeps is held until the variable is assigned.
  · have hresult : r.Storable w₀ := hr
    have hkept : ∀ x ∈ r.kept, w₀.Safe x := (List.forall_mem_append.mp hresult.safe).2
    refine Sparing.andThen (P := fun _ => True) (.holding hkept ?_) fun a => deliver d a
    split
    · next name v _ hv =>
      obtain ⟨hsafe, hclosed⟩ := hresult.store hv
      exact (assign name hsafe hclosed).andThen fun _ => seen
    · exact seen

/-- The same where something is given to the caller. -/
theorem settleGiving (d : Disposition) {m : Act Failure (Option Given)}
    (h : Sparing w₀ m w₀.AllSafe) : Sparing w₀ (d.settleGiving m) w₀.AllSafe := by
  refine Sparing.bind (.attempt h) fun r hr => ?_
  rcases r with f | _ | g
  · exact settle d (.throw hr)
  · exact deliver d .null
  · have hgiven : w₀.AllSafe g := AllSafe.some_iff.mp hr
    exact .pure hgiven

end Act.Sparing

/-- **Every action** revives nothing. Only those that call need to know of the caller. -/
theorem Action.run_sparing {call : Caller} (hcall : call.Sparing w₀) (hback : call.Restores)
    (hs : w₀.AllSafe s) (a : Action) (h : a.isClosed = true) :
    Sparing w₀ (a.run call s) (Result.Storable w₀) := by
  cases a with
  | value a => exact a.run_sparing hs
  | table a => exact a.run_sparing hs
  | call a => exact a.run_sparing hcall hback hs
  | error a => exact a.run_sparing hs
  | conversion a => exact a.run_sparing hs h
  | cls a => exact a.run_sparing hs
  | proxy a => exact a.run_sparing hs

mutual

/-- **One operation revives nothing**, by recursion on the operation. -/
theorem Op.run_sparing {call : Caller} (hcall : call.Sparing w₀) (hback : call.Restores)
    (hs : w₀.AllSafe s) :
    ∀ op : Op, op.isClosed = true → Sparing w₀ (op.run call s) w₀.AllSafe
  | .act d a => fun h => by
    unfold Op.run
    exact .settle d (a.run_sparing hcall hback hs h)
  | .giveScript d items => fun _ => by
    unfold Op.run
    refine .settleGiving d ((items.eval_sparing hs).bind fun vs hvs => ?_)
    have hgiven : w₀.AllSafe (Given.script vs) := hvs
    exact .pure (AllSafe.some_iff.mpr hgiven)
  | .giveHost d items => fun _ => by
    unfold Op.run
    refine .settleGiving d ((items.eval_sparing hs).bind fun vs hvs => ?_)
    have hgiven : w₀.AllSafe (Given.host vs) := hvs
    exact .pure (AllSafe.some_iff.mpr hgiven)
  | .branch d cond yes no => fun h => by
    obtain ⟨hyes, hno⟩ := Bool.and_eq_true_iff.mp h
    unfold Op.run
    refine .settleGiving d ((cond.eval_sparing hs).andThen fun v => ?_)
    split
    · exact Op.runAll_sparing hcall hback hs yes hyes
    · exact Op.runAll_sparing hcall hback hs no hno
  | .borrow d object mutably body => fun h => by
    unfold Op.run
    refine .settleGiving d ((Sparing.objectOrReceiver hs object).bind fun o ho => ?_)
    have hbody := Op.runAll_sparing hcall hback hs body h
    exact .holding ho (.whileBorrowed o mutably (fun _ => .of_eq_nil rfl) hbody)
  | .function d name isHost isGlobal body => fun h => by
    unfold Op.run
    exact .settle d (defineFunction_sparing name isHost isGlobal h)
  | .hostFunction d name params registration body => fun h => by
    obtain ⟨hparams, hbody⟩ := Bool.and_eq_true_iff.mp h
    unfold Op.run
    exact .settle d (defineHostFunction_sparing hs name hparams registration hbody)
  | .cls d spec => fun h => by
    unfold Op.run
    exact .settle d (spec.define_sparing hs h)

/-- The same for a program: what it gives to its caller is in hand at the end. -/
theorem Op.runAll_sparing {call : Caller} (hcall : call.Sparing w₀) (hback : call.Restores)
    (hs : w₀.AllSafe s) :
    ∀ p : List Op, Op.allClosed p = true → Sparing w₀ (Op.runAll call s p) w₀.AllSafe
  | [] => fun _ => by
    unfold Op.runAll
    exact .pure .none
  | op :: rest => fun h => by
    obtain ⟨hfirst, hrest⟩ := Bool.and_eq_true_iff.mp h
    unfold Op.runAll
    refine (Op.run_sparing hcall hback hs op hfirst).bind fun r hr => ?_
    cases r with
    | give g =>
      have hgiven : w₀.AllSafe g := hr
      exact .pure (AllSafe.some_iff.mpr hgiven)
    | answer a => exact Op.runAll_sparing hcall hback hs rest hrest

end

/-- In the end an operation has let go of what it held, and so has a body. -/
theorem Op.run_restores (n : Nat) (s : Scope) (op : Op) : (op.run (callWithin n) s).Restores :=
  (Op.run_composed (callWithin_composed .all n) (.univ s) (fun h : false = true => nomatch h) op
    (Op.within_all false op)).restores

/-- Running a program restores what was held. -/
theorem Op.runAll_restores (n : Nat) : Runner.Restores (Op.runAll (callWithin n)) := fun s p =>
  (Op.runAll_composed (callWithin_composed .all n) (.univ s) (fun h : false = true => nomatch h) p
    (Op.allWithin_all false p)).restores

/-- **Calls revive nothing**, by induction on how deep they may nest. -/
theorem callWithin_sparing (n : Nat) : (callWithin n).Sparing w₀ := by
  induction n with
  | zero => exact fun b f args _ _ => .runtimeError _
  | succ n ih =>
    intro b f args hf hargs
    refine .framed b hf ?_
    rw [invokeCode_eq (Op.runAll_restores n)]
    -- A body is run with one call less, so what it calls revives nothing already.
    refine (startCode_sparing b hf hargs).bind fun t ht => ?_
    obtain ⟨hscope, hfinish⟩ := ht.supported ht.given
    have hbody := Op.runAll_sparing ih (callWithin_restores n) hscope t.body ht.body
    exact Sparing.bind (.holding ht.given hbody.attempt) hfinish

end ScriptHost
