import ScriptHost.Proofs.Act.Operand
import ScriptHost.Proofs.BuiltClass

/-!
# Programs are composed

Whatever a program within a license does is composed, in whatever scope it runs and however deep the
calls may nest. Main statements: `Op.run_composed` for one operation, with the way functions are
called as a parameter, and `callWithin_composed`, which ties the knot by induction on the number of
calls that may still be nested.
-/

set_option autoImplicit false

namespace ScriptHost

open Act
open World (Unseeing)

variable {l : License} {b host : Bool} {K : Set Mention} {ε α : Type}

/-! ### Calls -/

/-- Every call with known arguments is composed, in whatever state it may begin. -/
def Caller.IsComposed (l : License) (call : Caller) : Prop :=
  ∀ {K : Set Mention} b b' f vs, l.Enters b b' → Known K vs → Composed l b K (call b' f vs) Known

/-- Every run of a body within the license is composed, in a scope that names known things. Host
bodies are run outside coroutines. -/
def Runner.IsComposed (l : License) (run : Runner) : Prop :=
  ∀ {K : Set Mention} s host p, Op.allWithin l host p = true →
    (host = true → s.inCoroutine = false) → Known K s →
      Composed l s.inCoroutine K (run s p) Known

namespace Act

section Body

variable {run : Runner} (hrun : run.IsComposed l)

include hrun in
/-- A script body is within the license as a script body, and in the state of its call. -/
theorem runScriptBody_composed {args : List ScriptValue} (hargs : Known K args) {body : Program}
    (hbody : Op.allWithin l false body = true) :
    Composed l b K (runScriptBody run b args body) Known := by
  have hk : Known K (Scope.mk b (.script args)) := .scriptScope hargs
  have hgiven := intoScript_composed (hrun ⟨b, .script args⟩ false body hbody nofun hk)
  exact (Composed.holding _ hgiven).bind fun _ _ hg => .pure _ hg.givenScript

include hrun in
/-- A host body runs outside every coroutine, because the guard has let it pass. -/
theorem runHostBody_composed (via : BindingRef) {receiver : Option ObjectRef}
    (hreceiver : Known K receiver) {body : Program} (hbody : Op.allWithin l true body = true)
    (hb : b = false) {args : List HostValue} (hargs : Known K args) :
    Composed l b K (runHostBody run b via receiver body args) Known := by
  have hk : Known K (Scope.mk b (.host via receiver args)) := .hostScope hreceiver hargs
  have hgiven := intoHost_composed (hrun _ true body hbody (fun _ => hb) hk)
  exact (Composed.holding _ hgiven).bind fun _ _ hg => .pure _ hg.givenHost

/-- What a host function accepts as arguments: one for each parameter, of its type and known. -/
def GivesEach (ts : List HostType) (K : Set Mention) (hs : List HostValue) : Prop :=
  List.Forall₂ HostValue.HasType hs ts ∧ Known K hs

/-- Arguments are accepted from left to right, and each one has the type of its parameter. -/
theorem acceptEach_composed (open? : b = false ∨ l.direct = true) (via : BindingRef)
    (ts : List HostType) {args : List ScriptValue} (hargs : Known K args) :
    Composed l b K (acceptEach via ts args) (GivesEach ts) := by
  induction ts generalizing K args with
  | nil => exact .pure [] ⟨.nil, .nil⟩
  | cons t ts ih =>
    have hfirst : Known K (args.headD .nil) ∧ Known K args.tail := by
      cases args with
      | nil => exact ⟨.of_named_eq_nil rfl, .nil⟩
      | cons v vs => exact ⟨hargs.head, hargs.tail⟩
    exact (converting_composed (toHost_composed open? via t hfirst.1)).bind fun hK h hh =>
      (Composed.holding _ (ih (hfirst.2.mono hK))).bind fun hK hs hhs =>
        .pure _ ⟨.cons hh.1 hhs.1, .cons (hh.2.mono hK) hhs.2⟩

/-- As many arguments are accepted as there are parameters, each of its type. -/
theorem acceptArgs_composed (open? : b = false ∨ l.direct = true) (via : BindingRef) (name : String)
    (params : List HostType) {args : List ScriptValue} (hargs : Known K args) :
    Composed l b K (acceptArgs via name params args) (GivesEach params) := by
  unfold acceptArgs
  split
  · exact .fails rfl
  · exact acceptEach_composed open? via params hargs

/-- Host code runs behind the guard: what comes after it is outside every coroutine. -/
theorem runHostCode_composed (via : BindingRef) (name : String) (params : List HostType)
    {args : List ScriptValue} (hargs : Known K args)
    {body : List HostValue → Act HostFailure (List HostValue)}
    (hbody : b = false → ∀ {K'}, K ⊆ K' → ∀ {vs}, Known K' vs →
      Composed l b K' (body vs) Known) :
    Composed l b K (runHostCode b via name params args body) Known := by
  refine (raising_composed (.guard b name (.inl rfl))).bind fun hK _ hb => ?_
  have haccepted := acceptArgs_composed (l := l) (.inl hb) via name params (hargs.mono hK)
  refine (raising_composed (.holding _ haccepted)).bind fun hK' vs hvs => ?_
  -- After the guard and the arguments the body is started with what was accepted.
  have hrun {K'} (hK : K ⊆ K') (hvs : GivesEach params K' vs) : Composed l b K'
      (note (.body via name params vs) >>= fun _ => body vs) Known :=
    (Composed.started (.body via name params vs) rfl hvs.1 (.inl hb)).andThen fun hK' _ =>
      hbody hb (hK.trans hK') (hvs.2.mono hK')
  exact (raising_composed (hrun (hK.trans hK') hvs)).bind fun _ results hresults =>
    toScriptAll_composed via hresults

/-- A method has the receiver that its target names, and a static method has none. -/
theorem methodReceiver_composed {t : Target} (ht : Known K t) (m : Method) :
    Composed l b K (methodReceiver t m) Known := by
  unfold methodReceiver
  split
  · exact .pure _ .none
  · refine (needReceiver_composed _ _ _).bind fun hK o ho => .pure _ ?_
    have hreceiver : Known K t.receiver? := ht
    exact ho ▸ hreceiver.mono hK

/-- Leaving out the proxy that a method was called on leaves fewer arguments. -/
theorem Known.withoutSelf (w : World) (t : Target) (arity : Nat) {args : List ScriptValue}
    (hargs : Known K args) : Known K (withoutSelf w t arity args) := by
  unfold Act.withoutSelf
  split
  · cases args with
    | nil => exact .nil
    | cons v vs => exact hargs.tail
  · exact hargs

/-- Whether the first argument is the proxy of the target can be told from the targets. -/
theorem withoutSelf_unseeing (t : Target) (arity : Nat) (args : List ScriptValue) :
    Unseeing fun w => withoutSelf w t arity args := by
  intro w v h
  have hreach : ∀ x, reachesTarget v t x = reachesTarget w t x := by
    intro x
    rcases x with _ | x
    · rfl
    · cases x <;> simp only [reachesTarget, h.proxyTarget?_eq]
  simp only [withoutSelf, hreach]

include hrun in
theorem invokeCode_composed (f : FunctionRef) {args : List ScriptValue} (hargs : Known K args) :
    Composed l b K (invokeCode run b f args) Known := by
  -- What a function runs was stored, so it is within the license and names known things.
  refine Composed.bind (P := fun K' fn => fn.code.Within l ∧ Known K' fn.code)
    (.look _ (.inr fun w v h => h.function_eq f) ?_) fun hK fn hfn => ?_
  · exact fun _ w hw hk => ⟨hw.function f, hk.function f⟩
  replace hargs := hargs.mono hK
  split
  · next body hcode =>
    rw [hcode] at hfn
    exact runScriptBody_composed hrun hargs hfn.1
  · next via h hcode =>
    rw [hcode] at hfn
    exact runHostCode_composed _ _ _ hargs fun hb _ _ _ hvs =>
      runHostBody_composed hrun via .none hfn.1 hb hvs
  · next via named m hcode =>
    rw [hcode] at hfn
    -- The target is held while the body runs, and the proxy is taken off the arguments.
    refine (raising_composed (reachTarget_composed hfn.2)).bind fun hK t ht => .holding _ ?_
    replace hargs := hargs.mono hK
    refine Composed.bind (P := Known) (.look _ (.inr (withoutSelf_unseeing t _ args)) ?_) ?_
    · exact fun hK w _ _ => Known.withoutSelf w t _ (hargs.mono hK)
    intro K' hK rest hrest
    replace ht := ht.mono hK
    refine runHostCode_composed _ _ _ hrest fun hb _ hK vs hvs => ?_
    refine (methodReceiver_composed (ht.mono hK) m).bind fun hK' r hr => ?_
    exact runHostBody_composed hrun via hr hfn.1 hb (hvs.mono hK')

end Body

/-! ### Through a caller -/

variable {call : Caller} (hcall : call.IsComposed l)
include hcall

/-- What is no function fails, and a function is called. -/
theorem apply_composed {b' : Bool} (hb : l.Enters b b') (callee : ScriptValue)
    {args : List ScriptValue} (hargs : Known K args) :
    Composed l b K (apply call b' callee args) Known := by
  cases callee with
  | function f => exact hcall b b' f args hb hargs
  | _ => exact .runtimeError _

/-- A method call is a lookup and a call. -/
theorem invoke_composed {b' : Bool} (hb : l.Enters b b') (target key : ScriptValue)
    {args : List ScriptValue} (hargs : Known K args) :
    Composed l b K (invoke call b' target key args) Known :=
  (Composed.holding _ (index_composed hb target key)).bind fun hK callee _ =>
    .holding _ (apply_composed hcall hb callee (hargs.mono hK))

/-- A coroutine calls its function inside of it, whatever state the resumption is in. -/
theorem resume_composed (c : CoroutineRef) {args : List ScriptValue} (hargs : Known K args) :
    Composed l b K (resume call c args) Known :=
  .resume call c args fun f => hcall true true f args (.self true) hargs

/-- The arguments go to script, and what is raised goes back to the host. -/
theorem hostCall_composed {b' : Bool} (hb : l.Enters b b') (via : BindingRef) (callee : ScriptValue)
    {args : List HostValue} (hargs : Known K args) :
    Composed l b K (hostCall call b' via callee args) Known :=
  (toScriptAll_composed via hargs).bind fun _ _ hvs =>
    catching_composed (apply_composed hcall hb callee hvs)

end Act

/-! ### Actions

What an action needs besides its license is that the host side is outside every coroutine: `hs`. -/

/-- The way to host code is open to an action that goes there directly. -/
theorem Scope.open_of_admits {s : Scope} {a : Action} (hs : host = true → s.inCoroutine = false)
    (h : l.admits host a) (ha : a.isDirect = true) :
    s.inCoroutine = false ∨ l.direct = true :=
  (License.direct_of_admits h ha).imp_left hs

/-- An entry point of the host begins its call outside every coroutine. -/
theorem Scope.enters_of_admits {s : Scope} {a : Action} (hs : host = true → s.inCoroutine = false)
    (h : l.admits host a) (ha : a.isDirect = true) : l.Enters s.inCoroutine false :=
  (s.open_of_admits hs h ha).imp Eq.symm fun hl => ⟨rfl, hl⟩

/-- What can be shown by a dump. Of variables a dump shows more than script may see. -/
theorem DumpSubject.text_composed {s : Scope} (hk : Known K s) (subject : DumpSubject)
    -- The declarations of a class are shown past every policy, which is what the license is asked for.
    (h : l.admits host (.value (.dump subject))) :
    Composed l b K (subject.text s) fun _ _ => True := by
  cases subject with
  | var name =>
    exact (readVar_composed name).andThen fun _ v =>
      .look _ (.inl (License.seeing_of_admits h rfl)) fun _ _ _ _ => trivial
  | host e =>
    exact (e.eval_composed hk).andThen fun _ v => .seen fun w w' h => h.dumpHost_eq v
  | type t => exact t.eval_composed.andThen fun _ t => .give _
  | context => exact .seen (.ofRest fun _ _ => rfl)
  | bridge => exact .seen (.ofRest fun _ _ => rfl)
  | proxy e =>
    refine (e.eval_composed hk).andThen fun _ v => .seen fun w w' h => ?_
    have hp : w'.proxy? = w.proxy? := funext h.proxy?_eq
    simp only [hp, h.dumpProxy_eq]
  | config c => exact .give _
  | function e => exact (e.eval_composed hk).andThen fun _ v => .seen (.ofRest fun _ _ => rfl)
  | userdata e => exact (e.eval_composed hk).andThen fun _ v => .seen (.ofRest fun _ _ => rfl)
  | value e =>
    exact (e.eval_composed hk).andThen fun _ v => .seen fun w w' h => h.dumpScript_eq v

/-- The second of two operands is evaluated while the first is held. -/
theorem pair_composed {x y : ScriptExpr} {s : Scope} (hk : Known K s)
    {f : ScriptValue → ScriptValue → Act Failure α} {Q : Set Mention → α → Prop}
    (hf : ∀ {K'}, K ⊆ K' → ∀ v w, Known K' v → Known K' w → Composed l b K' (f v w) Q) :
    Composed l b K (x.eval s >>= fun v => holding (handles v) (y.eval s) >>= f v) Q :=
  (x.eval_composed hk).bind fun hK v hv =>
    (Composed.holding _ (y.eval_composed (hk.mono hK))).bind fun hK' w hw =>
      hf (hK.trans hK') v w (hv.mono hK') hw

/-- Actions on values look, log and store. -/
theorem ValueAction.run_composed {s : Scope} (hk : Known K s) (a : ValueAction)
    (h : l.admits host (.value a)) : Composed l b K (a.run s) (Result.Within l) := by
  cases a with
  | logScript e =>
    exact (e.eval_composed hk).bind fun _ v hv =>
      (replyScript_composed hv).bind fun _ r hr => logging_composed hr
  | logHost e =>
    exact (e.eval_composed hk).bind fun _ v hv => logging_composed (Result.within_host hv)
  | bind e => exact (e.eval_composed hk).bind fun _ v hv => replyScript_composed hv
  | bindHost e => exact (e.eval_composed hk).bind fun _ v hv => .pure _ (Result.within_host hv)
  | drop name =>
    exact (Composed.seen (.ofRest fun _ _ => rfl)).andThen fun _ known =>
      (Composed.drop name).andThen fun _ _ => .pure _ (Result.within_told _)
  | arguments =>
    simp only [ValueAction.run]
    split
    · exact replyScripts_composed .nil
    · next hside => exact replyScripts_composed (hk.scriptArgs hside)
    · next hside =>
      have hargs := Known.array_iff.mpr (hk.args hside)
      exact replyWith_composed trivial hargs fun w w' h => by rw [h.hostViews_eq]
  | state => exact reply_composed (.ofRest fun _ _ => rfl)
  | describe e =>
    exact (e.eval_composed hk).bind fun _ v hv =>
      replyWith_composed trivial hv fun w w' h => by rw [h.valueReport_eq]
  | rawEquals a b => exact pair_composed hk fun _ x y _ _ => .pure _ (Result.within_told _)
  | equals a b =>
    exact pair_composed hk fun _ x y _ _ => reply_composed fun w w' h => by rw [h.equals_eq]
  | display e =>
    exact (e.eval_composed hk).andThen fun _ v =>
      reply_composed fun w w' h => by rw [h.display_eq]
  | userdata name tagged =>
    exact (Composed.newForeign name tagged).bind fun _ u hu => replyScript_composed hu
  | dump subject =>
    exact (subject.text_composed hk h).andThen fun _ t => .pure _ (Result.within_told _)

theorem tableOperand_composed {s : Scope} (hk : Known K s) (e : ScriptExpr) :
    Composed l b K (tableOperand s e) fun _ _ => True := by
  refine (e.eval_composed hk).andThen fun _ v => ?_
  split
  · exact .give _
  · exact .fails rfl

/-- Actions on tables hold the table as long as they work on it. -/
theorem TableAction.run_composed {s : Scope} (hk : Known K s) (a : TableAction) :
    Composed l b K (a.run s) (Result.Within l) := by
  cases a with
  | get table key =>
    refine (tableOperand_composed hk table).andThen fun hK t => ?_
    refine (Composed.holding _ (key.eval_composed (hk.mono hK))).andThen fun _ k => ?_
    -- Tables are looked at as they are; a world that differs in its classes has the same ones.
    have hget : Unseeing fun w : World => (w.table t).get k := fun w w' h =>
      congrArg (Table.get · k) (h.table_eq t)
    have hvalue {K} (w : World) (hk : w.Known K) : Known K ((w.table t).get k) :=
      Table.known_get (hk.table t) k
    exact (Composed.look _ (.inr hget) fun _ w _ => hvalue w).bind fun _ v hv =>
      replyScript_composed hv
  | set table key value =>
    refine (tableOperand_composed hk table).andThen fun hK t => ?_
    replace hk := hk.mono hK
    refine (Composed.holding _ (key.eval_composed hk)).bind fun hK k hkey => ?_
    replace hk := hk.mono hK
    refine (Composed.holding _ (value.eval_composed hk)).bind fun hK v hv => ?_
    refine (throwing_composed (.setEntry t (hkey.mono hK) hv)).andThen fun _ _ => ?_
    exact reply_composed fun w w' h => by rw [h.table_eq]
  | describe table =>
    refine (tableOperand_composed hk table).andThen fun _ t => reply_composed fun w w' h => ?_
    simp only [World.tableReport, h.table_eq, h.views_eq, h.view_eq]
  | contains table key =>
    refine (tableOperand_composed hk table).andThen fun hK t => ?_
    refine (Composed.holding _ (key.eval_composed (hk.mono hK))).andThen fun _ k => ?_
    exact reply_composed fun w w' h => by rw [h.table_eq]

/-- A function that is made is a function: it names nothing in script. -/
theorem Known.functionValue (f : FunctionRef) : Known K (ScriptValue.function f) :=
  .of_named_eq_nil rfl

theorem bindHostFunction_composed (via : BindingRef) (f : HostFunction)
    (h : Op.allWithin l true f.body = true) :
    Composed l b K (bindHostFunction via f) fun _ _ => True :=
  .newFunction ⟨f.name, .host, .host via f⟩ h (.of_named_eq_nil rfl) rfl

/-- **Actions that call** begin their calls in the state of the body, but for the entry points of the
host, which need a license in script. -/
theorem CallAction.run_composed {call : Caller} (hcall : call.IsComposed l) {s : Scope}
    (hk : Known K s) (a : CallAction) (h : l.admits host (.call a))
    (hs : host = true → s.inCoroutine = false) :
    Composed l s.inCoroutine K (a.run call s) (Result.Within l) := by
  cases a with
  -- The callee is held while the arguments are there, and the outcome is looked at while it still is.
  | call callee args =>
    refine (callee.eval_composed hk).andThen fun hK f => ?_
    refine (Composed.holding _ (args.eval_composed (hk.mono hK))).bind fun _ vs hvs => ?_
    refine .holding _ ?_
    exact (throwing_composed (apply_composed hcall (.self _) f hvs)).bind
      fun _ _ hrs => replyScripts_composed hrs
  | invoke target key args =>
    refine pair_composed hk fun hK t k _ _ => ?_
    refine (Composed.holding _ (args.eval_composed (hk.mono hK))).bind fun _ vs hvs => ?_
    refine .holding _ ?_
    exact (throwing_composed (invoke_composed hcall (.self _) t k hvs)).bind
      fun _ _ hrs => replyScripts_composed hrs
  | index target key =>
    refine pair_composed hk fun _ t k _ _ => .holding _ ?_
    exact (throwing_composed (index_composed (.self _) t k)).bind
      fun _ _ hv => replyScript_composed hv
  | setIndex target key value =>
    refine pair_composed hk fun hK t k _ hkey => ?_
    refine (Composed.holding _ (value.eval_composed (hk.mono hK))).bind fun hK v hv => ?_
    have hset := setIndex_composed (l := l) (.self s.inCoroutine) t (hkey.mono hK) hv
    exact (Composed.holding _ (throwing_composed hset)).andThen
      fun _ _ => .pure _ Result.within_nothing
  | coroutine function =>
    refine (function.eval_composed hk).andThen fun _ v => ?_
    split
    · exact (Composed.newCoroutine _).andThen fun _ c =>
        replyPlain_composed trivial rfl (.ofRest fun _ _ => rfl)
    · exact .fails rfl
  | coroutineStatus name =>
    exact (plainVar_composed _ _ _).andThen fun _ c => reply_composed (.ofRest fun _ _ => rfl)
  | resume name args =>
    refine (plainVar_composed _ _ _).andThen fun hK c => ?_
    refine (args.eval_composed (hk.mono hK)).bind fun _ vs hvs => ?_
    refine .holding _ ?_
    exact (throwing_composed (resume_composed hcall c hvs)).bind
      fun _ _ hrs => replyScripts_composed hrs
  | guard name inCoroutine =>
    refine (failing_composed (.guard _ name ?_)).andThen fun _ _ =>
      .pure _ (Result.within_told _)
    cases inCoroutine with
    | none => exact .inl rfl
    | some _ => exact .inr (License.pretending_of_admits h rfl)
  | createFunction name =>
    refine (hostFunctionVar_composed name).bind fun _ f hf => ?_
    refine bridge_composed.andThen fun _ via => ?_
    exact (bindHostFunction_composed via f hf).andThen fun _ r =>
      replyScript_composed (.functionValue r)
  -- Entry points of the host call outside every coroutine, so script needs a license for them.
  | bridgeCall callee args =>
    have henters := s.enters_of_admits hs h rfl
    refine (callee.eval_composed hk).andThen fun hK f => ?_
    refine (Composed.holding _ (args.eval_composed (hk.mono hK))).bind fun _ vs hvs => ?_
    refine bridge_composed.andThen fun hK via => .holding _ ?_
    have hcalled := hostCall_composed hcall henters via f (hvs.mono hK)
    exact (failing_composed hcalled).bind fun _ _ hrs => replyScripts_composed hrs
  | bridgeCallGlobal name args =>
    have henters := s.enters_of_admits hs h rfl
    refine (args.eval_composed hk).bind fun _ vs hvs => ?_
    refine bridge_composed.andThen fun hK via => ?_
    refine (global_composed name).andThen fun hK' f => ?_
    have hcalled := hostCall_composed hcall henters via f (hvs.mono (hK.trans hK'))
    exact (Composed.holding _ (failing_composed hcalled)).bind
      fun _ _ hrs => replyScripts_composed hrs
  -- These go through the running context and need nothing.
  | callFunction callee args =>
    refine (callee.eval_composed hk).andThen fun hK f => ?_
    refine (Composed.holding _ (args.eval_composed (hk.mono hK))).bind fun _ vs hvs => ?_
    refine (scopeBinding_composed s).andThen fun hK via => .holding _ ?_
    have hcalled := hostCall_composed hcall (.self s.inCoroutine) via f (hvs.mono hK)
    exact (failing_composed hcalled).bind fun _ _ hrs => replyScripts_composed hrs
  | callGlobal name args =>
    refine (args.eval_composed hk).bind fun _ vs hvs => ?_
    refine (scopeBinding_composed s).andThen fun hK via => ?_
    refine (global_composed name).andThen fun hK' f => ?_
    have hcalled := hostCall_composed hcall (.self s.inCoroutine) via f (hvs.mono (hK.trans hK'))
    exact (Composed.holding _ (failing_composed hcalled)).bind
      fun _ _ hrs => replyScripts_composed hrs

/-- A host function that is registered becomes a global. -/
theorem registerIn_composed (f : HostFunction) (h : Op.allWithin l true f.body = true)
    (t : TableRef) : Composed l b K (registerIn f t) fun _ _ => True := by
  refine bridge_composed.andThen fun _ via => ?_
  refine (bindHostFunction_composed via f h).andThen fun _ r => ?_
  exact throwing_composed (.setEntry t (.of_named_eq_nil rfl) (.functionValue r))

theorem registerFunction_composed {s : Scope} (hk : Known K s) (f : HostFunction)
    (h : Op.allWithin l true f.body = true) (r : Registration) :
    Composed l b K (registerFunction s f r) fun _ _ => True := by
  cases r with
  | none => exact .give _
  | global => exact globals_composed.andThen fun _ t => registerIn_composed f h t
  | table e =>
    refine (e.eval_composed hk).andThen fun _ v => ?_
    split
    · exact registerIn_composed f h _
    · exact .fails rfl

/-- A host function is defined with its parameter types, and registered at once or later. -/
theorem defineHostFunction_composed {s : Scope} (hk : Known K s) (name : String)
    (params : List TypeExpr) (r : Registration) (body : Program)
    (h : Op.allWithin l true body = true) :
    Composed l b K (defineHostFunction s name params r body) (Result.Within l) := by
  refine (TypeExpr.evalAll_composed params).andThen fun hK ts => ?_
  refine (registerFunction_composed (hk.mono hK) ⟨name, ts, body⟩ h r).andThen fun _ _ => ?_
  exact .pure _ (Result.within_leaving _ h (.of_named_eq_nil rfl))

/-- A function of script is made with its body, and made a global if that is wanted. -/
theorem defineFunction_composed (name : String) (isHost isGlobal : Bool) (body : Program)
    (h : Op.allWithin l false body = true) :
    Composed l b K (defineFunction name isHost isGlobal body) (Result.Within l) := by
  have hnone : Known K (Function.mk name (if isHost then .host else .script) (.script body)) :=
    .of_named_eq_nil rfl
  refine (Composed.newFunction ⟨name, _, .script body⟩ h hnone rfl).andThen fun _ f => ?_
  cases isGlobal with
  | true =>
    refine globals_composed.andThen fun _ t => ?_
    exact (throwing_composed (.setEntry t (.of_named_eq_nil rfl) (.functionValue f))).andThen
      fun _ _ => replyScript_composed (.functionValue f)
  | false => exact replyScript_composed (.functionValue f)

theorem raiseIn_composed (s : Scope) {v : ScriptValue} (hv : Known K v) :
    Composed l b K (raiseIn s v) (Result.Within l) := by
  unfold raiseIn
  split
  · exact .failWith _ (.ofRest fun _ _ => rfl) fun _ => hv
  · exact throwing_composed (.raise hv)

/-- Actions on errors raise, fail, translate and show. -/
theorem ErrorAction.run_composed {s : Scope} (hk : Known K s) (a : ErrorAction) :
    Composed l b K (a.run s) (Result.Within l) := by
  cases a with
  | raise e => exact (e.eval_composed hk).bind fun _ v hv => raiseIn_composed s hv
  | raiseBare e => exact (e.eval_composed hk).bind fun _ v hv => .throw _ hv
  | runtimeError message => exact throwing_composed (.runtimeError message)
  | fail message => exact .fails rfl
  | rethrow name => exact (failureVar_composed name).bind fun _ f hf => .throw f hf
  | translate name =>
    refine (failureVar_composed name).bind fun _ f hf => ?_
    cases f with
    -- What the host makes of a script error may be an error that it had raised itself.
    | raised e =>
      refine Composed.bind (P := Known) (.look _ (.inr (.ofRest fun _ _ => rfl)) ?_) ?_
      · exact fun hK w _ hk => hk.unwrapError (Known.mono hf hK)
      · exact fun _ e he => replyWith_composed trivial he fun w w' h => by rw [h.failedView_eq]
    | failed e =>
      exact (throwing_composed (toScriptError_composed hf)).bind fun _ r hr =>
        replyWith_composed trivial hr fun w w' h => by rw [h.raisedView_eq]
  | carry name =>
    refine Composed.bind (P := Known) (variableAs_composed fun s e _ hs he => ?_) fun _ e he => ?_
    · split at he
      · exact Option.some.inj he ▸ hs
      · cases he
    · exact (Composed.newCarrier e he).bind fun _ u hu => replyScript_composed hu
  | describe name =>
    refine (failureVar_composed name).andThen fun _ f => reply_composed fun w w' h => ?_
    cases f <;> simp only [World.errorReport, h.failedView_eq, h.raisedView_eq, h.view_eq]

/-- Conversion to host may run setters, so it needs the host side or a license. Conversion to script
runs nothing. -/
theorem ConversionAction.run_composed {s : Scope} (hk : Known K s) (a : ConversionAction)
    (h : l.admits host (.conversion a)) (hs : host = true → s.inCoroutine = false) :
    Composed l s.inCoroutine K (a.run s) (Result.Within l) := by
  -- The guard has let the host side pass, and script may convert with a license only.
  cases a with
  | toHost e type =>
    have open? := s.open_of_admits hs h rfl
    refine (e.eval_composed hk).bind fun _ v hv => ?_
    refine type.eval_composed.andThen fun hK t => ?_
    refine (scopeBinding_composed s).andThen fun hK' via => ?_
    have hconverted := converting_composed
      (toHost_composed open? via t (hv.mono (hK.trans hK')))
    refine (Composed.holding _ (failing_composed hconverted)).bind fun _ x hx => ?_
    exact .pure _ (Result.within_host hx.2)
  | toScript e =>
    refine (e.eval_composed hk).bind fun _ x hx => ?_
    refine (scopeBinding_composed s).andThen fun hK via => ?_
    exact (Composed.holding _ (toScript_composed via x (hx.mono hK))).bind
      fun _ _ hv => replyScript_composed hv
  | describe e =>
    exact (e.eval_composed hk).bind fun _ x hx =>
      replyWith_composed trivial hx fun w w' h => by rw [h.hostReport_eq]
  | equals a b =>
    exact (a.eval_composed hk).bind fun hK x _ =>
      (Composed.holding _ (b.eval_composed (hk.mono hK))).bind fun _ y _ =>
        .pure _ (Result.within_told _)
  | describeType t => exact t.eval_composed.andThen fun _ t => .pure _ (Result.within_told _)
  | typeEquals a b =>
    exact a.eval_composed.andThen fun _ x =>
      b.eval_composed.andThen fun _ y => .pure _ (Result.within_told _)

/-! ### Classes -/

theorem registerClass_composed (c : ClassRef) (name : String) :
    Composed l b K (registerClass c name) fun _ _ => True := by
  refine bridge_composed.andThen fun _ via => ?_
  refine (Composed.newProxy via (.type c) .none).bind fun _ _ hu => ?_
  refine globals_composed.andThen fun hK t => ?_
  exact throwing_composed (.setEntry t (.of_named_eq_nil rfl) (hu.mono hK))

theorem ClassAction.run_composed {s : Scope} (hk : Known K s) (a : ClassAction)
    (h : l.admits host (.cls a)) (hs : host = true → s.inCoroutine = false) :
    Composed l s.inCoroutine K (a.run s) (Result.Within l) := by
  cases a with
  | id name => exact .pure _ (Result.within_told _)
  | membersNamed cls name =>
    exact (classVar_composed cls).andThen fun _ c =>
      reply_composed_of_seeing (License.seeing_of_admits h rfl)
  | register cls as =>
    exact (classVar_composed cls).andThen fun _ c =>
      (registerClass_composed c _).andThen fun _ _ => .pure _ Result.within_nothing
  | instantiate cls initial =>
    refine (classVar_composed cls).andThen fun hK c => ?_
    refine (HostExpr.evalSlots_composed (hk.mono hK) initial).bind fun _ values hvalues => ?_
    have hmade := Composed.instantiate (l := l) (b := s.inCoroutine) c
      (.slots (Slots.ofList values)) (Slots.known_ofList hvalues)
    exact (failing_composed hmade).bind fun _ o ho => .pure _ (Result.within_object ho)
  | instantiateAs cls payload =>
    refine (classVar_composed cls).andThen fun hK c => ?_
    have hsample : Names.named payload.sample = [] := by cases payload <;> rfl
    refine (failing_composed (.instantiate c _ (.of_named_eq_nil hsample))).bind ?_
    exact fun _ o ho => .pure _ (Result.within_object ho)
  | construct cls =>
    have open? := s.open_of_admits hs h rfl
    refine (classVar_composed cls).andThen fun _ c => ?_
    refine (failing_composed (converting_composed (construct_composed open? c))).bind ?_
    exact fun _ o ho => .pure _ (Result.within_object ho.2)
  | slots object =>
    exact (objectOrReceiver_composed hk object).bind fun _ o _ =>
      reply_composed fun w w' h => by rw [h.slotsView_eq]
  | getSlot object slot =>
    refine (objectOrReceiver_composed hk object).bind fun _ o _ => ?_
    refine (failing_composed (readSlot_composed o slot)).bind fun _ v hv => ?_
    exact .pure _ (Result.within_host hv)
  | setSlot object slot value =>
    have open? := s.open_of_admits hs h rfl
    refine (objectOrReceiver_composed hk object).bind fun hK o _ => ?_
    refine (value.eval_composed (hk.mono hK)).bind fun _ v hv => ?_
    refine (failing_composed (.writeSlot o slot v open? hv)).andThen fun _ _ => ?_
    exact .pure _ Result.within_nothing
  | borrowAs object payload mutably =>
    refine (objectOrReceiver_composed hk object).bind fun _ o _ => ?_
    refine (failing_composed (borrowed_composed o mutably payload)).bind fun _ _ _ => ?_
    exact .pure _ Result.within_nothing
  | sameObject a b =>
    exact (objectVar_composed a).bind fun _ x _ =>
      (objectVar_composed b).bind fun _ y _ => reply_composed (.ofRest fun _ _ => rfl)
  | downgrade object =>
    exact (objectOrReceiver_composed hk object).bind fun _ o ho =>
      .pure _ (Result.within_leaving _ trivial ho)
  | describeWeak name =>
    refine (weakVar_composed name).bind fun _ o _ => reply_composed fun w w' h => ?_
    simp only [World.weakReport, h.alive_object, h.slotsView_eq]
  | upgrade name =>
    refine (weakVar_composed name).bind fun _ o ho => ?_
    refine (Composed.seen fun w w' h => h.alive_object _).andThen fun hK alive => ?_
    cases alive with
    | true => exact .pure _ (Result.within_object (ho.mono hK))
    | false => exact .pure _ Result.within_nothing
  | display object =>
    refine (objectOrReceiver_composed hk object).bind fun _ o _ => reply_composed fun w w' h => ?_
    simp only [h.classDisplay?_eq]

/-- Members that are within the license and known, as declarations make them. -/
def MembersWithin (l : License) (K : Set Mention) (ms : List Member) : Prop :=
  ∀ m ∈ ms, m.Within l ∧ m.Regular ∧ Known K m

/-- More may be known. -/
theorem MembersWithin.mono {K' : Set Mention} {ms : List Member} (h : MembersWithin l K ms)
    (hK : K ⊆ K') : MembersWithin l K' ms := fun m hm => ⟨(h m hm).1, (h m hm).2.1, (h m hm).2.2.mono hK⟩

/-- What a declaration makes is within the license if the declaration is. -/
theorem declare_composed {s : Scope} (hk : Known K s) (d : Declaration Program)
    (h : Op.declarationWithin l d = true) :
    Composed l b K (declare s d) fun K' m? => MembersWithin l K' m?.toList := by
  cases d with
  | method name params isStatic body =>
    refine (TypeExpr.evalAll_composed params).andThen fun _ ts => .pure _ ?_
    exact List.forall_mem_singleton.mpr ⟨h, trivial, .of_named_eq_nil rfl⟩
  | staticProperty name type value =>
    refine type.eval_composed.andThen fun hK t => ?_
    refine (value.eval_composed (hk.mono hK)).bind fun _ v hv => .pure _ ?_
    exact List.forall_mem_singleton.mpr
      ⟨trivial, ⟨fun _ => ⟨⟨v, rfl⟩, rfl⟩, nofun⟩, Known.some_iff.mpr hv⟩
  | field name type slot settable refusal =>
    refine type.eval_composed.andThen fun _ t => .pure _ ?_
    exact List.forall_mem_singleton.mpr ⟨trivial, trivial, .of_named_eq_nil rfl⟩
  | property name type slot readable settable refusal =>
    refine type.eval_composed.andThen fun _ t => .pure _ ?_
    refine List.forall_mem_singleton.mpr ⟨trivial, ⟨nofun, fun _ v => ?_⟩, .of_named_eq_nil ?_⟩
    · cases readable <;> nofun
    · cases readable <;> rfl
  | indexer name type slot arity =>
    refine type.eval_composed.andThen fun _ t => .pure _ ?_
    exact List.forall_mem_singleton.mpr ⟨trivial, ⟨nofun, fun _ _ => nofun⟩, .of_named_eq_nil rfl⟩
  | nonPublic => exact .pure _ (List.forall_mem_nil _)

/-- Hiding changes the flags of a member and not what it runs. -/
theorem Member.Within.hide {m : Member} (h : m.Within l) : m.hide.Within l := by
  cases m with
  | method m => exact h
  | _ => trivial

theorem Known.hide {m : Member} (h : Known K m) : Known K m.hide := by
  cases m with
  | property p => exact h
  | _ => exact .of_named_eq_nil rfl

/-- A declaration adds one member or none. -/
theorem addMember_within {m? : Option Member} {done : List Member}
    (hm : MembersWithin l K m?.toList) (hdone : MembersWithin l K done) :
    MembersWithin l K (addMember m? done) := by
  rcases m? with _ | m
  · rcases done with _ | ⟨m, done⟩
    · exact hdone
    · obtain ⟨hfirst, hrest⟩ := List.forall_mem_cons.mp hdone
      exact List.forall_mem_cons.mpr ⟨⟨hfirst.1.hide, hfirst.2.1.hide, hfirst.2.2.hide⟩, hrest⟩
  · exact List.forall_mem_cons.mpr ⟨hm m List.mem_cons_self, hdone⟩

/-- Declarations are gone through in order, with the members so far at hand. -/
theorem declareAll_composed {s : Scope} (hk : Known K s) (ds : List (Declaration Program))
    {done : List Member} (h : Op.declarationsWithin l ds = true)
    (hdone : MembersWithin l K done) :
    Composed l b K (declareAll s ds done) (MembersWithin l) := by
  induction ds generalizing K done with
  | nil => exact .pure done hdone
  | cons d ds ih =>
    simp only [Op.declarationsWithin, Bool.and_eq_true] at h
    exact (declare_composed hk d h.1).bind fun hK m? hm =>
      .holding _ (ih (hk.mono hK) h.2 (addMember_within hm (hdone.mono hK)))

theorem initialSlots_composed {s : Scope} (hk : Known K s)
    (slots? : Option (List (String × HostExpr))) :
    Composed l b K (initialSlots s slots?) Known := by
  cases slots? with
  | some slots =>
    exact (HostExpr.evalSlots_composed hk slots).bind fun _ _ hvalues =>
      .pure _ (Known.some_iff.mpr (Slots.known_ofList hvalues))
  | none => exact .pure _ .none

/-- **A class that is defined** was built from members within the license, and its defaults are known.
-/
theorem ClassSpec.define_composed {s : Scope} (hk : Known K s) (spec : ClassSpec Program)
    (h : Op.specWithin l spec = true) : Composed l b K (spec.define s) (Result.Within l) := by
  -- A class specification is as licensed as its declarations.
  have hds : Op.declarationsWithin l spec.declarations = true := by
    cases spec
    simpa only [Op.specWithin] using h
  have hnone : MembersWithin l K [] := List.forall_mem_nil _
  refine (declareAll_composed hk spec.declarations hds hnone).bind fun hK ms hms => ?_
  replace hk := hk.mono hK
  refine (Composed.holding _ (initialSlots_composed hk _)).bind ?_
  intro K' hK constructor hslots
  split
  · next info hinfo =>
    -- What was built has the members that were declared, and the defaults that were given.
    obtain ⟨-, -, hmembers, hconstructor, -⟩ := HostClass.build_ok hinfo
    have hwithin : MembersWithin l K' info.members := by
      intro m hm
      rw [hmembers] at hm
      exact (hms.mono hK) m (List.mem_reverse.mp hm)
    have hdeclared : info.Declared := HostClass.declared_of_build hinfo fun m hm =>
      (hwithin m (hmembers ▸ hm)).2.1
    refine (Composed.newClass info (fun m hm => (hwithin m hm).1) ?_ hdeclared).andThen fun _ c =>
      .pure _ (Result.within_leaving _ trivial (.of_named_eq_nil rfl))
    exact .hostClass (Known.list_iff.mpr fun m hm => (hwithin m hm).2.2) (hconstructor ▸ hslots)
  · exact .fails rfl

/-! ### Proxies -/

/-- A proxy operand has to be a userdata; whether it is a proxy is seen later. -/
theorem proxyOperand_composed {s : Scope} (hk : Known K s) (e : ScriptExpr) :
    Composed l b K (proxyOperand s e) fun _ _ => True := by
  refine (e.eval_composed hk).andThen fun _ v => ?_
  split
  · refine (Composed.seen (.ofRest fun _ _ => rfl)).andThen fun _ isProxy => ?_
    cases isProxy with
    | true => exact .give _
    | false => exact .fails rfl
  · exact .fails rfl

/-- What a proxy was made for is known. -/
theorem proxyState_composed (u : UserdataRef) :
    Composed l b K (proxyState u) fun K' p => Known K' p.target := by
  refine Composed.bind (P := fun K' p? => ∀ p, p? = some p → Known K' p.target)
    (.look _ (.inr fun w w' h => h.proxy?_eq u) fun _ w _ hk p hp => hk.proxy hp) ?_
  intro K' _ p? hp
  cases p? with
  | some p => exact .pure p (hp p rfl)
  | none => exact .fails rfl

/-- **Actions on proxies.** Reading and writing past the running context needs the host side or a
license, and so does what looks at declarations. -/
theorem ProxyAction.run_composed {s : Scope} (hk : Known K s) (a : ProxyAction)
    (h : l.admits host (.proxy a)) (hs : host = true → s.inCoroutine = false) :
    Composed l s.inCoroutine K (a.run s) (Result.Within l) := by
  cases a with
  | wrap object =>
    refine (objectOrReceiver_composed hk object).bind fun _ o ho => ?_
    refine bridge_composed.andThen fun hK via => ?_
    exact (toScript_composed via (.object o) (ho.mono hK)).bind
      fun _ _ hv => replyScript_composed hv
  | wrapClass cls =>
    refine (classVar_composed cls).andThen fun _ c => ?_
    refine bridge_composed.andThen fun _ via => ?_
    exact (Composed.newProxy via (.type c) .none).bind fun _ u hu => replyScript_composed hu
  | create subject from? =>
    -- From here on a class and an object are treated alike.
    have hrest {K} {t : Target} (ht : Known K t) : Composed l s.inCoroutine K
        (do
          let via ← bindingVar s from?
          let u ← newProxy via t
          replyScript (.userdata u)) (Result.Within l) :=
      (bindingVar_composed s from?).andThen fun hK via =>
        (Composed.newProxy via t (ht.mono hK)).bind fun _ u hu => replyScript_composed hu
    cases subject with
    | cls name => exact (classVar_composed name).andThen fun _ c => hrest .none
    | object name =>
      exact (objectOrReceiver_composed hk name).bind fun _ o ho =>
        hrest (t := .object o) (Known.some_iff.mpr ho)
  | describe proxy =>
    refine (proxyOperand_composed hk proxy).andThen fun _ u => ?_
    refine (proxyState_composed u).bind fun _ p _ => reply_composed fun w w' h => ?_
    simp only [World.proxyReport, h.isReleased_eq, h.view_eq, h.targetOf?_eq]
  | sameTarget a b =>
    refine (proxyOperand_composed hk a).andThen fun hK x => ?_
    refine (Composed.holding _ (proxyOperand_composed (hk.mono hK) b)).andThen fun _ y => ?_
    refine (proxyState_composed x).bind fun _ p _ => ?_
    refine (proxyState_composed y).bind fun _ q _ => reply_composed fun w w' h => ?_
    simp only [World.sameTarget, h.targetOf?_eq]
  | dispose proxy =>
    exact (proxyOperand_composed hk proxy).andThen fun _ u =>
      (Composed.dispose u).andThen fun _ _ => .pure _ Result.within_nothing
  | read proxy key =>
    have open? := s.open_of_admits hs h rfl
    refine (proxyOperand_composed hk proxy).andThen fun hK u => ?_
    refine (Composed.holding _ (key.eval_composed (hk.mono hK))).andThen fun _ k => ?_
    refine (proxyState_composed u).bind fun _ p hp => ?_
    refine (Composed.holding _ (failing_composed (readProxy_composed open? hp k))).bind ?_
    exact fun _ _ hv => replyScript_composed hv
  | write proxy key value =>
    have open? := s.open_of_admits hs h rfl
    refine (proxyOperand_composed hk proxy).andThen fun hK u => ?_
    replace hk := hk.mono hK
    refine (Composed.holding _ (key.eval_composed hk)).andThen fun hK k => ?_
    refine (Composed.holding _ (value.eval_composed (hk.mono hK))).bind fun _ v hv => ?_
    refine (proxyState_composed u).bind fun hK p hp => ?_
    have hwritten := writeProxy_composed open? hp k (hv.mono hK)
    exact (Composed.holding _ (failing_composed hwritten)).andThen
      fun _ _ => .pure _ Result.within_nothing
  | binding config =>
    exact (Composed.newBinding config (License.seeing_of_admits h rfl)).andThen fun _ r =>
      .pure _ (Result.within_leaving _ trivial (.of_named_eq_nil rfl))
  | liveCount of? =>
    exact (bindingVar_composed s of?).andThen fun _ b =>
      reply_composed fun w w' h => by rw [h.liveCount_eq]
  | cached object of? =>
    refine (objectOrReceiver_composed hk object).bind fun _ o _ => ?_
    refine (bindingVar_composed s of?).andThen fun _ b => ?_
    exact reply_composed fun w w' h => by rw [h.cachedProxy?_eq]
  | resolveWith cls key visibility =>
    refine (classVar_composed cls).andThen fun hK c => ?_
    refine (key.eval_composed (hk.mono hK)).andThen fun _ k => ?_
    exact reply_composed_of_seeing (License.seeing_of_admits h rfl)
  | resolve cls key onInstance of? =>
    refine (classVar_composed cls).andThen fun hK c => ?_
    refine (key.eval_composed (hk.mono hK)).andThen fun _ k => ?_
    refine (bindingVar_composed s of?).andThen fun _ b => reply_composed fun w w' h => ?_
    simp only [h.resolve]
  | decide cls policy =>
    exact (classVar_composed cls).andThen fun _ c =>
      reply_composed_of_seeing (License.seeing_of_admits h rfl)
  | sharedPolicy => exact .pure _ (Result.within_told _)

/-! ### Operations -/

/-- A failure that is stored holds no program. -/
theorem Failure.stored_within (f : Failure) : f.stored.Within l := by
  cases f <;> trivial

theorem Known.stored {f : Failure} (h : Known K f) : Known K f.stored := by
  cases f <;> exact h

namespace Disposition

/-- An answer is logged and withheld as the disposition says. -/
theorem deliver_composed (d : Disposition) (a : Answer) :
    Composed l b K (d.deliver a) Known := by
  unfold deliver
  cases d.logged with
  | true => exact (Composed.log a).andThen fun _ _ => .pure _ (.of_named_eq_nil rfl)
  | false => exact .pure _ (.of_named_eq_nil rfl)

/-- What is stored is within the license, because the result is and because errors are. -/
theorem settle_composed (d : Disposition) {m : Act Failure Result}
    (h : Composed l b K m (Result.Within l)) : Composed l b K (d.settle m) Known := by
  refine Composed.bind (.attempt h) fun _ r hr => ?_
  rcases r with f | r
  -- The failure is shown before it is stored, and then it is in a variable.
  · dsimp only
    split
    · exact .throw f hr
    · refine (Composed.seen fun w w' h => by rw [h.failureView_eq]).andThen fun hK a => ?_
      exact (Composed.assign _ _ f.stored_within (Known.mono hr hK).stored).andThen fun _ _ =>
        deliver_composed d a
  · refine (Composed.holding (P := fun _ _ => True) _ ?_).andThen fun _ a => deliver_composed d a
    -- The answer is looked at after the assignment, and is the same in alike worlds.
    have hanswer {K} : Composed l b K (look fun w => r.reply.answer w : Act Failure Answer)
        fun _ _ => True := .seen fun w w' h => h.answer_eq r.reply
    split
    · next name v _ hv =>
      obtain ⟨hwithin, hknown⟩ := hr v hv
      exact (Composed.assign name v hwithin hknown).andThen fun _ _ => hanswer
    · exact (Composed.give ()).andThen fun _ _ => hanswer

/-- A result that is given passes, and what was not given is settled like any other outcome. -/
theorem settleGiving_composed (d : Disposition) {m : Act Failure (Option Given)}
    (h : Composed l b K m Known) : Composed l b K (d.settleGiving m) Known := by
  refine Composed.bind (.attempt h) fun _ r hr => ?_
  rcases r with f | _ | g
  · exact settle_composed d (.throw f hr)
  · exact deliver_composed d .null
  · have hgiven : Known _ g := Known.some_iff.mp hr
    exact .pure _ hgiven

end Disposition

/-- Every kind of action is composed. -/
theorem Action.run_composed {call : Caller} (hcall : call.IsComposed l) {s : Scope}
    (hk : Known K s) (a : Action) (h : l.admits host a) (hs : host = true → s.inCoroutine = false) :
    Composed l s.inCoroutine K (a.run call s) (Result.Within l) := by
  cases a with
  | value a => exact a.run_composed hk h
  | table a => exact a.run_composed hk
  | call a => exact a.run_composed hcall hk h hs
  | error a => exact a.run_composed hk
  | conversion a => exact a.run_composed hk h hs
  | cls a => exact a.run_composed hk h hs
  | proxy a => exact a.run_composed hk h hs

mutual

/-- **One operation is composed**, by recursion on the operation. -/
theorem Op.run_composed {call : Caller} (hcall : call.IsComposed l) {K : Set Mention} {s : Scope}
    (hk : Known K s) (hs : host = true → s.inCoroutine = false) :
    ∀ op : Op, op.within l host = true → Composed l s.inCoroutine K (op.run call s) Known
  | .act d a => fun h => by
    unfold Op.run
    exact d.settle_composed (a.run_composed hcall hk h hs)
  | .giveScript d items => fun _ => by
    unfold Op.run
    exact d.settleGiving_composed ((items.eval_composed hk).bind fun _ vs hvs =>
      .pure _ (Known.some_iff.mpr hvs))
  | .giveHost d items => fun _ => by
    unfold Op.run
    exact d.settleGiving_composed ((items.eval_composed hk).bind fun _ vs hvs =>
      .pure _ (Known.some_iff.mpr hvs))
  | .branch d cond yes no => fun h => by
    simp only [Op.within, Bool.and_eq_true] at h
    unfold Op.run
    refine d.settleGiving_composed ((cond.eval_composed hk).andThen fun hK v => ?_)
    split
    · exact Op.runAll_composed hcall (hk.mono hK) hs yes h.1
    · exact Op.runAll_composed hcall (hk.mono hK) hs no h.2
  | .borrow d object mutably body => fun h => by
    unfold Op.run
    refine d.settleGiving_composed <| (objectOrReceiver_composed hk object).bind fun hK o _ => ?_
    have hbody := Op.runAll_composed hcall (hk.mono hK) hs body h
    exact .holding _ (.whileBorrowed o mutably _ (fun _ => .of_named_eq_nil rfl) hbody)
  | .function d name isHost isGlobal body => fun h => by
    unfold Op.run
    exact d.settle_composed (defineFunction_composed name isHost isGlobal body h)
  | .hostFunction d name params registration body => fun h => by
    unfold Op.run
    exact d.settle_composed (defineHostFunction_composed hk name params registration body h)
  | .cls d spec => fun h => by
    unfold Op.run
    exact d.settle_composed (spec.define_composed hk h)

/-- **Programs are composed.** -/
theorem Op.runAll_composed {call : Caller} (hcall : call.IsComposed l) {K : Set Mention}
    {s : Scope} (hk : Known K s) (hs : host = true → s.inCoroutine = false) :
    ∀ p : List Op, Op.allWithin l host p = true →
      Composed l s.inCoroutine K (Op.runAll call s p) Known
  | [] => fun _ => by
    unfold Op.runAll
    exact .pure _ .none
  | op :: rest => fun h => by
    simp only [Op.allWithin, Bool.and_eq_true] at h
    unfold Op.runAll
    refine (Op.run_composed hcall hk hs op h.1).bind fun hK r hr => ?_
    cases r with
    | give g => exact .pure _ (Known.some_iff.mpr hr)
    | answer a => exact Op.runAll_composed hcall (hk.mono hK) hs rest h.2

end

/-- **Calls are composed**, by induction on how deep they may nest. -/
theorem callWithin_composed (l : License) (n : Nat) : (callWithin n).IsComposed l := by
  induction n with
  | zero =>
    intro K b b' f vs _ _
    exact .runtimeError _
  | succ n ih =>
    -- Bodies are run with one call less, so what they call is composed already.
    have hrun : Runner.IsComposed l (Op.runAll (callWithin n)) := by
      intro K s host p hp hs hk
      exact Op.runAll_composed ih hk hs p hp
    intro K b b' f vs hb hvs
    exact .framed f hb (invokeCode_composed hrun f hvs)

/-- The operations of a session are composed, whatever is known. -/
theorem Op.top_composed (n : Nat) (K : Set Mention) {op : Op} (h : op.within l true = true) :
    Composed l false K (op.run (callWithin n) .top) Known :=
  Op.run_composed (callWithin_composed l n) .topScope (fun _ => rfl) op h

end ScriptHost
