import ScriptHost.Proofs.Confinement.Operands

/-!
# Programs inside a realm

Operations that take what they need from what is at hand (`Op.isLocal`) keep script inside, whatever
they do with it: one lemma for each group of actions, one for operations (`Op.run_keeps`), and from
it, by induction on how deep calls may nest, the same for every call of a function that script has
(`callWithin_keeps`). A call may run bodies of the realm. What is asked of these is `Realm.Honest`:
run with a receiver and arguments that lead nowhere else, and as long as the calls that they make
stay inside, they stay inside as well. What they do themselves is left open.

Bodies that take what they need from what is at hand are honest (`Realm.honest_of_local`).
-/

set_option autoImplicit false

namespace ScriptHost

open Act

variable {R : Realm} {S : Set Item} {α : Type}

/-- Calling a function that script has stays inside the realm. -/
def Caller.Keeps (R : Realm) (call : Caller) : Prop :=
  ∀ {S : Set Item} inCoroutine f vs, .function f ∈ S → Inside S vs →
    R.Keeps S (call inCoroutine f vs) Inside

/-! ### Results -/

namespace Realm.Keeps

/-- Telling something leaves nothing for a variable. -/
theorem reply (f : World → Answer) : R.Keeps S (Act.reply f : Act Failure Result) Inside :=
  .look fun _ _ _ => .none

/-- Leaving a value that is inside, and telling something. -/
theorem replyWith {v : Stored} (hv : Inside S v) (f : World → Answer) :
    R.Keeps S (Act.replyWith v f : Act Failure Result) Inside :=
  .holding _ (.look fun hS _ _ => Inside.some_iff.mpr (hv.mono hS))

/-- Leaving a script value that is inside. -/
theorem replyScript {v : ScriptValue} (hv : Inside S v) :
    R.Keeps S (Act.replyScript v : Act Failure Result) Inside :=
  replyWith (v := .script v) hv _

/-- Leaving the values that a call gave. -/
theorem replyScripts {vs : List ScriptValue} (hvs : Inside S vs) :
    R.Keeps S (Act.replyScripts vs : Act Failure Result) Inside :=
  replyWith (v := .scripts vs) hvs _

/-- A result exposes what it leaves. -/
theorem inside_result {s : Stored} (hs : Inside S s) {reply : Reply} {kept : List Handle} :
    Inside S (⟨reply, some s, kept⟩ : Result) := fun i hi => Inside.some_iff.mpr hs i hi

/-- A host value to show and to store. -/
theorem inside_host {v : HostValue} (hv : Inside S v) : Inside S (Result.host v) :=
  inside_result (s := .host v) hv

/-- What is told and not stored. -/
theorem tell (a : Answer) : R.Keeps S (Pure.pure (.told a) : Act Failure Result) Inside :=
  .give .none

/-- A result that is logged besides. -/
theorem logging {r : Result} (hr : Inside S r) :
    R.Keeps S (Act.logging r : Act Failure Result) Inside :=
  (holding _ seen).andThen fun hS a => (log a).andThen fun hS' _ => .give (hr.mono (hS.trans hS'))

end Realm.Keeps

/-! ### Actions -/

open Realm

/-- Actions on values, other than looking behind them. -/
theorem ValueAction.run_keeps {s : Scope} (hs : R.Scoped S s) (a : ValueAction)
    (h : (Action.value a).isLocal s.isHost = true) : R.Keeps S (a.run s) Inside := by
  cases a with
  | logScript e =>
    exact (e.eval_keeps hs).bind fun _ v hv =>
      (Keeps.replyScript hv).bind fun _ r hr => .logging hr
  | logHost e => exact (e.eval_keeps hs).bind fun _ v hv => .logging (Keeps.inside_host hv)
  | bind e => exact (e.eval_keeps hs).bind fun _ v hv => .replyScript hv
  | bindHost e => exact (e.eval_keeps hs).bind fun _ v hv => .give (Keeps.inside_host hv)
  | drop name => exact Keeps.seen.andThen fun _ _ => (Keeps.drop name).andThen fun _ _ => .tell _
  | arguments =>
    simp only [ValueAction.run]
    split
    · exact .replyScripts .nil
    · next hside => exact .replyScripts (hs.script hside)
    -- What a body of the host was called with is handed over in an array.
    · next args hside =>
      have hstored : Inside S (Stored.host (.array args)) :=
        Inside.array_iff.mpr (hs.host hside).2.2
      exact .replyWith hstored _
  | rawEquals x y => exact .pair hs fun _ _ _ _ _ => .tell _
  | equals x y => exact .pair hs fun _ _ _ _ _ => .reply _
  | display e => exact (e.eval_keeps hs).andThen fun _ _ => .reply _
  | state => exact .reply _
  | describe e =>
    exact (e.eval_keeps hs).bind fun _ v hv => .replyWith (v := .script v) hv _
  | userdata name tagged =>
    exact (Keeps.newUserdata (x := .foreign name tagged) trivial).bind fun _ u hu =>
      .replyScript (Inside.userdata_iff.mpr hu)
  | dump subject => cases h

/-- An operand that is to be a table. -/
theorem Realm.Keeps.tableOperand {s : Scope} (hs : R.Scoped S s) (e : ScriptExpr) :
    R.Keeps S (ScriptHost.tableOperand s e) fun S' t => .table t ∈ S' := by
  refine (e.eval_keeps hs).bind fun _ v hv => ?_
  cases v with
  | table t => exact .pure fun hS => hS (Inside.table_iff.mp hv)
  | _ => exact .fails rfl

/-- Actions on tables: what is taken out of a table that is inside is inside. -/
theorem TableAction.run_keeps {s : Scope} (hs : R.Scoped S s) (a : TableAction) :
    R.Keeps S (a.run s) Inside := by
  cases a with
  | get table key =>
    refine (Keeps.tableOperand hs table).bind fun hS t ht => ?_
    refine (Keeps.holding _ (key.eval_keeps (hs.mono hS))).bind fun hS' k _ => ?_
    refine Keeps.bind (P := Inside) (.look fun hS'' w hw => ?_) fun _ v hv => .replyScript hv
    exact Table.inside_get (hw.table (hS'' (hS' ht))) k
  | set table key value =>
    refine (Keeps.tableOperand hs table).bind fun hS t ht => ?_
    refine (Keeps.holding _ (key.eval_keeps (hs.mono hS))).bind fun hS' k hk => ?_
    refine (Keeps.holding _ (value.eval_keeps (hs.mono (hS.trans hS')))).bind fun hS'' v hv => ?_
    have hset := Keeps.setEntry (R := R) (hS'' (hS' ht)) (hk.mono hS'') hv
    exact hset.throwing.andThen fun _ _ => .reply _
  | describe table => exact (Keeps.tableOperand hs table).andThen fun _ _ => .reply _
  | contains table key =>
    refine (Keeps.tableOperand hs table).andThen fun hS t => ?_
    exact (Keeps.holding _ (key.eval_keeps (hs.mono hS))).andThen fun _ _ => .reply _

section Calls

variable {call : Caller} (hcall : call.Keeps R)
include hcall

/-- **Calls** of what script has. -/
theorem Realm.Keeps.apply (inCoroutine : Bool) {callee : ScriptValue} (hcallee : Inside S callee)
    {args : List ScriptValue} (hargs : Inside S args) :
    R.Keeps S (Act.apply call inCoroutine callee args) Inside := by
  cases callee with
  | function f => exact hcall inCoroutine f args (Inside.function_iff.mp hcallee) hargs
  | _ => exact .runtimeError _

/-- A method that is looked up through a proxy and called is open. -/
theorem Realm.Keeps.invoke (inCoroutine : Bool) {target : ScriptValue} (htarget : Inside S target)
    (key : ScriptValue) {args : List ScriptValue} (hargs : Inside S args) :
    R.Keeps S (Act.invoke call inCoroutine target key args) Inside :=
  (holding _ (index inCoroutine htarget key)).bind fun hS _ hcallee =>
    .holding _ (apply hcall inCoroutine hcallee (hargs.mono hS))

/-- A call of host code: what it passes is converted under the binding of the realm. -/
theorem Realm.Keeps.hostCall (inCoroutine : Bool) {callee : ScriptValue} (hcallee : Inside S callee)
    {args : List HostValue} (hargs : Inside S args) :
    R.Keeps S (Act.hostCall call inCoroutine R.via callee args) Inside :=
  (toScriptAll hargs).bind fun hS _ hvs => .catching (apply hcall inCoroutine (hcallee.mono hS) hvs)

/-- Actions that call, if what they call is at hand: a function that is inside, or one that is found on
the way. -/
theorem CallAction.run_keeps {s : Scope} (hs : R.Scoped S s) (a : CallAction)
    (h : (Action.call a).isLocal s.isHost = true) : R.Keeps S (a.run call s) Inside := by
  cases a with
  | call callee args =>
    refine (callee.eval_keeps hs).bind fun hS f hf => ?_
    refine (Keeps.holding _ (args.eval_keeps (hs.mono hS))).bind fun hS' vs hvs => .holding _ ?_
    have happly := Keeps.apply hcall s.inCoroutine (hf.mono hS') hvs
    exact happly.throwing.bind fun _ rs hrs => .replyScripts hrs
  | invoke target key args =>
    refine (target.eval_keeps hs).bind fun hS t ht => ?_
    refine (Keeps.holding _ (key.eval_keeps (hs.mono hS))).bind fun hS' k _ => ?_
    refine (Keeps.holding _ (args.eval_keeps (hs.mono (hS.trans hS')))).bind fun hS'' vs hvs => ?_
    have hinvoke := Keeps.invoke hcall s.inCoroutine (ht.mono (hS'.trans hS'')) k hvs
    exact .holding _ (hinvoke.throwing.bind fun _ rs hrs => .replyScripts hrs)
  | index target key =>
    refine .pair hs fun _ t k ht _ => .holding _ ?_
    exact (Keeps.index s.inCoroutine ht k).throwing.bind fun _ v hv => .replyScript hv
  | setIndex target key value =>
    refine (target.eval_keeps hs).bind fun hS t ht => ?_
    refine (Keeps.holding _ (key.eval_keeps (hs.mono hS))).bind fun hS' k hk => ?_
    refine (Keeps.holding _ (value.eval_keeps (hs.mono (hS.trans hS')))).bind fun hS'' v hv => ?_
    have hset := Keeps.setIndex (R := R) s.inCoroutine (ht.mono (hS'.trans hS'')) (hk.mono hS'') hv
    exact (Keeps.holding _ hset.throwing).andThen fun _ _ => .tell _
  | coroutine function =>
    refine (function.eval_keeps hs).bind fun _ v hv => ?_
    cases v with
    | function f =>
      refine (Keeps.newCoroutine (Inside.function_iff.mp hv)).bind fun _ c hc => ?_
      refine .replyWith (v := .coroutine c) (fun i hi => ?_) _
      -- The new coroutine is one of the items that script has from then on.
      exact List.mem_singleton.mp hi ▸ hc
    | _ => exact .fails rfl
  | coroutineStatus name => exact (Keeps.coroutineVar name).andThen fun _ _ => .reply _
  | resume name args =>
    refine (Keeps.coroutineVar name).bind fun hS c hc => ?_
    refine (args.eval_keeps (hs.mono hS)).bind fun hS' vs hvs => .holding _ ?_
    have hresume := Keeps.resume (R := R) (hS' hc) fun hS'' f hf =>
      hcall true f vs hf (hvs.mono hS'')
    exact hresume.throwing.bind fun _ rs hrs => .replyScripts hrs
  | guard name inCoroutine => exact (Keeps.guard _ name).failing.andThen fun _ _ => .tell _
  | callFunction callee args =>
    refine (callee.eval_keeps hs).bind fun hS f hf => ?_
    refine (Keeps.holding _ (args.eval_keeps (hs.mono hS))).bind fun hS' vs hvs => ?_
    -- Calls of the host are made from bodies under the binding of the realm.
    refine (Keeps.scopeBinding (hs.mono (hS.trans hS')) h).bind fun hS'' via hvia => .holding _ ?_
    subst hvia
    have hhost := Keeps.hostCall hcall s.inCoroutine (hf.mono (hS'.trans hS'')) (hvs.mono hS'')
    exact hhost.failing.bind fun _ rs hrs => .replyScripts hrs
  | callGlobal name args =>
    refine (args.eval_keeps hs).bind fun hS vs hvs => ?_
    refine (Keeps.scopeBinding (hs.mono hS) h).bind fun hS' via hvia => ?_
    subst hvia
    refine Keeps.bind (P := Inside)
      (.look fun _ w hw => Table.inside_get (hw.table hw.globals) _) fun hS'' f hf => ?_
    have hhost := Keeps.hostCall hcall s.inCoroutine hf (hvs.mono (hS'.trans hS''))
    exact (Keeps.holding _ hhost.failing).bind fun _ rs hrs => .replyScripts hrs
  | _ => cases h

end Calls

/-- Actions on errors: what is raised, stored or translated is inside, or a carrier of what is. -/
theorem ErrorAction.run_keeps {s : Scope} (hs : R.Scoped S s) (a : ErrorAction) :
    R.Keeps S (a.run s) Inside := by
  cases a with
  | raise e =>
    refine (e.eval_keeps hs).bind fun _ v hv => ?_
    unfold raiseIn
    split
    · exact .failWith fun _ => hv
    · exact (Keeps.raise hv).throwing
  | raiseBare e => exact (e.eval_keeps hs).bind fun _ v hv => .throw hv
  | runtimeError message => exact (Keeps.runtimeError message).throwing
  | fail message => exact .fails rfl
  | rethrow name => exact (Keeps.failureVar name).bind fun _ f hf => .throw hf
  | translate name =>
    refine (Keeps.failureVar name).bind fun {S'} hS f hf => ?_
    cases f with
    | raised e =>
      refine Keeps.bind (P := Inside) (.look fun hS' w hw => hw.unwrapError (hf.mono hS')) ?_
      exact fun _ b hb => .replyWith (v := .failed b) hb _
    | failed e =>
      have he : Inside S' e := hf
      exact (Keeps.toScriptError he).throwing.bind fun _ r hr => .replyWith (v := .raised r) hr _
  | carry name =>
    refine Keeps.bind (P := Inside) (.variableAs (fun {S'} s e hs he => ?_) fun _ hS h => h.mono hS)
      fun _ e he => ?_
    · cases s with
      | failed f => exact Option.some.inj he ▸ hs
      | _ => cases he
    · exact (Keeps.newUserdata (x := .carrier e) he).bind fun _ u hu =>
        .replyScript (Inside.userdata_iff.mpr hu)
  | describe name => exact (Keeps.failureVar name).andThen fun _ _ => .reply _

/-- Conversions, which bodies of the host make under the binding of the realm. -/
theorem ConversionAction.run_keeps {s : Scope} (hs : R.Scoped S s) (a : ConversionAction)
    (h : (Action.conversion a).isLocal s.isHost = true) : R.Keeps S (a.run s) Inside := by
  cases a with
  | toHost e type =>
    refine (e.eval_keeps hs).bind fun hS v hv => ?_
    refine (type.eval_keeps).andThen fun hS' t => ?_
    -- Only bodies of the host convert, and they do so under the binding of the realm.
    refine (Keeps.scopeBinding (hs.mono (hS.trans hS')) h).bind fun hS'' via hvia => ?_
    subst hvia
    have hconvert := (Keeps.toHost (R := R) t (hv.mono (hS'.trans hS''))).converting.failing
    exact (Keeps.holding _ hconvert).bind fun _ x hx => .give (Keeps.inside_host hx)
  | toScript e =>
    refine (e.eval_keeps hs).bind fun hS x hx => ?_
    refine (Keeps.scopeBinding (hs.mono hS) h).bind fun hS' via hvia => ?_
    subst hvia
    exact (Keeps.holding _ (.toScript x (hx.mono hS'))).bind fun _ v hv => .replyScript hv
  | describe e => exact (e.eval_keeps hs).bind fun _ x hx => .replyWith (v := .host x) hx _
  | equals x y =>
    exact (x.eval_keeps hs).andThen fun hS _ =>
      (Keeps.holding _ (y.eval_keeps (hs.mono hS))).andThen fun _ _ => .tell _
  | describeType t => exact t.eval_keeps.andThen fun _ _ => .tell _
  | typeEquals x y => exact x.eval_keeps.andThen fun _ _ => y.eval_keeps.andThen fun _ _ => .tell _

/-- An object that is left for a variable is one that script may get hold of. -/
theorem Realm.Keeps.inside_object {o : ObjectRef} (ho : .target (.object o) ∈ S) :
    Inside S (Result.object o) :=
  Keeps.inside_result (s := .object o) (Inside.objectRef_iff.mpr ho)

/-- Actions on classes and objects: making an object gives what the class itself gives, and writing a
slot stores what is inside. -/
theorem ClassAction.run_keeps {s : Scope} (hs : R.Scoped S s) (a : ClassAction)
    (h : (Action.cls a).isLocal s.isHost = true) : R.Keeps S (a.run s) Inside := by
  cases a with
  | instantiate name slots =>
    refine (Keeps.classVar name).andThen fun hS c => ?_
    refine (HostExpr.evalSlots_keeps (hs.mono hS) slots).bind fun _ vs hvs => ?_
    exact (Keeps.instantiate c hvs).failing.bind fun _ o ho => .give (Keeps.inside_object ho)
  | construct name =>
    refine (Keeps.classVar name).andThen fun _ c => ?_
    exact (Keeps.construct c).converting.failing.bind fun _ o ho => .give (Keeps.inside_object ho)
  | setSlot object slot value =>
    refine (Keeps.objectOrReceiver hs object).bind fun hS o _ => ?_
    refine (value.eval_keeps (hs.mono hS)).bind fun _ v hv => ?_
    exact (Keeps.writeSlot o slot hv).failing.andThen fun _ _ => .tell _
  | _ => cases h

/-- **Every local action** keeps script inside the realm. -/
theorem Action.run_keeps {call : Caller} (hcall : call.Keeps R) {s : Scope} (hs : R.Scoped S s)
    (a : Action) (h : a.isLocal s.isHost = true) : R.Keeps S (a.run call s) Inside := by
  cases a with
  | value a => exact a.run_keeps hs h
  | table a => exact a.run_keeps hs
  | call a => exact a.run_keeps hcall hs h
  | error a => exact a.run_keeps hs
  | conversion a => exact a.run_keeps hs h
  | cls a => exact a.run_keeps hs h
  | proxy a => cases h

/-! ### Operations -/

namespace Realm.Keeps

theorem deliver (d : Disposition) (a : Answer) : R.Keeps S (d.deliver a) Inside := by
  unfold Disposition.deliver
  cases d.logged with
  | true => exact (log a).andThen fun _ _ => .give (.of_exposed_eq_nil rfl)
  | false => exact .give (.of_exposed_eq_nil rfl)

/-- A result and a caught failure are stored, so what they expose is exposed by a variable. -/
theorem settle (d : Disposition) {m : Act Failure Result} (h : R.Keeps S m Inside) :
    R.Keeps S (d.settle m) Inside := by
  refine Keeps.bind (.attempt h) fun {S'} _ r hr => ?_
  rcases r with f | r
  -- A failure goes into a variable, where it was to be caught, or on.
  · cases hcatch : d.catchAs with
    | none => exact .throw hr
    | some name =>
      have hstored : Inside S' f.stored := Inside.stored hr
      exact seen.andThen fun hS a => (assign name (hstored.mono hS)).andThen fun _ _ => deliver d a
  -- The result goes into its variable, and its answer to where it is told.
  · refine Keeps.bind (P := fun _ _ => True) (.holding _ ?_) fun _ a _ => deliver d a
    split
    · next name v _ hv =>
      have hin : Inside S' v := by
        have hstore : Inside S' r.store := hr
        rw [hv] at hstore
        exact Inside.some_iff.mp hstore
      exact (assign name hin).andThen fun _ _ => seen
    · exact seen

/-- The same where something is given to the caller. -/
theorem settleGiving (d : Disposition) {m : Act Failure (Option Given)} (h : R.Keeps S m Inside) :
    R.Keeps S (d.settleGiving m) Inside := by
  refine Keeps.bind (.attempt h) fun _ r hr => ?_
  rcases r with f | _ | g
  · exact settle d (.throw hr)
  · exact deliver d .null
  · have hgiven : Inside _ g := Inside.some_iff.mp hr
    exact .give (a := Outcome.give g) hgiven

/-- A function that script defines is one of script. -/
theorem defineFunction (name : String) (isHost isGlobal : Bool) {body : Program}
    (h : Op.allLocal false body = true) :
    R.Keeps S (ScriptHost.defineFunction name isHost isGlobal body) Inside := by
  have hbound : R.Bound S ⟨name, if isHost then .host else .script, .script body⟩ := h
  refine (newFunction hbound).bind fun _ f hf => ?_
  have hvalue := Inside.function_iff.mpr hf
  -- A global function is entered into the table of globals, which is inside.
  cases isGlobal with
  | true =>
    refine Keeps.bind (P := fun S' t => .table t ∈ S') (.look fun _ w hw => hw.globals) ?_
    intro S' hS t ht
    have hkey : Inside S' (ScriptValue.string name) := .of_exposed_eq_nil rfl
    have hset := setEntry (R := R) ht hkey (hvalue.mono hS)
    exact hset.throwing.andThen fun hS' _ => .replyScript (hvalue.mono (hS.trans hS'))
  | false => exact .replyScript hvalue

end Realm.Keeps

mutual

/-- **An operation on what is at hand** keeps script inside the realm, by recursion on the
operation. -/
theorem Op.run_keeps {call : Caller} (hcall : call.Keeps R) {S : Set Item} {s : Scope}
    (hs : R.Scoped S s) : ∀ op : Op, op.isLocal s.isHost = true → R.Keeps S (op.run call s) Inside
  | .act d a => fun h => by
    unfold Op.run
    exact .settle d (a.run_keeps hcall hs h)
  | .giveScript d items => fun _ => by
    unfold Op.run
    refine .settleGiving d ((items.eval_keeps hs).bind fun {S'} _ vs hvs => ?_)
    have hgiven : Inside S' (Given.script vs) := hvs
    exact .give (Inside.some_iff.mpr hgiven)
  | .giveHost d items => fun _ => by
    unfold Op.run
    refine .settleGiving d ((items.eval_keeps hs).bind fun {S'} _ vs hvs => ?_)
    have hgiven : Inside S' (Given.host vs) := hvs
    exact .give (Inside.some_iff.mpr hgiven)
  | .branch d cond yes no => fun h => by
    simp only [Op.isLocal, Bool.and_eq_true] at h
    unfold Op.run
    refine .settleGiving d ((cond.eval_keeps hs).andThen fun hS v => ?_)
    split
    · exact Op.runAll_keeps hcall (hs.mono hS) yes h.1
    · exact Op.runAll_keeps hcall (hs.mono hS) no h.2
  | .function d name isHost isGlobal body => fun h => by
    unfold Op.run
    exact .settle d (.defineFunction name isHost isGlobal h)
  -- Operations that look behind objects and classes are not local.
  | .borrow _ _ _ _ => nofun
  | .hostFunction _ _ _ _ _ => nofun
  | .cls _ _ => nofun

/-- **Programs** keep script inside if each of their operations does. -/
theorem Op.runAll_keeps {call : Caller} (hcall : call.Keeps R) {S : Set Item} {s : Scope}
    (hs : R.Scoped S s) : ∀ p : List Op, Op.allLocal s.isHost p = true →
      R.Keeps S (Op.runAll call s p) Inside
  | [] => fun _ => by
    unfold Op.runAll
    exact .give .none
  -- What the first operation has given script is inside when the others run.
  | op :: rest => fun h => by
    simp only [Op.allLocal, Bool.and_eq_true] at h
    unfold Op.runAll
    refine (Op.run_keeps hcall hs op h.1).bind fun hS r hr => ?_
    cases r with
    | give g =>
      have hgiven : Inside _ g := hr
      exact .give (Inside.some_iff.mpr hgiven)
    | answer a => exact Op.runAll_keeps hcall (hs.mono hS) rest h.2

end

/-! ### Calls -/

namespace Realm

/-- The bodies of the realm: of its host functions and of the methods that it opens. -/
def Runs (R : Realm) (body : Program) : Prop :=
  R.methods body ∨ ∃ h, R.functions h ∧ h.body = body

/-- Run with a receiver and with arguments that lead nowhere else, a body of the realm stays inside
it, and what it gives or fails with does too. -/
def KeepsBodies (R : Realm) (call : Caller) : Prop :=
  ∀ {S : Set Item} body receiver args, R.Runs body → Inside S receiver → Inside S args →
    R.Keeps S (runHostBody (Op.runAll call) false R.via receiver body args) Inside

/-- **Host code introduces nothing foreign**, as long as what it calls back does not. -/
def Honest (R : Realm) : Prop := ∀ n, (callWithin n).Keeps R → R.KeepsBodies (callWithin n)

/-- **Bodies that take what they need from what is at hand are honest**: objects and classes that
variables hold, instances that they make, what they were passed. -/
theorem honest_of_local (h : ∀ body, R.Runs body → Op.allLocal true body = true) : R.Honest := by
  intro n hcall S body receiver args hbody hreceiver hargs
  have hs : R.Scoped S ⟨false, .host R.via receiver args⟩ := ⟨rfl, hreceiver, hargs⟩
  have hgiven := (Op.runAll_keeps hcall hs body (h body hbody)).intoHost
  exact (Keeps.holding _ hgiven).bind fun _ _ hg => .give hg.givenHost

section Bodies

variable {call : Caller} (hcall : call.Keeps R) (hbodies : R.KeepsBodies call)

/-- Arguments are converted one after another. -/
theorem Keeps.acceptEach (ts : List HostType) {args : List ScriptValue} (hargs : Inside S args) :
    R.Keeps S (Act.acceptEach R.via ts args) Inside := by
  induction ts generalizing S args with
  | nil => exact .give .nil
  | cons t ts ih =>
    have hfirst : Inside S (args.headD .nil) ∧ Inside S args.tail := by
      cases args with
      | nil => exact ⟨.nilValue, .nil⟩
      | cons v vs => exact ⟨hargs.head, hargs.tail⟩
    exact (toHost t hfirst.1).converting.bind fun hS h hh =>
      (holding _ (ih (hfirst.2.mono hS))).bind fun hS' hs hhs => .give (.cons (hh.mono hS') hhs)

/-- **Host code on behalf of a script call**: the arguments are converted under the binding, and so
is what the body gives. -/
theorem Keeps.runHostCode (inCoroutine : Bool) {name : String} {params : List HostType}
    (hadmitted : ∀ args, R.Admits S (.body R.via name params args)) {args : List ScriptValue}
    (hargs : Inside S args) {body : List HostValue → Act HostFailure (List HostValue)}
    (hbody : inCoroutine = false → ∀ {S'}, S ⊆ S' → ∀ {vs}, Inside S' vs →
      R.Keeps S' (body vs) Inside) :
    R.Keeps S (Act.runHostCode inCoroutine R.via name params args body) Inside := by
  -- The body runs outside of coroutines, and with arguments that are inside.
  refine (raising (guard inCoroutine name) fun _ _ hb => hb).bind fun {S'} hS _ hb => ?_
  have haccepted : R.Keeps S' (Act.acceptArgs R.via name params args) Inside := by
    unfold Act.acceptArgs
    split
    · exact .fails rfl
    · exact acceptEach params (hargs.mono hS)
  refine (raising (holding _ haccepted) fun _ hS hin => hin.mono hS).bind fun hS' vs hvs => ?_
  have hsub := hS.trans hS'
  have hrun := (note (ε := HostFailure) ((hadmitted vs).mono hsub)).andThen fun hS'' _ =>
    hbody hb (hsub.trans hS'') (hvs.mono hS'')
  exact (raising hrun fun _ hS hin => hin.mono hS).bind fun _ _ hresults => .toScriptAll hresults

/-- The receiver of a method is its target. -/
theorem Keeps.methodReceiver {t : Target} (ht : .target t ∈ S) (m : Method) :
    R.Keeps S (Act.methodReceiver t m) Inside := by
  unfold Act.methodReceiver
  split
  · exact .give .none
  · refine (needReceiver _ _ _).bind fun hS o ho => .give (Inside.some_iff.mpr ?_)
    cases t with
    | type c => cases ho
    | object q =>
      obtain rfl := Option.some.inj ho
      exact Inside.objectRef_iff.mpr (hS ht)

/-- The arguments without the receiver are some of the arguments. -/
theorem inside_withoutSelf (w : World) (t : Target) (arity : Nat) {args : List ScriptValue}
    (hargs : Inside S args) : Inside S (withoutSelf w t arity args) := by
  unfold withoutSelf
  split
  · cases args with
    | nil => exact .nil
    | cons v vs => exact hargs.tail
  · exact hargs

include hcall hbodies

/-- **The code of a function that script has**: a script body, or a body of the realm. -/
theorem Keeps.invokeCode (inCoroutine : Bool) {f : FunctionRef} (hf : .function f ∈ S)
    {args : List ScriptValue} (hargs : Inside S args) :
    R.Keeps S (Act.invokeCode (Op.runAll call) inCoroutine f args) Inside := by
  refine Keeps.bind (P := fun S' fn => R.Bound S' fn)
    (.look fun hS w hw => hw.function (hS hf)) fun hS fn hfn => ?_
  replace hargs := hargs.mono hS
  split
  · next body hcode =>
    have hs : R.Scoped _ ⟨inCoroutine, .script args⟩ := hargs
    have hbody := Op.runAll_keeps hcall hs body (hfn.script hcode)
    exact (holding _ hbody.intoScript).bind fun _ _ hg =>
      .give hg.givenScript
  · next via h hcode =>
    obtain ⟨rfl, hfunction⟩ := hfn.host hcode
    refine runHostCode inCoroutine (fun _ => ⟨rfl, .inl ⟨h, hfunction, rfl, rfl⟩⟩) hargs ?_
    intro hb _ _ vs hvs
    exact hb ▸ hbodies h.body none vs (.inr ⟨h, hfunction, rfl⟩) .none hvs
  · next via named m hcode =>
    obtain ⟨rfl, hname, hbody, ht, hm⟩ := hfn.method hcode
    -- What the method runs on is the target under which it is open.
    refine (raising (reachTarget ht) fun _ hS ht => hS ht).bind fun hS t htarget => .holding _ ?_
    refine Keeps.bind (P := Inside)
      (.look fun hS' w _ => inside_withoutSelf w t _ (hargs.mono (hS.trans hS'))) ?_
    intro S' hS' rest hrest
    refine runHostCode inCoroutine (fun _ => ⟨rfl, .inr ?_⟩) hrest fun hb _ hS'' vs hvs => ?_
    · exact ⟨named.cls, named.isInstance, m, hS' (hS hm), hname, rfl⟩
    refine (methodReceiver (hS'' (hS' htarget)) m).bind fun hS₃ r hr => ?_
    exact hb ▸ hbodies m.body r vs (.inl hbody) hr (hvs.mono hS₃)

end Bodies

end Realm

/-- **Calls stay inside the realm**, by induction on how deep they may nest: bodies are run with one
call less, so what they call stays inside already. -/
theorem callWithin_keeps (hR : R.Honest) (n : Nat) : (callWithin n).Keeps R := by
  induction n with
  | zero =>
    intro S inCoroutine f vs _ _
    exact .runtimeError _
  | succ n ih =>
    intro S inCoroutine f vs hf hvs
    exact .framed inCoroutine hf (.invokeCode ih (hR n ih) inCoroutine hf hvs)

end ScriptHost
