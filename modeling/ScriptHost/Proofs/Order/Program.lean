import ScriptHost.Proofs.Act.Effects
import ScriptHost.Proofs.BuiltClass
import ScriptHost.Proofs.Order.Operand

/-!
# Programs build classes in order

Functions, host functions and classes are defined by operations of their own, proxies and host
functions make functions when they are asked for one, and calls run bodies that do all of this. What
is left for a variable is a class only where a class was built just before.

Main statements: `Op.run_orderly`, by recursion on the operation, `callWithin_orderly`, by induction
on how deep calls may nest, and `World.Tidy.after` for sessions of closed programs.
-/

set_option autoImplicit false

namespace ScriptHost

open Act

variable {n : Nat} {s : Scope}

/-! ### Results -/

/-- What is left for a variable is closed and has been built. -/
def Result.InOrder (n : Nat) (r : Result) : Prop := ∀ v, r.store = some v → v.Closed ∧ v.Below n

namespace Result

/-- What was built before is built later. -/
theorem InOrder.mono {k : Nat} {r : Result} (h : r.InOrder n) (hk : n ≤ k) : r.InOrder k :=
  fun v hv => ⟨(h v hv).1, (h v hv).2.mono hk⟩

/-- An answer leaves nothing for a variable. -/
theorem inOrder_told (a : Answer) : (told a).InOrder n := nofun

/-- What is left is what may be held. -/
theorem inOrder_leaving {v : Stored} (hc : v.Closed) (hv : v.Below n) (a : Answer) :
    (leaving v a).InOrder n := fun _ hx => Option.some.inj hx ▸ ⟨hc, hv⟩

/-- Host values are no classes. -/
theorem inOrder_host (v : HostValue) : (host v).InOrder n :=
  fun _ hx => Option.some.inj hx ▸ ⟨trivial, trivial⟩

/-- Neither are objects. -/
theorem inOrder_object (o : ObjectRef) : (object o).InOrder n :=
  fun _ hx => Option.some.inj hx ▸ ⟨trivial, trivial⟩

end Result

namespace Act.Orderly

theorem tell (a : Answer) :
    Orderly n (Pure.pure (.told a) : Act Failure Result) Result.InOrder :=
  .pure fun _ _ => Result.inOrder_told a

theorem reply (f : World → Answer) :
    Orderly n (Act.reply f : Act Failure Result) Result.InOrder :=
  .look fun _ _ _ => Result.inOrder_told _

theorem replyWith {v : Stored} (hc : v.Closed) (hv : v.Below n) (f : World → Answer) :
    Orderly n (Act.replyWith v f : Act Failure Result) Result.InOrder :=
  .holding _ (.look fun _ _ hn => Result.inOrder_leaving hc (hv.mono hn) _)

theorem replyScript (v : ScriptValue) :
    Orderly n (Act.replyScript v : Act Failure Result) Result.InOrder :=
  replyWith (v := .script v) trivial trivial _

theorem replyScripts (vs : List ScriptValue) :
    Orderly n (Act.replyScripts vs : Act Failure Result) Result.InOrder :=
  replyWith (v := .scripts vs) trivial trivial _

theorem giveHost (v : HostValue) :
    Orderly n (Pure.pure (.host v) : Act Failure Result) Result.InOrder :=
  .pure fun _ _ => Result.inOrder_host v

theorem giveObject (o : ObjectRef) :
    Orderly n (Pure.pure (.object o) : Act Failure Result) Result.InOrder :=
  .pure fun _ _ => Result.inOrder_object o

/-- A result that is logged is the same result. -/
theorem logging {r : Result} (hr : r.InOrder n) :
    Orderly n (Act.logging r : Act Failure Result) Result.InOrder :=
  ((Quiet.look _).holding _).andThen fun a => (Quiet.log a).andThen fun _ =>
    .pure fun _ hk => hr.mono hk

end Act.Orderly

/-! ### Actions that call nothing -/

/-- Descriptions are texts of what operands give. -/
theorem DumpSubject.text_quiet (s : Scope) (subject : DumpSubject) : Quiet (subject.text s) := by
  cases subject with
  | var name => exact (Quiet.readVar name).bind fun _ => .look _
  | host e => exact (e.eval_quiet s).bind fun _ => .look _
  | type t => exact t.eval_quiet.bind fun _ => .pure _
  | context => exact .look _
  | bridge => exact .look _
  | proxy e => exact (e.eval_quiet s).bind fun _ => .look _
  | config c => exact .pure _
  | function e => exact (e.eval_quiet s).bind fun _ => .look _
  | userdata e => exact (e.eval_quiet s).bind fun _ => .look _
  | value e => exact (e.eval_quiet s).bind fun _ => .look _

/-- Values are given as they are. -/
theorem ValueAction.run_orderly (a : ValueAction) : Orderly n (a.run s) Result.InOrder := by
  cases a with
  | logScript e =>
    exact (e.eval_quiet s).andThen fun v => (Orderly.replyScript v).bind fun _ _ _ hr =>
      .logging hr
  | logHost e =>
    exact (e.eval_quiet s).andThen fun v => .logging (Result.inOrder_host v)
  | bind e => exact (e.eval_quiet s).andThen fun v => .replyScript v
  | bindHost e => exact (e.eval_quiet s).andThen fun v => .giveHost v
  | drop name =>
    exact (Quiet.look _).andThen fun _ => (Orderly.dropVar name).andThen fun _ _ _ => .tell _
  | arguments =>
    simp only [ValueAction.run]
    split
    · exact .replyScripts _
    · exact .replyScripts _
    · next args _ => exact .replyWith (v := .host (.array args)) trivial trivial _
  | state => exact .reply _
  | describe e =>
    exact (e.eval_quiet s).andThen fun v => .replyWith (v := .script v) trivial trivial _
  | rawEquals a b =>
    exact (a.eval_quiet s).andThen fun _ => ((b.eval_quiet s).holding _).andThen fun _ => .tell _
  | equals a b =>
    exact (a.eval_quiet s).andThen fun _ => ((b.eval_quiet s).holding _).andThen fun _ => .reply _
  | display e => exact (e.eval_quiet s).andThen fun _ => .reply _
  | userdata name tagged => exact (Quiet.newUserdata _).andThen fun _ => .replyScript _
  | dump subject => exact (subject.text_quiet s).andThen fun _ => .tell _

/-- Tables are read and written, and what is read is a script value. -/
theorem TableAction.run_orderly (a : TableAction) : Orderly n (a.run s) Result.InOrder := by
  cases a with
  | get table key =>
    exact (Quiet.tableOperand table).andThen fun _ => ((key.eval_quiet s).holding _).andThen
      fun _ => (Quiet.look _).andThen fun v => .replyScript v
  | set table key value =>
    exact (Quiet.tableOperand table).andThen fun t => ((key.eval_quiet s).holding _).andThen
      fun k => ((value.eval_quiet s).holding _).andThen fun v =>
        (Quiet.setEntry t k v).throwing.andThen fun _ => .reply _
  | describe table => exact (Quiet.tableOperand table).andThen fun _ => .reply _
  | contains table key =>
    exact (Quiet.tableOperand table).andThen fun _ => ((key.eval_quiet s).holding _).andThen
      fun _ => .reply _

/-- Errors are raised, translated and described. -/
theorem ErrorAction.run_orderly (a : ErrorAction) : Orderly n (a.run s) Result.InOrder := by
  cases a with
  | raise e =>
    refine (e.eval_quiet s).andThen fun v => ?_
    unfold raiseIn
    split
    · exact .failWith _
    · exact .mapError _ (.failWith _)
  | raiseBare e => exact (e.eval_quiet s).andThen fun _ => .throw _
  | runtimeError message => exact .mapError _ (.failWith _)
  | fail message => exact .throw _
  | rethrow name => exact (Quiet.variableAs _ name _).andThen fun _ => .throw _
  | translate name =>
    refine (Quiet.variableAs _ name _).andThen fun f => ?_
    cases f with
    | raised e =>
      exact (Quiet.look _).andThen fun b => .replyWith (v := .failed b) trivial trivial _
    | failed e =>
      exact (Quiet.toScriptError e).throwing.andThen fun r =>
        .replyWith (v := .raised r) trivial trivial _
  | carry name =>
    exact (Quiet.variableAs _ name _).andThen fun _ => (Quiet.newUserdata _).andThen fun _ =>
      .replyScript _
  | describe name => exact (Quiet.variableAs _ name _).andThen fun _ => .reply _

/-- Conversions give values. -/
theorem ConversionAction.run_orderly (a : ConversionAction) :
    Orderly n (a.run s) Result.InOrder := by
  cases a with
  | toHost e type =>
    exact (e.eval_quiet s).andThen fun v => type.eval_quiet.andThen fun t =>
      (Quiet.look _).andThen fun via =>
        ((Quiet.toHost via t v).converting.failing.holding _).andThen fun x => .giveHost x
  | toScript e =>
    exact (e.eval_quiet s).andThen fun x => (Quiet.look _).andThen fun via =>
      ((Quiet.toScript via x).holding _).andThen fun v => .replyScript v
  | describe e =>
    exact (e.eval_quiet s).andThen fun x => .replyWith (v := .host x) trivial trivial _
  | equals x y =>
    exact (x.eval_quiet s).andThen fun _ => ((y.eval_quiet s).holding _).andThen fun _ => .tell _
  | describeType t => exact t.eval_quiet.andThen fun _ => .tell _
  | typeEquals x y => exact x.eval_quiet.andThen fun _ => y.eval_quiet.andThen fun _ => .tell _

/-- The actions on classes use those that variables hold, and build none. -/
theorem ClassAction.run_orderly (a : ClassAction) : Orderly n (a.run s) Result.InOrder := by
  cases a with
  | id name => exact .tell _
  | membersNamed cls name => exact (Quiet.variableAs _ cls _).andThen fun _ => .reply _
  | register cls as =>
    exact (Quiet.variableAs _ cls _).andThen fun c => (Quiet.registerClass c _).andThen fun _ =>
      .tell _
  | instantiate cls initial =>
    exact (Quiet.variableAs _ cls _).andThen fun c =>
      (HostExpr.evalSlots_quiet s initial).andThen fun _ =>
        (Quiet.instantiate c _).failing.andThen fun o => .giveObject o
  | instantiateAs cls payload =>
    exact (Quiet.variableAs _ cls _).andThen fun c =>
      (Quiet.instantiate c _).failing.andThen fun o => .giveObject o
  | construct cls =>
    exact (Quiet.variableAs _ cls _).andThen fun c =>
      (Quiet.construct c).converting.failing.andThen fun o => .giveObject o
  | slots object => exact (Quiet.objectOrReceiver s object).andThen fun _ => .reply _
  | getSlot object slot =>
    exact (Quiet.objectOrReceiver s object).andThen fun o =>
      (Quiet.readSlot o slot).failing.andThen fun v => .pure fun _ _ => Result.inOrder_host v
  | setSlot object slot value =>
    exact (Quiet.objectOrReceiver s object).andThen fun o => (value.eval_quiet s).andThen fun v =>
      (Quiet.writeSlot o slot v).failing.andThen fun _ => .tell _
  | borrowAs object payload mutably =>
    exact (Quiet.objectOrReceiver s object).andThen fun o =>
      (Quiet.borrowed o mutably payload).failing.andThen fun _ => .tell _
  | sameObject a b =>
    exact (Quiet.variableAs _ a _).andThen fun _ => (Quiet.variableAs _ b _).andThen fun _ =>
      .reply _
  | downgrade object =>
    exact (Quiet.objectOrReceiver s object).andThen fun o =>
      .pure fun _ _ => Result.inOrder_leaving (v := .weak o) trivial trivial _
  | describeWeak name => exact (Quiet.variableAs _ name _).andThen fun _ => .reply _
  | upgrade name =>
    refine (Quiet.variableAs _ name _).andThen fun o => (Quiet.look _).andThen fun alive => ?_
    cases alive with
    | true => exact .giveObject o
    | false => exact .tell _
  | display object => exact (Quiet.objectOrReceiver s object).andThen fun _ => .reply _

/-! ### Functions and proxies -/

namespace Act.Orderly

/-- A method that was found is closed, so its function may be made. -/
theorem readProxy (p : Proxy) (key : ScriptValue) :
    Orderly n (Act.readProxy p key) fun _ _ => True := by
  refine (Quiet.namedTarget p).andThen fun t => (Quiet.reachTarget t).andThen fun t => ?_
  split
  · exact .done _
  · next k =>
    refine Orderly.bind (P := fun _ ms => ∀ m ∈ ms, m.Closed)
      (.look fun w hw _ m hm => hw.resolve hm) fun _ _ ms hms => ?_
    split
    · next m =>
      have hclosed : Op.allClosed m.body := hms (.method m) List.mem_cons_self
      exact (Orderly.newFunction (f := ⟨_, .host, .method p.via t m⟩) hclosed).andThen
        fun _ _ _ => .done _
    · refine (Quiet.readMember p.via t.cls t.receiver? _).andThen fun v? => ?_
      cases v? with
      | some v => exact (Quiet.toScript p.via v).orderly
      | none => exact .done _
    · exact .done _

/-- An act that is raised promises the same of what it gives. -/
theorem raising {α : Type} {m : Act HostFailure α} {Q : Nat → α → Prop} (h : Orderly n m Q)
    (hQ : ∀ k k' a, k ≤ k' → Q k a → Q k' a) : Orderly n (Act.raising m) Q := by
  -- An error becomes a script value, which needs no class.
  refine h.attempt.bind fun k _ r hr => ?_
  cases r with
  | ok a => exact .pure fun k' hk => hQ k k' a hk (hr a rfl)
  | error e => exact (Quiet.toScriptError e).andThen fun _ => .throw _

/-- Only a proxy makes a function when it is asked for a member. -/
theorem index (inCoroutine : Bool) (target key : ScriptValue) :
    Orderly n (Act.index inCoroutine target key) fun _ _ => True := by
  cases target with
  | table t => exact (Quiet.look _).orderly
  | userdata u =>
    refine (Quiet.look _).andThen fun d => ?_
    cases d with
    | proxy p =>
      exact raising ((Quiet.guard _ _).andThen fun _ => readProxy p key) fun _ _ _ _ h => h
    | carrier e => exact .done _
    | foreign name tag => exact (Quiet.runtimeError _).orderly
  | _ => exact (Quiet.runtimeError _).orderly

end Act.Orderly

section HostFunctions

variable {f : HostFunction} (h : Op.allClosed f.body = true)
include h

/-- A function that runs a closed host function is closed. -/
theorem bindHostFunction_orderly (via : BindingRef) :
    Orderly n (bindHostFunction via f) fun _ _ => True :=
  .newFunction (f := ⟨f.name, .host, .host via f⟩) h

/-- It may be entered in a table. -/
theorem registerIn_orderly (t : TableRef) : Orderly n (registerIn f t) fun _ _ => True :=
  (Quiet.look _).andThen fun via => (bindHostFunction_orderly h via).andThen fun _ _ r =>
    (Quiet.setEntry t _ (.function r)).throwing.orderly

/-- It may be registered anywhere. -/
theorem registerFunction_orderly (r : Registration) :
    Orderly n (registerFunction s f r) fun _ _ => True := by
  cases r with
  | none => exact .done _
  | global => exact (Quiet.look _).andThen fun t => registerIn_orderly h t
  | table e =>
    refine (e.eval_quiet s).andThen fun v => ?_
    split
    · exact registerIn_orderly h _
    · exact .throw _

end HostFunctions

/-- A host function with a closed body may be defined. -/
theorem defineHostFunction_orderly (name : String) (params : List TypeExpr) (r : Registration)
    {body : Program} (hbody : Op.allClosed body = true) :
    Orderly n (defineHostFunction s name params r body) Result.InOrder := by
  -- Its types are evaluated by quiet acts.
  have hparams : Quiet (TypeExpr.evalAll params) := by
    induction params with
    | nil => exact .pure _
    | cons e es ih => exact e.eval_quiet.bind fun _ => ih.bind fun _ => .pure _
  refine hparams.andThen fun ts => ?_
  refine (registerFunction_orderly (f := ⟨name, ts, body⟩) hbody r).andThen fun _ _ _ => ?_
  refine .pure fun _ _ => ?_
  exact Result.inOrder_leaving (v := .hostFunction ⟨name, ts, body⟩) hbody trivial _

/-- So may a function of script. -/
theorem defineFunction_orderly (name : String) (isHost isGlobal : Bool) {body : Program}
    (h : Op.allClosed body = true) :
    Orderly n (defineFunction name isHost isGlobal body) Result.InOrder := by
  refine (Orderly.newFunction (f := ⟨name, _, .script body⟩) h).andThen fun _ _ f => ?_
  cases isGlobal with
  | true =>
    exact (Quiet.look _).andThen fun t => (Quiet.setEntry t _ (.function f)).throwing.andThen
      fun _ => .replyScript _
  | false => exact .replyScript _

/-- Proxies are made and looked through, and leave bindings and script values. -/
theorem ProxyAction.run_orderly (a : ProxyAction) : Orderly n (a.run s) Result.InOrder := by
  cases a with
  | wrap object =>
    exact (Quiet.objectOrReceiver s object).andThen fun o => (Quiet.look _).andThen fun via =>
      (Quiet.toScript via (.object o)).andThen fun v => .replyScript v
  | wrapClass cls =>
    exact (Quiet.variableAs _ cls _).andThen fun c => (Quiet.look _).andThen fun via =>
      (Quiet.newProxy via (.type c)).andThen fun _ => .replyScript _
  | create subject from? =>
    -- The binding is found after the target, whatever the target is.
    have hrest (t : Target) : Orderly n (do
        let via ← bindingVar s from?
        let u ← newProxy via t
        Act.replyScript (.userdata u)) Result.InOrder :=
      (Quiet.bindingVar s from?).andThen fun via => (Quiet.newProxy via t).andThen fun _ =>
        .replyScript _
    cases subject with
    | cls name => exact (Quiet.variableAs _ name _).andThen fun c => hrest (.type c)
    | object name => exact (Quiet.objectOrReceiver s name).andThen fun o => hrest (.object o)
  | describe proxy =>
    exact (Quiet.proxyOperand proxy).andThen fun u => (Quiet.proxyState u).andThen fun _ => .reply _
  | sameTarget a b =>
    exact (Quiet.proxyOperand a).andThen fun u => ((Quiet.proxyOperand b).holding _).andThen
      fun v => (Quiet.proxyState u).andThen fun _ => (Quiet.proxyState v).andThen fun _ => .reply _
  | dispose proxy =>
    exact (Quiet.proxyOperand proxy).andThen fun u => (Quiet.dispose u).andThen fun _ => .tell _
  | read proxy key =>
    refine (Quiet.proxyOperand proxy).andThen fun u => ((key.eval_quiet s).holding _).andThen
      fun k => (Quiet.proxyState u).andThen fun p => ?_
    exact ((Orderly.readProxy p k).mapError _ |>.holding _).andThen fun _ _ v => .replyScript v
  | write proxy key value =>
    exact (Quiet.proxyOperand proxy).andThen fun u => ((key.eval_quiet s).holding _).andThen
      fun k => ((value.eval_quiet s).holding _).andThen fun v => (Quiet.proxyState u).andThen
        fun p => ((Quiet.writeProxy p k v).failing.holding _).andThen fun _ => .tell _
  | binding config =>
    exact (Quiet.newBinding _).andThen fun b =>
      .pure fun _ _ => Result.inOrder_leaving (v := .binding b) trivial trivial _
  | liveCount of? => exact (Quiet.bindingVar s of?).andThen fun _ => .reply _
  | cached object of? =>
    exact (Quiet.objectOrReceiver s object).andThen fun _ => (Quiet.bindingVar s of?).andThen
      fun _ => .reply _
  | resolveWith cls key visibility =>
    exact (Quiet.variableAs _ cls _).andThen fun _ => (key.eval_quiet s).andThen fun _ => .reply _
  | resolve cls key onInstance of? =>
    exact (Quiet.variableAs _ cls _).andThen fun _ => (key.eval_quiet s).andThen fun _ =>
      (Quiet.bindingVar s of?).andThen fun _ => .reply _
  | decide cls policy => exact (Quiet.variableAs _ cls _).andThen fun _ => .reply _
  | sharedPolicy => exact .tell _

/-! ### Classes -/

/-- Members with closed bodies, of classes that have been built. -/
def Member.AllBelow (n : Nat) (ms : List Member) : Prop := ∀ m ∈ ms, m.Closed ∧ m.Below n

/-- What was built before is built later. -/
theorem Member.AllBelow.mono {k : Nat} {ms : List Member} (h : AllBelow n ms) (hk : n ≤ k) :
    AllBelow k ms := fun m hm => ⟨(h m hm).1, (h m hm).2.mono hk⟩

/-- One more member, or the last one hidden. -/
theorem Member.AllBelow.addMember {m? : Option Member} {done : List Member}
    (hm : AllBelow n m?.toList) (hdone : AllBelow n done) : AllBelow n (addMember m? done) := by
  rcases m? with _ | m
  · rcases done with _ | ⟨m, done⟩
    · exact hdone
    · obtain ⟨⟨hclosed, hfirst⟩, hrest⟩ := List.forall_mem_cons.mp hdone
      -- Hiding a member changes neither its types nor its body.
      refine List.forall_mem_cons.mpr ⟨⟨?_, hfirst.hide⟩, hrest⟩
      cases m <;> exact hclosed
  · exact List.forall_mem_cons.mpr ⟨hm m List.mem_cons_self, hdone⟩

/-- A closed declaration gives a member of classes that have been built. -/
theorem declare_orderly (d : Declaration Program) (h : Op.declarationClosed d = true) :
    Orderly n (declare s d) fun k m? => Member.AllBelow k m?.toList := by
  have hone {k : Nat} {m : Member} (hclosed : m.Closed) (hm : m.Below k) :
      Member.AllBelow k (some m).toList := List.forall_mem_singleton.mpr ⟨hclosed, hm⟩
  -- A property or a field has one type.
  have htyped {type : TypeExpr} (ht : type.isClosed = true) {member : HostType → Member}
      (hclosed : ∀ t, (member t).Closed) (htypes : ∀ t, (member t).types = [t]) :
      Orderly n (type.eval >>= fun t => Pure.pure (some (member t))) fun k m? =>
        Member.AllBelow k m?.toList := by
    refine (type.eval_orderly ht).bind fun k _ t hbelow => .pure fun k' hk => hone (hclosed t) ?_
    intro x hx
    rw [htypes, List.mem_singleton] at hx
    exact hx ▸ hbelow.mono hk
  cases d with
  | method name params isStatic body =>
    obtain ⟨hparams, hbody⟩ := Bool.and_eq_true_iff.mp h
    exact (TypeExpr.evalAll_orderly params hparams).bind fun k _ ts hts =>
      .pure fun k' hk => hone hbody fun t ht => (hts t ht).mono hk
  | staticProperty name type value =>
    refine (type.eval_orderly h).bind fun k _ t ht => (value.eval_quiet s).andThen fun v => ?_
    exact .pure fun k' hk => hone trivial (List.forall_mem_singleton.mpr (ht.mono hk))
  | field name type slot settable refusal => exact htyped h (fun _ => trivial) fun _ => rfl
  | property name type slot readable settable refusal =>
    exact htyped h (fun _ => trivial) fun _ => rfl
  | indexer name type slot arity => exact htyped h (fun _ => trivial) fun _ => rfl
  | nonPublic => exact .pure fun _ _ => List.forall_mem_nil _

/-- So do declarations one after another: a later one may mention what was built by then. -/
theorem declareAll_orderly (ds : List (Declaration Program)) {done : List Member}
    (h : Op.declarationsClosed ds = true) (hdone : Member.AllBelow n done) :
    Orderly n (declareAll s ds done) Member.AllBelow := by
  induction ds generalizing n done with
  | nil => exact .pure fun _ hk => hdone.mono hk
  | cons d ds ih =>
    obtain ⟨hfirst, hrest⟩ := Bool.and_eq_true_iff.mp h
    refine (declare_orderly d hfirst).bind fun k hk m? hm => .holding _ ?_
    exact ih hrest (hm.addMember (hdone.mono hk))

/-- **A class of closed declarations** mentions classes that were there when it was built. -/
theorem ClassSpec.define_orderly (spec : ClassSpec Program) (h : Op.specClosed spec = true) :
    Orderly n (spec.define s) Result.InOrder := by
  -- The declarations of a closed class are closed.
  have hds : Op.declarationsClosed spec.declarations = true := by
    cases spec
    simpa only [Op.specClosed] using h
  have hdeclared := declareAll_orderly (n := n) (s := s) spec.declarations hds
    (List.forall_mem_nil _)
  refine hdeclared.bind fun k _ ms hms => ?_
  refine ((Quiet.initialSlots _).holding _).andThen fun slots? => ?_
  split
  · next info hinfo =>
    obtain ⟨-, -, hmembers, -⟩ := HostClass.build_ok hinfo
    have hbelow : Member.AllBelow k info.members := by
      intro m hm
      rw [hmembers] at hm
      exact hms m (List.mem_reverse.mp hm)
    refine (Orderly.newClass (fun m hm => (hbelow m hm).1) fun m hm => (hbelow m hm).2).bind
      fun k' _ c hc => .pure fun k'' hk => ?_
    exact Result.inOrder_leaving (v := .cls c) trivial (Nat.lt_of_lt_of_le hc hk) _
  · exact .throw _

/-! ### Calls -/

/-- Calling keeps classes in order. -/
def Caller.Orderly (call : Caller) : Prop :=
  ∀ b f args (n : Nat), Act.Orderly n (call b f args) fun _ _ => True

/-- Running closed bodies keeps classes in order. -/
def Runner.Orderly (run : Runner) : Prop :=
  ∀ s body (n : Nat), Op.allClosed body = true → Act.Orderly n (run s body) fun _ _ => True

section Calls

variable {call : Caller} (hcall : call.Orderly)
include hcall

/-- Calling a value calls a function or fails. -/
theorem apply_orderly (b : Bool) (callee : ScriptValue) (args : List ScriptValue) :
    Orderly n (apply call b callee args) fun _ _ => True := by
  cases callee with
  | function f => exact hcall b f args n
  | _ => exact (Quiet.runtimeError _).orderly

/-- The member is found before it is called. -/
theorem invoke_orderly (b : Bool) (target key : ScriptValue) (args : List ScriptValue) :
    Orderly n (invoke call b target key args) fun _ _ => True :=
  ((Orderly.index b target key).holding _).andThen fun _ _ f =>
    (apply_orderly hcall b f args).holding _

/-- A coroutine runs its function when it is resumed, and its state is noted before and after. -/
theorem resume_orderly (c : CoroutineRef) (args : List ScriptValue) :
    Orderly n (resume call c args) fun _ _ => True := by
  refine (Quiet.look _).andThen fun co => ?_
  cases co.status with
  | running => exact (Quiet.runtimeError _).orderly
  | dead => exact (Quiet.runtimeError _).orderly
  | suspended =>
    refine (Quiet.setCoroutineStatus c _).andThen fun _ => (Quiet.note _).andThen fun _ => ?_
    refine (hcall true co.function args n).attempt.andThen fun _ _ r => ?_
    exact (Quiet.setCoroutineStatus c _).andThen fun _ => (Quiet.note _).andThen fun _ =>
      (Quiet.ofExcept r).orderly

/-- A call of the host converts the arguments first. -/
theorem hostCall_orderly (b : Bool) (via : BindingRef) (callee : ScriptValue)
    (args : List HostValue) : Orderly n (hostCall call b via callee args) fun _ _ => True :=
  (Quiet.toScriptAll via args).andThen fun vs => (apply_orderly hcall b callee vs).mapError _

/-- Actions that call leave script values and coroutines, and no classes. -/
theorem CallAction.run_orderly (a : CallAction) :
    Orderly n (a.run call s) Result.InOrder := by
  cases a with
  | call callee args =>
    refine (callee.eval_quiet s).andThen fun f => ((args.eval_quiet s).holding _).andThen
      fun vs => .holding _ ?_
    exact ((apply_orderly hcall _ f vs).mapError _).andThen fun _ _ rs => .replyScripts rs
  | invoke target key args =>
    refine (target.eval_quiet s).andThen fun t => ((key.eval_quiet s).holding _).andThen
      fun k => ((args.eval_quiet s).holding _).andThen fun vs => .holding _ ?_
    exact ((invoke_orderly hcall _ t k vs).mapError _).andThen fun _ _ rs => .replyScripts rs
  | index target key =>
    refine (target.eval_quiet s).andThen fun t => ((key.eval_quiet s).holding _).andThen
      fun k => .holding _ ?_
    exact ((Orderly.index _ t k).mapError _).andThen fun _ _ v => .replyScript v
  | setIndex target key value =>
    exact (target.eval_quiet s).andThen fun t => ((key.eval_quiet s).holding _).andThen
      fun k => ((value.eval_quiet s).holding _).andThen fun v =>
        ((Quiet.setIndex _ t k v).throwing.holding _).andThen fun _ => .tell _
  | coroutine function =>
    refine (function.eval_quiet s).andThen fun v => ?_
    split
    · exact (Quiet.newCoroutine _).andThen fun c => .replyWith (v := .coroutine c) trivial trivial _
    · exact .throw _
  | coroutineStatus name => exact (Quiet.variableAs _ name _).andThen fun _ => .reply _
  | resume name args =>
    refine (Quiet.variableAs _ name _).andThen fun c => (args.eval_quiet s).andThen
      fun vs => .holding _ ?_
    exact ((resume_orderly hcall c vs).mapError _).andThen fun _ _ rs => .replyScripts rs
  | guard name inCoroutine => exact (Quiet.guard _ name).failing.andThen fun _ => .tell _
  | createFunction name =>
    refine (Orderly.hostFunctionVar name).bind fun _ _ f hf => (Quiet.look _).andThen fun via => ?_
    exact (bindHostFunction_orderly hf via).andThen fun _ _ _ => .replyScript _
  | bridgeCall callee args | callFunction callee args =>
    refine (callee.eval_quiet s).andThen fun f => ((args.eval_quiet s).holding _).andThen
      fun vs => (Quiet.look _).andThen fun via => .holding _ ?_
    exact ((hostCall_orderly hcall _ via f vs).mapError _).andThen fun _ _ rs => .replyScripts rs
  | bridgeCallGlobal name args | callGlobal name args =>
    refine (args.eval_quiet s).andThen fun vs => (Quiet.look _).andThen fun via =>
      (Quiet.look _).andThen fun f => ?_
    exact ((hostCall_orderly hcall _ via f vs).mapError _ |>.holding _).andThen
      fun _ _ rs => .replyScripts rs

/-- Actions keep classes in order, whatever they are about. -/
theorem Action.run_orderly (a : Action) : Orderly n (a.run call s) Result.InOrder := by
  cases a with
  | value a => exact a.run_orderly
  | table a => exact a.run_orderly
  | call a => exact CallAction.run_orderly hcall a
  | error a => exact a.run_orderly
  | conversion a => exact a.run_orderly
  | cls a => exact a.run_orderly
  | proxy a => exact a.run_orderly

end Calls

/-- Arguments are accepted one by one. -/
theorem acceptEach_quiet (via : BindingRef) (ts : List HostType) (args : List ScriptValue) :
    Quiet (acceptEach via ts args) := by
  induction ts generalizing args with
  | nil => exact .pure _
  | cons t ts ih =>
    exact (Quiet.toHost via t _).converting.bind fun x => ((ih args.tail).holding _).bind fun _ =>
      .pure _

/-- Their number is checked first. -/
theorem acceptArgs_quiet (via : BindingRef) (name : String) (params : List HostType)
    (args : List ScriptValue) : Quiet (acceptArgs via name params args) := by
  unfold acceptArgs
  split
  · exact .throw _
  · exact acceptEach_quiet via params args

/-- Host code on behalf of a call, if its body keeps order. -/
theorem runHostCode_orderly (b : Bool) (via : BindingRef) (name : String) (params : List HostType)
    (args : List ScriptValue) {body : List HostValue → Act HostFailure (List HostValue)}
    (hbody : ∀ xs, Orderly n (body xs) fun _ _ => True) :
    Orderly n (runHostCode b via name params args body) fun _ _ => True := by
  refine (Quiet.raising (.guard b name)).andThen fun _ => ?_
  refine (Quiet.raising ((acceptArgs_quiet via name params args).holding _)).andThen fun xs => ?_
  refine Orderly.andThen (P := fun _ _ => True) ?_ fun _ _ rs => (Quiet.toScriptAll via rs).orderly
  exact .raising ((Quiet.note _).andThen fun _ => hbody xs) fun _ _ _ _ h => h

/-- The receiver of a method is there or not. -/
theorem methodReceiver_quiet (t : Target) (m : Method) : Quiet (methodReceiver t m) := by
  unfold methodReceiver
  split
  · exact .pure _
  · exact (Quiet.needReceiver _ _ _).bind fun _ => .pure _

section Bodies

variable {run : Runner} (hrun : run.Orderly) {body : Program} (hbody : Op.allClosed body = true)
include hrun hbody

/-- A script body fails as script does, whatever failed in it. -/
theorem runScriptBody_orderly (b : Bool) (args : List ScriptValue) :
    Orderly n (runScriptBody run b args body) fun _ _ => True := by
  refine Orderly.andThen (P := fun _ _ => True) (.holding _ ?_) fun _ _ _ => .done _
  refine (hrun _ body n hbody).attempt.andThen fun _ _ r => ?_
  rcases r with ⟨e | e⟩ | g
  · exact .throw _
  · exact (Quiet.raising (.throw e)).orderly
  · exact .done _

/-- A host body gives host values. -/
theorem runHostBody_orderly (b : Bool) (via : BindingRef) (receiver : Option ObjectRef)
    (args : List HostValue) :
    Orderly n (runHostBody run b via receiver body args) fun _ _ => True :=
  ((hrun _ body n hbody).mapError _ |>.holding _).andThen fun _ _ _ => .done _

end Bodies

/-- **The code of a function** keeps classes in order: it is closed. -/
theorem invokeCode_orderly {run : Runner} (hrun : run.Orderly) (b : Bool) (f : FunctionRef)
    (args : List ScriptValue) : Orderly n (invokeCode run b f args) fun _ _ => True := by
  refine Orderly.bind (P := fun _ fn => fn.code.Closed) (.look fun w hw _ => hw.code f)
    fun _ _ fn hclosed => ?_
  split
  · next body hcode =>
    rw [hcode] at hclosed
    exact runScriptBody_orderly hrun hclosed b args
  · next via h hcode =>
    rw [hcode] at hclosed
    exact runHostCode_orderly b via _ _ _ fun xs => runHostBody_orderly hrun hclosed b via none xs
  · next via named m hcode =>
    rw [hcode] at hclosed
    refine (Quiet.raising (.reachTarget named)).andThen fun t => .holding _ ?_
    refine (Quiet.look _).andThen fun rest => runHostCode_orderly b via _ _ _ fun xs => ?_
    exact (methodReceiver_quiet t m).andThen fun r => runHostBody_orderly hrun hclosed b via r xs

/-! ### Operations -/

namespace Act.Orderly

/-- What an operation answers may be logged. -/
theorem deliver (d : Disposition) (a : Answer) : Orderly n (d.deliver a) fun _ _ => True := by
  unfold Disposition.deliver
  cases d.logged with
  | true => exact (Quiet.log a).andThen fun _ => .done _
  | false => exact .done _

/-- What is stored may be stored; failures are neither classes nor host functions. -/
theorem settle (d : Disposition) {m : Act Failure Result} (h : Orderly n m Result.InOrder) :
    Orderly n (d.settle m) fun _ _ => True := by
  refine h.attempt.bind fun k _ r hr => ?_
  rcases r with f | r
  · cases d.catchAs with
    | none => exact .throw f
    | some name =>
      have hstored : f.stored.Closed ∧ f.stored.Below k := by cases f <;> exact ⟨trivial, trivial⟩
      exact (Quiet.look _).andThen fun a => (assign name hstored.1 hstored.2).andThen
        fun _ _ _ => deliver d a
  · refine Orderly.andThen (P := fun _ _ => True) (.holding _ ?_) fun _ _ a => deliver d a
    split
    · next name v _ hv =>
      obtain ⟨hclosed, hbelow⟩ := hr r rfl v hv
      exact (assign name hclosed hbelow).andThen fun _ _ _ => (Quiet.look _).orderly
    · exact (Quiet.look _).orderly

/-- An operation that ends its body gives what it was told to. -/
theorem settleGiving (d : Disposition) {m : Act Failure (Option Given)}
    (h : Orderly n m fun _ _ => True) : Orderly n (d.settleGiving m) fun _ _ => True := by
  refine h.attempt.andThen fun _ _ r => ?_
  rcases r with f | _ | g
  · exact settle d (.throw f)
  · exact deliver d .null
  · exact .done _

end Act.Orderly

mutual

/-- **One operation keeps classes in order**, by recursion on the operation. -/
theorem Op.run_orderly {call : Caller} (hcall : call.Orderly) {n : Nat} (s : Scope) :
    ∀ op : Op, op.isClosed = true → Orderly n (op.run call s) fun _ _ => True
  | .act d a => fun _ => by
    unfold Op.run
    exact .settle d (a.run_orderly hcall)
  | .giveScript d items => fun _ => by
    unfold Op.run
    exact .settleGiving d ((items.eval_quiet s).andThen fun _ => .done _)
  | .giveHost d items => fun _ => by
    unfold Op.run
    exact .settleGiving d ((items.eval_quiet s).andThen fun _ => .done _)
  | .branch d cond yes no => fun h => by
    obtain ⟨hyes, hno⟩ := Bool.and_eq_true_iff.mp h
    unfold Op.run
    refine .settleGiving d ((cond.eval_quiet s).andThen fun v => ?_)
    split
    · exact Op.runAll_orderly hcall s yes hyes
    · exact Op.runAll_orderly hcall s no hno
  | .borrow d object mutably body => fun h => by
    unfold Op.run
    refine .settleGiving d ((Quiet.objectOrReceiver s object).andThen fun o => .holding _ ?_)
    exact .whileBorrowed o mutably _ (Op.runAll_orderly hcall s body h) fun _ _ _ _ hQ => hQ
  | .function d name isHost isGlobal body => fun h => by
    unfold Op.run
    exact .settle d (defineFunction_orderly name isHost isGlobal h)
  | .hostFunction d name params registration body => fun h => by
    unfold Op.run
    exact .settle d (defineHostFunction_orderly name params registration
      (Bool.and_eq_true_iff.mp h).2)
  | .cls d spec => fun h => by
    unfold Op.run
    exact .settle d (spec.define_orderly h)

theorem Op.runAll_orderly {call : Caller} (hcall : call.Orderly) {n : Nat} (s : Scope) :
    ∀ p : List Op, Op.allClosed p = true → Orderly n (Op.runAll call s p) fun _ _ => True
  | [] => fun _ => by
    unfold Op.runAll
    exact .done _
  | op :: rest => fun h => by
    obtain ⟨hfirst, hrest⟩ := Bool.and_eq_true_iff.mp h
    unfold Op.runAll
    refine (Op.run_orderly hcall s op hfirst).andThen fun _ _ r => ?_
    cases r with
    | give g => exact .done _
    | answer a => exact Op.runAll_orderly hcall s rest hrest

end

/-- **Calls keep classes in order**, by induction on how deep they may nest. -/
theorem callWithin_orderly (depth : Nat) : (callWithin depth).Orderly := by
  induction depth with
  | zero => exact fun _ _ _ _ => (Quiet.runtimeError _).orderly
  | succ depth ih =>
    intro b f args n
    refine .framed b f (invokeCode_orderly (fun s body _ h => ?_) b f args)
    exact Op.runAll_orderly ih s body h

namespace World.Tidy

variable {w : World}

/-- An operation of a closed program keeps the world tidy. -/
theorem step (hw : w.Tidy) {op : Op} (h : op.isClosed = true) : (w.step op).2.Tidy := by
  rw [step_snd]
  have hcleared : ({ w with log := [] } : World).Tidy := hw.of_same ⟨rfl, rfl, rfl, id⟩
  exact (Op.run_orderly (callWithin_orderly _) .top op h _ hcleared (Nat.zero_le _)).1

/-- **Sessions of closed programs are tidy**: they build classes in order. -/
theorem after (hw : w.Tidy) {ops : List Op} (h : Op.allClosed ops = true) :
    (w.after ops).Tidy := by
  induction ops generalizing w with
  | nil => exact hw
  | cons op rest ih =>
    obtain ⟨hfirst, hrest⟩ := Bool.and_eq_true_iff.mp h
    exact ih (hw.step hfirst) hrest

end World.Tidy

end ScriptHost
