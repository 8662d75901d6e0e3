import ScriptHost.Proofs.Afterlife.Operand
import ScriptHost.Proofs.BuiltClass

/-!
# Actions revive nothing

One lemma for each group of actions that call nothing, and for the definitions of functions and of
classes. What an action leaves for a variable holds nothing dead and is closed (`Result.Storable`),
so the variable may be assigned.

The one action that goes from a weak handle to its object looks whether the object is alive, as a
proxy does.
-/

set_option autoImplicit false

namespace ScriptHost

open Act
open World (AllSafe)

variable {w₀ : World} {s : Scope}

/-! ### Results -/

/-- **A result that may be kept**: what it leaves for a variable and what it keeps alive are safe,
and what it leaves is closed. -/
structure Result.Storable (w₀ : World) (r : Result) : Prop where
  safe : w₀.AllSafe r
  closed : ∀ v, r.store = some v → v.Closed

namespace Result

/-- A result that only tells something keeps nothing. -/
theorem storable_told (a : Answer) : (told a).Storable w₀ := ⟨.of_eq_nil rfl, nofun⟩

/-- A result that leaves a value is storable if the value is. -/
theorem storable_leaving {v : Stored} (hv : w₀.AllSafe v) (hc : v.Closed) (a : Answer) :
    (leaving v a).Storable w₀ where
  safe := List.forall_mem_append.mpr ⟨AllSafe.some_iff.mpr hv, nofun⟩
  closed x hx := by
    obtain rfl := Option.some.inj hx
    exact hc

/-- The result that leaves a host value, and keeps alive what is in it. -/
theorem storable_host {v : HostValue} (hv : w₀.AllSafe v) : (host v).Storable w₀ where
  safe := by
    have hstored : w₀.AllSafe (Stored.host v) := hv
    exact List.forall_mem_append.mpr ⟨AllSafe.some_iff.mpr hstored, hv⟩
  closed x hx := by
    obtain rfl := Option.some.inj hx
    trivial

/-- The result that leaves an object, and keeps it alive. -/
theorem storable_object {o : ObjectRef} (ho : w₀.AllSafe o) : (object o).Storable w₀ where
  safe := by
    have hstored : w₀.AllSafe (Stored.object o) := ho
    exact List.forall_mem_append.mpr ⟨AllSafe.some_iff.mpr hstored, ho⟩
  closed x hx := by
    obtain rfl := Option.some.inj hx
    trivial

/-- A result may keep more alive, if that is safe too. -/
theorem Storable.keeping {r : Result} (h : r.Storable w₀) {hs : List Handle}
    (hhs : ∀ x ∈ hs, w₀.Safe x) : (r.keeping hs).Storable w₀ where
  safe := by
    obtain ⟨hstore, hkept⟩ := List.forall_mem_append.mp h.safe
    exact List.forall_mem_append.mpr ⟨hstore, List.forall_mem_append.mpr ⟨hhs, hkept⟩⟩
  closed := h.closed

/-- What it leaves for a variable may be assigned. -/
theorem Storable.store {r : Result} (h : r.Storable w₀) {v : Stored} (hv : r.store = some v) :
    w₀.AllSafe v ∧ v.Closed := by
  refine ⟨?_, h.closed v hv⟩
  have hstore : w₀.AllSafe r.store := (List.forall_mem_append.mp h.safe).1
  exact AllSafe.some_iff.mp (hv ▸ hstore)

end Result

namespace Act.Sparing

/-- Telling something leaves nothing for a variable. -/
theorem tell (a : Answer) : Sparing w₀ (Pure.pure (.told a) : Act Failure Result)
    (Result.Storable w₀) :=
  .pure (Result.storable_told a)

/-- Telling something about the world. -/
theorem reply (f : World → Answer) :
    Sparing w₀ (Act.reply f : Act Failure Result) (Result.Storable w₀) :=
  .look fun _ _ => Result.storable_told _

/-- Leaving a value, and telling something about the world. -/
theorem replyWith {v : Stored} (hv : w₀.AllSafe v) (hc : v.Closed) (f : World → Answer) :
    Sparing w₀ (Act.replyWith v f : Act Failure Result) (Result.Storable w₀) :=
  .holding hv (.look fun _ _ => Result.storable_leaving hv hc _)

/-- Leaving a script value. -/
theorem replyScript {v : ScriptValue} (hv : w₀.AllSafe v) :
    Sparing w₀ (Act.replyScript v : Act Failure Result) (Result.Storable w₀) :=
  replyWith (v := .script v) hv trivial _

/-- Leaving the values that a call gave. -/
theorem replyScripts {vs : List ScriptValue} (hvs : w₀.AllSafe vs) :
    Sparing w₀ (Act.replyScripts vs : Act Failure Result) (Result.Storable w₀) :=
  replyWith (v := .scripts vs) hvs trivial _

/-- A result that is logged besides. -/
theorem logging {r : Result} (hr : r.Storable w₀) :
    Sparing w₀ (Act.logging r : Act Failure Result) (Result.Storable w₀) := by
  have hkept : ∀ x ∈ r.kept, w₀.Safe x := (List.forall_mem_append.mp hr.safe).2
  exact (Sparing.holding hkept seen).andThen fun a => (log a).andThen fun _ => .pure hr

end Act.Sparing

/-! ### Values, tables and errors -/

/-- Looking at something tells a text. -/
theorem DumpSubject.text_sparing (hs : w₀.AllSafe s) (subject : DumpSubject) :
    Sparing w₀ (subject.text s) fun _ => True := by
  cases subject with
  | var name => exact (Sparing.readVar name).andThen fun _ => .seen
  | host e => exact (e.eval_sparing hs).andThen fun _ => .seen
  | type t => exact t.eval_sparing.andThen fun _ => .done
  | context => exact .seen
  | bridge => exact .seen
  | proxy e => exact (e.eval_sparing hs).andThen fun _ => .seen
  | config c => exact .done
  | function e => exact (e.eval_sparing hs).andThen fun _ => .seen
  | userdata e => exact (e.eval_sparing hs).andThen fun _ => .seen
  | value e => exact (e.eval_sparing hs).andThen fun _ => .seen

/-- Actions on values leave what they evaluated. -/
theorem ValueAction.run_sparing (hs : w₀.AllSafe s) (a : ValueAction) :
    Sparing w₀ (a.run s) (Result.Storable w₀) := by
  cases a with
  | logScript e =>
    exact (e.eval_sparing hs).bind fun _ hv =>
      (Sparing.replyScript hv).bind fun _ hr => .logging hr
  | logHost e =>
    exact (e.eval_sparing hs).bind fun _ hv => .logging (Result.storable_host hv)
  | bind e => exact (e.eval_sparing hs).bind fun _ hv => .replyScript hv
  | bindHost e => exact (e.eval_sparing hs).bind fun _ hv => .pure (Result.storable_host hv)
  | drop name => exact Sparing.seen.andThen fun _ => (Sparing.drop name).andThen fun _ => .tell _
  -- What a body was called with is part of its scope.
  | arguments =>
    simp only [ValueAction.run]
    split
    · exact .replyScripts .nil
    · next hside => exact .replyScripts (hs.scriptArgs hside)
    · next args hside =>
      have hstored : w₀.AllSafe (Stored.host (.array args)) := AllSafe.array_iff.mpr (hs.args hside)
      exact .replyWith hstored trivial _
  | state => exact .reply _
  | describe e =>
    exact (e.eval_sparing hs).bind fun v hv => .replyWith (v := .script v) hv trivial _
  | rawEquals a b => exact .pair hs fun _ _ _ _ => .tell _
  | equals a b => exact .pair hs fun _ _ _ _ => .reply _
  | display e => exact (e.eval_sparing hs).andThen fun _ => .reply _
  | userdata name tagged =>
    exact (Sparing.newUserdata (.of_eq_nil rfl)).bind fun _ hu =>
      .replyScript (.userdata hu)
  | dump subject => exact (subject.text_sparing hs).andThen fun _ => .tell _

/-- An operand that is to be a table. -/
theorem Act.Sparing.tableOperand (hs : w₀.AllSafe s) (e : ScriptExpr) :
    Sparing w₀ (ScriptHost.tableOperand s e) fun t => w₀.Safe t.handle := by
  refine (e.eval_sparing hs).bind fun v hv => ?_
  cases v with
  | table t => exact .pure (hv _ List.mem_cons_self)
  | _ => exact .fails rfl

/-- Actions on tables. The table stays held while the key and the value are evaluated. -/
theorem TableAction.run_sparing (hs : w₀.AllSafe s) (a : TableAction) :
    Sparing w₀ (a.run s) (Result.Storable w₀) := by
  cases a with
  | get table key =>
    refine (Sparing.tableOperand hs table).bind fun t ht => ?_
    refine (Sparing.holding (AllSafe.singleton ht) (key.eval_sparing hs)).bind fun k _ => ?_
    refine Sparing.bind (P := w₀.AllSafe) (.look fun w hw => ?_) fun _ hv => .replyScript hv
    exact Table.allSafe_get (hw.table ht) k
  | set table key value =>
    refine (Sparing.tableOperand hs table).bind fun t ht => ?_
    have htable := AllSafe.singleton ht
    refine (Sparing.holding htable (key.eval_sparing hs)).bind fun k hk => ?_
    have hheld : ∀ x ∈ t.handle :: handles k, w₀.Safe x := List.forall_mem_cons.mpr ⟨ht, hk⟩
    refine (Sparing.holding hheld (value.eval_sparing hs)).bind fun v hv => ?_
    exact (Sparing.setEntry ht hk hv).throwing.andThen fun _ => .reply _
  | describe table => exact (Sparing.tableOperand hs table).andThen fun _ => .reply _
  | contains table key =>
    refine (Sparing.tableOperand hs table).bind fun t ht => ?_
    exact (Sparing.holding (AllSafe.singleton ht) (key.eval_sparing hs)).andThen fun _ => .reply _

/-- Actions on errors: an error that is raised, stored or translated holds what it held before, or a
new carrier. -/
theorem ErrorAction.run_sparing (hs : w₀.AllSafe s) (a : ErrorAction) :
    Sparing w₀ (a.run s) (Result.Storable w₀) := by
  cases a with
  | raise e =>
    refine (e.eval_sparing hs).bind fun v hv => ?_
    unfold raiseIn
    split
    · exact .failWith fun _ => hv
    · exact (Sparing.raise hv).throwing
  | raiseBare e => exact (e.eval_sparing hs).bind fun _ hv => .throw hv
  | runtimeError message => exact (Sparing.runtimeError message).throwing
  | fail message => exact .fails rfl
  | rethrow name => exact (Sparing.failureVar name).bind fun _ hf => .throw hf
  | translate name =>
    refine (Sparing.failureVar name).bind fun f hf => ?_
    cases f with
    | raised e =>
      -- The carrier is opened, and what it carries was in the world.
      refine Sparing.bind (P := w₀.AllSafe) (.look fun w hw => hw.unwrapError hf) fun b hb => ?_
      exact .replyWith (v := .failed b) hb trivial _
    | failed e =>
      have he : w₀.AllSafe e := hf
      exact (Sparing.toScriptError he).throwing.bind fun r hr =>
        .replyWith (v := .raised r) hr trivial _
  | carry name =>
    refine Sparing.bind (P := w₀.AllSafe) (.variableAs fun s e hs _ he => ?_) fun e he => ?_
    · cases s with
      | failed f => exact Option.some.inj he ▸ hs
      | _ => cases he
    · exact (Sparing.newUserdata (d := .carrier e) he).bind fun _ hu =>
        .replyScript (.userdata hu)
  | describe name => exact (Sparing.failureVar name).andThen fun _ => .reply _

/-- Conversions. The type is written down in the program, so it has to be closed. -/
theorem ConversionAction.run_sparing (hs : w₀.AllSafe s) (a : ConversionAction)
    (h : (Action.conversion a).isClosed = true) :
    Sparing w₀ (a.run s) (Result.Storable w₀) := by
  cases a with
  | toHost e type =>
    refine (e.eval_sparing hs).bind fun v hv => ?_
    refine type.eval_sparing.bind fun t ht => Sparing.seen.andThen fun via => ?_
    have hconvert := (Sparing.toHost via (ht h) hv).converting.failing
    exact (Sparing.holding hv hconvert).bind fun _ hx => .pure (Result.storable_host hx)
  | toScript e =>
    refine (e.eval_sparing hs).bind fun x hx => Sparing.seen.andThen fun via => ?_
    exact (Sparing.holding hx (.toScript via x hx)).bind fun _ hv => .replyScript hv
  | describe e =>
    exact (e.eval_sparing hs).bind fun x hx => .replyWith (v := .host x) hx trivial _
  | equals x y =>
    exact (x.eval_sparing hs).bind fun _ hv =>
      (Sparing.holding hv (y.eval_sparing hs)).andThen fun _ => .tell _
  | describeType t => exact t.eval_sparing.andThen fun _ => .tell _
  | typeEquals x y => exact x.eval_sparing.andThen fun _ => y.eval_sparing.andThen fun _ => .tell _

/-! ### Classes and instances -/

theorem Act.Sparing.globals :
    Sparing w₀ (Act.look fun w => w.globals : Act Failure TableRef) fun t => w₀.Safe t.handle :=
  .look fun _ hw => hw.globals

/-- A class that is registered is in hand, and so is the proxy of it that becomes a global. -/
theorem Act.Sparing.registerClass {c : ClassRef} (hc : w₀.AllSafe c) (name : String) :
    Sparing w₀ (ScriptHost.registerClass c name) fun _ => True := by
  refine Sparing.seen.andThen fun via => ?_
  refine (Sparing.newProxy via (t := .type c) hc).bind fun u hu => ?_
  refine Sparing.globals.bind fun t ht => ?_
  exact (Sparing.setEntry ht (.of_eq_nil rfl) (.userdata hu)).throwing

/-- Actions on classes and objects. -/
theorem ClassAction.run_sparing (hs : w₀.AllSafe s) (a : ClassAction) :
    Sparing w₀ (a.run s) (Result.Storable w₀) := by
  cases a with
  | id name => exact .tell _
  | membersNamed cls name => exact (Sparing.classVar cls).andThen fun _ => .reply _
  | register cls as =>
    exact (Sparing.classVar cls).bind fun _ hc =>
      (Sparing.registerClass hc _).andThen fun _ => .tell _
  | instantiate cls initial =>
    refine (Sparing.classVar cls).bind fun c hc => ?_
    refine (HostExpr.evalSlots_sparing hs initial).bind fun values hvalues => ?_
    have hslots : w₀.AllSafe (Payload.slots (Slots.ofList values)) := Slots.allSafe_ofList hvalues
    exact (Sparing.instantiate hc hslots).failing.bind fun _ ho =>
      .pure (Result.storable_object ho)
  | instantiateAs cls payload =>
    refine (Sparing.classVar cls).bind fun c hc => ?_
    have hsample : w₀.AllSafe payload.sample := by cases payload <;> exact .of_eq_nil rfl
    exact (Sparing.instantiate hc hsample).failing.bind fun _ ho =>
      .pure (Result.storable_object ho)
  | construct cls =>
    exact (Sparing.classVar cls).bind fun _ hc =>
      (Sparing.construct hc).converting.failing.bind fun _ ho => .pure (Result.storable_object ho)
  | slots object => exact (Sparing.objectOrReceiver hs object).andThen fun _ => .reply _
  | getSlot object slot =>
    refine (Sparing.objectOrReceiver hs object).bind fun o ho => ?_
    refine (Sparing.readSlot ho slot).failing.bind fun v hv => .pure ?_
    exact (Result.storable_host hv).keeping ho
  | setSlot object slot value =>
    refine (Sparing.objectOrReceiver hs object).andThen fun o => ?_
    refine (value.eval_sparing hs).bind fun v hv => ?_
    exact (Sparing.writeSlot o slot hv).failing.andThen fun _ => .tell _
  | borrowAs object payload mutably =>
    exact (Sparing.objectOrReceiver hs object).bind fun o ho =>
      (Sparing.borrowed ho mutably payload).failing.andThen fun _ => .tell _
  | sameObject a b =>
    exact (Sparing.objectVar a).andThen fun _ => (Sparing.objectVar b).andThen fun _ => .reply _
  | downgrade object =>
    refine (Sparing.objectOrReceiver hs object).bind fun o ho => .pure ?_
    have hweak : w₀.AllSafe (Stored.weak o) := fun x hx => ho x (List.mem_cons_of_mem _ hx)
    exact Result.storable_leaving hweak trivial _
  | describeWeak name => exact (Sparing.weakVar name).andThen fun _ => .reply _
  | upgrade name =>
    refine (Sparing.weakVar name).bind fun o ho => ?_
    -- Until the look it is open whether the object is safe; its class is.
    refine Sparing.bind (P := fun b => b = true → w₀.Safe o.ref.handle)
      (.look fun _ hw halive => hw.safe_of_alive halive) fun b hb => ?_
    cases b with
    | true => exact .pure (Result.storable_object (List.forall_mem_cons.mpr ⟨hb rfl, ho⟩))
    | false => exact .tell _
  | display object => exact (Sparing.objectOrReceiver hs object).andThen fun _ => .reply _

/-- Members that hold nothing dead, with closed bodies. -/
def World.SafeMembers (w₀ : World) (ms : List Member) : Prop :=
  ∀ m ∈ ms, w₀.AllSafe m ∧ m.Closed

/-- A member that is declared has the types that are written down for it, and a constant that was
evaluated or a body. -/
theorem declare_sparing (hs : w₀.AllSafe s) (d : Declaration Program)
    (h : Op.declarationClosed d = true) :
    Sparing w₀ (declare s d) fun m? => w₀.SafeMembers m?.toList := by
  have hmember {m : Member} (hm : w₀.AllSafe m) (hc : m.Closed) :
      w₀.SafeMembers (some m).toList := List.forall_mem_singleton.mpr ⟨hm, hc⟩
  cases d with
  | method name params isStatic body =>
    obtain ⟨hparams, hbody⟩ := Bool.and_eq_true_iff.mp h
    exact (TypeExpr.evalAll_sparing params hparams).bind fun _ hts => .pure (hmember hts hbody)
  | staticProperty name type value =>
    refine type.eval_sparing.bind fun t ht => (value.eval_sparing hs).bind fun v hv => .pure ?_
    exact hmember (List.forall_mem_append.mpr ⟨ht h, hv⟩) trivial
  | field name type slot settable refusal =>
    exact type.eval_sparing.bind fun _ ht => .pure (hmember (ht h) trivial)
  | property name type slot readable settable refusal =>
    refine type.eval_sparing.bind fun t ht => .pure (hmember ?_ trivial)
    refine List.forall_mem_append.mpr ⟨ht h, ?_⟩
    cases readable <;> exact nofun
  | indexer name type slot arity =>
    refine type.eval_sparing.bind fun t ht => .pure (hmember ?_ trivial)
    exact List.forall_mem_append.mpr ⟨ht h, nofun⟩
  | nonPublic => exact .pure (List.forall_mem_nil _)

/-- Adding a member keeps the others. -/
theorem World.SafeMembers.addMember {m? : Option Member} {done : List Member}
    (hm : w₀.SafeMembers m?.toList) (hdone : w₀.SafeMembers done) :
    w₀.SafeMembers (addMember m? done) := by
  rcases m? with _ | m
  · rcases done with _ | ⟨m, done⟩
    · exact hdone
    · obtain ⟨⟨hfirst, hclosed⟩, hrest⟩ := List.forall_mem_cons.mp hdone
      -- The member declared last is hidden: it holds what it held and runs what it ran.
      refine List.forall_mem_cons.mpr ⟨⟨hfirst.hide, ?_⟩, hrest⟩
      cases m <;> exact hclosed
  · exact List.forall_mem_cons.mpr ⟨hm m List.mem_cons_self, hdone⟩

/-- Members declared so far are held while the others are declared. -/
theorem declareAll_sparing (hs : w₀.AllSafe s) (ds : List (Declaration Program))
    {done : List Member} (h : Op.declarationsClosed ds = true) (hdone : w₀.SafeMembers done) :
    Sparing w₀ (declareAll s ds done) w₀.SafeMembers := by
  induction ds generalizing done with
  | nil => exact .pure hdone
  | cons d ds ih =>
    obtain ⟨hfirst, hrest⟩ := Bool.and_eq_true_iff.mp h
    refine (declare_sparing hs d hfirst).bind fun m? hm => ?_
    have hheld : w₀.AllSafe m? := by
      cases m? with
      | none => exact .none
      | some m => exact AllSafe.some_iff.mpr (hm m List.mem_cons_self).1
    exact .holding hheld (ih hrest (hm.addMember hdone))

/-- The slots that a constructor is to start from are evaluated. -/
theorem initialSlots_sparing (hs : w₀.AllSafe s)
    (slots? : Option (List (String × HostExpr))) :
    Sparing w₀ (initialSlots s slots?) w₀.AllSafe := by
  cases slots? with
  | some slots =>
    exact (HostExpr.evalSlots_sparing hs slots).bind fun _ hvalues =>
      .pure (AllSafe.some_iff.mpr (Slots.allSafe_ofList hvalues))
  | none => exact .pure .none

/-- **A class of closed declarations** holds nothing dead. -/
theorem ClassSpec.define_sparing (hs : w₀.AllSafe s) (spec : ClassSpec Program)
    (h : Op.specClosed spec = true) : Sparing w₀ (spec.define s) (Result.Storable w₀) := by
  have hds : Op.declarationsClosed spec.declarations = true := by
    cases spec
    simpa only [Op.specClosed] using h
  refine (declareAll_sparing hs spec.declarations hds (List.forall_mem_nil _)).bind fun ms hms => ?_
  have hheld : w₀.AllSafe ms := AllSafe.list_iff.mpr fun m hm => (hms m hm).1
  refine (Sparing.holding hheld (initialSlots_sparing hs _)).bind fun slots? hslots => ?_
  split
  · next info hinfo =>
    obtain ⟨-, -, hmembers, hconstructor, -⟩ := HostClass.build_ok hinfo
    -- A class that was built has the declared members, the last one first.
    have hsafe : w₀.SafeMembers info.members := by
      intro m hm
      rw [hmembers] at hm
      exact hms m (List.mem_reverse.mp hm)
    have hinfo : w₀.AllSafe info := by
      refine .hostClass (AllSafe.list_iff.mpr fun m hm => (hsafe m hm).1) ?_
      rw [hconstructor]
      exact hslots
    exact (Sparing.newClass hinfo fun m hm => (hsafe m hm).2).bind fun c hc =>
      .pure (Result.storable_leaving (v := .cls c) hc trivial _)
  · exact .fails rfl

/-! ### Functions -/

/-- The definition of a function stores its body, which has to be closed. -/
theorem defineFunction_sparing (name : String) (isHost isGlobal : Bool) {body : Program}
    (h : Op.allClosed body = true) :
    Sparing w₀ (defineFunction name isHost isGlobal body) (Result.Storable w₀) := by
  refine (Sparing.newFunction (f := ⟨name, _, .script body⟩) (.of_eq_nil rfl) h).bind fun f hf => ?_
  cases isGlobal with
  | true =>
    refine Sparing.globals.bind fun t ht => ?_
    have hkey : w₀.AllSafe (ScriptValue.string name) := .of_eq_nil rfl
    exact (Sparing.setEntry ht hkey (.function hf)).throwing.andThen fun _ =>
      .replyScript (.function hf)
  | false => exact .replyScript (.function hf)

section HostFunctions

variable {f : HostFunction} (hf : w₀.AllSafe f) (h : Op.allClosed f.body = true)
include hf h

/-- A host function that becomes a script function. -/
theorem bindHostFunction_sparing (via : BindingRef) :
    Sparing w₀ (bindHostFunction via f) fun r => w₀.Safe r.handle :=
  .newFunction (f := ⟨f.name, .host, .host via f⟩) hf h

/-- A host function that is entered into a table under its name. -/
theorem registerIn_sparing {t : TableRef} (ht : w₀.Safe t.handle) :
    Sparing w₀ (registerIn f t) fun _ => True := by
  refine Sparing.seen.andThen fun via => (bindHostFunction_sparing hf h via).bind fun r hr => ?_
  exact (Sparing.setEntry ht (.of_eq_nil rfl) (.function hr)).throwing

/-- Wherever it is registered, it goes into a table that is in hand. -/
theorem registerFunction_sparing (hs : w₀.AllSafe s) (r : Registration) :
    Sparing w₀ (registerFunction s f r) fun _ => True := by
  cases r with
  | none => exact .done
  | global => exact Sparing.globals.bind fun _ ht => registerIn_sparing hf h ht
  | table e =>
    refine (e.eval_sparing hs).bind fun v hv => ?_
    cases v with
    | table t => exact registerIn_sparing hf h (hv _ List.mem_cons_self)
    | _ => exact .fails rfl

end HostFunctions

/-- The definition of a host function, with its types and its body. -/
theorem defineHostFunction_sparing (hs : w₀.AllSafe s) (name : String) {params : List TypeExpr}
    (hparams : params.all TypeExpr.isClosed = true) (r : Registration) {body : Program}
    (hbody : Op.allClosed body = true) :
    Sparing w₀ (defineHostFunction s name params r body) (Result.Storable w₀) := by
  refine (TypeExpr.evalAll_sparing params hparams).bind fun ts hts => ?_
  have hf : w₀.AllSafe (HostFunction.mk name ts body) := hts
  refine (registerFunction_sparing hf hbody hs r).andThen fun _ => .pure ?_
  exact Result.storable_leaving (v := .hostFunction ⟨name, ts, body⟩) hf hbody _

/-! ### Proxies -/

/-- An operand that is to be a proxy. -/
theorem Act.Sparing.proxyOperand (hs : w₀.AllSafe s) (e : ScriptExpr) :
    Sparing w₀ (ScriptHost.proxyOperand s e) fun u => w₀.Safe u.handle := by
  refine (e.eval_sparing hs).bind fun v hv => ?_
  cases v with
  | userdata u =>
    refine Sparing.seen.andThen fun isProxy => ?_
    cases isProxy with
    | true => exact .pure (hv _ List.mem_cons_self)
    | false => exact .fails rfl
  | _ => exact .fails rfl

/-- What a proxy in hand names is of a class that is safe. -/
theorem Act.Sparing.proxyState {u : UserdataRef} (hu : w₀.Safe u.handle) :
    Sparing w₀ (ScriptHost.proxyState u) fun p => ∀ t, p.target = some t → w₀.AllSafe t.cls := by
  refine Sparing.bind (P := fun p? => ∀ p t, p? = some p → p.target = some t → w₀.AllSafe t.cls)
    (.look fun w hw p t hp ht => hw.proxy hu hp ht) fun p? hp => ?_
  cases p? with
  | some p => exact .pure fun t ht => hp p t rfl ht
  | none => exact .fails rfl

/-- Actions on proxies. Only reading and writing go through the proxy to its object. -/
theorem ProxyAction.run_sparing (hs : w₀.AllSafe s) (a : ProxyAction) :
    Sparing w₀ (a.run s) (Result.Storable w₀) := by
  cases a with
  | wrap object =>
    refine (Sparing.objectOrReceiver hs object).bind fun o ho => Sparing.seen.andThen fun via => ?_
    exact Sparing.bind (.toScript via (.object o) ho) fun _ hv => .replyScript hv
  | wrapClass cls =>
    refine (Sparing.classVar cls).bind fun c hc => Sparing.seen.andThen fun via => ?_
    exact (Sparing.newProxy via (t := .type c) hc).bind fun _ hu =>
      .replyScript (.userdata hu)
  | create subject from? =>
    have hrest {t : Target} (ht : w₀.AllSafe t.cls) : Sparing w₀
        (do
          let via ← bindingVar s from?
          let u ← newProxy via t
          replyScript (.userdata u)) (Result.Storable w₀) :=
      (Sparing.bindingVar s from?).andThen fun via =>
        (Sparing.newProxy via ht).bind fun _ hu => .replyScript (.userdata hu)
    cases subject with
    | cls name => exact (Sparing.classVar name).bind fun _ hc => hrest hc
    | object name =>
      exact (Sparing.objectOrReceiver hs name).bind fun o ho =>
        -- A proxy of an object keeps the class only.
        hrest (t := .object o) fun x hx => ho x (List.mem_cons_of_mem _ hx)
  | describe proxy =>
    refine (Sparing.proxyOperand hs proxy).bind fun _ hu => ?_
    exact (Sparing.proxyState hu).andThen fun _ => .reply _
  | sameTarget a b =>
    refine (Sparing.proxyOperand hs a).bind fun x hx => ?_
    refine (Sparing.holding (AllSafe.singleton hx) (.proxyOperand hs b)).bind fun y hy => ?_
    exact (Sparing.proxyState hx).andThen fun _ => (Sparing.proxyState hy).andThen fun _ => .reply _
  | dispose proxy =>
    exact (Sparing.proxyOperand hs proxy).andThen fun u =>
      -- The key and the value are evaluated while the proxy is held, and its state is looked at after
      -- that.
      (Sparing.dispose u).andThen fun _ => .tell _
  | read proxy key =>
    refine (Sparing.proxyOperand hs proxy).bind fun u hu => ?_
    refine (Sparing.holding (AllSafe.singleton hu) (key.eval_sparing hs)).bind fun k hk => ?_
    refine (Sparing.proxyState hu).bind fun p hp => ?_
    have hheld : ∀ x ∈ u.handle :: handles k, w₀.Safe x := List.forall_mem_cons.mpr ⟨hu, hk⟩
    exact (Sparing.holding hheld (Sparing.readProxy hp k).failing).bind fun _ hv => .replyScript hv
  | write proxy key value =>
    refine (Sparing.proxyOperand hs proxy).bind fun u hu => ?_
    refine (Sparing.holding (AllSafe.singleton hu) (key.eval_sparing hs)).bind fun k hk => ?_
    have hheld : ∀ x ∈ u.handle :: handles k, w₀.Safe x := List.forall_mem_cons.mpr ⟨hu, hk⟩
    refine (Sparing.holding hheld (value.eval_sparing hs)).bind fun v hv => ?_
    refine (Sparing.proxyState hu).bind fun p hp => ?_
    have hall := List.forall_mem_append.mpr ⟨hheld, hv⟩
    exact (Sparing.holding hall (Sparing.writeProxy hp k hv).failing).andThen fun _ => .tell _
  | binding config =>
    refine (Sparing.newBinding _).andThen fun r => .pure ?_
    exact Result.storable_leaving (v := .binding r) (.of_eq_nil rfl) trivial _
  | liveCount of? => exact (Sparing.bindingVar s of?).andThen fun _ => .reply _
  | cached object of? =>
    exact (Sparing.objectOrReceiver hs object).andThen fun _ =>
      (Sparing.bindingVar s of?).andThen fun _ => .reply _
  | resolveWith cls key visibility =>
    exact (Sparing.classVar cls).andThen fun _ => (key.eval_sparing hs).andThen fun _ => .reply _
  | resolve cls key onInstance of? =>
    exact (Sparing.classVar cls).andThen fun _ => (key.eval_sparing hs).andThen fun _ =>
      (Sparing.bindingVar s of?).andThen fun _ => .reply _
  | decide cls policy => exact (Sparing.classVar cls).andThen fun _ => .reply _
  | sharedPolicy => exact .tell _

end ScriptHost
