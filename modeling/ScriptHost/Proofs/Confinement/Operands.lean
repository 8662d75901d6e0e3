import ScriptHost.Proofs.Confinement.Crossing

/-!
# Operands inside a realm

What operands give comes from the scope of a body, from variables and from the globals. In a scope
of the realm all of that is inside, whichever side the body is on.
-/

set_option autoImplicit false

namespace ScriptHost

open Act

/-- Whether operations run in the body of a host function or of a method. -/
def Scope.isHost (s : Scope) : Bool :=
  match s.side with
  | .host _ _ _ => true
  | _ => false

variable {R : Realm} {S : Set Item} {α : Type}

namespace Realm

/-- A scope of script, or of host code of the realm, gives only what is inside. -/
def Scoped (R : Realm) (S : Set Item) (s : Scope) : Prop :=
  match s.side with
  | .top => True
  | .script args => Inside S args
  | .host via receiver args => via = R.via ∧ Inside S receiver ∧ Inside S args

section Scoped

variable {s : Scope}

/-- The arguments of a body of script. -/
theorem Scoped.script {args : List ScriptValue} (h : R.Scoped S s) (hside : s.side = .script args) :
    Inside S args := by
  unfold Scoped at h
  rwa [hside] at h

/-- What a body of the host has: the binding of the realm, its receiver and its arguments. -/
theorem Scoped.host {via : BindingRef} {receiver : Option ObjectRef} {args : List HostValue}
    (h : R.Scoped S s) (hside : s.side = .host via receiver args) :
    via = R.via ∧ Inside S receiver ∧ Inside S args := by
  unfold Scoped at h
  rwa [hside] at h

/-- A scope stays in the realm when script gets hold of more. -/
theorem Scoped.mono {S' : Set Item} (h : R.Scoped S s) (hS : S ⊆ S') : R.Scoped S' s := by
  unfold Scoped
  split
  · trivial
  · next hside => exact (h.script hside).mono hS
  · next hside =>
    obtain ⟨hvia, hreceiver, hargs⟩ := h.host hside
    exact ⟨hvia, hreceiver.mono hS, hargs.mono hS⟩

/-- The receiver of a body, on either side. -/
theorem Scoped.receiver (h : R.Scoped S s) : Inside S s.receiver? := by
  unfold Scope.receiver?
  split
  · next hside => exact (h.host hside).2.1
  · exact .none

end Scoped

/-! ### Between the kinds of failures -/

section Failures

variable {Q : Set Item → α → Prop}

/-- Failures of the host as failures of an operation. -/
theorem Keeps.failing {m : Act HostFailure α} (h : R.Keeps S m Q) :
    R.Keeps S (Act.failing m) Q :=
  .mapError _ (fun _ _ _ he => he) h

/-- Errors of a script as failures of an operation. -/
theorem Keeps.throwing {m : Act ScriptError α} (h : R.Keeps S m Q) :
    R.Keeps S (Act.throwing m) Q :=
  .mapError _ (fun _ _ _ he => he) h

/-- Errors of a conversion expose nothing. -/
theorem Keeps.converting {m : Act ConversionError α} (h : R.Keeps S m Q) :
    R.Keeps S (Act.converting m) Q :=
  .mapError _ (fun _ _ _ _ => .of_exposed_eq_nil rfl) h

/-- A failure that reaches a caller in script: one of the host is wrapped in a new carrier. -/
theorem Keeps.intoScript {β : Type} [Exposes β] {m : Act Failure β} (h : R.Keeps S m Inside) :
    R.Keeps S (Act.intoScript m) Inside := by
  refine Keeps.bind (.attempt h) fun _ r hr => ?_
  rcases r with ⟨e | e⟩ | a
  · exact .throw hr
  · exact raising (.throw hr) fun _ hS hin => hin.mono hS
  · exact .give hr

/-- A failure that reaches a caller in the host: an error of a script is unwrapped. -/
theorem Keeps.intoHost {m : Act Failure α} (h : R.Keeps S m Q) : R.Keeps S (Act.intoHost m) Q := by
  refine .mapError _ (fun w f hw hf => ?_) h
  cases f with
  | raised e => exact hw.unwrapError hf
  | failed e => exact hf

end Failures

/-! ### Variables -/

/-- What a body reads from a variable is inside. -/
theorem Keeps.readVar (name : String) : R.Keeps S (Act.readVar name) Inside := by
  refine Keeps.bind (P := fun S' s? => ∀ s, s? = some s → Inside S' s) ?_ fun _ s? hs => ?_
  · exact .look fun _ w hw s hs => hw.var hs
  · cases s? with
    | some s => exact .give (hs s rfl)
    | none => exact .fails rfl

/-- What is taken out of a variable, if what the variable holds makes it so. -/
theorem Keeps.variableAs {what name : String} {f : Stored → Option α} {Q : Set Item → α → Prop}
    (hf : ∀ {S'} s a, Inside S' s → f s = some a → Q S' a)
    (hQ : ∀ {S S'} a, S ⊆ S' → Q S a → Q S' a) : R.Keeps S (Act.variableAs what name f) Q := by
  refine (readVar name).bind fun _ s hs => ?_
  split
  · next a ha => exact .pure fun hS => hQ a hS (hf s a hs ha)
  · exact .fails rfl

/-- A class that is in a variable is for the host to use, and not for script. -/
theorem Keeps.classVar (name : String) : R.Keeps S (Act.classVar name) fun _ _ => True :=
  variableAs (fun _ _ _ _ => trivial) fun _ _ h => h

/-- An object that is in a variable is one that bodies may hand over. -/
theorem Keeps.objectVar (name : String) :
    R.Keeps S (Act.objectVar name) fun S' o => .target (.object o) ∈ S' := by
  refine variableAs (fun {S'} s o hs ho => ?_) fun _ hS ho => hS ho
  have hstored : Inside S' (s.asHost 0) := hs.asHost 0
  split at ho
  · exact Option.some.inj ho ▸ Inside.object_iff.mp hstored
  · exact Option.some.inj ho ▸ Inside.object_iff.mp hstored
  · cases ho

/-- A coroutine that is in a variable. -/
theorem Keeps.coroutineVar (name : String) :
    R.Keeps S (Act.coroutineVar name) fun S' c => .coroutine c ∈ S' := by
  refine variableAs (fun {S'} s c hs hc => ?_) fun _ hS hc => hS hc
  cases s with
  | coroutine d =>
    obtain rfl := Option.some.inj hc
    exact hs _ List.mem_cons_self
  | _ => cases hc

/-- What is named, and the receiver, script may have. -/
theorem Keeps.objectOrReceiver {s : Scope} (hs : R.Scoped S s) (name? : Option String) :
    R.Keeps S (Act.objectOrReceiver s name?) fun S' o => .target (.object o) ∈ S' := by
  cases name? with
  | some name => exact objectVar name
  | none =>
    simp only [Act.objectOrReceiver]
    split
    · next o ho =>
      have hreceiver : Inside S o := Inside.some_iff.mp (ho ▸ hs.receiver)
      exact .pure fun hS => hS (Inside.objectRef_iff.mp hreceiver)
    · exact .fails rfl

/-- In a host body the binding in force is the one of the realm. -/
theorem Keeps.scopeBinding {s : Scope} (hs : R.Scoped S s) (hhost : s.isHost = true) :
    R.Keeps S (Act.look fun w => s.binding w : Act Failure BindingRef)
      fun _ via => via = R.via := by
  refine .look fun _ w _ => ?_
  unfold Scope.isHost at hhost
  unfold Scope.binding
  cases hside : s.side with
  | host via receiver args => exact (hs.host hside).1
  | top | script args =>
    rw [hside] at hhost
    cases hhost

/-- A failure that is in a variable. -/
theorem Keeps.failureVar (name : String) :
    R.Keeps S (Act.variableAs "error" name Stored.failure?) Inside :=
  variableAs (fun _ _ hs hf => hs.failure hf) fun _ hS hf => hf.mono hS

end Realm

/-! ### Operands -/

open Realm

mutual

/-- **Script operands** give what the scope, the variables and the globals give, and fresh tables of
it. -/
theorem ScriptExpr.eval_keeps {S : Set Item} {s : Scope} (hs : R.Scoped S s) :
    ∀ e : ScriptExpr, R.Keeps S (e.eval s) Inside
  | .nil | .boolean _ | .string _ | .integer _ | .number _ => by
    unfold ScriptExpr.eval
    exact .give (.of_exposed_eq_nil rfl)
  | .sequence items => by
    unfold ScriptExpr.eval
    refine (ScriptItems.eval_keeps hs items).bind fun _ vs hvs => ?_
    exact (Keeps.newTable (Table.inside_ofSequence hvs)).bind fun _ t ht =>
      .give (Inside.table_iff.mpr ht)
  | .map entries => by
    unfold ScriptExpr.eval
    -- The table is there before its entries are evaluated, so that script has it while they are.
    refine (Keeps.newTable Table.inside_empty).bind fun hS t ht => ?_
    exact (Keeps.holding _ (ScriptExpr.evalEntries_keeps (hs.mono hS) ht entries)).andThen
      fun hS' _ => .give (Inside.table_iff.mpr (hS' ht))
  | .var name position => by
    unfold ScriptExpr.eval
    exact (Keeps.readVar name).bind fun _ v hv => .give (hv.asScript position)
  | .arg i => by
    unfold ScriptExpr.eval
    split
    · exact .give .nilValue
    · next hside => exact .give (((hs.script hside).getElem? i).getD .nilValue)
    · next hside =>
      -- A body of the host converts under its own binding, which is that of the realm.
      obtain ⟨rfl, -, hargs⟩ := hs.host hside
      exact .toScript _ ((hargs.getElem? i).getD (.of_exposed_eq_nil rfl))
  | .receiver => by
    unfold ScriptExpr.eval
    split
    · next hside =>
      obtain ⟨rfl, hreceiver, -⟩ := hs.host hside
      have htarget := Inside.objectRef_iff.mp (Inside.some_iff.mp hreceiver)
      exact .toScript _ (Inside.object_iff.mpr htarget)
    · exact .give .nilValue
  | .global name => by
    unfold ScriptExpr.eval
    exact .look fun _ w hw => Table.inside_get (hw.table hw.globals) _

/-- The entries of a table, which are stored in it one by one. -/
theorem ScriptExpr.evalEntries_keeps {S : Set Item} {s : Scope} (hs : R.Scoped S s) {t : TableRef}
    (ht : .table t ∈ S) : ∀ entries : List (ScriptExpr × ScriptExpr),
      R.Keeps S (ScriptExpr.evalEntries s t entries) fun _ _ => True
  | [] => by
    unfold ScriptExpr.evalEntries
    exact .done
  | (k, v) :: rest => by
    unfold ScriptExpr.evalEntries
    refine (ScriptExpr.eval_keeps hs k).bind fun hS key hkey => ?_
    refine (Keeps.holding _ (ScriptExpr.eval_keeps (hs.mono hS) v)).bind fun hS' value hvalue => ?_
    have hset := Keeps.setEntry (R := R) (hS' (hS ht)) (hkey.mono hS') hvalue
    refine hset.throwing.andThen fun hS'' _ => ?_
    have hsub := hS.trans (hS'.trans hS'')
    exact ScriptExpr.evalEntries_keeps (hs.mono hsub) (hsub ht) rest

/-- Some operands at once. -/
theorem ScriptItems.eval_keeps {S : Set Item} {s : Scope} (hs : R.Scoped S s) :
    ∀ items : ScriptItems, R.Keeps S (items.eval s) Inside
  | .list items => by
    unfold ScriptItems.eval
    exact ScriptItems.evalList_keeps hs items
  | .all name => by
    unfold ScriptItems.eval
    exact (Keeps.readVar name).bind fun _ v hv => .give hv.asScripts
  | .allArgs => by
    unfold ScriptItems.eval
    split
    · exact .give .nil
    · next hside => exact .give (hs.script hside)
    · next hside =>
      obtain ⟨rfl, -, hargs⟩ := hs.host hside
      exact .toScriptAll hargs
  | .range n => by
    unfold ScriptItems.eval
    refine .give (Inside.list_iff.mpr fun v hv => ?_)
    obtain ⟨i, -, rfl⟩ := List.mem_map.mp hv
    exact .of_exposed_eq_nil rfl

/-- Operands one after another. Each one may give script more. -/
theorem ScriptItems.evalList_keeps {S : Set Item} {s : Scope} (hs : R.Scoped S s) :
    ∀ items : List ScriptExpr, R.Keeps S (ScriptItems.evalList s items) Inside
  | [] => by
    unfold ScriptItems.evalList
    exact .give .nil
  | e :: es => by
    unfold ScriptItems.evalList
    refine (ScriptExpr.eval_keeps hs e).bind fun hS v hv => ?_
    exact (Keeps.holding _ (ScriptItems.evalList_keeps (hs.mono hS) es)).bind fun hS' vs hvs =>
      .give (.cons (hv.mono hS') hvs)

end

mutual

/-- **Host operands** give what the scope and the variables give. -/
theorem HostExpr.eval_keeps {S : Set Item} {s : Scope} (hs : R.Scoped S s) :
    ∀ e : HostExpr, R.Keeps S (e.eval s) Inside
  | .null | .bool _ | .string _ | .int _ | .uint _ | .float _ => by
    unfold HostExpr.eval
    exact .give (.of_exposed_eq_nil rfl)
  | .array items => by
    unfold HostExpr.eval
    exact (HostItems.eval_keeps hs items).bind fun _ vs hvs => .give (Inside.array_iff.mpr hvs)
  | .script e => by
    unfold HostExpr.eval
    exact (e.eval_keeps hs).bind fun _ v hv => .give (Inside.script_iff.mpr hv)
  | .var name position => by
    unfold HostExpr.eval
    exact (Keeps.readVar name).bind fun _ v hv => .give (hv.asHost position)
  | .arg i => by
    unfold HostExpr.eval
    split
    · exact .give (.of_exposed_eq_nil rfl)
    -- An argument from script stays what it is, and one from the host as well.
    · next hside =>
      exact .give (Inside.script_iff.mpr (((hs.script hside).getElem? i).getD .nilValue))
    · next hside =>
      obtain ⟨-, -, hargs⟩ := hs.host hside
      exact .give ((hargs.getElem? i).getD (.of_exposed_eq_nil rfl))
  | .receiver => by
    unfold HostExpr.eval
    split
    · next o ho =>
      have hreceiver : Inside S o := Inside.some_iff.mp (ho ▸ hs.receiver)
      exact .give (Inside.object_iff.mpr (Inside.objectRef_iff.mp hreceiver))
    · exact .give (.of_exposed_eq_nil rfl)

/-- Some operands at once, for the host. -/
theorem HostItems.eval_keeps {S : Set Item} {s : Scope} (hs : R.Scoped S s) :
    ∀ items : HostItems, R.Keeps S (items.eval s) Inside
  | .list items => by
    unfold HostItems.eval
    exact HostItems.evalList_keeps hs items
  | .allArgs => by
    unfold HostItems.eval
    split
    · exact .give .nil
    · next hside => exact .give (hs.script hside).passed
    · next hside => exact .give (hs.host hside).2.2
  | .range n => by
    unfold HostItems.eval
    refine .give (Inside.list_iff.mpr fun v hv => ?_)
    obtain ⟨i, -, rfl⟩ := List.mem_map.mp hv
    exact .of_exposed_eq_nil rfl
  | .script items => by
    unfold HostItems.eval
    exact (items.eval_keeps hs).bind fun _ vs hvs => .give hvs.passed

/-- Operands of the host one after another. -/
theorem HostItems.evalList_keeps {S : Set Item} {s : Scope} (hs : R.Scoped S s) :
    ∀ items : List HostExpr, R.Keeps S (HostItems.evalList s items) Inside
  | [] => by
    unfold HostItems.evalList
    exact .give .nil
  | e :: es => by
    unfold HostItems.evalList
    refine (HostExpr.eval_keeps hs e).bind fun hS v hv => ?_
    exact (Keeps.holding _ (HostItems.evalList_keeps (hs.mono hS) es)).bind fun hS' vs hvs =>
      .give (.cons (hv.mono hS') hvs)

end

/-- The slots that an instance is to get. -/
theorem HostExpr.evalSlots_keeps {s : Scope} (hs : R.Scoped S s)
    (slots : List (String × HostExpr)) : R.Keeps S (HostExpr.evalSlots s slots) Inside := by
  induction slots generalizing S with
  | nil => exact .give .nil
  | cons p rest ih =>
    refine (p.2.eval_keeps hs).bind fun hS v hv => ?_
    refine (Keeps.holding _ (ih (hs.mono hS))).bind fun {S'} hS' vs hvs => ?_
    have hslot : Inside S' (p.1, v) := hv.mono hS'
    exact .give (.cons hslot hvs)

/-- Types expose nothing. -/
theorem TypeExpr.eval_keeps (t : TypeExpr) : R.Keeps S t.eval fun _ _ => True := by
  induction t generalizing S with
  | plain t => exact .done
  | array e ih => exact ih.andThen fun _ _ => .done
  | nullable e ih => exact ih.andThen fun _ _ => .done
  | object name => exact (Keeps.classVar name).andThen fun _ _ => .done

/-- The second of two operands is evaluated while the first is held. -/
theorem Realm.Keeps.pair {x y : ScriptExpr} {s : Scope} (hs : R.Scoped S s)
    {hold : ScriptValue → List Handle}
    {f : ScriptValue → ScriptValue → Act Failure α} {Q : Set Item → α → Prop}
    (hf : ∀ {S'}, S ⊆ S' → ∀ v w, Inside S' v → Inside S' w → R.Keeps S' (f v w) Q) :
    R.Keeps S (x.eval s >>= fun v => Act.holding (hold v) (y.eval s) >>= f v) Q :=
  (x.eval_keeps hs).bind fun hS v hv =>
    (Keeps.holding _ (y.eval_keeps (hs.mono hS))).bind fun hS' w hw =>
      hf (hS.trans hS') v w (hv.mono hS') hw

end ScriptHost
