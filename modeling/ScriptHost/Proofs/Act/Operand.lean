import ScriptHost.Proofs.Act.Crossing

/-!
# Operands and results are composed

Evaluating operands runs no code of the host, whatever scope it happens in, and names known things
if the scope does. What a variable holds is within the license and known, and so is what an operation
leaves for a variable: `Result.Within`.
-/

set_option autoImplicit false

namespace ScriptHost

open Act
open World (Unseeing)

variable {l : License} {b : Bool} {K : Set Mention} {ε α : Type} [Names ε]

namespace Act

/-! ### Between the kinds of failures -/

/-- An error of the host is a failure, and names what it named. -/
theorem failing_composed {m : Act HostFailure α} {Q : Set Mention → α → Prop}
    (h : Composed l b K m Q) : Composed l b K (failing m) Q :=
  .mapError _ (.ofRest fun _ _ => rfl) (fun _ _ _ he => he) h

theorem throwing_composed {m : Act ScriptError α} {Q : Set Mention → α → Prop}
    (h : Composed l b K m Q) : Composed l b K (throwing m) Q :=
  .mapError _ (.ofRest fun _ _ => rfl) (fun _ _ _ he => he) h

theorem converting_composed {m : Act ConversionError α} {Q : Set Mention → α → Prop}
    (h : Composed l b K m Q) : Composed l b K (converting m) Q :=
  .mapError _ (.ofRest fun _ _ => rfl) (fun _ _ _ _ => .of_named_eq_nil rfl) h

/-- A failure in a script body is looked at by script, which may have to be made a userdata for it. -/
theorem intoScript_composed {m : Act Failure α} {Q : Set Mention → α → Prop}
    (h : Composed l b K m Q) : Composed l b K (intoScript m) Q := by
  refine Composed.bind (.attempt h) fun _ r hr => ?_
  rcases r with ⟨e | e⟩ | a
  · exact .throw e hr
  · exact raising_composed (.throw e hr)
  · exact .pure a hr

/-- A failure in a host body goes to the host, and script errors are unwrapped. -/
theorem intoHost_composed {m : Act Failure α} {Q : Set Mention → α → Prop}
    (h : Composed l b K m Q) : Composed l b K (intoHost m) Q := by
  refine .mapError _ (.ofRest fun _ _ => rfl) (fun _ f hk hf => ?_) h
  cases f with
  | raised e => exact hk.unwrapError hf
  | failed e => exact hf

/-! ### Variables -/

/-- What a variable holds is within the license, since an operation stored it. -/
theorem readVar_composed (name : String) :
    Composed l b K (readVar name) fun K' s => s.Within l ∧ Known K' s := by
  refine Composed.bind (P := fun K' s? => ∀ s, s? = some s → s.Within l ∧ Known K' s)
    (.look _ (.inr (.ofRest fun _ _ => rfl)) ?_) fun _ s? hs => ?_
  · exact fun _ w hw hk s hs => ⟨hw.var hs, hk.var hs⟩
  · cases s? with
    | some s => exact .pure s (hs s rfl)
    | none => exact .fails rfl

/-- A variable is used as something if it holds that. -/
theorem variableAs_composed {what name : String} {f : Stored → Option α}
    {Q : Set Mention → α → Prop}
    (hf : ∀ {K'} s a, s.Within l → Known K' s → f s = some a → Q K' a) :
    Composed l b K (variableAs what name f) Q := by
  refine (readVar_composed name).bind fun _ s hs => ?_
  split
  · next a ha => exact .pure a (hf s a hs.1 hs.2 ha)
  · exact .fails rfl

/-- A variable read for something that is no program and no object. -/
theorem plainVar_composed (what name : String) (f : Stored → Option α) :
    Composed l b K (variableAs what name f) fun _ _ => True :=
  variableAs_composed fun _ _ _ _ _ => trivial

theorem classVar_composed (name : String) : Composed l b K (classVar name) fun _ _ => True :=
  plainVar_composed _ _ _

theorem objectVar_composed (name : String) : Composed l b K (objectVar name) Known := by
  refine variableAs_composed fun s o _ hk ho => ?_
  split at ho
  · exact Option.some.inj ho ▸ hk
  · exact Option.some.inj ho ▸ hk
  · cases ho

/-- A weak variable names its object though it does not hold it. -/
theorem weakVar_composed (name : String) : Composed l b K (weakVar name) Known := by
  refine variableAs_composed fun s o _ hk ho => ?_
  split at ho
  · exact Option.some.inj ho ▸ hk
  · cases ho

/-- The body of a host function that waits in a variable is within the license. -/
theorem hostFunctionVar_composed (name : String) :
    Composed l b K (hostFunctionVar name) fun _ f => Op.allWithin l true f.body := by
  refine variableAs_composed fun s a hs _ ha => ?_
  cases s with
  | hostFunction f =>
    obtain rfl := Option.some.inj ha
    exact hs
  | _ => cases ha

theorem failureVar_composed (name : String) :
    Composed l b K (variableAs "error" name Stored.failure?) Known :=
  variableAs_composed fun _ _ _ hk hf => hk.failure hf

theorem bindingVar_composed (s : Scope) (name? : Option String) :
    Composed l b K (bindingVar s name?) fun _ _ => True := by
  cases name? with
  | some name => exact plainVar_composed _ _ _
  | none => exact .seen (.ofRest fun _ _ => rfl)

/-- The receiver is known with the scope. -/
theorem objectOrReceiver_composed {s : Scope} (hk : Known K s) (name? : Option String) :
    Composed l b K (objectOrReceiver s name?) Known := by
  cases name? with
  | some name => exact objectVar_composed name
  | none =>
    unfold objectOrReceiver
    cases hs : s.receiver? with
    | some o => exact .pure o (Known.some_iff.mp (hs ▸ hk.receiver))
    | none => exact .fails rfl

/-- The binding in force is no secret. -/
theorem scopeBinding_composed (s : Scope) :
    Composed l b K (look fun w => s.binding w : Act ε BindingRef) fun _ _ => True :=
  .seen (.ofRest fun _ _ => rfl)

theorem bridge_composed : Composed l b K (look fun w => w.bridge : Act ε BindingRef) fun _ _ => True :=
  .seen (.ofRest fun _ _ => rfl)

theorem globals_composed : Composed l b K (look fun w => w.globals : Act ε TableRef) fun _ _ => True :=
  .seen (.ofRest fun _ _ => rfl)

/-- Globals are read from a table, and all that a table holds is known. -/
theorem global_composed (name : String) :
    Composed l b K (look fun w => (w.table w.globals).get (.string name) : Act ε ScriptValue)
      Known :=
  .look _ (.inr (.ofRest fun _ _ => rfl)) fun _ _ _ hk => Table.known_get (hk.table _) _

end Act

/-! ### Expressions -/

mutual

/-- **Script operands are composed**, by recursion on the expression, and name known things. -/
theorem ScriptExpr.eval_composed {K : Set Mention} {s : Scope} (hk : Known K s) :
    ∀ e : ScriptExpr, Composed l b K (e.eval s) Known
  | .nil | .boolean _ | .string _ | .integer _ | .number _ => by
    unfold ScriptExpr.eval
    exact .pure _ (.of_named_eq_nil rfl)
  | .sequence items => by
    unfold ScriptExpr.eval
    refine (ScriptItems.eval_composed hk items).bind fun _ vs hvs => ?_
    refine (Composed.newTable _ (Table.noNil_ofSequence vs) (Table.known_ofSequence hvs)).andThen ?_
    exact fun _ t => .pure _ (.of_named_eq_nil rfl)
  | .map entries => by
    unfold ScriptExpr.eval
    refine (Composed.newTable _ Table.noNil_empty Table.known_empty).andThen fun hK t => ?_
    have hentries := ScriptExpr.evalEntries_composed (hk.mono hK) t entries
    exact (Composed.holding _ hentries).andThen fun _ _ => .pure _ (.of_named_eq_nil rfl)
  | .var name position => by
    unfold ScriptExpr.eval
    exact (readVar_composed name).bind fun _ v hv => .pure _ (hv.2.asScript position)
  | .arg i => by
    unfold ScriptExpr.eval
    -- The top of a session has no arguments, script gets its own and the host's are converted.
    split
    · exact .pure _ (.of_named_eq_nil rfl)
    · next hside => exact .pure _ (hk.scriptArg hside i)
    · next hside => exact toScript_composed _ _ (hk.arg hside i)
  | .receiver => by
    unfold ScriptExpr.eval
    -- Only a host body has a receiver, and script sees a proxy of it.
    split
    · next hside => exact toScript_composed _ _ (hk.hostReceiver hside)
    · exact .pure _ (.of_named_eq_nil rfl)
  | .global name => by
    unfold ScriptExpr.eval
    exact global_composed name

/-- The entries are put into a table that is made before them. -/
theorem ScriptExpr.evalEntries_composed {K : Set Mention} {s : Scope} (hk : Known K s)
    (t : TableRef) :
    ∀ entries : List (ScriptExpr × ScriptExpr),
      Composed l b K (ScriptExpr.evalEntries s t entries) fun _ _ => True
  | [] => by
    unfold ScriptExpr.evalEntries
    exact .give _
  | (k, v) :: rest => by
    unfold ScriptExpr.evalEntries
    refine (ScriptExpr.eval_composed hk k).bind fun hK key hkey => ?_
    -- The key is held while the value is there, and both while the entry is set.
    replace hk := hk.mono hK
    refine (Composed.holding _ (ScriptExpr.eval_composed hk v)).bind fun hK value hvalue => ?_
    replace hk := hk.mono hK
    refine (throwing_composed (.setEntry t (hkey.mono hK) hvalue)).andThen fun hK _ => ?_
    exact ScriptExpr.evalEntries_composed (hk.mono hK) t rest

/-- Several values at once: from a list of expressions, a variable or the arguments. -/
theorem ScriptItems.eval_composed {K : Set Mention} {s : Scope} (hk : Known K s) :
    ∀ items : ScriptItems, Composed l b K (items.eval s) Known
  | .list items => by
    unfold ScriptItems.eval
    exact ScriptItems.evalList_composed hk items
  | .all name => by
    unfold ScriptItems.eval
    exact (readVar_composed name).bind fun _ v hv => .pure _ hv.2.asScripts
  | .allArgs => by
    unfold ScriptItems.eval
    -- The same three cases as for one argument.
    split
    · exact .pure _ .nil
    · next hside => exact .pure _ (hk.scriptArgs hside)
    · next hside => exact toScriptAll_composed _ (hk.args hside)
  | .range n => by
    unfold ScriptItems.eval
    exact .pure _ (.map fun _ _ => .of_named_eq_nil rfl)

/-- From left to right, where each value is held until the last one is there. -/
theorem ScriptItems.evalList_composed {K : Set Mention} {s : Scope} (hk : Known K s) :
    ∀ items : List ScriptExpr, Composed l b K (ScriptItems.evalList s items) Known
  | [] => by
    unfold ScriptItems.evalList
    exact .pure _ .nil
  | e :: es => by
    unfold ScriptItems.evalList
    refine (ScriptExpr.eval_composed hk e).bind fun hK v hv => ?_
    exact (Composed.holding _ (ScriptItems.evalList_composed (hk.mono hK) es)).bind
      fun hK' vs hvs => .pure _ (.cons (hv.mono hK') hvs)

end

mutual

/-- **Host operands are composed**, and name known things. -/
theorem HostExpr.eval_composed {K : Set Mention} {s : Scope} (hk : Known K s) :
    ∀ e : HostExpr, Composed l b K (e.eval s) Known
  | .null | .bool _ | .string _ | .int _ | .uint _ | .float _ => by
    unfold HostExpr.eval
    exact .pure _ (.of_named_eq_nil rfl)
  | .array items => by
    unfold HostExpr.eval
    exact (HostItems.eval_composed hk items).bind fun _ vs hvs =>
      .pure _ (Known.array_iff.mpr hvs)
  | .script e => by
    unfold HostExpr.eval
    exact (ScriptExpr.eval_composed hk e).bind fun _ v hv => .pure _ hv
  | .var name position => by
    unfold HostExpr.eval
    exact (readVar_composed name).bind fun _ v hv => .pure _ (hv.2.asHost position)
  | .arg i => by
    unfold HostExpr.eval
    -- Arguments from script are wrapped, not converted.
    split
    · exact .pure _ (.of_named_eq_nil rfl)
    · next hside => exact .pure _ (hk.scriptArg hside i)
    · next hside => exact .pure _ (hk.arg hside i)
  | .receiver => by
    unfold HostExpr.eval
    split
    · next o ho =>
      have hknown : Known K o := Known.some_iff.mp (ho ▸ hk.receiver)
      exact .pure _ hknown
    · exact .pure _ (.of_named_eq_nil rfl)

/-- Several values of the host at once. -/
theorem HostItems.eval_composed {K : Set Mention} {s : Scope} (hk : Known K s) :
    ∀ items : HostItems, Composed l b K (items.eval s) Known
  | .list items => by
    unfold HostItems.eval
    exact HostItems.evalList_composed hk items
  | .allArgs => by
    unfold HostItems.eval
    split
    · exact .pure _ .nil
    · next hside => exact .pure _ (.map (Known.list_iff.mp (hk.scriptArgs hside)))
    · next hside => exact .pure _ (hk.args hside)
  | .range n => by
    unfold HostItems.eval
    exact .pure _ (.map fun _ _ => .of_named_eq_nil rfl)
  | .script items => by
    unfold HostItems.eval
    exact (ScriptItems.eval_composed hk items).bind fun _ vs hvs =>
      .pure _ (.map (Known.list_iff.mp hvs))

/-- From left to right, held like script values. -/
theorem HostItems.evalList_composed {K : Set Mention} {s : Scope} (hk : Known K s) :
    ∀ items : List HostExpr, Composed l b K (HostItems.evalList s items) Known
  | [] => by
    unfold HostItems.evalList
    exact .pure _ .nil
  | e :: es => by
    unfold HostItems.evalList
    -- What is known before is known afterwards, so the values are known together in the end.
    refine (HostExpr.eval_composed hk e).bind fun hK v hv => ?_
    exact (Composed.holding _ (HostItems.evalList_composed (hk.mono hK) es)).bind
      fun hK' vs hvs => .pure _ (.cons (hv.mono hK') hvs)

end

theorem TypeExpr.eval_composed (t : TypeExpr) : Composed l b K t.eval fun _ _ => True := by
  induction t with
  | plain t => exact .give t
  | array e ih => exact ih.andThen fun _ t => .give _
  | nullable e ih => exact ih.andThen fun _ t => .give _
  | object name => exact (classVar_composed name).andThen fun _ c => .give _

theorem TypeExpr.evalAll_composed (ts : List TypeExpr) :
    Composed l b K (TypeExpr.evalAll ts) fun _ _ => True := by
  induction ts generalizing K with
  | nil => exact .give _
  | cons t ts ih => exact t.eval_composed.andThen fun _ _ => ih.andThen fun _ _ => .give _

/-- The initial values of slots name what their expressions name. -/
theorem HostExpr.evalSlots_composed {s : Scope} (hk : Known K s)
    (slots : List (String × HostExpr)) : Composed l b K (HostExpr.evalSlots s slots) Known := by
  induction slots generalizing K with
  | nil => exact .pure _ .nil
  | cons p rest ih =>
    exact (p.2.eval_composed hk).bind fun hK v hv =>
      (Composed.holding _ (ih (hk.mono hK))).bind fun hK' vs hvs =>
        .pure _ (.cons (hv.mono hK') hvs)

/-! ### Results -/

/-- What the result leaves for a variable is within the license and known. -/
def Result.Within (l : License) (K : Set Mention) (r : Result) : Prop :=
  ∀ v, r.store = some v → v.Within l ∧ Known K v

namespace Result

theorem within_told (a : Answer) : (told a).Within l K := fun _ h => nomatch h

theorem within_nothing : nothing.Within l K := within_told _

theorem within_leaving {v : Stored} (a : Answer) (h : v.Within l) (hk : Known K v) :
    (leaving v a).Within l K :=
  fun _ hv => Option.some.inj hv ▸ ⟨h, hk⟩

theorem within_host {v : HostValue} (hk : Known K v) : (host v).Within l K :=
  fun _ h => Option.some.inj h ▸ ⟨trivial, hk⟩

theorem within_object {o : ObjectRef} (hk : Known K o) : (object o).Within l K :=
  fun _ h => Option.some.inj h ▸ ⟨trivial, hk⟩

end Result

namespace Act

/-- Telling what cannot be told apart. -/
theorem reply_composed {f : World → Answer} (hf : Unseeing f) :
    Composed l b K (reply f : Act ε Result) (Result.Within l) :=
  .look _ (.inr fun w v h => congrArg Result.told (hf w v h)) fun _ _ _ _ => Result.within_told _

/-- Telling what only a license to see allows. -/
theorem reply_composed_of_seeing {f : World → Answer} (hl : l.seeing = true) :
    Composed l b K (reply f : Act ε Result) (Result.Within l) :=
  .look _ (.inl hl) fun _ _ _ _ => Result.within_told _

/-- A value in a variable and an answer about it. -/
theorem replyWith_composed {s : Stored} {f : World → Answer} (hs : s.Within l) (hk : Known K s)
    (hf : Unseeing f) : Composed l b K (replyWith s f : Act ε Result) (Result.Within l) :=
  .holding _ <| .look _ (.inr fun w v h => congrArg (Result.leaving s) (hf w v h)) fun hK _ _ _ =>
    Result.within_leaving _ hs (hk.mono hK)

/-- Something without a program and without names is left. -/
theorem replyPlain_composed {s : Stored} {f : World → Answer} (hs : s.Within l)
    (hnone : Names.named s = []) (hf : Unseeing f) :
    Composed l b K (replyWith s f : Act ε Result) (Result.Within l) :=
  replyWith_composed hs (.of_named_eq_nil hnone) hf

theorem replyScript_composed {v : ScriptValue} (hv : Known K v) :
    Composed l b K (replyScript v : Act ε Result) (Result.Within l) :=
  replyWith_composed trivial hv fun w w' h => by rw [h.view_eq]

/-- Results of a call are shown one by one. -/
theorem replyScripts_composed {vs : List ScriptValue} (hvs : Known K vs) :
    Composed l b K (replyScripts vs : Act ε Result) (Result.Within l) :=
  replyWith_composed trivial hvs fun w w' h => by rw [h.views_eq]

theorem logging_composed {r : Result} (hr : r.Within l K) :
    Composed l b K (logging r : Act ε Result) (Result.Within l) :=
  (Composed.holding _ (.seen fun _ _ h => h.answer_eq r.reply)).andThen fun hK a =>
    (Composed.log a).andThen fun hK' _ => .pure r fun v hv =>
      ⟨(hr v hv).1, (hr v hv).2.mono (hK.trans hK')⟩

end Act

end ScriptHost
