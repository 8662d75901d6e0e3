import ScriptHost.Proofs.Afterlife.Crossing

/-!
# Operands revive nothing

What operands give comes from the scope, from variables and from the globals. The scope of a body
holds nothing dead because the body holds its arguments and its receiver while it runs; variables
and globals are held from outside all the time.

A variable that holds an object weakly gives it away only as weakly (`Sparing.weakVar`), and the
types that operands describe are closed.
-/

set_option autoImplicit false

namespace ScriptHost

open World (AllSafe)

variable {w₀ : World} {s : Scope} {α : Type}

namespace Act.Sparing

/-! ### Between the kinds of failures -/

section Failures

variable {Q : α → Prop}

/-- Failures of the host as failures of an operation. -/
theorem failing {m : Act HostFailure α} (h : Sparing w₀ m Q) : Sparing w₀ (Act.failing m) Q :=
  .mapError _ (fun _ _ _ he => he) h

/-- Errors of a script as failures of an operation. -/
theorem throwing {m : Act ScriptError α} (h : Sparing w₀ m Q) : Sparing w₀ (Act.throwing m) Q :=
  .mapError _ (fun _ _ _ he => he) h

/-- Errors of a conversion name types and places only. -/
theorem converting {m : Act ConversionError α} (h : Sparing w₀ m Q) :
    Sparing w₀ (Act.converting m) Q :=
  .mapError _ (fun _ _ _ _ => .of_eq_nil rfl) h

/-- A failure that reaches a caller in script: one of the host is wrapped in a new carrier. -/
theorem intoScript {m : Act Failure α} (h : Sparing w₀ m Q) : Sparing w₀ (Act.intoScript m) Q := by
  refine Sparing.bind (.attempt h) fun r hr => ?_
  rcases r with ⟨e | e⟩ | a
  · exact .throw hr
  · exact raising (.throw hr)
  · exact .pure hr

/-- A failure that reaches a caller in the host: an error of a script is unwrapped. -/
theorem intoHost {m : Act Failure α} (h : Sparing w₀ m Q) : Sparing w₀ (Act.intoHost m) Q := by
  refine .mapError _ (fun w f hw hf => ?_) h
  cases f with
  | raised e => exact hw.unwrapError hf
  | failed e => exact hf

end Failures

/-! ### Variables -/

/-- What is in a variable holds nothing dead and can be run. -/
theorem readVar (name : String) :
    Sparing w₀ (Act.readVar name) fun s => w₀.AllSafe s ∧ s.Closed := by
  refine Sparing.bind (P := fun s? => ∀ s, s? = some s → w₀.AllSafe s ∧ s.Closed) ?_ fun s? hs => ?_
  · exact .look fun w hw s hs => hw.var hs
  · cases s? with
    | some s => exact .pure (hs s rfl)
    | none => exact .fails rfl

/-- What is taken out of a variable is as good as the variable makes it. -/
theorem variableAs {what name : String} {f : Stored → Option α} {Q : α → Prop}
    (hf : ∀ s a, w₀.AllSafe s → s.Closed → f s = some a → Q a) :
    Sparing w₀ (Act.variableAs what name f) Q := by
  refine (readVar name).bind fun s hs => ?_
  split
  · next a ha => exact .pure (hf s a hs.1 hs.2 ha)
  · exact .fails rfl

/-- A class that is in a variable. -/
theorem classVar (name : String) : Sparing w₀ (Act.classVar name) w₀.AllSafe := by
  refine variableAs fun s c hs _ hc => ?_
  cases s with
  | cls d =>
    obtain rfl := Option.some.inj hc
    exact hs
  | _ => cases hc

/-- An object that is in a variable. -/
theorem objectVar (name : String) : Sparing w₀ (Act.objectVar name) w₀.AllSafe := by
  refine variableAs fun s o hs _ ho => ?_
  have hvalue : w₀.AllSafe (s.asHost 0) := hs.asHost 0
  split at ho
  · exact Option.some.inj ho ▸ hvalue
  · exact Option.some.inj ho ▸ hvalue
  · cases ho

/-- A weak handle holds the class of its object and not the object. -/
theorem weakVar (name : String) : Sparing w₀ (Act.weakVar name) fun o => w₀.AllSafe o.cls := by
  refine variableAs fun s o hs _ ho => ?_
  cases s with
  | weak x =>
    obtain rfl := Option.some.inj ho
    exact hs
  | _ => cases ho

/-- A coroutine that is in a variable. -/
theorem coroutineVar (name : String) :
    Sparing w₀ (Act.coroutineVar name) fun c => w₀.Safe c.handle := by
  refine variableAs fun s c hs _ hc => ?_
  cases s with
  | coroutine d =>
    obtain rfl := Option.some.inj hc
    exact hs _ List.mem_cons_self
  | _ => cases hc

/-- A host function that is in a variable, with its body. -/
theorem hostFunctionVar (name : String) :
    Sparing w₀ (Act.hostFunctionVar name) fun f => w₀.AllSafe f ∧ Op.allClosed f.body := by
  refine variableAs fun s f hs hclosed hf => ?_
  cases s with
  | hostFunction g =>
    obtain rfl := Option.some.inj hf
    exact ⟨hs, hclosed⟩
  | _ => cases hf

/-- A failure that is in a variable. -/
theorem failureVar (name : String) :
    Sparing w₀ (Act.variableAs "error" name Stored.failure?) w₀.AllSafe :=
  variableAs fun _ _ hs _ hf => hs.failure hf

/-- A binding holds nothing. -/
theorem bindingVar (s : Scope) (name? : Option String) :
    Sparing w₀ (Act.bindingVar s name?) fun _ => True := by
  cases name? with
  | some name => exact variableAs fun _ _ _ _ _ => trivial
  | none => exact .seen

/-- What is named is held by a variable, and the receiver by the body. -/
theorem objectOrReceiver (hs : w₀.AllSafe s) (name? : Option String) :
    Sparing w₀ (Act.objectOrReceiver s name?) w₀.AllSafe := by
  cases name? with
  | some name => exact objectVar name
  | none =>
    simp only [Act.objectOrReceiver]
    split
    · next o ho => exact .pure (AllSafe.some_iff.mp (ho ▸ hs.receiver))
    · exact .fails rfl

end Act.Sparing

/-! ### Operands -/

open Act

mutual

/-- **Script operands** give what the scope, the variables and the globals give, and fresh tables of
it. -/
theorem ScriptExpr.eval_sparing (hs : w₀.AllSafe s) :
    ∀ e : ScriptExpr, Sparing w₀ (e.eval s) w₀.AllSafe
  | .nil | .boolean _ | .string _ | .integer _ | .number _ => by
    unfold ScriptExpr.eval
    exact .pure (.of_eq_nil rfl)
  | .sequence items => by
    unfold ScriptExpr.eval
    refine (ScriptItems.eval_sparing hs items).bind fun vs hvs => ?_
    exact (Sparing.newTable (Table.allSafe_ofSequence hvs)).bind fun t ht =>
      .pure (.table ht)
  -- The table is there before its entries are evaluated, so it is held.
  | .map entries => by
    unfold ScriptExpr.eval
    refine (Sparing.newTable (.of_eq_nil rfl)).bind fun t ht => ?_
    have hentries := ScriptExpr.evalEntries_sparing hs ht entries
    exact (Sparing.holding (AllSafe.singleton ht) hentries).andThen fun _ =>
      .pure (.table ht)
  | .var name position => by
    unfold ScriptExpr.eval
    exact (Sparing.readVar name).bind fun v hv => .pure (hv.1.asScript position)
  | .arg i => by
    unfold ScriptExpr.eval
    split
    · exact .pure (.of_eq_nil rfl)
    · next hside => exact .pure (hs.scriptArg hside i)
    -- In a body of the host the argument is a host value, and goes to script.
    · next hside => exact .toScript _ _ (hs.arg hside i)
  | .receiver => by
    unfold ScriptExpr.eval
    split
    · next hside => exact .toScript _ _ (hs.hostReceiver hside)
    · exact .pure (.of_eq_nil rfl)
  | .global name => by
    unfold ScriptExpr.eval
    exact .look fun w hw => hw.global _

/-- The entries of a table, which are stored in it one by one. -/
theorem ScriptExpr.evalEntries_sparing (hs : w₀.AllSafe s) {t : TableRef}
    (ht : w₀.Safe t.handle) : ∀ entries : List (ScriptExpr × ScriptExpr),
      Sparing w₀ (ScriptExpr.evalEntries s t entries) fun _ => True
  | [] => by
    unfold ScriptExpr.evalEntries
    exact .done
  | (k, v) :: rest => by
    unfold ScriptExpr.evalEntries
    refine (ScriptExpr.eval_sparing hs k).bind fun key hkey => ?_
    refine (Sparing.holding hkey (ScriptExpr.eval_sparing hs v)).bind fun value hvalue => ?_
    exact (Sparing.setEntry ht hkey hvalue).throwing.andThen fun _ =>
      ScriptExpr.evalEntries_sparing hs ht rest

/-- Some operands at once. -/
theorem ScriptItems.eval_sparing (hs : w₀.AllSafe s) :
    ∀ items : ScriptItems, Sparing w₀ (items.eval s) w₀.AllSafe
  | .list items => by
    unfold ScriptItems.eval
    exact ScriptItems.evalList_sparing hs items
  | .all name => by
    unfold ScriptItems.eval
    exact (Sparing.readVar name).bind fun v hv => .pure hv.1.asScripts
  | .allArgs => by
    unfold ScriptItems.eval
    split
    · exact .pure .nil
    · next hside => exact .pure (hs.scriptArgs hside)
    · next hside => exact .toScriptAll _ (hs.args hside)
  | .range n => by
    unfold ScriptItems.eval
    exact .pure (.map fun _ _ => .of_eq_nil rfl)

/-- Operands one after another. What was evaluated is held while the others are. -/
theorem ScriptItems.evalList_sparing (hs : w₀.AllSafe s) :
    ∀ items : List ScriptExpr, Sparing w₀ (ScriptItems.evalList s items) w₀.AllSafe
  | [] => by
    unfold ScriptItems.evalList
    exact .pure .nil
  | e :: es => by
    unfold ScriptItems.evalList
    refine (ScriptExpr.eval_sparing hs e).bind fun v hv => ?_
    exact (Sparing.holding hv (ScriptItems.evalList_sparing hs es)).bind fun vs hvs =>
      .pure (.cons hv hvs)

end

mutual

/-- **Host operands** give what the scope and the variables give. -/
theorem HostExpr.eval_sparing (hs : w₀.AllSafe s) :
    ∀ e : HostExpr, Sparing w₀ (e.eval s) w₀.AllSafe
  | .null | .bool _ | .string _ | .int _ | .uint _ | .float _ => by
    unfold HostExpr.eval
    exact .pure (.of_eq_nil rfl)
  | .array items => by
    unfold HostExpr.eval
    exact (HostItems.eval_sparing hs items).bind fun vs hvs => .pure (AllSafe.array_iff.mpr hvs)
  | .script e => by
    unfold HostExpr.eval
    exact (e.eval_sparing hs).bind fun v hv => .pure hv
  | .var name position => by
    unfold HostExpr.eval
    exact (Sparing.readVar name).bind fun v hv => .pure (hv.1.asHost position)
  | .arg i => by
    unfold HostExpr.eval
    split
    · exact .pure (.of_eq_nil rfl)
    · next hside => exact .pure (hs.scriptArg hside i)
    · next hside => exact .pure (hs.arg hside i)
  | .receiver => by
    unfold HostExpr.eval
    split
    · next o ho =>
      have hreceiver : w₀.AllSafe o := AllSafe.some_iff.mp (ho ▸ hs.receiver)
      exact .pure hreceiver
    · exact .pure (.of_eq_nil rfl)

/-- Some operands at once, for the host. -/
theorem HostItems.eval_sparing (hs : w₀.AllSafe s) :
    ∀ items : HostItems, Sparing w₀ (items.eval s) w₀.AllSafe
  | .list items => by
    unfold HostItems.eval
    exact HostItems.evalList_sparing hs items
  | .allArgs => by
    unfold HostItems.eval
    split
    · exact .pure .nil
    · next hside => exact .pure (.map (AllSafe.list_iff.mp (hs.scriptArgs hside)))
    · next hside => exact .pure (hs.args hside)
  | .range n => by
    unfold HostItems.eval
    exact .pure (.map fun _ _ => .of_eq_nil rfl)
  | .script items => by
    unfold HostItems.eval
    exact (items.eval_sparing hs).bind fun _ hvs => .pure (.map (AllSafe.list_iff.mp hvs))

/-- Operands of the host one after another. -/
theorem HostItems.evalList_sparing (hs : w₀.AllSafe s) :
    ∀ items : List HostExpr, Sparing w₀ (HostItems.evalList s items) w₀.AllSafe
  | [] => by
    unfold HostItems.evalList
    exact .pure .nil
  | e :: es => by
    unfold HostItems.evalList
    refine (HostExpr.eval_sparing hs e).bind fun v hv => ?_
    exact (Sparing.holding hv (HostItems.evalList_sparing hs es)).bind fun vs hvs =>
      .pure (.cons hv hvs)

end

/-- Slots with values that are safe. -/
theorem HostExpr.evalSlots_sparing (hs : w₀.AllSafe s) (slots : List (String × HostExpr)) :
    Sparing w₀ (HostExpr.evalSlots s slots) fun ps => ∀ p ∈ ps, w₀.AllSafe p.2 := by
  induction slots with
  | nil => exact .pure nofun
  | cons p rest ih =>
    refine (p.2.eval_sparing hs).bind fun v hv => ?_
    exact (Sparing.holding hv ih).bind fun vs hvs => .pure (List.forall_mem_cons.mpr ⟨hv, hvs⟩)

/-- **The type of a closed expression** names classes that variables hold. -/
theorem TypeExpr.eval_sparing (e : TypeExpr) :
    Sparing w₀ e.eval fun t => e.isClosed = true → w₀.AllSafe t := by
  induction e with
  | plain t => exact .pure fun h => .of_eq_nil (List.isEmpty_iff.mp h)
  | array e ih => exact ih.bind fun _ ht => .pure ht
  | nullable e ih => exact ih.bind fun _ ht => .pure ht
  | object name => exact (Sparing.classVar name).bind fun _ hc => .pure fun _ => hc

/-- The types of the parameters of a closed program. -/
theorem TypeExpr.evalAll_sparing (es : List TypeExpr) (h : es.all TypeExpr.isClosed = true) :
    Sparing w₀ (TypeExpr.evalAll es) w₀.AllSafe := by
  induction es with
  | nil => exact .pure .nil
  | cons e es ih =>
    obtain ⟨hfirst, hrest⟩ := Bool.and_eq_true_iff.mp h
    refine e.eval_sparing.bind fun _ ht => ?_
    exact (ih hrest).bind fun _ hts => .pure (.cons (ht hfirst) hts)

/-- The second of two operands is evaluated while the first is held. -/
theorem Act.Sparing.pair (hs : w₀.AllSafe s) {x y : ScriptExpr}
    {f : ScriptValue → ScriptValue → Act Failure α} {Q : α → Prop}
    (hf : ∀ v w, w₀.AllSafe v → w₀.AllSafe w → Sparing w₀ (f v w) Q) :
    Sparing w₀ (x.eval s >>= fun v => Act.holding (handles v) (y.eval s) >>= f v) Q :=
  (x.eval_sparing hs).bind fun v hv =>
    (Sparing.holding hv (y.eval_sparing hs)).bind fun w hw => hf v w hv hw

end ScriptHost
