import ScriptHost.Proofs.Order.Basic

/-!
# Operands define nothing

Operands make tables and proxies at most, so they are quiet, and so is all that is looked at or
written through them. What the description of a type gives mentions classes that variables hold, and
these have been built (`TypeExpr.eval_orderly`).
-/

set_option autoImplicit false

namespace ScriptHost

open Act

variable {s : Scope}

/-! ### Values -/

mutual

/-- **Script operands define nothing.** -/
theorem ScriptExpr.eval_quiet (s : Scope) : ∀ e : ScriptExpr, Quiet (e.eval s)
  | .nil | .boolean _ | .string _ | .integer _ | .number _ => by
    unfold ScriptExpr.eval
    exact .pure _
  | .sequence items => by
    unfold ScriptExpr.eval
    exact (ScriptItems.eval_quiet s items).bind fun vs =>
      (Quiet.newTable (.ofSequence vs)).bind fun t => .pure _
  | .map entries => by
    unfold ScriptExpr.eval
    exact (Quiet.newTable .empty).bind fun t =>
      ((ScriptExpr.evalEntries_quiet s t entries).holding _).bind fun _ => .pure _
  | .var name position => by
    unfold ScriptExpr.eval
    exact (Quiet.readVar name).bind fun v => .pure _
  | .arg i => by
    unfold ScriptExpr.eval
    split
    · exact .pure _
    · exact .pure _
    · exact .toScript _ _
  | .receiver => by
    unfold ScriptExpr.eval
    split
    · exact .toScript _ _
    · exact .pure _
  | .global name => by
    unfold ScriptExpr.eval
    exact .look _

theorem ScriptExpr.evalEntries_quiet (s : Scope) (t : TableRef) :
    ∀ entries : List (ScriptExpr × ScriptExpr), Quiet (ScriptExpr.evalEntries s t entries)
  | [] => by
    unfold ScriptExpr.evalEntries
    exact .pure _
  | (k, v) :: rest => by
    unfold ScriptExpr.evalEntries
    refine (ScriptExpr.eval_quiet s k).bind fun key => ?_
    refine ((ScriptExpr.eval_quiet s v).holding _).bind fun value => ?_
    exact (Quiet.setEntry t key value).throwing.bind fun _ => ScriptExpr.evalEntries_quiet s t rest

theorem ScriptItems.eval_quiet (s : Scope) : ∀ items : ScriptItems, Quiet (items.eval s)
  | .list items => by
    unfold ScriptItems.eval
    exact ScriptItems.evalList_quiet s items
  | .all name => by
    unfold ScriptItems.eval
    exact (Quiet.readVar name).bind fun v => .pure _
  | .allArgs => by
    unfold ScriptItems.eval
    split
    · exact .pure _
    · exact .pure _
    · exact .toScriptAll _ _
  | .range n => by
    unfold ScriptItems.eval
    exact .pure _

theorem ScriptItems.evalList_quiet (s : Scope) :
    ∀ items : List ScriptExpr, Quiet (ScriptItems.evalList s items)
  | [] => by
    unfold ScriptItems.evalList
    exact .pure _
  | e :: es => by
    unfold ScriptItems.evalList
    exact (ScriptExpr.eval_quiet s e).bind fun v =>
      ((ScriptItems.evalList_quiet s es).holding _).bind fun vs => .pure _

end

mutual

/-- **Host operands define nothing.** -/
theorem HostExpr.eval_quiet (s : Scope) : ∀ e : HostExpr, Quiet (e.eval s)
  | .null | .bool _ | .string _ | .int _ | .uint _ | .float _ => by
    unfold HostExpr.eval
    exact .pure _
  | .array items => by
    unfold HostExpr.eval
    exact (HostItems.eval_quiet s items).bind fun vs => .pure _
  | .script e => by
    unfold HostExpr.eval
    exact (e.eval_quiet s).bind fun v => .pure _
  | .var name position => by
    unfold HostExpr.eval
    exact (Quiet.readVar name).bind fun v => .pure _
  | .arg i => by
    unfold HostExpr.eval
    split <;> exact .pure _
  | .receiver => by
    unfold HostExpr.eval
    split <;> exact .pure _

theorem HostItems.eval_quiet (s : Scope) : ∀ items : HostItems, Quiet (items.eval s)
  | .list items => by
    unfold HostItems.eval
    exact HostItems.evalList_quiet s items
  | .allArgs => by
    unfold HostItems.eval
    split <;> exact .pure _
  | .range n => by
    unfold HostItems.eval
    exact .pure _
  | .script items => by
    unfold HostItems.eval
    exact (items.eval_quiet s).bind fun vs => .pure _

theorem HostItems.evalList_quiet (s : Scope) :
    ∀ items : List HostExpr, Quiet (HostItems.evalList s items)
  | [] => by
    unfold HostItems.evalList
    exact .pure _
  | e :: es => by
    unfold HostItems.evalList
    exact (HostExpr.eval_quiet s e).bind fun v =>
      ((HostItems.evalList_quiet s es).holding _).bind fun vs => .pure _

end

/-- The slots of an object are evaluated one after another. -/
theorem HostExpr.evalSlots_quiet (s : Scope) (slots : List (String × HostExpr)) :
    Quiet (HostExpr.evalSlots s slots) := by
  induction slots with
  | nil => exact .pure _
  | cons p rest ih =>
    exact (p.2.eval_quiet s).bind fun v => (ih.holding _).bind fun vs => .pure _

namespace Act.Quiet

/-- The operand of an operation on a table. -/
theorem tableOperand (e : ScriptExpr) : Quiet (ScriptHost.tableOperand s e) := by
  refine (e.eval_quiet s).bind fun v => ?_
  split
  · exact pure _
  · exact throw _

/-- The operand of an operation on a proxy. -/
theorem proxyOperand (e : ScriptExpr) : Quiet (ScriptHost.proxyOperand s e) := by
  refine (e.eval_quiet s).bind fun v => ?_
  split
  · refine (look _).bind fun isProxy => ?_
    cases isProxy with
    | true => exact pure _
    | false => exact throw _
  · exact throw _

/-- The proxy behind an operand is looked up. -/
theorem proxyState (u : UserdataRef) : Quiet (ScriptHost.proxyState u) := by
  refine (look _).bind fun p? => ?_
  cases p? with
  | some p => exact pure p
  | none => exact throw _

/-- Registering a class makes a proxy and an entry in the table of globals. -/
theorem registerClass (c : ClassRef) (name : String) : Quiet (ScriptHost.registerClass c name) :=
  (look _).bind fun via => (newProxy via _).bind fun _ => (look _).bind fun t =>
    (setEntry t _ _).throwing

/-- The slots that a constructor fills are operands. -/
theorem initialSlots (slots? : Option (List (String × HostExpr))) :
    Quiet (ScriptHost.initialSlots s slots?) := by
  cases slots? with
  | some slots => exact (HostExpr.evalSlots_quiet s slots).bind fun _ => pure _
  | none => exact pure _

end Act.Quiet

/-! ### Types -/

/-- Types are looked up and nothing else. -/
theorem TypeExpr.eval_quiet (e : TypeExpr) : Quiet e.eval := by
  induction e with
  | plain t => exact .pure t
  | array e ih => exact ih.bind fun t => .pure _
  | nullable e ih => exact ih.bind fun t => .pure _
  | object name => exact (Quiet.variableAs _ _ _).bind fun c => .pure _

/-- What a variable gives is closed and has been built. -/
theorem Act.Orderly.variableAs {α : Type} {n : Nat} {what name : String} {f : Stored → Option α}
    {Q : Nat → α → Prop} (hf : ∀ k v a, v.Closed → v.Below k → f v = some a → Q k a) :
    Orderly n (Act.variableAs what name f) Q := by
  -- The variable is looked up first, and then its content has to be of the right kind.
  refine Orderly.bind (P := fun k v => v.Closed ∧ v.Below k) ?_ fun k _ v hv => ?_
  · refine Orderly.bind (P := fun k v? => ∀ v, v? = some v → v.Closed ∧ v.Below k) ?_
      fun k _ v? hv => ?_
    · exact .look fun w hw _ v hv => hw.var hv
    · cases v? with
      | some v => exact .pure fun k' hk => ⟨(hv v rfl).1, (hv v rfl).2.mono hk⟩
      | none => exact .throw _
  · split
    · next a ha => exact .pure fun k' hk => hf k' v a hv.1 (hv.2.mono hk) ha
    · exact .throw _

/-- A class that is found in a variable has been built. -/
theorem Act.Orderly.classVar {n : Nat} (name : String) :
    Orderly n (Act.classVar name) fun k c => c.ref.index < k := by
  refine variableAs fun k v c _ hv hc => ?_
  cases v with
  | cls d =>
    obtain rfl := Option.some.inj hc
    exact hv
  | _ => cases hc

/-- A host function that is found in a variable has a closed body. -/
theorem Act.Orderly.hostFunctionVar {n : Nat} (name : String) :
    Orderly n (Act.hostFunctionVar name) fun _ f => Op.allClosed f.body := by
  refine variableAs fun k v f hv _ hf => ?_
  cases v with
  | hostFunction g =>
    obtain rfl := Option.some.inj hf
    exact hv
  | _ => cases hf

/-- **The type of a closed expression** mentions classes that have been built. -/
theorem TypeExpr.eval_orderly {n : Nat} (e : TypeExpr) (h : e.isClosed = true) :
    Orderly n e.eval fun k t => t.Below k := by
  induction e with
  | plain t =>
    -- No class stands in it.
    have hnone : t.handles = [] := List.isEmpty_iff.mp h
    exact .pure fun k _ x hx => nomatch (hnone ▸ hx : x ∈ [])
  | array e ih => exact (ih h).bind fun k _ t ht => .pure fun k' hk => ht.mono hk
  | nullable e ih => exact (ih h).bind fun k _ t ht => .pure fun k' hk => ht.mono hk
  | object name =>
    refine (Orderly.classVar name).bind fun k _ c hc => .pure fun k' hk x hx => ?_
    obtain rfl := List.mem_singleton.mp hx
    exact Nat.lt_of_lt_of_le hc hk

/-- So do the types of several of them, each of which is there by the time of the next. -/
theorem TypeExpr.evalAll_orderly {n : Nat} (es : List TypeExpr)
    (h : es.all TypeExpr.isClosed = true) :
    Orderly n (TypeExpr.evalAll es) fun k ts => ∀ t ∈ ts, t.Below k := by
  induction es generalizing n with
  | nil => exact .pure fun _ _ => List.forall_mem_nil _
  | cons e es ih =>
    obtain ⟨hfirst, hrest⟩ := Bool.and_eq_true_iff.mp h
    refine (e.eval_orderly hfirst).bind fun k _ t ht => (ih hrest).bind fun k' hk ts hts => ?_
    exact .pure fun k'' hk' => List.forall_mem_cons.mpr
      ⟨ht.mono (Nat.le_trans hk hk'), fun _ hu => (hts _ hu).mono hk'⟩

end ScriptHost
