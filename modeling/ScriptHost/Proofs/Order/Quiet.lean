import ScriptHost.Proofs.Conversion.Started
import ScriptHost.Proofs.Tables.StringKeys

/-!
# Acts that define nothing

Classes are made by one operation, functions by a few, and variables are assigned when an operation
is done. Whatever else runs leaves all three alone: it is quiet. That is so of operands and of
conversions in both directions, of getters and setters, and of the crossing of errors. What such
acts write to tables they write under a key, so no string gets to be a key twice.

A quiet act is put together from quiet ones, so the proofs follow the text of the acts.
-/

set_option autoImplicit false

namespace ScriptHost

namespace World

/-- The same variables, classes and functions, and string keys that are as single as before. -/
structure SameDefinitions (w w' : World) : Prop where
  vars : w'.vars = w.vars
  classes : w'.classes = w.classes
  functions : w'.functions = w.functions
  tables : w.StringsOnce → w'.StringsOnce

namespace SameDefinitions

variable {w w' w'' : World}

theorem refl (w : World) : w.SameDefinitions w := ⟨rfl, rfl, rfl, id⟩

theorem trans (h : w.SameDefinitions w') (h' : w'.SameDefinitions w'') : w.SameDefinitions w'' :=
  ⟨h'.vars.trans h.vars, h'.classes.trans h.classes, h'.functions.trans h.functions,
    h'.tables ∘ h.tables⟩

end SameDefinitions

end World

namespace Act

/-- **The act defines nothing**: no variable, no class and no function. -/
def Quiet {ε α : Type} (m : Act ε α) : Prop :=
  ∀ w : World, w.SameDefinitions (m.outcome w).2

namespace Quiet

variable {ε ε' α β : Type}

/-! ### Putting acts together -/

theorem pure (a : α) : Quiet (pure a : Act ε α) := fun w => .refl w

theorem throw (e : ε) : Quiet (throw e : Act ε α) := fun w => .refl w

theorem look (f : World → α) : Quiet (look f : Act ε α) := fun w => .refl w

theorem failWith (f : World → ε) : Quiet (failWith f : Act ε α) := fun w => .refl w

theorem ofExcept (r : Except ε α) : Quiet (ofExcept r) := fun w => .refl w

/-- Quiet acts one after another are quiet. -/
theorem bind {m : Act ε α} {f : α → Act ε β} (hm : Quiet m) (hf : ∀ a, Quiet (f a)) :
    Quiet (m >>= f) := by
  intro w
  have hfirst := hm w
  rcases hout : m.outcome w with ⟨e | a, w₁⟩ <;> rw [hout] at hfirst
  · rwa [outcome_bind_error hout]
  · rw [outcome_bind_ok hout]
    exact hfirst.trans (hf a w₁)

theorem attempt {m : Act ε α} (h : Quiet m) : Quiet (attempt m : Act ε' (Except ε α)) := h

theorem mapError {m : Act ε α} (f : World → ε → ε') (h : Quiet m) : Quiet (mapError f m) := by
  intro w
  have hm := h w
  rw [outcome_mapError]
  rcases hout : m.outcome w with ⟨e | a, w₁⟩ <;> rw [hout] at hm <;> exact hm

theorem holding {m : Act ε α} (hs : List Handle) (h : Quiet m) : Quiet (holding hs m) := by
  intro w
  have hm := h { w with held := hs ++ w.held }
  exact ⟨hm.vars, hm.classes, hm.functions, hm.tables⟩

/-! ### Primitive acts -/

theorem newTable {t : Table} (ht : t.StringsOnce) : Quiet (newTable t : Act ε TableRef) :=
  fun _ => ⟨rfl, rfl, rfl, fun h => h.pushTable ht⟩

theorem newUserdata (u : Userdata) : Quiet (newUserdata u : Act ε UserdataRef) :=
  fun _ => ⟨rfl, rfl, rfl, id⟩

theorem newObject (o : Object) : Quiet (newObject o : Act ε ObjectRef) :=
  fun _ => ⟨rfl, rfl, rfl, id⟩

theorem newCoroutine (c : Coroutine) : Quiet (newCoroutine c : Act ε CoroutineRef) :=
  fun _ => ⟨rfl, rfl, rfl, id⟩

theorem newBinding (b : Binding) : Quiet (newBinding b : Act ε BindingRef) :=
  fun _ => ⟨rfl, rfl, rfl, id⟩

/-- An entry is written, or the key is no key. -/
theorem writeTable (r : TableRef) (key value : ScriptValue) {fail : KeyFault → Act ε Unit}
    (h : ∀ fault, Quiet (fail fault)) :
    Quiet (Act.look (fun w => w.table r) >>= fun t => match t.set key value with
      | .ok t => setTable r t
      | .error fault => fail fault) := by
  intro w
  rw [outcome_bind_ok (outcome_look _ w)]
  split
  · next t hset => exact ⟨rfl, rfl, rfl, fun hw => hw.setTable r ((hw.table r).set hset)⟩
  · next fault _ => exact h fault w

theorem setUserdata (u : UserdataRef) (v : Userdata) : Quiet (setUserdata u v : Act ε Unit) :=
  fun _ => ⟨rfl, rfl, rfl, id⟩

theorem setObject (o : ObjectRef) (v : Object) : Quiet (setObject o v : Act ε Unit) :=
  fun _ => ⟨rfl, rfl, rfl, id⟩

theorem setCoroutineStatus (c : CoroutineRef) (s : CoroutineStatus) :
    Quiet (setCoroutineStatus c s : Act ε Unit) :=
  fun _ => ⟨rfl, rfl, rfl, id⟩

theorem setCache (b : BindingRef) (c : ProxyCache) : Quiet (setCache b c : Act ε Unit) :=
  fun _ => ⟨rfl, rfl, rfl, id⟩

theorem note (e : Event) : Quiet (note e : Act ε Unit) := fun _ => ⟨rfl, rfl, rfl, id⟩

theorem log (a : Answer) : Quiet (log a : Act ε Unit) := fun _ => ⟨rfl, rfl, rfl, id⟩

theorem setEntry (t : TableRef) (key value : ScriptValue) : Quiet (setEntry t key value) :=
  writeTable t key value fun _ => throw _

theorem newProxy (via : BindingRef) (t : Target) : Quiet (newProxy via t : Act ε UserdataRef) :=
  newUserdata _

/-- Disposal changes a userdata and nothing else. -/
theorem dispose (u : UserdataRef) : Quiet (dispose u : Act ε Unit) := by
  refine (look _).bind fun p? => ?_
  cases p? with
  | some p => exact setUserdata _ _
  | none => exact pure ()

/-! ### Objects -/

/-- Whether an object may be borrowed is only looked at. -/
theorem borrowed (o : ObjectRef) (mutably : Bool) (t : PayloadType) :
    Quiet (borrowed o mutably t) := by
  refine (look _).bind fun ob => ?_
  split
  · exact throw _
  · exact pure _

theorem readSlot (o : ObjectRef) (slot : String) : Quiet (readSlot o slot) :=
  (borrowed _ _ _).bind fun _ => pure _

theorem writeSlot (o : ObjectRef) (slot : String) (v : HostValue) : Quiet (writeSlot o slot v) :=
  (borrowed _ _ _).bind fun _ => setObject _ _

theorem needReceiver (cls member : String) (receiver : Option ObjectRef) :
    Quiet (needReceiver cls member receiver) := by
  cases receiver with
  | some o => exact pure o
  | none => exact throw _

/-- Getters of a session read. -/
theorem runGetter (cls member : String) (receiver : Option ObjectRef) (g : Getter) :
    Quiet (runGetter cls member receiver g) := by
  cases g with
  | constant v => exact pure v
  | slot s => exact (needReceiver _ _ _).bind fun o => readSlot o s

/-- Setters of a session write to objects, or refuse. -/
theorem runSetter (cls member : String) (receiver : Option ObjectRef) (v : HostValue) (s : Setter) :
    Quiet (runSetter cls member receiver v s) := by
  cases s with
  | slot s => exact (needReceiver _ _ _).bind fun o => writeSlot o s v
  | refuse message =>
    exact (needReceiver _ _ _).bind fun o => (borrowed _ _ _).bind fun _ => throw _

/-- Reading a member notes that its getter starts. -/
theorem readMember (via : BindingRef) (c : ClassRef) (receiver : Option ObjectRef) (m : Member) :
    Quiet (readMember via c receiver m) := by
  cases m with
  | method m => exact pure none
  | property p =>
    unfold Act.readMember
    dsimp only
    split
    · exact throw _
    · split
      · exact throw _
      · exact (note _).bind fun _ => (runGetter _ _ _ _).bind fun _ => pure _
  | field f =>
    exact (needReceiver _ _ _).bind fun o => (note _).bind fun _ =>
      (runGetter _ _ _ _).bind fun _ => pure _

/-- A constructor makes an object. -/
theorem construct (c : ClassRef) : Quiet (construct c) := by
  refine (look _).bind fun s? => ?_
  cases s? with
  | some s => exact (note _).bind fun _ => newObject _
  | none => exact throw _

theorem instantiate (c : ClassRef) (p : Payload) : Quiet (instantiate c p) := by
  refine (look _).bind fun expected => ?_
  split
  · exact newObject _
  · exact throw _

/-! ### Conversions -/

/-- A proxy is taken from the cache, or made and put there. -/
theorem proxyFor (via : BindingRef) (o : ObjectRef) :
    Quiet (proxyFor via o : Act ε UserdataRef) := by
  refine (look _).bind fun u? => ?_
  cases u? with
  | some u => exact (note _).bind fun _ => pure u
  | none =>
    have hcached (u : UserdataRef) : Quiet (cacheProxy via o u : Act ε Unit) :=
      (look _).bind fun c => setCache via c
    exact (newProxy _ _).bind fun u => (hcached u).bind fun _ => (note _).bind fun _ => pure u

mutual

/-- **Conversion to script.** -/
theorem toScript (via : BindingRef) : ∀ x : HostValue, Quiet (toScript via x : Act ε ScriptValue)
  | .null | .bool _ | .int _ | .uint _ | .float _ | .string _ | .script _ => by
    unfold Act.toScript
    exact pure _
  | .array items => by
    unfold Act.toScript
    exact (toScriptEach via items _).bind fun vs => (newTable (.ofSequence vs)).bind fun t => pure _
  | .object o => by
    unfold Act.toScript
    exact (proxyFor via o).bind fun u => pure _
  | .cls c => by
    unfold Act.toScript
    exact (newProxy via _).bind fun u => pure _

theorem toScriptEach (via : BindingRef) : ∀ (xs : List HostValue) (pending : List Handle),
    Quiet (toScriptEach via xs pending : Act ε (List ScriptValue))
  | [], _ => by
    unfold Act.toScriptEach
    exact pure _
  | x :: xs, pending => by
    unfold Act.toScriptEach
    refine ((toScript via x).holding _).bind fun v => ?_
    exact ((toScriptEach via xs _).holding _).bind fun _ => pure _

end

theorem toScriptAll (via : BindingRef) (xs : List HostValue) :
    Quiet (toScriptAll via xs : Act ε (List ScriptValue)) :=
  toScriptEach via xs _

/-- Filling new objects defines nothing. -/
theorem of_filling {m : Act ε α} (h : Filling 0 m) : Quiet m := fun w => by
  rw [(h w (Nat.zero_le _)).rest]
  exact ⟨rfl, rfl, rfl, id⟩

/-- **Conversion to host** makes objects and starts code of the host, and that is all. -/
theorem toHost (via : BindingRef) (t : HostType) (v : ScriptValue) : Quiet (toHost via t v) :=
  of_filling (.toHost via t v)

/-! ### Proxies -/

theorem namedTarget (p : Proxy) : Quiet (namedTarget p) := by
  unfold Act.namedTarget
  split
  · exact pure _
  · exact throw _

/-- Whether a target can be reached is only looked at. -/
theorem reachTarget (t : Target) : Quiet (reachTarget t) := by
  refine (look _).bind fun t? => ?_
  cases t? with
  | some t => exact pure t
  | none => exact throw _

theorem assignKey {convert : Converter} (hconvert : ∀ t v, Quiet (convert t v)) (via : BindingRef)
    (c : ClassRef) (receiver : Option ObjectRef) (k : MemberKey) (v : ScriptValue) :
    Quiet (assignKey convert via c receiver k v) := by
  -- However the setter is found, its value is converted before it starts.
  have hassign (receiver : Option ObjectRef) (m : Member) (t : HostType) (s : Setter) :
      Quiet (do
        let h ← convertFor convert c m.name t v
        Act.note (.setter via c m h)
        Act.runSetter c.name m.name receiver h s) :=
    ((hconvert t v).mapError _).bind fun h => (note _).bind fun _ => runSetter _ _ _ _ _
  refine (look _).bind fun ms => ?_
  split
  · next m =>
    cases m with
    | method x => exact throw _
    | property p =>
      unfold assignMember
      dsimp only
      split
      · exact throw _
      · split
        · exact throw _
        · exact hassign receiver (.property p) _ _
    | field f =>
      unfold assignMember
      dsimp only
      split
      · exact throw _
      · exact (needReceiver _ _ _).bind fun o => hassign (some o) (.field f) _ _
  · exact throw _

/-- A write goes through a setter or fails. -/
theorem writeProxy (p : Proxy) (key v : ScriptValue) : Quiet (writeProxy p key v) := by
  refine (namedTarget p).bind fun t => (reachTarget t).bind fun t => ?_
  split
  · exact throw _
  · exact assignKey (toHost p.via) _ _ _ _ _

/-! ### Errors -/

theorem guard (inCoroutine : Bool) (name : String) : Quiet (guard inCoroutine name) := by
  unfold Act.guard
  split
  · exact (note _).bind fun _ => throw _
  · exact pure ()

/-- The error of a host becomes a userdata that carries it. -/
theorem toScriptError (e : HostFailure) : Quiet (toScriptError e) := by
  cases e with
  | script x => exact pure x
  | _ => exact (newUserdata _).bind fun u => look _

theorem raising {m : Act HostFailure α} (h : Quiet m) : Quiet (raising m) := by
  refine h.attempt.bind fun r => ?_
  cases r with
  | ok a => exact pure a
  | error e => exact (toScriptError e).bind fun s => throw s

theorem raise (v : ScriptValue) : Quiet (raise v : Act ScriptError α) := failWith _

theorem runtimeError (message : String) : Quiet (runtimeError message : Act ScriptError α) :=
  raise _

theorem setIndex (inCoroutine : Bool) (target key value : ScriptValue) :
    Quiet (setIndex inCoroutine target key value) := by
  cases target with
  | table t => exact writeTable t key value fun _ => runtimeError _
  | userdata u =>
    refine (look _).bind fun d => ?_
    cases d with
    | proxy p => exact raising ((guard _ _).bind fun _ => writeProxy p key value)
    | _ => exact runtimeError _
  | _ => exact runtimeError _

theorem failing {m : Act HostFailure α} (h : Quiet m) : Quiet (failing m) := h.mapError _

theorem throwing {m : Act ScriptError α} (h : Quiet m) : Quiet (throwing m) := h.mapError _

theorem converting {m : Act ConversionError α} (h : Quiet m) : Quiet (converting m) := h.mapError _

/-! ### Variables -/

theorem readVar (name : String) : Quiet (readVar name) := by
  refine (look _).bind fun s? => ?_
  cases s? with
  | some s => exact pure s
  | none => exact throw _

theorem variableAs (what name : String) (f : Stored → Option α) :
    Quiet (variableAs what name f) := by
  refine (readVar name).bind fun s => ?_
  split
  · exact pure _
  · exact throw _

theorem bindingVar (s : Scope) (name? : Option String) : Quiet (bindingVar s name?) := by
  cases name? with
  | some name => exact variableAs _ _ _
  | none => exact look _

theorem objectOrReceiver (s : Scope) (name? : Option String) :
    Quiet (objectOrReceiver s name?) := by
  cases name? with
  | some name => exact variableAs _ _ _
  | none =>
    unfold Act.objectOrReceiver
    dsimp only
    split
    · exact pure _
    · exact throw _

end Quiet

end Act

end ScriptHost
