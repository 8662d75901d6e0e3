import ScriptHost.Proofs.Act.Composed
import ScriptHost.Proofs.Act.Member
import ScriptHost.Proofs.Proxies.Growth

/-!
# What conversions start

Converting a value to a host type may run code of the host: a table that becomes an object starts a
constructor, and then a setter for each of its entries. `World.Fills n w w'` says that nothing else
lies between two worlds, and that every setter ran on an object that came after the first `n`. The
invariant is that `n` objects were there to begin with, so that a constructor never gives one of
them. With it, a conversion fills new objects only, whether it succeeds or fails on the way
(`toHost_fills`), and every object that was there before it is as it was (`World.Fills.objects`).

A conversion to script starts no code of the host (`toScript_starts`).
-/

set_option autoImplicit false

namespace ScriptHost

open Act

/-! ### What was started -/

namespace World

/-- Between the worlds just this code of the host was started, newest first. -/
def Starts (w : World) (es : List Event) (w' : World) : Prop :=
  ∃ new, w'.journal = new ++ w.journal ∧ new.filter Event.isHostCode = es

namespace Starts

variable {w w' w'' : World} {es es' : List Event}

/-- Nothing starts from a world to itself. -/
theorem refl (w : World) : w.Starts [] w := ⟨[], rfl, rfl⟩

/-- Nor does anything where the journal is the same. -/
theorem of_journal_eq (h : w'.journal = w.journal) : w.Starts [] w' := ⟨[], h, rfl⟩

/-- What starts on the way to a third world. -/
theorem trans (h : w.Starts es w') (h' : w'.Starts es' w'') : w.Starts (es' ++ es) w'' := by
  obtain ⟨new, hnew, rfl⟩ := h
  obtain ⟨new', hnew', rfl⟩ := h'
  exact ⟨new' ++ new, by rw [hnew', hnew, List.append_assoc], List.filter_append ..⟩

/-- Where nothing more is started. -/
theorem quiet (h : w.Starts es w') (h' : w'.Starts [] w'') : w.Starts es w'' := h.trans h'

/-- An event of host code that is written down has started. -/
theorem noted (w : World) {e : Event} (he : e.isHostCode = true) : w.Starts [e] (w.noted e) :=
  ⟨[e], rfl, List.filter_cons_of_pos he⟩

end Starts

end World

/-! ### Filling new objects -/

namespace Event

/-- Whether a constructor or a setter was started. -/
def isFilling : Event → Bool
  | .constructor _ | .setter _ _ _ _ => true
  | _ => false

end Event

namespace World

/-- **Steps that fill new objects**: constructors, and setters on objects after the first `n`. -/
inductive Fills (n : Nat) : World → World → Prop where
  | refl (w : World) : Fills n w w
  | trans {w w' w'' : World} (h : Fills n w w') (h' : Fills n w' w'') : Fills n w w''
  | constructed (w : World) (c : ClassRef) {s : Slots} (h : (w.cls c).constructor = some s) :
      Fills n w { w.noted (.constructor c) with objects := w.objects.push ⟨c, .slots s, .free⟩ }
  | assigned (w : World) (via : BindingRef) (c : ClassRef) (m : Member) {o : ObjectRef}
      (v : HostValue) (s : Setter) (ho : n ≤ o.ref.index) :
      Fills n w ((runSetter c.name m.name (some o) v s).outcome (w.noted (.setter via c m v))).2

namespace Fills

variable {n : Nat} {w w' : World}

/-- Nothing but objects and the journal changes. -/
theorem rest (h : w.Fills n w') : w' = { w with objects := w'.objects, journal := w'.journal } := by
  induction h with
  | refl => rfl
  | trans _ _ ih ih' =>
    rw [ih] at ih'
    exact ih'
  | constructed => rfl
  | assigned w via c m v s =>
    obtain ⟨os, hos, -⟩ := runSetter_objects c.name m.name _ v s (w.noted (.setter via c m v))
    rw [hos]
    rfl

/-- Filling objects leaves what is held as it is. -/
theorem held_eq (h : w.Fills n w') : w'.held = w.held := by rw [h.rest]

/-- Objects are added and none is lost. -/
theorem size_le (h : w.Fills n w') : w.objects.size ≤ w'.objects.size := by
  induction h with
  | refl => exact Nat.le_refl _
  | trans _ _ ih ih' => exact Nat.le_trans ih ih'
  | constructed w => exact (Store.size_push w.objects _).symm ▸ Nat.le_succ _
  | assigned w via c m v s =>
    obtain ⟨os, hos, hsize, -⟩ :=
      runSetter_objects c.name m.name _ v s (w.noted (.setter via c m v))
    rw [hos]
    exact Nat.le_of_eq hsize.symm

/-- **The first `n` objects stay as they are**, with their slots and their borrows. -/
theorem objects (h : w.Fills n w') (hn : n ≤ w.objects.size) {r : Ref .object} (hr : r.index < n) :
    w'.objects.get? r = w.objects.get? r := by
  induction h with
  | refl => rfl
  | trans h _ ih ih' => exact (ih' (Nat.le_trans hn h.size_le)).trans (ih hn)
  | constructed w => exact Store.get?_push_of_lt _ _ (Nat.lt_of_lt_of_le hr hn)
  | assigned w via c m v s ho =>
    obtain ⟨os, hos, -, hsame⟩ :=
      runSetter_objects c.name m.name _ v s (w.noted (.setter via c m v))
    rw [hos]
    refine hsame r fun heq => ?_
    rw [← heq] at ho
    exact Nat.not_lt.mpr ho hr

/-- Constructors and setters are all that was started. -/
theorem starts (h : w.Fills n w') : ∃ es, w.Starts es w' ∧ ∀ e ∈ es, e.isFilling = true := by
  induction h with
  | refl => exact ⟨[], .refl _, nofun⟩
  | trans _ _ ih ih' =>
    obtain ⟨es, hes, hfilling⟩ := ih
    obtain ⟨es', hes', hfilling'⟩ := ih'
    refine ⟨es' ++ es, hes.trans hes', fun e he => ?_⟩
    exact (List.mem_append.mp he).elim (hfilling' e) (hfilling e)
  | constructed w c => exact ⟨[.constructor c], .noted w rfl, List.forall_mem_singleton.mpr rfl⟩
  | assigned w via c m v s =>
    obtain ⟨os, hos, -⟩ := runSetter_objects c.name m.name _ v s (w.noted (.setter via c m v))
    rw [hos]
    exact ⟨[.setter via c m v], .noted w rfl, List.forall_mem_singleton.mpr rfl⟩

/-- The same steps while something else is held. -/
theorem held (h : w.Fills n w') (hs : List Handle) :
    ({ w with held := hs } : World).Fills n { w' with held := hs } := by
  induction h with
  | refl => exact .refl _
  | trans _ _ ih ih' => exact ih.trans ih'
  | constructed w c h => exact .constructed _ c h
  | assigned w via c m v s ho =>
    rw [← runSetter_held]
    exact .assigned { w with held := hs } via c m v s ho

/-- Fewer objects were there before fewer of them. -/
theorem mono {k : Nat} (h : w.Fills n w') (hk : k ≤ n) : w.Fills k w' := by
  induction h with
  | refl => exact .refl _
  | trans _ _ ih ih' => exact ih.trans ih'
  | constructed w c h => exact .constructed _ c h
  | assigned w via c m v s ho => exact .assigned w via c m v s (Nat.le_trans hk ho)

end Fills

end World

/-! ### Acts that fill new objects -/

namespace Act

/-- Where there are `n` objects or more, the act fills others. -/
def Filling {ε α : Type} (n : Nat) (m : Act ε α) : Prop :=
  ∀ w : World, n ≤ w.objects.size → w.Fills n (m.outcome w).2

namespace Filling

variable {ε ε' α β : Type} {n : Nat}

/-- What leaves the world as it is fills nothing. -/
theorem of_same {m : Act ε α} (h : ∀ w, (m.outcome w).2 = w) : Filling n m := fun w _ => by
  rw [h w]
  exact .refl w

theorem pure (a : α) : Filling n (pure a : Act ε α) := of_same fun _ => rfl

theorem throw (e : ε) : Filling n (throw e : Act ε α) := of_same fun _ => rfl

theorem look (f : World → α) : Filling n (look f : Act ε α) := of_same fun _ => rfl

theorem failWith (f : World → ε) : Filling n (failWith f : Act ε α) := of_same fun _ => rfl

theorem ofExcept (r : Except ε α) : Filling n (ofExcept r) := of_same fun _ => rfl

/-- What the second act is given, the first one gave where there were `n` objects. -/
theorem bind {m : Act ε α} {f : α → Act ε β} (hm : Filling n m)
    (hf : ∀ a w w', n ≤ w.objects.size → m.outcome w = (.ok a, w') → Filling n (f a)) :
    Filling n (m >>= f) := by
  intro w hn
  have hfirst := hm w hn
  rcases hout : m.outcome w with ⟨e | a, w₁⟩
  · rw [outcome_bind_error hout]
    rwa [hout] at hfirst
  · rw [outcome_bind_ok hout]
    rw [hout] at hfirst
    exact hfirst.trans (hf a w w₁ hn hout w₁ (Nat.le_trans hn hfirst.size_le))

/-- One act after another. -/
theorem andThen {m : Act ε α} {f : α → Act ε β} (hm : Filling n m) (hf : ∀ a, Filling n (f a)) :
    Filling n (m >>= f) :=
  hm.bind fun a _ _ _ _ => hf a

/-- What is held makes no difference to what is filled. -/
theorem holding {m : Act ε α} (hs : List Handle) (hm : Filling n m) :
    Filling n (Act.holding hs m) := fun w hn => by
  rw [outcome_holding]
  exact (hm { w with held := hs ++ w.held } hn).held w.held

/-- Errors may be put in other words. -/
theorem mapError {m : Act ε α} (f : World → ε → ε') (hm : Filling n m) :
    Filling n (mapError f m) := by
  intro w hn
  have hsame : ((Act.mapError f m).outcome w).2 = (m.outcome w).2 := by
    rw [outcome_mapError]
    rcases m.outcome w with ⟨_ | _, _⟩ <;> rfl
  rw [hsame]
  exact hm w hn

/-! ### Members -/

/-- A constructor adds an object, which comes after all others. -/
theorem construct (c : ClassRef) : Filling n (construct c) := by
  intro w _
  unfold Act.construct
  rw [outcome_bind_ok (outcome_look _ w)]
  cases hc : (w.cls c).constructor with
  | some s => exact .constructed w c hc
  | none => exact .refl w

/-- What a constructor gives is the next object. -/
theorem construct_fresh {c : ClassRef} {w w' : World} {o : ObjectRef} (hn : n ≤ w.objects.size)
    (h : (Act.construct c).outcome w = (.ok o, w')) : n ≤ o.ref.index := by
  unfold Act.construct at h
  rw [outcome_bind_ok (outcome_look _ w)] at h
  cases hc : (w.cls c).constructor with
  | some s =>
    rw [hc] at h
    cases h
    exact hn
  | none =>
    rw [hc] at h
    cases h

section Convert

variable {convert : Converter} (hconvert : ∀ t v, Filling n (convert t v))
include hconvert

/-- A setter is started with what was converted, on an object that is not one of the first `n`. -/
theorem assignMember (via : BindingRef) (c : ClassRef) {o : ObjectRef} (ho : n ≤ o.ref.index)
    (m : Member) (v : ScriptValue) : Filling n (assignMember convert via c (some o) m v) := by
  cases ha : m.accepts? with
  | none =>
    rw [assignMember_of_not_accepts ha]
    exact throw _
  | some p =>
    rw [assignMember_of_accepts (t := p.1) (s := p.2) ha fun _ => rfl]
    have hconverted : Filling n (convertFor convert c m.name p.1 v) := mapError _ (hconvert p.1 v)
    exact hconverted.andThen fun h w _ => .assigned w via c m h p.2 ho

/-- Assigning to whatever a key finds. -/
theorem assignKey (via : BindingRef) (c : ClassRef) {o : ObjectRef} (ho : n ≤ o.ref.index)
    (k : MemberKey) (v : ScriptValue) : Filling n (assignKey convert via c (some o) k v) := by
  refine (look _).andThen fun ms => ?_
  split
  · exact assignMember hconvert via c ho _ v
  · exact throw _

/-- Assigning the entries of a table one after another. -/
theorem assignEntries (via : BindingRef) (c : ClassRef) {o : ObjectRef} (ho : n ≤ o.ref.index)
    (entries : List (String × ScriptValue)) :
    Filling n (assignEntries convert via c o entries) := by
  induction entries with
  | nil => exact pure ()
  | cons p rest ih =>
    exact (mapError _ (assignKey hconvert via c ho (.name p.1) p.2)).andThen fun _ => ih

/-- A table becomes a new object, and its entries are assigned to this one. -/
theorem buildObject (via : BindingRef) (c : ClassRef) (t : TableRef) :
    Filling n (buildObject convert via c t) := by
  refine (construct c).bind fun o w w' hn ho => ?_
  refine (look _).andThen fun entries => ?_
  split
  · exact failWith _
  · have hassign := assignEntries hconvert via c (construct_fresh hn ho) (stringEntries entries)
    exact (hassign.holding (handles o)).andThen fun _ => pure _

end Convert

/-! ### Conversion by type -/

/-- A mismatch looks at the value only. -/
theorem mismatch (v : ScriptValue) (t : HostType) :
    Filling n (mismatch v t : Act ConversionError α) :=
  failWith _

/-- Converting the items of a list. -/
theorem convertItems {convert : ScriptValue → Act ConversionError HostValue}
    (hconvert : ∀ v, Filling n (convert v)) (target element : HostType) (vs : List ScriptValue)
    (i : Nat) : Filling n (convertItems convert target element vs i) := by
  induction vs generalizing i with
  | nil => exact pure []
  | cons v vs ih =>
    exact (mapError _ (hconvert v)).andThen fun h => (ih (i + 1)).andThen fun hs => pure _

section Build

variable {build : Builder} (hbuild : ∀ c t, Filling n (build c t))
include hbuild

/-- An object is taken from a proxy as it is, or built. -/
theorem convertObject (c : ClassRef) (v : ScriptValue) : Filling n (convertObject build c v) := by
  cases v with
  | userdata u =>
    refine (look _).andThen fun t? => ?_
    rcases t? with _ | ⟨_⟩ | ⟨o⟩
    · exact mismatch _ _
    · exact mismatch _ _
    · dsimp only
      split
      · exact pure _
      · exact throw _
  | table t => exact hbuild c t
  | _ => exact mismatch _ _

/-- Only tables that become objects, inside arrays and nullable types as well, run code of the
host. -/
theorem convertWith (t : HostType) (v : ScriptValue) : Filling n (convertWith build t v) := by
  -- For every type nil comes first: it is decided before the type is looked at.
  have hnil (t : HostType) : Filling n (Act.convertWith build t .nil) := by
    unfold Act.convertWith
    split
    · exact pure _
    · exact throw _
  induction t generalizing v with
  | nullable inner ih =>
    cases v with
    | nil => exact hnil _
    | _ => unfold Act.convertWith; exact ih _
  | array element ih =>
    cases v with
    | nil => exact hnil _
    | table t =>
      unfold Act.convertWith
      refine (look _).andThen fun vs => ?_
      exact (convertItems ih (.array element) element vs 1).andThen fun hs => pure _
    | _ => unfold Act.convertWith; exact mismatch _ _
  | object c =>
    cases v with
    | nil => exact hnil _
    | _ => unfold Act.convertWith; exact convertObject hbuild c _
  | any =>
    cases v with
    | nil => exact hnil _
    | _ => unfold Act.convertWith; exact look _
  | void =>
    cases v with
    | nil => exact hnil _
    | _ => unfold Act.convertWith; exact pure _
  | integer t =>
    cases v with
    | nil => exact hnil _
    | integer _ | number _ => unfold Act.convertWith; exact ofExcept _
    | _ => unfold Act.convertWith; exact mismatch _ _
  | single =>
    cases v with
    | nil => exact hnil _
    | _ =>
      unfold Act.convertWith
      split
      · split
        · exact pure _
        · exact throw _
      · exact mismatch _ _
  | double =>
    cases v with
    | nil => exact hnil _
    | _ =>
      unfold Act.convertWith
      split
      · exact pure _
      · exact mismatch _ _
  | bool | string | table | function =>
    cases v with
    | nil => exact hnil _
    | _ => unfold Act.convertWith; first | exact pure _ | exact mismatch _ _

end Build

/-- Objects are built to any depth of nesting. -/
theorem buildUpTo (via : BindingRef) (k : Nat) (c : ClassRef) (t : TableRef) :
    Filling n (buildUpTo via k c t) := by
  induction k generalizing c t with
  | zero => exact throw _
  | succ k ih => exact buildObject (convertWith ih) via c t

/-- **Conversion to host** fills new objects only. -/
theorem toHost (via : BindingRef) (t : HostType) (v : ScriptValue) : Filling n (toHost via t v) :=
  (look _).andThen fun k => convertWith (buildUpTo via k) t v

end Filling

/-- **A conversion fills new objects only**, whether it succeeds or fails. -/
theorem toHost_fills {via : BindingRef} {t : HostType} {v : ScriptValue} {w w' : World}
    {r : Except ConversionError HostValue} (h : (toHost via t v).outcome w = (r, w')) :
    w.Fills w.objects.size w' := by
  have hfills := Filling.toHost via t v w (Nat.le_refl _)
  rwa [h] at hfills

/-- What is held is held afterwards, whether the conversion succeeds or not. -/
theorem toHost_held {via : BindingRef} {t : HostType} {v : ScriptValue} {w w' : World}
    {r : Except ConversionError HostValue} (h : (toHost via t v).outcome w = (r, w')) :
    w'.held = w.held :=
  (toHost_fills h).held_eq

/-! ### Conversion to script -/

section ToScript

variable {ε : Type} {via : BindingRef}

/-- The proxy of an object is made without running anything of the host. -/
theorem proxyFor_starts {o : ObjectRef} {u : UserdataRef} {w w' : World}
    (h : (proxyFor via o : Act ε UserdataRef).outcome w = (.ok u, w')) : w.Starts [] w' := by
  rw [outcome_proxyFor] at h
  split at h
  · cases h
    exact ⟨[.wrapped via o u], rfl, rfl⟩
  · cases h
    exact ⟨[.wrapped via o w.userdata.next], rfl, rfl⟩

mutual

/-- **A conversion to script starts nothing.** -/
theorem toScript_starts : ∀ {x : HostValue} {w w' : World} {s : ScriptValue},
    (toScript via x : Act ε ScriptValue).outcome w = (.ok s, w') → w.Starts [] w'
  | .null, w, w', s, h | .bool _, w, w', s, h | .int _, w, w', s, h | .uint _, w, w', s, h
  | .float _, w, w', s, h | .string _, w, w', s, h | .script _, w, w', s, h
  | .cls _, w, w', s, h => by
    unfold toScript at h
    cases h
    exact .of_journal_eq rfl
  | .array items, w, w', s, h => by
    obtain ⟨vs, w₁, hvs, -, rfl⟩ := toScript_array h
    have hitems := toScriptEach_starts hvs
    exact hitems
  | .object o, w, w', s, h => by
    obtain ⟨u, hu, -⟩ := toScript_object h
    exact proxyFor_starts hu

/-- The same for a list. -/
theorem toScriptEach_starts : ∀ {xs : List HostValue} {pending : List Handle} {w w' : World}
    {vs : List ScriptValue},
    (toScriptEach via xs pending : Act ε _).outcome w = (.ok vs, w') → w.Starts [] w'
  | [], _, w, w', vs, h => by
    unfold toScriptEach at h
    cases h
    exact .refl w
  | x :: xs, pending, w, w', vs, h => by
    obtain ⟨v, w₁, rest, w₂, hv, hrest, -, rfl⟩ := toScriptEach_cons h
    have hfirst := toScript_starts hv
    have hothers := toScriptEach_starts hrest
    exact World.Starts.quiet hfirst hothers

end

end ToScript

end Act

end ScriptHost
