import ScriptHost.Proofs.Conversion.Nesting
import ScriptHost.Proofs.Tables.StringKeys

/-!
# The order in which entries are delivered

In which order a table delivers its entries is unspecified. A `Delivery` settles it, for every world
and every table in its own way, and `toHostFrom` is conversion with the entries as they are
delivered. A table becomes an object by way of its entries in the order of their keys, and whether
some key is no string does not depend on the order either. So the order tells at most which key a
failure names. Conversions inside others do not tell why they fail, and a table under strings alone
never fails for its keys: there the order makes no difference (`agree_toHostFrom`).
-/

set_option autoImplicit false

namespace ScriptHost

/-- **An order of delivery**: the tables of every world, with their entries in any order. -/
structure Delivery where
  table : World → TableRef → Table
  perm (w : World) (r : TableRef) : (table w r).entries.Perm (w.table r).entries

/-- The order in which the tables have their entries. -/
def Delivery.stored : Delivery := ⟨World.table, fun _ _ => .refl _⟩

namespace Act

/-- A fresh instance filled from a table, with the entries as they are delivered. -/
def buildObjectFrom (d : Delivery) (convert : Converter) (via : BindingRef) (c : ClassRef)
    (t : TableRef) : Act ConversionError HostValue := do
  let o ← construct c
  let entries ← look fun w => d.table w t
  match otherKey? entries with
  | some k =>
    failWith fun w =>
      .structuredField c.name (w.dumpScript k) (k.kind.name ++ " keys are not supported")
  | none => do
    holding (handles o) (assignEntries convert via c o (stringEntries entries))
    pure (.object o)

/-- Building objects that nest at most so many classes deep, from entries as they are delivered. -/
def buildUpToFrom (d : Delivery) (via : BindingRef) : Nat → Builder
  | 0 => fun c _ => throw (.missingConstructor c.name)
  | n + 1 => buildObjectFrom d (convertWith (buildUpToFrom d via n)) via

/-- **Conversion to host**, with the entries of tables as they are delivered. -/
def toHostFrom (d : Delivery) (via : BindingRef) (t : HostType) (v : ScriptValue) :
    Act ConversionError HostValue := do
  let n ← look fun w => w.classes.size
  convertWith (buildUpToFrom d via n) t v

/-- Entries as they are stored are delivered to the conversion that there is. -/
theorem buildObjectFrom_stored : buildObjectFrom .stored = buildObject := rfl

/-- The same to any depth of nesting. -/
theorem buildUpToFrom_stored (via : BindingRef) (n : Nat) :
    buildUpToFrom .stored via n = buildUpTo via n := by
  induction n with
  | zero => rfl
  | succ n ih => rw [buildUpToFrom, ih, buildObjectFrom_stored, buildUpTo]

/-- The order that the tables have is one of the orders. -/
theorem toHostFrom_stored : toHostFrom .stored = toHost := by
  funext via t v
  unfold toHostFrom toHost
  simp only [buildUpToFrom_stored]

/-! ### Building from delivered entries -/

section Build

variable {w₀ w w₁ : World} {next next' : Converter} {via : BindingRef} {c : ClassRef}
  {r : TableRef} {d : Delivery}

/-- A key that is no string is refused as soon as there is an object. -/
theorem outcome_buildObjectFrom_other {o : ObjectRef} {k : ScriptValue}
    (ho : (construct c).outcome w = (.ok o, w₁)) (hk : otherKey? (d.table w₁ r) = some k) :
    (buildObjectFrom d next via c r).outcome w = (.error (.structuredField c.name
      (w₁.dumpScript k) (k.kind.name ++ " keys are not supported")), w₁) := by
  unfold buildObjectFrom
  rw [outcome_bind_ok ho, outcome_bind_ok (outcome_look _ w₁), hk]
  rfl

variable (hstrings : w₀.StringsOnce)
  (h : ∀ t ∈ (w₀.cls c).valueTypes, ∀ v, AgreeButReason w₀ (next t v) (next' t v))
  (hfilling : ∀ t v, Filling 0 (next' t v))
include hstrings h hfilling

/-- **Where all keys are strings, the same entries are assigned in the same order.** -/
theorem Agree.buildObjectFrom (hkeys : otherKey? (w₀.table r) = none) (d : Delivery) :
    Agree w₀ (buildObjectFrom d next via c r) (Act.buildObject next' via c r) := by
  refine (refl _).bind (.construct c) fun o => look_bind fun w hw => ?_
  have hperm : (d.table w r).entries.Perm (w₀.table r).entries := hw.table r ▸ d.perm w r
  rw [(otherKey?_eq_none_of_perm hperm).mpr hkeys, hw.table r, hkeys,
    stringEntries_eq_of_perm (hstrings.table r) hperm]
  exact ((assignEntries h hfilling via o _).holding _).before _

/-- Otherwise nothing is assigned, whichever key is named. -/
theorem AgreeButReason.buildObjectFrom (d : Delivery) :
    AgreeButReason w₀ (buildObjectFrom d next via c r) (Act.buildObject next' via c r) := by
  cases hkeys : otherKey? (w₀.table r) with
  | none => exact (Agree.buildObjectFrom hstrings h hfilling hkeys d).butReason
  | some k =>
    intro w hw
    rcases ho : (construct c).outcome w with ⟨e | o, w₁⟩
    · rw [Act.buildObjectFrom, Act.buildObject, outcome_bind_error ho, outcome_bind_error ho]
      exact ⟨rfl, rfl⟩
    · have hw₁ : w₀.Still w₁ := by
        have hfills := Filling.construct (n := 0) c w (Nat.zero_le _)
        rw [ho] at hfills
        exact hw.fills hfills
      -- The two orders may name different keys, but both refuse where nothing has been assigned.
      have hrefused (d : Delivery) : ∃ j, otherKey? (d.table w₁ r) = some j :=
        exists_otherKey_of_perm (hw₁.table r ▸ d.perm w₁ r) (hkeys ▸ Option.some_ne_none k)
      obtain ⟨j, hj⟩ := hrefused d
      obtain ⟨i, hi⟩ := hrefused .stored
      rw [← buildObjectFrom_stored, outcome_buildObjectFrom_other ho hj,
        outcome_buildObjectFrom_other ho hi]
      exact ⟨rfl, rfl⟩

end Build

/-! ### Conversion from delivered entries -/

section Convert

variable {w₀ : World}

/-- Conversions that build alike agree, but for the reason of a failure. -/
theorem AgreeButReason.convertWith {build build' : Builder}
    (hfilling : ∀ c r, Filling 0 (build' c r))
    (h : ∀ c r, AgreeButReason w₀ (build c r) (build' c r)) (t : HostType) (v : ScriptValue) :
    AgreeButReason w₀ (convertWith build t v) (convertWith build' t v) := by
  have hplain {t : HostType} {v : ScriptValue} (hasks : asks t v = false) :
      AgreeButReason w₀ (Act.convertWith build t v) (Act.convertWith build' t v) := by
    rw [convertWith_of_not_asks hasks build build']
    exact (Agree.refl _).butReason
  -- What is left are the conversions that ask for others.
  induction t generalizing v with
  | nullable t ih =>
    cases hasks : asks (.nullable t) v with
    | false => exact hplain hasks
    | true =>
      rw [convertWith_nullable hasks, convertWith_nullable hasks]
      exact ih v
  | array element ih =>
    cases v with
    | table r =>
      simp only [Act.convertWith]
      refine Agree.butReason ((Agree.refl _).bind (.look _) fun vs => ?_)
      have hfilled := Filling.convertWith (n := 0) hfilling element
      exact (Agree.convertItems hfilled ih (.array element) element vs 1).before _
    | _ => exact hplain rfl
  | object c =>
    cases v with
    | table r =>
      rw [convertWith_object, convertWith_object]
      exact h c r
    | _ => exact hplain rfl
  | _ => cases v <;> exact hplain rfl

variable (hstrings : w₀.StringsOnce)
include hstrings

/-- **The order tells at most why a conversion fails**, by induction on how deep objects nest. -/
theorem agree_buildUpToFrom (d : Delivery) (via : BindingRef) (n : Nat) (c : ClassRef)
    (r : TableRef) : AgreeButReason w₀ (buildUpToFrom d via n c r) (buildUpTo via n c r) := by
  induction n generalizing c r with
  | zero => exact (Agree.refl _).butReason
  | succ n ih =>
    exact .buildObjectFrom hstrings (fun t _ v => .convertWith (.buildUpTo via n) ih t v)
      (filling_buildUpTo n) d

/-- **Where all keys are strings, the order makes no difference.** -/
theorem agree_toHostFrom {r : TableRef} (hkeys : otherKey? (w₀.table r) = none) (d : Delivery)
    (via : BindingRef) (c : ClassRef) :
    Agree w₀ (toHostFrom d via (.object c) (.table r)) (toHost via (.object c) (.table r)) := by
  refine Agree.look_bind fun w _ => ?_
  rw [convertWith_object, convertWith_object]
  cases w.classes.size with
  | zero => exact .refl _
  | succ n =>
    -- Tables inside this one may have other keys: conversions to members agree but for the reason.
    have hmember (t : HostType) (v : ScriptValue) := AgreeButReason.convertWith (.buildUpTo via n)
      (agree_buildUpToFrom hstrings d via n) t v
    exact .buildObjectFrom hstrings (fun t _ v => hmember t v) (filling_buildUpTo n) hkeys d

end Convert

end Act

end ScriptHost
