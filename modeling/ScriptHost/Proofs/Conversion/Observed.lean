import ScriptHost.Proofs.Conversion.Nesting
import ScriptHost.Proofs.Instants.Belonging

/-!
# Conversions under observation

A table becomes an object by assignments of its entries, and of what an assignment fails with only a text
is left. To say of all assignments that are made during a conversion, however deep inside, how they are made
and how they fail, something is done around each of them. An `Observer` is that something, and
`toHostUnder` conversion with it. What is done is any act: it may look, raise an alarm or do something
else instead. If it does nothing as long as the object is an instance of the very class and the
assignment does not fail for want of a receiver (`Observer.Overlooks`), it does nothing at all:
`outcome_toHostUnder`.
-/

set_option autoImplicit false

namespace ScriptHost

open Act

/-! ### Failures about receivers -/

/-- Whether the failure says that an instance is missing or is not what it should be. -/
def HostFailure.isAboutReceiver : HostFailure → Bool
  | .binding (.missingReceiver _ _) | .binding (.invalidReceiver _ _) => true
  | _ => false

/-! ### Filling keeps the world as it should be -/

namespace World.Fills

variable {n : Nat} {w w' : World}

theorem regular (h : w.Fills n w') (hw : w.Regular) : w'.Regular := by
  induction h with
  | refl => exact hw
  | trans _ _ ih ih' => exact ih' (ih hw)
  -- A constructed object has slots and nobody has borrowed it.
  | constructed w c =>
    refine ⟨hw.classes, fun r x hx => ?_, hw.bindings, hw.functions, hw.proxies⟩
    rcases Store.get?_push_cases hx with ⟨-, rfl⟩ | hx
    · rfl
    · exact hw.objects r x hx
  -- A setter that gets its object leaves slots in it.
  | @assigned w via c m o v s =>
    rw [outcome_runSetter_some]
    have hnoted : (w.noted (.setter via c m v)).Regular := { hw with functions := hw.functions }
    split
    · exact hnoted
    · exact hnoted.setObject o.ref rfl
    · exact hnoted

/-- Objects stay what they are. -/
theorem has (h : w.Fills n w') {o : ObjectRef} (ho : w.Has (.object o)) : w'.Has (.object o) := by
  induction h with
  | refl => exact ho
  | trans _ _ ih ih' => exact ih' (ih ho)
  | constructed => exact ho.imp fun x hx => ⟨Store.get?_push_of_some _ hx.1, hx.2⟩
  -- A setter that gets its object leaves its class as it is.
  | @assigned w via c m q v s =>
    rw [outcome_runSetter_some]
    split
    · exact ho
    · obtain ⟨x, hx, hcls⟩ := ho
      show ∃ y, (w.objects.set q.ref _).get? o.ref = some y ∧ y.cls = o.cls
      rw [Store.get?_set]
      split
      · next hq =>
        refine ⟨_, by rw [hx, Option.map_some], ?_⟩
        have hobject : w.object q = x := object_of_get? (hq ▸ hx)
        exact (congrArg Object.cls hobject).trans hcls
      · exact ⟨x, hx, hcls⟩
    · exact ho

end World.Fills

namespace Act

/-- What a constructor gives is an instance of its class. -/
theorem construct_has {c : ClassRef} {w w' : World} {o : ObjectRef}
    (h : (construct c).outcome w = (.ok o, w')) : o.cls = c ∧ w'.Has (.object o) := by
  unfold construct at h
  rw [outcome_bind_ok (outcome_look _ w)] at h
  cases hc : (w.cls c).constructor with
  | some s =>
    rw [hc] at h
    cases h
    exact ⟨rfl, _, Store.get?_push_self _ _, rfl⟩
  | none =>
    rw [hc] at h
    cases h

/-! ### Assignments -/

section Assign

variable {convert convert' : Converter} {via : BindingRef} {c : ClassRef}
  {receiver : Option ObjectRef} {k : MemberKey} {v : ScriptValue} {w w' : World}

/-- **No assignment fails for want of a receiver.** Static members accept nothing, so who gets to a setter
has an object, and this holds slots. -/
theorem assignKey_error (hconvert : ∀ t, ((convert t v).outcome w).2.Regular) (hw : w.Regular)
    {e : HostFailure} (h : (assignKey convert via c receiver k v).outcome w = (.error e, w')) :
    e.isAboutReceiver = false := by
  unfold assignKey at h
  rw [outcome_bind_ok (outcome_look _ w)] at h
  split at h
  · next m hS =>
    obtain ⟨hdeclared, hstatic⟩ := hw.declares_of_resolve (hS ▸ List.mem_singleton_self m)
    cases ha : m.accepts? with
    | none =>
      rw [assignMember_of_not_accepts ha] at h
      cases h
      unfold Member.unwritable
      split <;> rfl
    | some q =>
      obtain ⟨t, s⟩ := q
      -- A member that accepts values is not static, and on no object only static ones are found.
      obtain ⟨o, rfl⟩ : ∃ o, receiver = some o := by
        cases receiver with
        | some o => exact ⟨o, rfl⟩
        | none => cases ha.symm.trans ((hw.member hdeclared).accepts_none hstatic)
      rw [assignMember_of_accepts ha fun _ => rfl] at h
      have hconverted := hconvert t
      rcases hout : (convert t v).outcome w with ⟨ce | x, w₁⟩ <;> rw [hout] at hconverted
      · rw [outcome_assignThrough_error hout] at h
        cases h
        rfl
      · rw [outcome_assignThrough_ok hout, outcome_runSetter_some] at h
        split at h
        · next refusal _ hrefusal =>
          cases h
          rw [Object.refusal?_eq_borrowed (hconverted.payload o) hrefusal]
          rfl
        · cases h
        · cases h
          rfl
  · cases h
    rfl

/-- Conversions that do the same are assigned in the same way. -/
theorem assignKey_congr (h : ∀ t, (convert' t v).outcome w = (convert t v).outcome w) :
    (assignKey convert' via c receiver k v).outcome w =
      (assignKey convert via c receiver k v).outcome w := by
  unfold assignKey
  rw [outcome_bind_ok (outcome_look _ w), outcome_bind_ok (outcome_look _ w)]
  split
  · next m _ =>
    -- What the member accepts decides whether the value is converted at all.
    cases ha : m.accepts? with
    | none => rw [assignMember_of_not_accepts ha, assignMember_of_not_accepts ha]
    | some q =>
      obtain ⟨t, s⟩ := q
      by_cases hreceiver : m.isField = true → receiver.isSome = true
      · rw [assignMember_of_accepts ha hreceiver, assignMember_of_accepts ha hreceiver]
        rcases hout : (convert t v).outcome w with ⟨e | x, w₁⟩
        · rw [outcome_assignThrough_error hout, outcome_assignThrough_error ((h t).trans hout)]
        · rw [outcome_assignThrough_ok hout, outcome_assignThrough_ok ((h t).trans hout)]
      · obtain ⟨hfield, hnone⟩ := Classical.not_imp.mp hreceiver
        obtain rfl := Option.not_isSome_iff_eq_none.mp hnone
        rw [assignMember_of_no_receiver ha hfield, assignMember_of_no_receiver ha hfield]
  · rfl

end Assign

/-! ### Observers -/

/-- Something that is done around each assignment of an entry to an object. -/
abbrev Observer := ClassRef → ObjectRef → Act HostFailure Unit → Act HostFailure Unit

/-- The observer does nothing where an instance of the very class is assigned to, unless that fails for
want of a receiver. -/
def Observer.Overlooks (obs : Observer) : Prop :=
  ∀ (w : World) c o (m : Act HostFailure Unit), w.Instance c o →
    (∀ e w', m.outcome w = (.error e, w') → e.isAboutReceiver = false) →
      (obs c o m).outcome w = m.outcome w

/-- The observer that tells of failures about receivers. -/
def Observer.alarm (report : HostFailure → HostFailure) : Observer := fun _ _ m =>
  mapError (fun _ e => if e.isAboutReceiver then report e else e) m

/-- The alarm overlooks whatever does not fail for want of a receiver. -/
theorem Observer.alarm_overlooks (report : HostFailure → HostFailure) :
    (alarm report).Overlooks := by
  intro w c o m _ hother
  unfold alarm
  rw [outcome_mapError]
  rcases hout : m.outcome w with ⟨e | a, w'⟩
  · have hsame := hother e w' hout
    simp only [hsame, Bool.false_eq_true, if_false]
  · rfl

/-- Assigning entries under observation. -/
def assignEntriesUnder (obs : Observer) (convert : Converter) (via : BindingRef) (c : ClassRef)
    (o : ObjectRef) : List (String × ScriptValue) → Act ConversionError Unit
  | [] => pure ()
  | (k, v) :: rest => do
    mapError (fun _ e => .structuredField c.name k e.message)
      (obs c o (assignKey convert via c (some o) (.name k) v))
    assignEntriesUnder obs convert via c o rest

/-- A fresh instance filled from a table under observation. -/
def buildObjectUnder (obs : Observer) (convert : Converter) (via : BindingRef) (c : ClassRef)
    (t : TableRef) : Act ConversionError HostValue := do
  let o ← construct c
  let entries ← look fun w => w.table t
  match otherKey? entries with
  | some k =>
    failWith fun w =>
      .structuredField c.name (w.dumpScript k) (k.kind.name ++ " keys are not supported")
  | none => do
    holding (handles o) (assignEntriesUnder obs convert via c o (stringEntries entries))
    pure (.object o)

/-- Building objects that nest at most so many classes deep, under observation. -/
def buildUpToUnder (obs : Observer) (via : BindingRef) : Nat → Builder
  | 0 => fun c _ => throw (.missingConstructor c.name)
  | n + 1 => buildObjectUnder obs (convertWith (buildUpToUnder obs via n)) via

/-- **Conversion to host under observation.** -/
def toHostUnder (obs : Observer) (via : BindingRef) (t : HostType) (v : ScriptValue) :
    Act ConversionError HostValue := do
  let n ← look fun w => w.classes.size
  convertWith (buildUpToUnder obs via n) t v

section Overlooked

variable {obs : Observer} (hobs : obs.Overlooks) {next next' : Converter}
  (hnext : ∀ t v (w : World), w.Regular → (next' t v).outcome w = (next t v).outcome w)
  (hfilling : ∀ t v, Filling 0 (next t v)) {via : BindingRef}

include hobs hnext hfilling in
/-- Entries are assigned as without an observer, by induction on the entries. -/
theorem outcome_assignEntriesUnder (es : List (String × ScriptValue)) {o : ObjectRef} {w : World}
    (hw : w.Regular) (ho : w.Has (.object o)) :
    (assignEntriesUnder obs next' via o.cls o es).outcome w =
      (assignEntries next via o.cls o es).outcome w := by
  induction es generalizing w with
  | nil => rfl
  | cons e es ih =>
    obtain ⟨k, v⟩ := e
    have hsame : (assignKey next' via o.cls (some o) (.name k) v).outcome w =
        (assignKey next via o.cls (some o) (.name k) v).outcome w :=
      assignKey_congr fun t => hnext t v w hw
    have hregular (t : HostType) : ((next t v).outcome w).2.Regular :=
      (hfilling t v w (Nat.zero_le _)).regular hw
    -- What the observer would notice does not happen.
    have hobserved := (hobs w o.cls o _ (hw.instance_ ho) fun e w' he =>
      assignKey_error hregular hw (hsame.symm.trans he)).trans hsame
    have hfills : w.Fills 0 ((assignKey next via o.cls (some o) (.name k) v).outcome w).2 :=
      Filling.assignKey hfilling via o.cls (Nat.zero_le _) (.name k) v w (Nat.zero_le _)
    unfold assignEntriesUnder assignEntries
    rw [outcome_bind, outcome_bind, outcome_mapError, outcome_mapError, hobserved]
    rcases hout : (assignKey next via o.cls (some o) (.name k) v).outcome w with ⟨f | ⟨⟩, w₁⟩
    · rfl
    · rw [hout] at hfills
      exact ih (hfills.regular hw) (hfills.has ho)

include hobs hnext hfilling in
/-- Building an object comes to the same under observation. -/
theorem outcome_buildObjectUnder (c : ClassRef) (r : TableRef) {w : World} (hw : w.Regular) :
    (buildObjectUnder obs next' via c r).outcome w = (buildObject next via c r).outcome w := by
  have hfills := Filling.construct (n := 0) c w (Nat.zero_le _)
  unfold buildObjectUnder buildObject
  rcases ho : (construct c).outcome w with ⟨e | o, w₁⟩
  · rw [outcome_bind_error ho, outcome_bind_error ho]
  -- The object was constructed: it is there and it is of the class.
  · obtain ⟨rfl, hhas⟩ := construct_has ho
    rw [ho] at hfills
    have hw₁ := hfills.regular hw
    rw [outcome_bind_ok ho, outcome_bind_ok ho, outcome_bind_ok (outcome_look _ w₁),
      outcome_bind_ok (outcome_look _ w₁)]
    cases otherKey? (w₁.table r) with
    | some k => rfl
    | none =>
      have hheld : World.Regular { w₁ with held := handles o ++ w₁.held } :=
        { hw₁ with functions := hw₁.functions }
      dsimp only
      rw [outcome_bind, outcome_bind, outcome_holding, outcome_holding,
        outcome_assignEntriesUnder hobs hnext hfilling _ hheld hhas]

/-- So does converting items, if converting each of them does. -/
theorem outcome_convertItems_congr {next next' : ScriptValue → Act ConversionError HostValue}
    (hnext : ∀ v (w : World), w.Regular → (next' v).outcome w = (next v).outcome w)
    (hfilling : ∀ v, Filling 0 (next v)) (target element : HostType) (vs : List ScriptValue)
    (i : Nat) {w : World} (hw : w.Regular) :
    (convertItems next' target element vs i).outcome w =
      (convertItems next target element vs i).outcome w := by
  induction vs generalizing i w with
  | nil => rfl
  | cons v vs ih =>
    have hfills := hfilling v w (Nat.zero_le _)
    unfold convertItems
    rw [outcome_bind, outcome_bind, outcome_mapError, outcome_mapError, hnext v w hw]
    rcases hout : (next v).outcome w with ⟨e | x, w₁⟩
    · rfl
    · rw [hout] at hfills
      simp only
      rw [outcome_bind, outcome_bind, ih (i + 1) (hfills.regular hw)]

/-- Conversions that build in the same way are the same, by induction on the type. -/
theorem outcome_convertWith_congr {build build' : Builder}
    (hbuild : ∀ c r (w : World), w.Regular → (build' c r).outcome w = (build c r).outcome w)
    (hfilling : ∀ c r, Filling 0 (build c r)) (t : HostType) (v : ScriptValue) {w : World}
    (hw : w.Regular) : (convertWith build' t v).outcome w = (convertWith build t v).outcome w := by
  cases hasks : asks t v with
  | false => rw [convertWith_of_not_asks hasks build' build]
  | true =>
    -- What is left are the conversions that ask for others.
    induction t generalizing v w with
    | nullable t ih =>
      rw [convertWith_nullable hasks, convertWith_nullable hasks]
      cases hinner : asks t v with
      | false => rw [convertWith_of_not_asks hinner build' build]
      | true => exact ih v hw hinner
    | array element ih =>
      cases v with
      | table r =>
        have helement (v : ScriptValue) (w : World) (hw : w.Regular) :
            (convertWith build' element v).outcome w = (convertWith build element v).outcome w := by
          cases hinner : asks element v with
          | false => rw [convertWith_of_not_asks hinner build' build]
          | true => exact ih v hw hinner
        simp only [convertWith]
        rw [outcome_bind_ok (outcome_look _ w), outcome_bind_ok (outcome_look _ w), outcome_bind,
          outcome_bind, outcome_convertItems_congr helement
            (Filling.convertWith hfilling element) (.array element) element _ 1 hw]
      | _ => cases hasks
    | object c =>
      cases v with
      | table r =>
        rw [convertWith_object, convertWith_object]
        exact hbuild c r w hw
      | _ => cases hasks
    | _ => cases v <;> cases hasks

include hobs in
/-- The same to any depth of nesting. -/
theorem outcome_buildUpToUnder (n : Nat) (c : ClassRef) (r : TableRef) {w : World}
    (hw : w.Regular) :
    (buildUpToUnder obs via n c r).outcome w = (buildUpTo via n c r).outcome w := by
  induction n generalizing c r w with
  | zero => rfl
  | succ n ih =>
    refine outcome_buildObjectUnder hobs (fun t v w hw => ?_) (filling_buildUpTo n) c r hw
    exact outcome_convertWith_congr (fun c r w hw => ih c r hw) (.buildUpTo via n) t v hw

include hobs in
/-- **In a regular world nothing is noticed during a conversion.** -/
theorem outcome_toHostUnder (t : HostType) (v : ScriptValue) {w : World} (hw : w.Regular) :
    (toHostUnder obs via t v).outcome w = (toHost via t v).outcome w := by
  unfold toHostUnder toHost
  rw [outcome_bind_ok (outcome_look _ w), outcome_bind_ok (outcome_look _ w)]
  exact outcome_convertWith_congr (fun c r w hw => outcome_buildUpToUnder hobs _ c r hw)
    (.buildUpTo via _) t v hw

end Overlooked

end Act

end ScriptHost
