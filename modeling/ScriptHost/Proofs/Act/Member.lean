import ScriptHost.Proofs.Act.Outcome

/-!
# Access to one member

Members differ in what they are read and written with, and the access functions go through the kinds
one by one. `Member.getter?` and `Member.accepts?` say the same once for all kinds: what a member is
read with, and what type and what setter it is written with. By them the access functions have two
equations each, one for members that allow the access and one for those that do not.

Setters are the only code of members that changes anything, and they change their object at most.
-/

set_option autoImplicit false

namespace ScriptHost

/-- The world in which something more has happened. -/
def World.noted (w : World) (e : Event) : World := { w with journal := e :: w.journal }

namespace Member

/-- What the member is read with. A method is not, nor is a property with index arguments. -/
def getter? : Member → Option Getter
  | .method _ => none
  | .property p => if p.isIndexer then none else p.getter
  | .field f => some (.slot f.slot)

/-- The type of values that the member accepts, and the setter that stores them. -/
def accepts? : Member → Option (HostType × Setter)
  | .method _ => none
  | .property p => if p.isIndexer then none else p.setter.map fun s => (p.type, s)
  | .field f => f.setter.map fun s => (f.type, s)

def isField : Member → Bool
  | .field _ => true
  | _ => false

/-- Methods are called, not read through a getter. -/
theorem isMethod_of_getter {m : Member} {g : Getter} (h : m.getter? = some g) :
    m.isMethod = false := by
  cases m with
  | method x => cases h
  | _ => rfl

/-- Why a member that is no method and has nothing to read it with cannot be read. -/
def unreadable (c : ClassRef) (m : Member) : AccessError :=
  if m.isIndexer then .indexerUnsupported c.name m.name else .writeOnly c.name m.name

/-- Why a member that accepts nothing cannot be written. -/
def unwritable (c : ClassRef) (m : Member) : AccessError :=
  if m.isIndexer then .indexerUnsupported c.name m.name else .readOnly c.name m.name

end Member

namespace Act

variable {via : BindingRef} {c : ClassRef} {receiver : Option ObjectRef} {m : Member}

theorem outcome_note_noted {ε : Type} (e : Event) (w : World) :
    (note e : Act ε Unit).outcome w = (.ok (), w.noted e) := rfl

/-! ### Reading -/

/-- Reading starts the getter, and what it gives is the value. A field needs a receiver for that. -/
theorem readMember_of_getter {g : Getter} (hg : m.getter? = some g)
    (hr : m.isField = true → receiver.isSome = true) :
    readMember via c receiver m =
      (do note (.getter via c m)
          let v ← runGetter c.name m.name receiver g
          pure (some v)) := by
  cases m with
  | method x => cases hg
  | property p =>
    by_cases hindexer : p.isIndexer = true
    · cases (if_pos hindexer).symm.trans hg
    · have hgetter : p.getter = some g := (if_neg hindexer).symm.trans hg
      simp only [readMember, Member.name, if_neg hindexer, hgetter]
  | field f =>
    -- A field has a getter, and it is the slot that is read.
    obtain ⟨o, rfl⟩ := Option.isSome_iff_exists.mp (hr rfl)
    cases hg
    rfl

/-- Without a getter nothing is started. -/
theorem readMember_of_no_getter (hm : m.isMethod = false) (hg : m.getter? = none) :
    readMember via c receiver m = throw (.binding (m.unreadable c)) := by
  cases m with
  | method x => cases hm
  | property p =>
    by_cases hindexer : p.isIndexer = true
    · simp [readMember, Member.unreadable, Member.isIndexer, Member.name, hindexer]
    · have hnone : p.getter = none := (if_neg hindexer).symm.trans hg
      simp [readMember, Member.unreadable, Member.isIndexer, Member.name, hindexer, hnone]
  | field f => cases hg

/-- A getter changes nothing. -/
theorem runGetter_same (n m : String) (receiver : Option ObjectRef) (g : Getter) (w : World) :
    ((runGetter n m receiver g).outcome w).2 = w := by
  cases g with
  | constant v => rfl
  | slot s =>
    cases receiver with
    | none => rfl
    | some o =>
      have hread : (runGetter n m (some o) (.slot s)).outcome w =
          (borrowed o false .slots >>= fun ob => pure (ob.payload.slotsOf.read s)).outcome w := rfl
      rw [hread, outcome_bind, outcome_borrowed]
      cases (w.object o).refusal? false .slots <;> rfl

/-! ### Writing -/

/-- Stores a value into a member that accepts values of the type, through the setter. -/
def assignThrough (convert : Converter) (via : BindingRef) (c : ClassRef)
    (receiver : Option ObjectRef) (m : Member) (v : ScriptValue) (t : HostType) (s : Setter) :
    Act HostFailure Unit := do
  let h ← convertFor convert c m.name t v
  note (.setter via c m h)
  runSetter c.name m.name receiver h s

variable {convert : Converter} {v : ScriptValue}

/-- Writing converts the value, starts the setter with it and leaves the rest to the setter. A field
needs a receiver for that. -/
theorem assignMember_of_accepts {t : HostType} {s : Setter} (ha : m.accepts? = some (t, s))
    (hr : m.isField = true → receiver.isSome = true) :
    assignMember convert via c receiver m v = assignThrough convert via c receiver m v t s := by
  cases m with
  | method x => cases ha
  | property p =>
    by_cases hindexer : p.isIndexer = true
    · cases (if_pos hindexer).symm.trans ha
    · obtain ⟨s', hs', heq⟩ := Option.map_eq_some_iff.mp ((if_neg hindexer).symm.trans ha)
      cases heq
      simp only [assignMember, assignThrough, Member.name, if_neg hindexer, hs']
  | field f =>
    -- The receiver is there, so the value gets to the setter of the field.
    obtain ⟨o, rfl⟩ := Option.isSome_iff_exists.mp (hr rfl)
    obtain ⟨s', hs', heq⟩ := Option.map_eq_some_iff.mp ha
    cases heq
    simp only [assignMember, hs']
    rfl

/-- A member that takes no value is not written, and nothing is started. -/
theorem assignMember_of_not_accepts (ha : m.accepts? = none) :
    assignMember convert via c receiver m v = throw (.binding (m.unwritable c)) := by
  cases m with
  | method x => rfl
  | property p =>
    by_cases hindexer : p.isIndexer = true
    · simp [assignMember, Member.unwritable, Member.isIndexer, Member.name, hindexer]
    · have hnone : p.setter = none :=
        Option.map_eq_none_iff.mp ((if_neg hindexer).symm.trans ha)
      simp [assignMember, Member.unwritable, Member.isIndexer, Member.name, hindexer, hnone]
  | field f =>
    simp only [assignMember, Option.map_eq_none_iff.mp ha]
    rfl

/-- A field wants its object before the value is converted. -/
theorem assignMember_of_no_receiver {t : HostType} {s : Setter} (ha : m.accepts? = some (t, s))
    (hm : m.isField = true) :
    assignMember convert via c none m v = throw (.binding (.missingReceiver c.name m.name)) := by
  cases m with
  | field f =>
    obtain ⟨s', hs', -⟩ := Option.map_eq_some_iff.mp ha
    simp only [assignMember, hs']
    rfl
  | _ => cases hm

/-- The reason why a value does not convert is not told. -/
theorem outcome_assignThrough_error {t : HostType} {s : Setter} {e : ConversionError} {w w₁ : World}
    (h : (convert t v).outcome w = (.error e, w₁)) :
    (assignThrough convert via c receiver m v t s).outcome w =
      (.error (.binding (.incompatibleValue c.name m.name t.name v.kind)), w₁) := by
  have hfor : (convertFor convert c m.name t v).outcome w =
      (.error (.binding (.incompatibleValue c.name m.name t.name v.kind)), w₁) := by
    unfold convertFor
    rw [outcome_mapError, h]
  exact outcome_bind_error hfor

/-- The setter runs with what the value converts to. -/
theorem outcome_assignThrough_ok {t : HostType} {s : Setter} {x : HostValue} {w w₁ : World}
    (h : (convert t v).outcome w = (.ok x, w₁)) :
    (assignThrough convert via c receiver m v t s).outcome w =
      (runSetter c.name m.name receiver x s).outcome (w₁.noted (.setter via c m x)) := by
  have hfor : (convertFor convert c m.name t v).outcome w = (.ok x, w₁) := by
    unfold convertFor
    rw [outcome_mapError, h]
  unfold assignThrough
  rw [outcome_bind_ok hfor, outcome_bind_ok (outcome_note_noted _ w₁)]

/-! ### Setters -/

variable {n : String} {x : HostValue} {s : Setter} {w w' : World}

/-- A setter without an object never gets further. -/
theorem outcome_runSetter_none (n m : String) (x : HostValue) (s : Setter) (w : World) :
    (runSetter n m none x s).outcome w = (.error (.binding (.missingReceiver n m)), w) := by
  cases s <;> rfl

/-- A setter borrows its object and then stores into a slot or refuses. -/
theorem outcome_runSetter_some (n m : String) (o : ObjectRef) (x : HostValue) (s : Setter)
    (w : World) :
    (runSetter n m (some o) x s).outcome w = match (w.object o).refusal? true .slots, s with
      | some e, _ => (.error (.binding e), w)
      | none, .slot slot => (.ok (), { w with
          objects := w.objects.set o.ref { w.object o with
            payload := .slots ((w.object o).payload.slotsOf.write slot x) } })
      | none, .refuse message => (.error (.host message), w) := by
  -- Both setters meet the same refusal of the object before anything else.
  cases s with
  | slot slot =>
    have hwrite : (runSetter n m (some o) x (.slot slot)).outcome w =
        (writeSlot o slot x).outcome w := rfl
    rw [hwrite, outcome_writeSlot]
    cases (w.object o).refusal? true .slots <;> rfl
  | refuse message =>
    have hrefuse : (runSetter n m (some o) x (.refuse message)).outcome w =
        (borrowed o true .slots >>= fun _ => throw (.host message)).outcome w := rfl
    rw [hrefuse, outcome_bind, outcome_borrowed]
    cases (w.object o).refusal? true .slots <;> rfl

/-- **A setter that fails has changed nothing**, also where its object is borrowed already. -/
theorem runSetter_failed {m : String} {e : HostFailure}
    (h : (runSetter n m receiver x s).outcome w = (.error e, w')) : w' = w := by
  cases receiver with
  | none =>
    rw [outcome_runSetter_none] at h
    exact (Prod.mk.inj h).2.symm
  | some o =>
    rw [outcome_runSetter_some] at h
    split at h
    · exact (Prod.mk.inj h).2.symm
    · cases h
    · exact (Prod.mk.inj h).2.symm

/-- **A setter changes its object at most.** -/
theorem runSetter_objects (n m : String) (o : ObjectRef) (x : HostValue) (s : Setter) (w : World) :
    ∃ os, ((runSetter n m (some o) x s).outcome w).2 = { w with objects := os } ∧
      os.size = w.objects.size ∧ ∀ r, r ≠ o.ref → os.get? r = w.objects.get? r := by
  rw [outcome_runSetter_some]
  split
  · exact ⟨w.objects, rfl, rfl, fun _ _ => rfl⟩
  · exact ⟨_, rfl, Store.size_set _ _ _, fun r hr => Store.get?_set_ne _ _ hr⟩
  · exact ⟨w.objects, rfl, rfl, fun _ _ => rfl⟩

/-- What a setter does is not noted; that it was started is. -/
theorem runSetter_journal (n m : String) (receiver : Option ObjectRef) (x : HostValue) (s : Setter)
    (w : World) : ((runSetter n m receiver x s).outcome w).2.journal = w.journal := by
  cases receiver with
  | none => rw [outcome_runSetter_none]
  | some o =>
    obtain ⟨os, hos, -⟩ := runSetter_objects n m o x s w
    rw [hos]

/-- What else is held makes no difference to a setter. -/
theorem runSetter_held (n m : String) (o : ObjectRef) (x : HostValue) (s : Setter) (w : World)
    (hs : List Handle) :
    ((runSetter n m (some o) x s).outcome { w with held := hs }).2 =
      { ((runSetter n m (some o) x s).outcome w).2 with held := hs } := by
  rw [outcome_runSetter_some, outcome_runSetter_some]
  have hobject : ({ w with held := hs } : World).object o = w.object o := rfl
  rw [hobject]
  split <;> rfl

end Act

end ScriptHost
