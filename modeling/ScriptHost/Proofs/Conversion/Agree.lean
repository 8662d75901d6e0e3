import ScriptHost.Proofs.Conversion.Started

/-!
# Conversions that agree

Two ways to convert agree if they do the same in every world with the classes and the tables that
there are. Conversions change neither, so two acts agree as soon as their parts do. Where a
conversion is part of another one its failure is told in the words of the other, which do not say
why it failed: there it is enough that the two agree but for the reason of a failure.
-/

set_option autoImplicit false

namespace ScriptHost

/-! ### The types of members -/

/-- The type of the values of a member that has values. -/
def Member.valueType? : Member → Option HostType
  | .method _ => none
  | .property p => some p.type
  | .field f => some f.type

/-- The types of the members that have values. -/
def HostClass.valueTypes (c : HostClass) : List HostType := c.members.filterMap Member.valueType?

/-- Classes and tables are as they were. -/
structure World.Still (w₀ w : World) : Prop where
  classes : w.classes = w₀.classes
  tables : w.tables = w₀.tables

namespace World.Still

variable {w₀ w w' : World}

/-- Nothing has changed yet. -/
theorem refl (w : World) : w.Still w := ⟨rfl, rfl⟩

/-- Filling new objects changes neither. -/
theorem fills {n : Nat} (h : w₀.Still w) (hfills : w.Fills n w') : w₀.Still w' := by
  rw [hfills.rest]
  exact ⟨h.classes, h.tables⟩

/-- A class is looked up as before. -/
theorem cls (h : w₀.Still w) (c : ClassRef) : w.cls c = w₀.cls c := by
  rw [World.cls, World.cls, h.classes]

/-- A table is looked up as before. -/
theorem table (h : w₀.Still w) (r : TableRef) : w.table r = w₀.table r := by
  rw [World.table, World.table, h.tables]

end World.Still

namespace Act

variable {ε ε' α β β' : Type} {w₀ : World}

/-- The acts do the same in every world with these classes and tables. -/
def Agree (w₀ : World) (m m' : Act ε α) : Prop :=
  ∀ w : World, w₀.Still w → m.outcome w = m'.outcome w

/-- The acts do the same, but may fail for different reasons. -/
def AgreeButReason (w₀ : World) (m m' : Act ε α) : Prop :=
  ∀ w : World, w₀.Still w →
    (m.outcome w).2 = (m'.outcome w).2 ∧ (m.outcome w).1.toOption = (m'.outcome w).1.toOption

/-- Acts that do the same fail for the same reasons. -/
theorem Agree.butReason {m m' : Act ε α} (h : Agree w₀ m m') : AgreeButReason w₀ m m' :=
  fun w hw => by rw [h w hw]; exact ⟨rfl, rfl⟩

/-- A reason that is not told makes no difference. -/
theorem AgreeButReason.mapError {m m' : Act ε α} (h : AgreeButReason w₀ m m') (f : World → ε') :
    Agree w₀ (mapError (fun w _ => f w) m) (mapError (fun w _ => f w) m') := by
  intro w hw
  obtain ⟨hworld, hresult⟩ := h w hw
  rw [outcome_mapError, outcome_mapError]
  rcases hm : m.outcome w with ⟨e | a, w₁⟩ <;> rcases hm' : m'.outcome w with ⟨e' | a', w₁'⟩ <;>
    rw [hm, hm'] at hworld hresult
  · obtain rfl : w₁ = w₁' := hworld
    rfl
  · cases hresult
  · cases hresult
  · obtain rfl : w₁ = w₁' := hworld
    rw [Option.some.inj hresult]

namespace Agree

/-- An act does the same as itself. -/
theorem refl (m : Act ε α) : Agree w₀ m m := fun _ _ => rfl

/-- One act after another. The first one leaves classes and tables as they are. -/
theorem bind {m m' : Act ε α} {f f' : α → Act ε β} (hm : Agree w₀ m m') (hfilling : Filling 0 m')
    (hf : ∀ a, Agree w₀ (f a) (f' a)) : Agree w₀ (m >>= f) (m' >>= f') := by
  intro w hw
  have hstill := hw.fills (hfilling w (Nat.zero_le _))
  rcases hout : m'.outcome w with ⟨e | a, w₁⟩ <;> rw [hout] at hstill
  · rw [outcome_bind_error hout, outcome_bind_error ((hm w hw).trans hout)]
  · rw [outcome_bind_ok hout, outcome_bind_ok ((hm w hw).trans hout)]
    exact hf a w₁ hstill

/-- What comes after is the same: it does not matter what the first one leaves. -/
theorem before {m m' : Act ε α} (f : α → Act ε β) (hm : Agree w₀ m m') :
    Agree w₀ (m >>= f) (m' >>= f) := fun w hw => by
  rw [outcome_bind, outcome_bind, hm w hw]

/-- What is looked at comes from a world with these classes and tables. -/
theorem look_bind {g : World → β} {g' : World → β'} {f : β → Act ε α} {f' : β' → Act ε α}
    (h : ∀ w : World, w₀.Still w → Agree w₀ (f (g w)) (f' (g' w))) :
    Agree w₀ (look g >>= f) (look g' >>= f') := fun w hw => by
  rw [outcome_bind_ok (outcome_look g w), outcome_bind_ok (outcome_look g' w)]
  exact h w hw w hw

/-- Holding something makes no difference. -/
theorem holding {m m' : Act ε α} (hs : List Handle) (h : Agree w₀ m m') :
    Agree w₀ (holding hs m) (holding hs m') := fun w hw => by
  rw [outcome_holding, outcome_holding, h { w with held := hs ++ w.held } ⟨hw.classes, hw.tables⟩]

/-- Nor does it if errors are put in the same words. -/
theorem mapError {m m' : Act ε α} (f : World → ε → ε') (h : Agree w₀ m m') :
    Agree w₀ (mapError f m) (mapError f m') := fun w hw => by
  rw [outcome_mapError, outcome_mapError, h w hw]

/-! ### Conversions as parts of others -/

section Converters

variable {next next' : Converter} {c : ClassRef}
  (h : ∀ t ∈ (w₀.cls c).valueTypes, ∀ v, AgreeButReason w₀ (next t v) (next' t v))
include h

/-- A member that accepts values accepts those of its type. -/
theorem assignMember (via : BindingRef) (o : ObjectRef) {m : Member}
    (hm : m ∈ (w₀.cls c).members) (v : ScriptValue) :
    Agree w₀ (assignMember next via c (some o) m v) (assignMember next' via c (some o) m v) := by
  -- The only part of an assignment that differs is the conversion to the type of the member.
  have hconverted {t : HostType} (ht : m.valueType? = some t) :
      Agree w₀ (convertFor next c m.name t v) (convertFor next' c m.name t v) :=
    (h t (List.mem_filterMap.mpr ⟨m, hm, ht⟩) v).mapError _
  cases m with
  | method x => exact refl _
  | property p =>
    simp only [Act.assignMember]
    split
    · exact refl _
    · split
      · exact refl _
      · exact (hconverted rfl).before _
  | field f =>
    simp only [Act.assignMember]
    split
    · exact refl _
    · exact (refl _).bind (.pure o) fun o => (hconverted rfl).before _

/-- Assigning to whatever a key finds. Both find the same, since the classes are the same. -/
theorem assignKey (via : BindingRef) (o : ObjectRef) (k : MemberKey) (v : ScriptValue) :
    Agree w₀ (assignKey next via c (some o) k v) (assignKey next' via c (some o) k v) := by
  refine look_bind fun w hw => ?_
  split
  · next m hms =>
    have hmember := Binding.mem_members_of_resolve (hms ▸ List.mem_singleton_self m)
    exact assignMember h via o (hw.cls c ▸ hmember) v
  · exact refl _

variable (hfilling : ∀ t v, Filling 0 (next' t v))
include hfilling

/-- Assigning the entries of a table one after another. -/
theorem assignEntries (via : BindingRef) (o : ObjectRef) (es : List (String × ScriptValue)) :
    Agree w₀ (assignEntries next via c o es) (assignEntries next' via c o es) := by
  induction es with
  | nil => exact refl _
  | cons e es ih =>
    have hassign : Filling 0 (Act.assignKey next' via c (some o) (.name e.1) e.2) :=
      .assignKey hfilling via c (Nat.zero_le _) (.name e.1) e.2
    exact ((assignKey h via o (.name e.1) e.2).mapError _).bind (.mapError _ hassign) fun _ => ih

/-- Building an object from a table. -/
theorem buildObject (via : BindingRef) (r : TableRef) :
    Agree w₀ (buildObject next via c r) (buildObject next' via c r) := by
  refine (refl _).bind (.construct c) fun o => look_bind fun w _ => ?_
  split
  · exact refl _
  · exact ((assignEntries h hfilling via o _).holding _).before _

end Converters

/-- Converting the items of a list. The failure of an item is told without its reason. -/
theorem convertItems {next next' : ScriptValue → Act ConversionError HostValue}
    (hfilling : ∀ v, Filling 0 (next' v)) (h : ∀ v, AgreeButReason w₀ (next v) (next' v))
    (target e : HostType) (vs : List ScriptValue) (i : Nat) :
    Agree w₀ (convertItems next target e vs i) (convertItems next' target e vs i) := by
  induction vs generalizing i with
  | nil => exact refl _
  | cons v vs ih =>
    exact ((h v).mapError _).bind (.mapError _ (hfilling v)) fun x => (ih (i + 1)).before _

end Agree

end Act

end ScriptHost
