import ScriptHost.Proofs.Act.Effects

/-!
# Faithful worlds

Conversions rely on what the stores hold. A handle to an object has to name the class that the object
is an instance of, because a conversion to a class decides by the handle; a handle to userdata has to
be of userdata that is there, or something else could take its place; and a table must not store nil,
because an element that is nil would be read as the end of an array. A world in which this is so is
faithful.

Main statements: `World.faithful_session`, all worlds of sessions are faithful, and
`Composed.faithful`, whatever acts leave behind is faithful too.
-/

set_option autoImplicit false

namespace ScriptHost

namespace World

/-- No table stores nil. -/
def NoNil (w : World) : Prop := ∀ t x, w.tables.get? t = some x → x.NoNil

/-- Every table that is looked up is one without nil. -/
theorem NoNil.table {w : World} (h : w.NoNil) (t : TableRef) : (w.table t).NoNil := by
  unfold World.table
  cases ht : w.tables.get? t with
  | none => exact Table.noNil_empty
  | some x => exact h t x ht

/-- **A faithful world**: what is stored names objects under their own classes and userdata that is
there, and no table stores nil. -/
structure Faithful (w : World) : Prop where
  known : w.Known (w.known true)
  noNil : w.NoNil

/-- What is held makes no difference. -/
theorem Faithful.holding {w : World} (h : w.Faithful) (hs : List Handle) :
    ({ w with held := hs } : World).Faithful :=
  ⟨{ h.known with }, h.noNil⟩

end World

/-- **Effects store nil in no table.** -/
theorem Effects.noNil {l : License} {b : Bool} {w w' : World} (h : Effects l b w w') (hw : w.NoNil) :
    w'.NoNil := by
  induction h with
  | trans _ _ ih ih' => exact ih' (ih hw)
  | hold _ _ ih | lent _ _ _ _ ih | called _ _ _ ih | resumed _ _ _ ih => exact ih hw
  -- Of all changes there are two that bring tables: a new one and an assignment.
  | table w t ht =>
    intro r x hx
    rcases Store.get?_push_cases hx with ⟨-, rfl⟩ | hx
    · exact ht
    · exact hw r x hx
  | setTable w r key value t hset =>
    intro q x hx
    rcases Store.get?_set_cases hx with rfl | hx
    · exact (hw.table r).set hset
    · exact hw q x hx
  | _ => exact hw

namespace Act

variable {l : License} {b : Bool} {K : Set Mention} {ε α : Type} [Names ε] {w : World}

/-- **Acts leave faithful worlds behind**, and what they give was promised of what is known by then. -/
theorem Composed.faithful {m : Act ε α} {Q : Set Mention → α → Prop} (h : Composed l b K m Q)
    (hwithin : w.Within l) (hw : w.Faithful) (hK : K ⊆ w.known true) :
    (m.outcome w).2.Faithful ∧ ∀ a, (m.outcome w).1 = .ok a →
      ∃ K', K' ⊆ (m.outcome w).2.known true ∧ Q K' a := by
  have hran := h.run true hwithin hw.known hK
  refine ⟨⟨hran.known, hran.effects.noNil hw.noNil⟩, fun a ha => ?_⟩
  obtain ⟨K', -, hK', hQ⟩ := hran.promised
  rw [ha] at hQ
  exact ⟨K', hK', hQ⟩

end Act

namespace World

/-- A session begins with an empty table of globals and nothing else. -/
theorem faithful_start (c : Config) (layout : Ref .object → Nat) : (start c layout).Faithful where
  -- There are no functions, classes and other things yet.
  known :=
    { tables := fun t x hx => by
        rcases Store.get?_push_cases hx with ⟨-, rfl⟩ | hx
        · exact Table.known_empty
        · simp [Store.empty, Store.get?] at hx
      functions := fun _ _ h => by simp [start, Store.empty, Store.get?] at h
      userdata := fun _ _ h => by simp [start, Store.empty, Store.get?] at h
      objects := fun _ _ h => by simp [start, Store.empty, Store.get?] at h
      classes := fun _ _ h => by simp [start, Store.empty, Store.get?] at h
      vars := fun p hp => nomatch hp }
  noNil t x hx := by
    rcases Store.get?_push_cases hx with ⟨-, rfl⟩ | hx
    · exact Table.noNil_empty
    · simp [Store.empty, Store.get?] at hx

/-- Operations keep a world faithful. -/
theorem Faithful.step {w : World} (hw : w.Faithful) (op : Op) : (w.step op).2.Faithful := by
  have hcomposed := Op.top_composed w.maxDepth ∅ (Op.within_all true op)
  have hw' : ({ w with log := [] } : World).Faithful := ⟨{ hw.known with }, hw.noNil⟩
  rw [step_snd]
  exact (hcomposed.faithful (within_all _) hw' (Set.empty_subset _)).1

/-- **All worlds of sessions are faithful.** -/
theorem faithful_session (c : Config) (layout : Ref .object → Nat) (ops : Program) :
    ((start c layout).after ops).Faithful :=
  (after_induction (I := Faithful) (fun _ op _ _ hw => hw.step op) (Op.allWithin_all true ops)
    (within_all _) (faithful_start c layout)).2

end World

end ScriptHost
