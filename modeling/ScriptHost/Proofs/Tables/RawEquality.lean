import ScriptHost.Proofs.Tables.Identity

/-!
# Raw equality and slots

Two keys have one slot if what is written under the one is read under the other (`Addresses`), and
that is so exactly if they mean the same. Raw equality is almost that. It compares an integer with a
float by rounding the integer to a float first, and beyond `2 ^ 53` a float can be the nearest one of
an integer that it is not (`Rounded`): then the two are raw equal and have different slots. Nothing
else sets the two apart (`rawEquals_iff_identity`).
-/

set_option autoImplicit false

namespace ScriptHost

namespace Table

variable {s s' : SlotKey} {key value : ScriptValue}

/-- What was put under a slot is read there. -/
theorem slotValue_put_self (t : Table) (s : SlotKey) (key value : ScriptValue) :
    (t.put s key value).slotValue s = value := by
  have hfound : (t.put s key value).find? s = some ⟨s, key, value⟩ :=
    List.find?_cons_of_pos (beq_self_eq_true s)
  rw [slotValue, hfound]
  rfl

/-- A slot that was erased reads as nil. -/
theorem slotValue_erase_self (t : Table) (s : SlotKey) : (t.erase s).slotValue s = .nil := by
  have hnone : (t.erase s).find? s = none := by
    refine List.find?_eq_none.mpr fun e he heq => ?_
    have hne := (List.mem_filter.mp he).2
    rw [beq_iff_eq.mp heq] at hne
    exact absurd rfl (bne_iff_ne.mp hne)
  rw [slotValue, hnone]
  rfl

end Table

namespace ScriptValue

variable {a b c : ScriptValue}

/-- Neither nil nor what is not a number. -/
def IsKey (a : ScriptValue) : Prop := a.identity? ≠ none

instance (a : ScriptValue) : Decidable a.IsKey := inferInstanceAs (Decidable (_ ≠ _))

/-- **One slot**: whatever is written under `a`, in whatever table, is then read under `b`. -/
def Addresses (a b : ScriptValue) : Prop :=
  ∀ (t : Table) (v : ScriptValue), ∃ t', t.set a v = .ok t' ∧ t'.get b = v

/-- An integer and a float that is the nearest one of the integer but is not the integer. -/
def Rounded (i : Int64) (x : Binary64) : Prop :=
  (Binary64.ofInt i.toInt).scaled = x.scaled ∧ x.scaled ≠ i.toInt * (Binary64.unit : Int)

/-- One is an integer and the other is its float by rounding only. -/
inductive RoundedTogether : ScriptValue → ScriptValue → Prop
  | left {i : Int64} {x : Binary64} (h : Rounded i x) : RoundedTogether (.integer i) (.number x)
  | right {i : Int64} {x : Binary64} (h : Rounded i x) : RoundedTogether (.number x) (.integer i)

/-- Two keys address the same if they mean the same. -/
theorem addresses_iff (ha : a.IsKey) (hb : b.IsKey) :
    a.Addresses b ↔ a.identity? = b.identity? := by
  obtain ⟨k, hk⟩ := Option.ne_none_iff_exists'.mp ha
  obtain ⟨l, hl⟩ := Option.ne_none_iff_exists'.mp hb
  obtain ⟨s, hs, -⟩ := SlotKey.exists_ofValue hk
  obtain ⟨s', hs', -⟩ := SlotKey.exists_ofValue hl
  have hset (t : Table) (v : ScriptValue) :
      t.set a v = .ok (if v.isNil then t.erase s else t.put s a v) := by
    rw [Table.set, hs]
    rfl
  have hget (t : Table) : t.get b = t.slotValue s' := by rw [Table.get, hs']
  rw [← SlotKey.ofValue_eq_iff hs hs']
  constructor
  · intro h
    -- A value in an otherwise empty table is found under its own slot only.
    obtain ⟨t', ht', hread⟩ := h .empty (.boolean true)
    rw [hset] at ht'
    obtain rfl := Except.ok.inj ht'
    rw [hget] at hread
    by_contra hne
    have hnone : (Table.empty.put s a (.boolean true)).find? s' = none := by
      refine List.find?_eq_none.mpr fun e he heq => ?_
      obtain rfl := List.mem_singleton.mp he
      exact hne (beq_iff_eq.mp heq)
    rw [if_neg (by decide), Table.slotValue, hnone] at hread
    cases hread
  -- What was written under a slot is read under it, and nil erases it.
  · rintro rfl t v
    refine ⟨_, hset t v, ?_⟩
    rw [hget]
    cases hv : v.isNil with
    | true =>
      obtain rfl : v = .nil := by cases v <;> first | rfl | cases hv
      exact t.slotValue_erase_self s
    | false => exact t.slotValue_put_self s a v

/-- Raw equality of an integer and a float. -/
theorem rawEquals_integer_number {i : Int64} {x : Binary64} (hx : x.isNaN = false) :
    (Binary64.ofInt i.toInt).equals x = true ↔
      i.toInt * (Binary64.unit : Int) = x.scaled ∨ Rounded i x := by
  have hlog : i.toInt.natAbs.log2 < 1023 := by
    have hmin := i.le_toInt
    have hmax := i.toInt_lt
    exact log2_natAbs_lt (by omega)
  have hnan := Binary64.isNaN_of_isFinite (Binary64.isFinite_ofInt hlog)
  rw [Binary64.equals, hnan, hx, Bool.not_false, Bool.true_and, Bool.true_and, beq_iff_eq]
  constructor
  · intro h
    by_cases heq : x.scaled = i.toInt * (Binary64.unit : Int)
    · exact .inl heq.symm
    · exact .inr ⟨h, heq⟩
  · rintro (h | h)
    · exact Binary64.scaled_ofInt_of_scaled_eq hlog h.symm
    · exact h.1

/-- Floats are compared in either order. -/
theorem equals_comm (x y : Binary64) : x.equals y = y.equals x := by
  rw [Binary64.equals, Binary64.equals, Bool.and_comm (!x.isNaN), Bool.beq_comm]

/-- **Raw equality is symmetric.** -/
theorem rawEquals_comm (a b : ScriptValue) : a.rawEquals b = b.rawEquals a := by
  cases a <;> cases b <;> first | rfl | exact Bool.beq_comm | exact equals_comm _ _

/-- A value is raw equal to itself unless it is no number. -/
theorem rawEquals_self (ha : ∀ x, a = .number x → x.isNaN = false) : a.rawEquals a = true := by
  cases a with
  | number x => simp [rawEquals, Binary64.equals, ha x rfl]
  | _ => simp [rawEquals]

/-- References are equal if their numbers are. -/
theorem ref_eq_iff {k : Kind} {p q : Ref k} : p = q ↔ p.index = q.index := by
  cases p
  cases q
  exact Ref.mk.injEq _ _ ▸ Iff.rfl

/-- A float that is a key means its value. -/
theorem identity?_number {x : Binary64} (hx : (number x).IsKey) :
    x.isNaN = false ∧ (number x).identity? = some (.number x.scaled) := by
  cases hnan : x.isNaN with
  | true => exact absurd (if_pos hnan) hx
  | false => exact ⟨rfl, if_neg (Bool.eq_false_iff.mp hnan)⟩

/-- A key means a number if it is one. -/
theorem kind_eq_number_iff (ha : a.IsKey) :
    a.kind = .number ↔ ∃ n, a.identity? = some (.number n) := by
  cases a with
  | nil => exact absurd rfl ha
  | integer i => exact ⟨fun _ => ⟨_, rfl⟩, fun _ => rfl⟩
  | number x => exact ⟨fun _ => ⟨_, (identity?_number ha).2⟩, fun _ => rfl⟩
  | _ => exact ⟨nofun, nofun⟩

/-- Only values of one kind are raw equal. -/
theorem kind_of_rawEquals (h : a.rawEquals b = true) : a.kind = b.kind := by
  cases a <;> cases b <;> first | rfl | cases h

/-- Apart from numbers, raw equality is equality of what is meant. -/
theorem rawEquals_iff_of_kind (ha : a.IsKey) (hb : b.IsKey) (hkind : a.kind ≠ .number) :
    a.rawEquals b = true ↔ a.identity? = b.identity? := by
  by_cases hbkind : b.kind = .number
  · constructor
    · intro h
      exact absurd ((kind_of_rawEquals h).trans hbkind) hkind
    · intro h
      obtain ⟨n, hn⟩ := (kind_eq_number_iff hb).mp hbkind
      exact absurd ((kind_eq_number_iff ha).mpr ⟨n, h.trans hn⟩) hkind
  -- Values of other kinds are compared as they are.
  · cases a <;> cases b <;>
      first
      | exact absurd rfl ha
      | exact absurd rfl hb
      | exact absurd rfl hkind
      | exact absurd rfl hbkind
      | simp [rawEquals, identity?, Ref.handle, ref_eq_iff]

/-- Of numbers, raw equality is equality of what is meant, but for rounding. -/
theorem rawEquals_iff_of_numbers (ha : a.IsKey) (hb : b.IsKey) (hakind : a.kind = .number)
    (hbkind : b.kind = .number) :
    a.rawEquals b = true ↔ a.identity? = b.identity? ∨ RoundedTogether a b := by
  cases a with
  | integer i =>
    cases b with
    | integer j =>
      rw [rawEquals, beq_iff_eq, identity?, identity?, Option.some.injEq, KeyIdentity.number.injEq]
      constructor
      · intro h
        exact .inl (by rw [h])
      · rintro (h | h)
        · exact SlotKey.toInt_injective h
        · cases h
    -- An integer is rounded before it is compared with a float.
    | number y =>
      obtain ⟨hnan, hy⟩ := identity?_number hb
      rw [rawEquals, rawEquals_integer_number hnan, hy, identity?, Option.some.injEq,
        KeyIdentity.number.injEq]
      refine or_congr Iff.rfl ⟨.left, fun h => ?_⟩
      cases h with
      | left h => exact h
    | _ => cases hbkind
  | number x =>
    obtain ⟨hnan, hx⟩ := identity?_number ha
    cases b with
    | integer j =>
      rw [rawEquals, rawEquals_integer_number hnan, hx, identity?, Option.some.injEq,
        KeyIdentity.number.injEq]
      refine or_congr eq_comm ⟨.right, fun h => ?_⟩
      cases h with
      | right h => exact h
    -- Floats are compared by their values, and nothing is rounded.
    | number y =>
      obtain ⟨hnan', hy⟩ := identity?_number hb
      rw [rawEquals, Binary64.equals, hnan, hnan', hx, hy, Option.some.injEq,
        KeyIdentity.number.injEq]
      simp only [Bool.not_false, Bool.true_and, beq_iff_eq]
      constructor
      · exact .inl
      · rintro (h | h)
        · exact h
        · cases h
    | _ => cases hbkind
  | _ => cases hakind

/-- Only numbers are rounded together. -/
theorem RoundedTogether.kind_eq (h : RoundedTogether a b) :
    a.kind = .number ∧ b.kind = .number := by
  cases h <;> exact ⟨rfl, rfl⟩

/-- **Raw equality** is equality of what keys mean, but for rounding. -/
theorem rawEquals_iff_identity (ha : a.IsKey) (hb : b.IsKey) :
    a.rawEquals b = true ↔ a.identity? = b.identity? ∨ RoundedTogether a b := by
  by_cases hakind : a.kind = .number
  · by_cases hbkind : b.kind = .number
    · exact rawEquals_iff_of_numbers ha hb hakind hbkind
    · rw [rawEquals_comm, rawEquals_iff_of_kind hb ha hbkind]
      exact ⟨fun h => .inl h.symm, fun h => h.elim Eq.symm fun h => absurd h.kind_eq.2 hbkind⟩
  · rw [rawEquals_iff_of_kind ha hb hakind]
    exact ⟨.inl, fun h => h.resolve_right fun h => hakind h.kind_eq.1⟩

/-- What was rounded together means two things. -/
theorem RoundedTogether.identity_ne (h : RoundedTogether a b) (ha : a.IsKey) (hb : b.IsKey) :
    a.identity? ≠ b.identity? := by
  intro heq
  -- Both times the float is not the integer.
  cases h with
  | left h =>
    rw [(identity?_number hb).2] at heq
    exact h.2 (KeyIdentity.number.inj (Option.some.inj heq)).symm
  | right h =>
    rw [(identity?_number ha).2] at heq
    exact h.2 (KeyIdentity.number.inj (Option.some.inj heq))

/-- **Raw equality agrees with slots, but for rounding.** It is symmetric, and it holds of all pairs
of one slot. Of other pairs it holds exactly if one is an integer and the other is the nearest float
of the integer without being the integer. So it is transitive wherever no step rounds. -/
theorem rawEquals_iff_addresses (ha : a.IsKey) (hb : b.IsKey) (hc : c.IsKey) :
    (a.rawEquals b = b.rawEquals a) ∧
      (a.Addresses b → a.rawEquals b = true) ∧
      ((a.rawEquals b = true ∧ ¬ a.Addresses b) ↔ RoundedTogether a b) ∧
      (a.rawEquals b = true → b.rawEquals c = true → ¬ RoundedTogether a b →
        ¬ RoundedTogether b c → a.rawEquals c = true) := by
  rw [rawEquals_iff_identity ha hb, rawEquals_iff_identity hb hc, rawEquals_iff_identity ha hc,
    addresses_iff ha hb]
  refine ⟨rawEquals_comm a b, .inl, ?_, ?_⟩
  · constructor
    · rintro ⟨h, hne⟩
      exact h.resolve_left hne
    · intro h
      exact ⟨.inr h, h.identity_ne ha hb⟩
  · intro hab hbc hnab hnbc
    exact .inl ((hab.resolve_right hnab).trans (hbc.resolve_right hnbc))

/-- Two integers next to each other and the float between which and the larger one rounding does not
tell apart. -/
theorem rawEquals_iff_addresses_rounded :
    ((ScriptValue.integer 9007199254740993).IsKey ∧
        (ScriptValue.number ⟨0x4340000000000000⟩).IsKey ∧
        (ScriptValue.integer 9007199254740992).IsKey) ∧
      ((ScriptValue.integer 9007199254740993).rawEquals (.number ⟨0x4340000000000000⟩) = true ∧
          ¬ (ScriptValue.integer 9007199254740993).Addresses (.number ⟨0x4340000000000000⟩)) := by
  have ha : (ScriptValue.integer 9007199254740993).IsKey := by decide +kernel
  have hb : (ScriptValue.number ⟨0x4340000000000000⟩).IsKey := by decide +kernel
  have hc : (ScriptValue.integer 9007199254740992).IsKey := by decide +kernel
  -- The float is the nearest one of the larger integer.
  have hrounded : Rounded 9007199254740993 ⟨0x4340000000000000⟩ :=
    ⟨by decide +kernel, by decide +kernel⟩
  exact ⟨⟨ha, hb, hc⟩, (rawEquals_iff_addresses ha hb hc).2.2.1.mpr (.left hrounded)⟩

/-- **Raw equality does not agree with slots and is not transitive.** The float `2 ^ 53` is raw equal
to the integers `2 ^ 53` and `2 ^ 53 + 1`, which are not raw equal to each other; what is written
under the larger one is not read under the float. -/
theorem rawEquals_not_transitive :
    ∃ a b c : ScriptValue, (a.IsKey ∧ b.IsKey ∧ c.IsKey) ∧
      a.rawEquals b = true ∧ b.rawEquals c = true ∧ a.rawEquals c = false ∧
      (Table.empty.set a (.boolean true)).map (fun t => t.get b) = .ok .nil := by
  refine ⟨.integer 9007199254740993, .number ⟨0x4340000000000000⟩, .integer 9007199254740992, ?_⟩
  decide +kernel

end ScriptValue

end ScriptHost
