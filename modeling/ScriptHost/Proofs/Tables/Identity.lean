import ScriptHost.Value.Table
import ScriptHost.Proofs.Number.ExactValue

/-!
# What a key is

Which keys mean the same place of a table, said without slots: a boolean, a string and a shared thing
mean themselves, and a number means its exact value, whether it is an integer or a float. A slot is a
normal form of this (`SlotKey.ofValue_eq_iff`): a float that is an integer of sixty-four bits is put
under that integer, and then two different slots of numbers have different values. The normal form
could fail in two ways. Two floats of one value would be two slots, were it not that only the zeros
share a value, and those are the integer zero. A float and an integer of one value would be two
slots, were the conversion to miss some float that is an integer (`Binary64.toInt64?_eq_some_iff`).
-/

set_option autoImplicit false

namespace ScriptHost

/-- What a key means, apart from how it is written. -/
inductive KeyIdentity where
  | boolean (b : Bool)
  /-- The exact value in multiples of `2 ^ (-1074)`, infinities one step outside the finite range. -/
  | number (value : Int)
  | string (s : String)
  | shared (h : Handle)
  deriving DecidableEq

/-- What a script value means as a key; nil and what is not a number are no keys. -/
def ScriptValue.identity? : ScriptValue → Option KeyIdentity
  | .nil => none
  | .boolean b => some (.boolean b)
  | .integer i => some (.number (i.toInt * (Binary64.unit : Int)))
  | .number x => if x.isNaN then none else some (.number x.scaled)
  | .string s => some (.string s)
  | .function f => some (.shared f.handle)
  | .table t => some (.shared t.handle)
  | .userdata u => some (.shared u.handle)

namespace SlotKey

variable {a b : ScriptValue} {s : SlotKey} {k : KeyIdentity}

/-- What the keys of a slot mean. -/
def identity : SlotKey → KeyIdentity
  | .boolean b => .boolean b
  | .integer i => .number (i.toInt * (Binary64.unit : Int))
  | .float x => .number x.scaled
  | .string s => .string s
  | .shared h => .shared h

/-- A slot that keys can have: an integral float in the range of integers has the integer's. -/
def Normal : SlotKey → Prop
  | .float x => x.toInt64? = none
  | _ => True

/-- A number has the slot of the integer that it is, or its own. -/
theorem ofValue_number {x : Binary64} (h : x.isNaN = false) :
    ofValue (.number x) = .ok ((x.toInt64?.map SlotKey.integer).getD (.float x)) := by
  rw [ofValue, if_neg (Bool.eq_false_iff.mp h)]
  cases x.toInt64? <;> rfl

/-- The slot of a key is normal and means what the key means. -/
theorem normal_ofValue (h : ofValue a = .ok s) : s.Normal ∧ a.identity? = some s.identity := by
  cases a with
  | nil => cases h
  | number x =>
    -- What is not a number is refused; a float that is an integer has its value.
    cases hnan : x.isNaN with
    | true =>
      rw [ofValue, if_pos hnan] at h
      cases h
    | false =>
      rw [ofValue_number hnan] at h
      obtain rfl := Except.ok.inj h
      rw [ScriptValue.identity?, hnan, if_neg Bool.false_ne_true]
      cases hi : x.toInt64? with
      | none => exact ⟨hi, rfl⟩
      | some i =>
        have hvalue := Binary64.toInt64?_eq_some_iff.mp hi
        refine ⟨trivial, ?_⟩
        rw [hvalue]
        rfl
  | _ =>
    obtain rfl := Except.ok.inj h
    exact ⟨trivial, rfl⟩

/-- What is no key means nothing. -/
theorem ofValue_eq_error_iff : (∃ fault, ofValue a = .error fault) ↔ a.identity? = none := by
  constructor
  · rintro ⟨fault, h⟩
    cases a with
    | nil => rfl
    | number x =>
      cases hnan : x.isNaN with
      | true => rw [ScriptValue.identity?, if_pos hnan]
      | false =>
        rw [ofValue_number hnan] at h
        cases h
    | _ => cases h
  · intro h
    cases hs : ofValue a with
    | error fault => exact ⟨fault, rfl⟩
    | ok s =>
      rw [(normal_ofValue hs).2] at h
      cases h

/-- What means something has a slot that means it. -/
theorem exists_ofValue (h : a.identity? = some k) : ∃ s, ofValue a = .ok s ∧ s.identity = k := by
  cases hs : ofValue a with
  | error fault =>
    rw [ofValue_eq_error_iff.mp ⟨fault, hs⟩] at h
    cases h
  | ok s => exact ⟨s, rfl, Option.some.inj ((normal_ofValue hs).2.symm.trans h)⟩

/-- Zero is an integer. -/
theorem toInt64?_of_scaled_eq_zero {x : Binary64} (h : x.scaled = 0) : x.toInt64? = some 0 := by
  refine Binary64.toInt64?_eq_some_iff.mpr ?_
  rw [h]
  rfl

/-- Integers of one value are one. -/
theorem toInt_injective {i j : Int64} (h : i.toInt * (Binary64.unit : Int) = j.toInt * Binary64.unit) :
    i = j := by
  have hunit : (Binary64.unit : Int) ≠ 0 := by exact_mod_cast Binary64.unit_pos.ne'
  exact Int64.toInt_inj.mp (Int.eq_of_mul_eq_mul_right hunit h)

/-- **Normal slots that mean the same are the same.** -/
theorem identity_injective {s t : SlotKey} (hs : s.Normal) (ht : t.Normal)
    (h : s.identity = t.identity) : s = t := by
  cases s with
  | boolean b =>
    cases t <;> cases h
    rfl
  | string b =>
    cases t <;> cases h
    rfl
  | shared b =>
    cases t <;> cases h
    rfl
  | integer i =>
    cases t with
    | integer j => rw [toInt_injective (KeyIdentity.number.inj h)]
    | float y =>
      -- The float is this integer, so it does not stand for itself.
      have hy : y.toInt64? = some i :=
        Binary64.toInt64?_eq_some_iff.mpr (KeyIdentity.number.inj h).symm
      exact absurd (ht.symm.trans hy) nofun
    | _ => cases h
  | float x =>
    cases t with
    | integer j =>
      have hx : x.toInt64? = some j :=
        Binary64.toInt64?_eq_some_iff.mpr (KeyIdentity.number.inj h)
      exact absurd (hs.symm.trans hx) nofun
    -- Two floats of one value are one, unless that is zero, which is an integer.
    | float y =>
      have hne : x.scaled ≠ 0 := by
        intro hzero
        exact absurd (hs.symm.trans (toInt64?_of_scaled_eq_zero hzero)) nofun
      rw [Binary64.eq_of_scaled_eq (KeyIdentity.number.inj h) hne]
    | _ => cases h

/-- **Two keys have one slot exactly if they mean the same.** -/
theorem ofValue_eq_iff {t : SlotKey} (hs : ofValue a = .ok s) (ht : ofValue b = .ok t) :
    s = t ↔ a.identity? = b.identity? := by
  obtain ⟨hns, ha⟩ := normal_ofValue hs
  obtain ⟨hnt, hb⟩ := normal_ofValue ht
  rw [ha, hb, Option.some.injEq]
  exact ⟨congrArg identity, identity_injective hns hnt⟩

end SlotKey

end ScriptHost
