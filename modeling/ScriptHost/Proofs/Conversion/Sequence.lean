import Mathlib.Algebra.Group.Nat.Defs
import Mathlib.Data.List.TakeWhile
import ScriptHost.Value.Table

/-!
# Sequences in tables

What a sequence of values looks like as a table, and what is read back as the sequence part of a
table. nil is stored nowhere (`Table.NoNil`): the table made of a sequence has a gap wherever the
sequence has nil, and the sequence part ends at the first gap. `Table.sequence_ofSequence` says so
in one equation.

Positions are sixty-four bit integers, so a sequence part is never longer than these count
(`Table.length_sequence_lt`), and a longer sequence could not be stored.
-/

set_option autoImplicit false

namespace ScriptHost

namespace Table

/-- No entry stores nil. -/
def NoNil (t : Table) : Prop := ∀ e ∈ t.entries, e.value.isNil = false

/-- The empty table holds no nil. -/
theorem noNil_empty : empty.NoNil := fun _ he => nomatch he

/-- A table that was made from a list holds no nil: those of the list are left out. -/
theorem noNil_ofSequence (vs : List ScriptValue) : (ofSequence vs).NoNil := by
  intro e he
  obtain ⟨p, -, hp⟩ := List.mem_filterMap.mp he
  unfold sequenceItem? at hp
  split at hp
  · cases hp
  · next hnil =>
    obtain rfl := Option.some.inj hp
    exact Bool.eq_false_iff.mpr hnil

/-- What is written stands in some slot, unless it is nil: then the slot has no entry any more. -/
theorem set_eq_ok {t t' : Table} {key value : ScriptValue} (h : t.set key value = .ok t') :
    ∃ s, t' = if value.isNil then t.erase s else t.put s key value := by
  unfold set at h
  cases hs : SlotKey.ofValue key with
  | error fault =>
    rw [hs] at h
    cases h
  | ok s =>
    rw [hs] at h
    exact ⟨s, (Except.ok.inj h).symm⟩

/-- Writing nil removes an entry, so it is not stored. -/
theorem NoNil.set {t t' : Table} {key value : ScriptValue} (ht : t.NoNil)
    (h : t.set key value = .ok t') : t'.NoNil := by
  have herase (s : SlotKey) : ∀ e ∈ (t.erase s).entries, e.value.isNil = false := fun e he =>
    ht e (List.mem_filter.mp he).1
  obtain ⟨s, rfl⟩ := set_eq_ok h
  split
  · exact herase s
  · next hnil =>
    intro e he
    rcases List.mem_cons.mp he with rfl | he
    · exact Bool.eq_false_iff.mpr hnil
    · exact herase s e he

/-- All keys and values of the table have a property. -/
def All (P : ScriptValue → Prop) (t : Table) : Prop := ∀ e ∈ t.entries, P e.key ∧ P e.value

section All

variable {P : ScriptValue → Prop} {t t' : Table}

/-- What is read has the property, as long as nil has it. -/
theorem All.get (h : t.All P) (hnil : P .nil) (key : ScriptValue) : P (t.get key) := by
  unfold Table.get
  split
  · next s _ =>
    unfold slotValue
    cases he : t.find? s with
    | none => exact hnil
    | some e => exact (h e (List.mem_of_find?_eq_some he)).2
  · exact hnil

/-- What holds of the entries, the key and the value holds of the entries after the assignment. -/
theorem All.set {key value : ScriptValue} (h : t.All P) (hkey : P key) (hvalue : P value)
    (hset : t.set key value = .ok t') : t'.All P := by
  have herase (s : SlotKey) : (t.erase s).All P := fun e he => h e (List.mem_filter.mp he).1
  obtain ⟨s, rfl⟩ := set_eq_ok hset
  split
  · exact herase s
  · -- The new entry stands before those that were not overwritten.
    exact List.forall_mem_cons.mpr ⟨⟨hkey, hvalue⟩, herase s⟩

/-- The keys of a sequence are integers. -/
theorem All.ofSequence {vs : List ScriptValue} (hvs : ∀ v ∈ vs, P v) (hkey : ∀ i, P (.integer i)) :
    (ofSequence vs).All P := by
  intro e he
  obtain ⟨p, hp, hentry⟩ := List.mem_filterMap.mp he
  unfold sequenceItem? at hentry
  split at hentry
  · cases hentry
  · obtain rfl := Option.some.inj hentry
    exact ⟨hkey _, hvs p.1 (List.fst_mem_of_mem_zipIdx hp)⟩

end All

/-- Positions that integers count have slots of their own. -/
theorem position_injective {m n : Nat} (hm : m < 0x8000000000000000) (hn : n < 0x8000000000000000)
    (h : position m = position n) : m = n := by
  have hi := congrArg Int64.toInt (SlotKey.integer.inj h)
  rw [Int64.toInt_ofNat_of_lt hm, Int64.toInt_ofNat_of_lt hn] at hi
  exact Int.ofNat.inj hi

/-! ### Reading a sequence part -/

/-- Numbers from `n` on, up to the first one that is missing, end below every bound of them all. -/
theorem length_consecutive_le {ps : List (Nat × ScriptValue)} {n bound : Nat}
    (hps : ∀ p ∈ ps, p.1 < bound) (hn : n ≤ bound) : n + (consecutive n ps).length ≤ bound := by
  induction ps generalizing n with
  | nil => exact hn
  | cons p ps ih =>
    have hp : p.1 < bound := hps p List.mem_cons_self
    unfold consecutive
    split
    · next heq =>
      have hrest := ih (n := n + 1) (fun q hq => hps q (List.mem_cons_of_mem p hq)) (by omega)
      rw [List.length_cons]
      omega
    · exact hn

/-- What is in a row of places was at one of them. -/
theorem mem_consecutive {ps : List (Nat × ScriptValue)} {n : Nat} {v : ScriptValue}
    (hv : v ∈ consecutive n ps) : ∃ p ∈ ps, p.2 = v := by
  induction ps generalizing n with
  | nil => cases hv
  | cons p ps ih =>
    unfold consecutive at hv
    split at hv
    · rcases List.mem_cons.mp hv with rfl | hv
      · exact ⟨p, List.mem_cons_self, rfl⟩
      · obtain ⟨q, hq, hqv⟩ := ih hv
        exact ⟨q, List.mem_cons_of_mem p hq, hqv⟩
    · cases hv

/-- A place is that of some entry. -/
theorem mem_positions {t : Table} {p : Nat × ScriptValue} (hp : p ∈ t.positions) :
    ∃ e ∈ t.entries, e.position? = some p :=
  List.mem_filterMap.mp (List.mem_mergeSort.mp hp)

/-- Where an entry stands, an integer counts. -/
theorem position_lt {e : Entry} {p : Nat × ScriptValue} (h : e.position? = some p) :
    p.1 < 2 ^ 63 ∧ p.2 = e.value := by
  unfold Entry.position? at h
  split at h
  · next i _ =>
    split at h
    · obtain rfl := Option.some.inj h
      have hmax := i.toInt_lt
      exact ⟨by simp only; omega, rfl⟩
    · cases h
  · cases h

/-- **A sequence part is no longer than integers count.** -/
theorem length_sequence_lt (t : Table) : t.sequence.length < 2 ^ 63 := by
  have hpositions : ∀ p ∈ t.positions, p.1 < 2 ^ 63 := by
    intro p hp
    obtain ⟨e, -, he⟩ := mem_positions hp
    exact (position_lt he).1
  have hlength := length_consecutive_le hpositions (n := 1) (by decide)
  unfold sequence
  omega

/-- The values of a sequence part are values of entries. -/
theorem mem_sequence {t : Table} {v : ScriptValue} (hv : v ∈ t.sequence) :
    ∃ e ∈ t.entries, e.value = v := by
  obtain ⟨p, hp, rfl⟩ := mem_consecutive hv
  obtain ⟨e, he, hep⟩ := mem_positions hp
  exact ⟨e, he, (position_lt hep).2.symm⟩

/-- What holds of all entries holds of the sequence part. -/
theorem All.sequence {P : ScriptValue → Prop} {t : Table} (h : t.All P) {v : ScriptValue}
    (hv : v ∈ t.sequence) : P v := by
  obtain ⟨e, he, rfl⟩ := mem_sequence hv
  exact (h e he).2

/-- A sequence part has no nil in it. -/
theorem NoNil.of_mem_sequence {t : Table} (ht : t.NoNil) {v : ScriptValue} (hv : v ∈ t.sequence) :
    v.isNil = false := by
  obtain ⟨e, he, rfl⟩ := mem_sequence hv
  exact ht e he

/-- The values of a sequence part are held by the table. -/
theorem handles_of_mem_sequence {t : Table} {v : ScriptValue} (hv : v ∈ t.sequence) {h : Handle}
    (hh : h ∈ handles v) : h ∈ handles t := by
  obtain ⟨e, he, rfl⟩ := mem_sequence hv
  exact List.mem_flatMap.mpr ⟨e, he, List.mem_append_right _ hh⟩

/-! ### Reading back what was made of a sequence -/

/-- The places from `n` on with the values that are not nil. -/
def places (n : Nat) : List ScriptValue → List (Nat × ScriptValue)
  | [] => []
  | v :: vs => if v.isNil then places (n + 1) vs else (n, v) :: places (n + 1) vs

/-- The places begin at the first one. -/
theorem le_of_mem_places {vs : List ScriptValue} {n : Nat} {p : Nat × ScriptValue}
    (hp : p ∈ places n vs) : n ≤ p.1 := by
  induction vs generalizing n with
  | nil => cases hp
  | cons v vs ih =>
    unfold places at hp
    split at hp
    · exact Nat.le_of_succ_le (ih hp)
    · rcases List.mem_cons.mp hp with rfl | hp
      · exact Nat.le_refl n
      · exact Nat.le_of_succ_le (ih hp)

/-- The places are in order. -/
theorem pairwise_places (vs : List ScriptValue) (n : Nat) :
    (places n vs).Pairwise fun a b => a.1 ≤ b.1 := by
  induction vs generalizing n with
  | nil => exact .nil
  | cons v vs ih =>
    unfold places
    split
    · exact ih (n + 1)
    · refine .cons (fun p hp => ?_) (ih (n + 1))
      exact Nat.le_of_succ_le (le_of_mem_places hp)

/-- The positions of the entries of a sequence are its places, as long as integers count so far. -/
theorem filterMap_position?_sequence {vs : List ScriptValue} {n : Nat} (hn : 0 < n)
    (hlt : n + vs.length ≤ 2 ^ 63) :
    ((vs.zipIdx n).filterMap fun p => sequenceItem? p.1 p.2).filterMap Entry.position? =
      places n vs := by
  induction vs generalizing n with
  | nil => rfl
  | cons v vs ih =>
    rw [List.length_cons] at hlt
    have hrest := ih (n := n + 1) (Nat.succ_pos n) (by omega)
    rw [List.zipIdx_cons, places]
    cases hv : v.isNil with
    | true => simpa [sequenceItem?, hv] using hrest
    | false =>
      -- The integer of the place is the place itself.
      have hi : (Int64.ofNat n).toInt = n := Int64.toInt_ofNat_of_lt (by omega)
      have hposition :
          Entry.position? ⟨position n, .integer (Int64.ofNat n), v⟩ = some (n, v) := by
        simp [Entry.position?, position, hi, hn]
      simpa [sequenceItem?, hv, hposition] using hrest

/-- Where nil is left out, the values from the first place on go up to the first nil. -/
theorem consecutive_places (vs : List ScriptValue) (n : Nat) :
    consecutive n (places n vs) = vs.takeWhile fun v => !v.isNil := by
  induction vs generalizing n with
  | nil => rfl
  | cons v vs ih =>
    unfold places
    cases hv : v.isNil with
    | true =>
      -- Whatever comes after the gap stands further on.
      rw [List.takeWhile_cons, hv]
      simp only [if_true]
      cases hps : places (n + 1) vs with
      | nil => rfl
      | cons p ps =>
        have hle : n + 1 ≤ p.1 := le_of_mem_places (by rw [hps]; exact List.mem_cons_self)
        have hne : p.1 ≠ n := by omega
        simp [consecutive, hne]
    | false => simp [consecutive, hv, ih]

/-- **What is read back of a sequence** goes up to its first nil. -/
theorem sequence_ofSequence {vs : List ScriptValue} (h : vs.length < 2 ^ 63) :
    (ofSequence vs).sequence = vs.takeWhile fun v => !v.isNil := by
  have hplaces : (ofSequence vs).positions = places 1 vs := by
    have hlt : 1 + vs.length ≤ 2 ^ 63 := by omega
    have hentries := filterMap_position?_sequence (n := 1) Nat.one_pos hlt
    unfold positions ofSequence
    rw [hentries]
    refine List.mergeSort_of_pairwise ((pairwise_places vs 1).imp fun hab => ?_)
    simpa using hab
  rw [sequence, hplaces, consecutive_places]

/-- A sequence without nil is read back as it was. -/
theorem sequence_ofSequence_of_noNil {vs : List ScriptValue} (h : vs.length < 2 ^ 63)
    (hnil : ∀ v ∈ vs, v.isNil = false) : (ofSequence vs).sequence = vs := by
  rw [sequence_ofSequence h, List.takeWhile_eq_self_iff]
  intro v hv
  rw [hnil v hv]
  rfl

end Table

end ScriptHost
