import ScriptHost.Proofs.Tables.FiniteMap
import ScriptHost.Proofs.Tables.StringKeys

/-!
# The sequence part by its places

The sequence part of a table is a walk over sorted places. A sort does not exchange entries with one place,
so the walk finds what reading the place finds: `Table.getElem?_sequence`. It is as long as there is
something at all places, `Table.Lawful.isGreatest_contains`.
-/

set_option autoImplicit false

namespace ScriptHost

namespace Table

variable {t t' : Table}

/-- The value at a place, counted from one. -/
def item (t : Table) (n : Nat) : ScriptValue := t.get (.integer (Int64.ofNat n))

/-- The walk takes the first entry of each place. -/
theorem find?_of_getElem?_consecutive {ps : List (Nat × ScriptValue)} {n i : Nat} {v : ScriptValue}
    (h : (consecutive n ps)[i]? = some v) : ps.find? (fun p => p.1 == n + i) = some (n + i, v) := by
  induction ps generalizing n i with
  | nil => cases h
  | cons p ps ih =>
    unfold consecutive at h
    split at h
    · next heq =>
      cases i with
      | zero =>
        obtain rfl := Option.some.inj h
        rw [List.find?_cons, Nat.add_zero, beq_iff_eq.mpr heq, ← heq]
      -- The place is a later one, so the first entry is passed.
      | succ i =>
        have hrest := ih (n := n + 1) h
        have hlater : (p.1 == n + (i + 1)) = false := beq_eq_false_iff_ne.mpr (by omega)
        rw [List.find?_cons, hlater]
        rwa [Nat.add_right_comm, Nat.add_assoc] at hrest
    · cases h

/-- Sorting by places does not exchange what has one place. -/
theorem find?_positions (t : Table) (n : Nat) :
    t.positions.find? (fun p => p.1 == n) =
      (t.entries.filterMap Entry.position?).find? fun p => p.1 == n := by
  let here (p : Nat × ScriptValue) : Bool := p.1 == n
  let unsorted := t.entries.filterMap Entry.position?
  -- Those of one place are in order already, whichever that is.
  have hequal : (unsorted.filter here).Pairwise fun a b => (decide (a.1 ≤ b.1)) = true := by
    refine List.pairwise_iff_forall_sublist.mpr fun hab => ?_
    have hmem := hab.subset
    have ha := beq_iff_eq.mp (List.mem_filter.mp (hmem List.mem_cons_self)).2
    have hb := beq_iff_eq.mp (List.mem_filter.mp (hmem (List.mem_cons_of_mem _ List.mem_cons_self))).2
    exact decide_eq_true (ha.trans hb.symm).le
  have hsub : (unsorted.filter here).Sublist t.positions := by
    refine List.sublist_mergeSort ?_ ?_ hequal List.filter_sublist
    · intro a b c hab hbc
      simp only [decide_eq_true_eq] at *
      omega
    · intro a b
      simp only [Bool.or_eq_true, decide_eq_true_eq]
      omega
  -- Those of the place are all there, in their order, and there are no more of them.
  have hsame : unsorted.filter here = t.positions.filter here := by
    have hfiltered := hsub.filter here
    rw [List.filter_filter, List.filter_congr fun _ _ => Bool.and_self _] at hfiltered
    exact hfiltered.eq_of_length ((List.mergeSort_perm unsorted _).filter here).length_eq.symm
  rw [← List.head?_filter, ← List.head?_filter]
  exact congrArg List.head? hsame.symm

/-- The place of an entry is the one that its slot denotes. -/
theorem position?_eq_iff_slot {e : Entry} {n : Nat} (hpos : 0 < n) (hn : n < 2 ^ 63) :
    (e.position?.any fun p => p.1 == n) = (e.slot == position n) := by
  have hi : (Int64.ofNat n).toInt = n := Int64.toInt_ofNat_of_lt hn
  unfold Entry.position?
  cases hslot : e.slot with
  -- The slot of an integer is a place if the integer is positive.
  | integer i =>
    have heq : (SlotKey.integer i == position n) = decide (i.toInt = n) := by
      rw [Bool.eq_iff_iff, beq_iff_eq, decide_eq_true_iff, position, SlotKey.integer.injEq, ← hi,
        Int64.toInt_inj]
    rw [heq]
    by_cases hi : 0 < i.toInt
    · have hiff : i.toInt.toNat = n ↔ i.toInt = n := by omega
      simp only [hi, if_true, Option.any_some, beq_eq_decide, hiff]
    · have hne : i.toInt ≠ n := by omega
      simp [hi, hne]
  | _ => rfl

/-- **The values of a sequence part** are those that reading gives at `1`, `2` and so on. -/
theorem getElem?_sequence {i : Nat} {v : ScriptValue} (h : t.sequence[i]? = some v) :
    v = t.item (i + 1) := by
  have hlt : i < t.sequence.length := (List.getElem?_eq_some_iff.mp h).1
  have hn : i + 1 < 2 ^ 63 := by have := length_sequence_lt t; omega
  have hfirst := find?_of_getElem?_consecutive h
  -- The walk finds the first entry of the place, which is what reading finds.
  rw [find?_positions, List.find?_filterMap, Nat.add_comm 1 i] at hfirst
  obtain ⟨e, he, hplace⟩ := Option.bind_eq_some_iff.mp hfirst
  have hslots : (fun e : Entry => e.position?.any fun p => p.1 == i + 1) =
      fun e => e.slot == position (i + 1) :=
    funext fun e => position?_eq_iff_slot (Nat.succ_pos i) hn
  rw [hslots] at he
  have hfind : t.find? (position (i + 1)) = some e := he
  calc v = e.value := (position_lt hplace).2
    _ = t.slotValue (position (i + 1)) := by rw [slotValue, hfind]; rfl
    _ = t.item (i + 1) := rfl

/-- A place up to the length is one of the sequence part. -/
theorem sequence_getElem?_of_le {n : Nat} (hpos : 1 ≤ n) (hn : n ≤ t.length) :
    t.sequence[n - 1]? = some (t.item n) := by
  have hlt : n - 1 < t.sequence.length := by unfold length at hn; omega
  have hget := List.getElem?_eq_getElem hlt
  rw [hget, getElem?_sequence hget, Nat.sub_add_cancel hpos]

/-- What stands at a place up to the length is in the sequence part. -/
theorem item_mem_sequence {n : Nat} (hpos : 1 ≤ n) (hn : n ≤ t.length) : t.item n ∈ t.sequence :=
  List.mem_of_getElem? (sequence_getElem?_of_le hpos hn)

/-- The sequence part lists the places up to the length. -/
theorem sequence_eq_map (t : Table) :
    t.sequence = (List.range t.length).map fun i => t.item (i + 1) := by
  refine List.ext_getElem? fun i => ?_
  by_cases hi : i < t.length
  · have hget := List.getElem?_eq_getElem (l := t.sequence) hi
    rw [hget, getElem?_sequence hget]
    simp [hi]
  · have hle := Nat.le_of_not_lt hi
    rw [List.getElem?_eq_none hle]
    simp [hle]

/-- A table with a sequence part has a key that is no string. -/
theorem Lawful.otherKey?_ne_none (ht : t.Lawful) (h : t.sequence ≠ []) :
    Act.otherKey? t ≠ none := by
  obtain ⟨v, hv⟩ := List.exists_mem_of_ne_nil _ h
  obtain ⟨p, hp, -⟩ := mem_consecutive hv
  obtain ⟨e, he, hplace⟩ := mem_positions hp
  intro hnone
  have hstring := Act.otherKey?_eq_none.mp hnone (e.key, e.value) (List.mem_map_of_mem he)
  obtain ⟨s, hs⟩ := Option.isSome_iff_exists.mp hstring
  -- Its slot would be the string, which is no place.
  have hkey : e.key = .string s := ScriptValue.asString?_eq_some.mp hs
  have hslot : e.slot = .string s :=
    (Except.ok.inj ((congrArg SlotKey.ofValue hkey).symm.trans (ht.slot_eq e he))).symm
  unfold Entry.position? at hplace
  rw [hslot] at hplace
  cases hplace

/-- **The border** of a table: the last number such that there is something at all places up to it. -/
theorem Lawful.isGreatest_contains (ht : t.Lawful) :
    IsGreatest {n | n < 2 ^ 63 ∧ ∀ i, 1 ≤ i → i ≤ n →
      t.contains (.integer (Int64.ofNat i)) = true} t.length := by
  have hplaces : {n | n < 2 ^ 63 ∧ ∀ i, 1 ≤ i → i ≤ n →
      t.contains (.integer (Int64.ofNat i)) = true} = {n | t.contents.Filled n} := by
    -- Something is contained where something is stored.
    ext n
    refine and_congr_right fun hn => forall_congr' fun i => forall_congr' fun _ => ?_
    refine forall_congr' fun hi => ?_
    rw [ht.contains_iff, Option.ne_none_iff_exists']
    have hkey : (ScriptValue.integer (Int64.ofNat i)).identity? =
        some (.number ((i : Int) * (Binary64.unit : Int))) :=
      congrArg some (identity_position (Nat.lt_of_le_of_lt hi hn))
    simp only [hkey, Option.some.injEq, exists_eq_left', exists_and_left, Contents.at?]
  rw [hplaces]
  exact ht.isGreatest_length

end Table

end ScriptHost
