import Mathlib.Data.List.Perm.Basic
import Mathlib.Data.List.Sort
import ScriptHost.Convert.ToHost
import ScriptHost.Proofs.Conversion.Sequence
import ScriptHost.Proofs.Text.ByteOrder

/-!
# Entries under strings

A table has one entry for a string at most, because the slot of a string key is that string and
writing replaces what has the slot. So the entries under strings have one order by their keys,
whatever order the table has them in: `stringEntries_eq_of_perm`. It is the order of the bytes of
the keys, `Table.InByteOrder`.
-/

set_option autoImplicit false

namespace ScriptHost

namespace ScriptValue

/-- Only a string is one. -/
theorem asString?_eq_some {v : ScriptValue} {s : String} :
    v.asString? = some s ↔ v = .string s := by
  cases v <;> simp [asString?]

end ScriptValue

namespace Table

/-- **No string is a key twice**, and string keys have their own slots. -/
structure StringsOnce (t : Table) : Prop where
  slot_eq : ∀ e ∈ t.entries, ∀ s, e.key = .string s → e.slot = .string s
  distinct : (t.entries.filterMap fun e => e.key.asString?).Nodup

namespace StringsOnce

variable {t u : Table}

/-- An empty table has no keys. -/
theorem empty : Table.empty.StringsOnce := ⟨fun _ he => absurd he List.not_mem_nil, .nil⟩

/-- The keys of a sequence are integers. -/
theorem ofSequence (vs : List ScriptValue) : (Table.ofSequence vs).StringsOnce := by
  have hkeys : ∀ e ∈ (Table.ofSequence vs).entries, ∃ i, e.key = .integer i := by
    intro e he
    obtain ⟨p, -, hentry⟩ := List.mem_filterMap.mp he
    unfold sequenceItem? at hentry
    split at hentry
    · cases hentry
    · exact Option.some.inj hentry ▸ ⟨_, rfl⟩
  refine ⟨fun e he s hs => ?_, ?_⟩
  · obtain ⟨i, hi⟩ := hkeys e he
    cases hi.symm.trans hs
  · have hnone : (Table.ofSequence vs).entries.filterMap (fun e => e.key.asString?) = [] :=
      List.filterMap_eq_nil_iff.mpr fun e he => by
        obtain ⟨i, hi⟩ := hkeys e he
        rw [hi]
        rfl
    rw [hnone]
    exact .nil

/-- Erasing adds no keys. -/
theorem erase (h : t.StringsOnce) (s : SlotKey) : (t.erase s).StringsOnce where
  slot_eq e he := h.slot_eq e (List.mem_filter.mp he).1
  distinct := h.distinct.sublist (List.filter_sublist.filterMap _)

/-- What had the slot is gone, so what is put there stands alone. -/
theorem put (h : t.StringsOnce) {s : SlotKey} {key : ScriptValue} (hs : SlotKey.ofValue key = .ok s)
    (value : ScriptValue) : (t.put s key value).StringsOnce := by
  have hslot : ∀ k, key = .string k → s = .string k := by
    rintro k rfl
    exact (Except.ok.inj hs).symm
  refine ⟨List.forall_mem_cons.mpr ⟨hslot, (h.erase s).slot_eq⟩, ?_⟩
  -- Only the key that is put could be there twice.
  cases hkey : key.asString? with
  | none =>
    show (List.filterMap _ (_ :: _)).Nodup
    rw [List.filterMap_cons_none (by exact hkey)]
    exact (h.erase s).distinct
  | some k =>
    show (List.filterMap _ (_ :: _)).Nodup
    rw [List.filterMap_cons_some (by exact hkey)]
    refine List.nodup_cons.mpr ⟨fun hmem => ?_, (h.erase s).distinct⟩
    -- An entry with this key would have the slot, and that was erased.
    obtain ⟨e, he, hek⟩ := List.mem_filterMap.mp hmem
    have he_slot := (h.erase s).slot_eq e he k (ScriptValue.asString?_eq_some.mp hek)
    have hs_slot := hslot k (ScriptValue.asString?_eq_some.mp hkey)
    have hne := (List.mem_filter.mp he).2
    rw [he_slot, hs_slot, bne_self_eq_false] at hne
    cases hne

/-- Writing keeps string keys single. -/
theorem set (h : t.StringsOnce) {key value : ScriptValue} (hset : t.set key value = .ok u) :
    u.StringsOnce := by
  unfold Table.set at hset
  cases hs : SlotKey.ofValue key with
  | error fault =>
    rw [hs] at hset
    cases hset
  | ok s =>
    rw [hs] at hset
    obtain rfl := Except.ok.inj hset
    dsimp only
    split
    · exact h.erase s
    · exact h.put hs value

/-- The order of the entries makes no difference. -/
theorem of_perm (h : t.StringsOnce) (hperm : u.entries.Perm t.entries) : u.StringsOnce where
  slot_eq e he := h.slot_eq e (hperm.mem_iff.mp he)
  distinct := (hperm.filterMap _).nodup_iff.mpr h.distinct

end StringsOnce

end Table

/-- No table has a string as a key twice. -/
def World.StringsOnce (w : World) : Prop := ∀ r x, w.tables.get? r = some x → x.StringsOnce

namespace World.StringsOnce

variable {w : World}

/-- Every table that is looked up has its string keys once. -/
theorem table (h : w.StringsOnce) (r : TableRef) : (w.table r).StringsOnce := by
  unfold World.table
  cases hr : w.tables.get? r with
  | none => exact .empty
  | some x => exact h r x hr

/-- A table may be made in which they are single. -/
theorem pushTable (h : w.StringsOnce) {t : Table} (ht : t.StringsOnce) :
    ({ w with tables := w.tables.push t } : World).StringsOnce := fun r x hx => by
  rcases Store.get?_push_cases hx with ⟨-, rfl⟩ | hx
  · exact ht
  · exact h r x hx

/-- And a table may be replaced by such a one. -/
theorem setTable (h : w.StringsOnce) (r : TableRef) {t : Table} (ht : t.StringsOnce) :
    ({ w with tables := w.tables.set r t } : World).StringsOnce := fun q x hx => by
  rcases Store.get?_set_cases hx with rfl | hx
  · exact ht
  · exact h q x hx

end World.StringsOnce

/-- **The entries of a table in the order of the bytes of their keys**, all of which are strings. -/
structure Table.InByteOrder (t : Table) (es : List (String × ScriptValue)) : Prop where
  entries : (es.map fun e => (ScriptValue.string e.1, e.2)).Perm t.pairs
  ordered : es.Pairwise fun a b => utf8Bytes a.1 < utf8Bytes b.1

namespace Act

variable {t u : Table}

/-- Sorting keeps the entries under strings, in another order. -/
theorem stringEntries_perm (t : Table) :
    (stringEntries t).Perm (t.pairs.filterMap fun p => p.1.asString?.map fun s => (s, p.2)) :=
  List.mergeSort_perm _ _

/-- The strings that are keys, in whatever order. -/
theorem stringEntries_keys (t : Table) :
    ((stringEntries t).map Prod.fst).Perm (t.entries.filterMap fun e => e.key.asString?) := by
  refine ((stringEntries_perm t).map Prod.fst).trans (List.Perm.of_eq ?_)
  rw [List.map_filterMap, Table.pairs, List.filterMap_map]
  refine List.filterMap_congr fun e _ => ?_
  show ((e.key.asString?.map fun s => (s, e.value)).map Prod.fst) = e.key.asString?
  rw [Option.map_map]
  exact Option.map_id'

/-- **Entries under strings stand in the order of their keys.** -/
theorem stringEntries_pairwise (h : t.StringsOnce) :
    (stringEntries t).Pairwise fun a b => a.1 < b.1 := by
  have hsorted : (stringEntries t).Pairwise fun a b => (!(decide (b.1 < a.1))) = true := by
    refine List.pairwise_mergeSort (fun a b c hab hbc => ?_) (fun a b => ?_) _
    · simp only [Bool.not_eq_true', decide_eq_false_iff_not, String.not_lt] at *
      exact String.le_trans hab hbc
    · simp only [Bool.or_eq_true, Bool.not_eq_true', decide_eq_false_iff_not, String.not_lt]
      exact String.le_total a.1 b.1
  -- Sorting leaves equal keys next to each other, but there are none.
  have hdistinct : (stringEntries t).Pairwise fun a b => a.1 ≠ b.1 :=
    List.pairwise_map.mp ((stringEntries_keys t).nodup_iff.mpr h.distinct)
  refine (hsorted.and hdistinct).imp fun {a b} hab => ?_
  obtain ⟨hle, hne⟩ := hab
  simp only [Bool.not_eq_true', decide_eq_false_iff_not, String.not_lt] at hle
  exact Decidable.byContradiction fun hlt => hne (String.le_antisymm hle (String.not_lt.mp hlt))

/-- **The order of a table's entries makes no difference to it.** -/
theorem stringEntries_eq_of_perm (h : t.StringsOnce) (hperm : u.entries.Perm t.entries) :
    stringEntries u = stringEntries t := by
  have hsame : (stringEntries u).Perm (stringEntries t) :=
    (stringEntries_perm u).trans (((hperm.map _).filterMap _).trans (stringEntries_perm t).symm)
  exact hsame.eq_of_pairwise (fun a b _ _ hab hba => absurd hba (String.lt_asymm hab))
    (stringEntries_pairwise (h.of_perm hperm)) (stringEntries_pairwise h)

/-! ### Other keys -/

/-- There are no other keys if all keys are strings. -/
theorem otherKey?_eq_none : otherKey? t = none ↔ ∀ p ∈ t.pairs, p.1.asString?.isSome = true := by
  unfold otherKey?
  rw [Option.map_eq_none_iff, List.find?_eq_none]
  exact forall₂_congr fun p _ => by cases p.1.asString? <;> simp

/-- What is given is a key that is no string. -/
theorem otherKey?_eq_some {k : ScriptValue} (h : otherKey? t = some k) :
    ∃ v, (k, v) ∈ t.pairs ∧ k.asString? = none := by
  obtain ⟨e, he, rfl⟩ := Option.map_eq_some_iff.mp h
  have hother := List.find?_some he
  exact ⟨e.2, List.mem_of_find?_eq_some he, Option.isNone_iff_eq_none.mp hother⟩

/-- Whether there are other keys does not depend on the order either. -/
theorem otherKey?_eq_none_of_perm (hperm : u.entries.Perm t.entries) :
    otherKey? u = none ↔ otherKey? t = none := by
  have hpairs : u.pairs.Perm t.pairs := hperm.map _
  rw [otherKey?_eq_none, otherKey?_eq_none]
  exact ⟨fun h p hp => h p (hpairs.mem_iff.mpr hp), fun h p hp => h p (hpairs.mem_iff.mp hp)⟩

/-- Another order may show another one of these keys first, but it shows one. -/
theorem exists_otherKey_of_perm (hperm : u.entries.Perm t.entries) (h : otherKey? t ≠ none) :
    ∃ k, otherKey? u = some k :=
  Option.ne_none_iff_exists'.mp fun hnone => h ((otherKey?_eq_none_of_perm hperm).mp hnone)

/-! ### The order of bytes -/

/-- Where all keys are strings, every entry is one under a string. -/
theorem stringEntries_inByteOrder (h : t.StringsOnce) (hkeys : otherKey? t = none) :
    t.InByteOrder (stringEntries t) where
  entries := by
    refine ((stringEntries_perm t).map _).trans (List.Perm.of_eq ?_)
    rw [List.map_filterMap]
    refine (List.filterMap_congr fun e he => ?_).trans List.filterMap_some
    obtain ⟨s, hs⟩ := Option.isSome_iff_exists.mp (otherKey?_eq_none.mp hkeys e he)
    rw [hs]
    exact congrArg some (Prod.ext (ScriptValue.asString?_eq_some.mp hs).symm rfl)
  ordered := (stringEntries_pairwise h).imp utf8Bytes_lt

section

variable {es : List (String × ScriptValue)} (hes : t.InByteOrder es)
include hes

/-- Nothing but strings is a key where all entries are listed in that order. -/
theorem otherKey?_of_inByteOrder : otherKey? t = none := otherKey?_eq_none.mpr fun e he => by
  obtain ⟨x, -, rfl⟩ := List.mem_map.mp (hes.entries.mem_iff.mpr he)
  rfl

/-- **There is one list of the entries in that order.** -/
theorem eq_stringEntries (h : t.StringsOnce) : es = stringEntries t := by
  have hother := stringEntries_inByteOrder h (otherKey?_of_inByteOrder hes)
  -- Two sorted lists of the same entries are equal.
  have hinj : Function.Injective fun e : String × ScriptValue => (ScriptValue.string e.1, e.2) := by
    rintro ⟨a, v⟩ ⟨b, u⟩ heq
    cases heq
    rfl
  have hperm := (List.map_perm_map_iff hinj).mp (hes.entries.trans hother.entries.symm)
  exact hperm.eq_of_pairwise (fun a b _ _ hab hba => absurd hba (List.lt_asymm hab)) hes.ordered
    hother.ordered

end

end Act

end ScriptHost
