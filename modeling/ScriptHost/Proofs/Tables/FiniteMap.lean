import Mathlib.Data.List.Find
import Mathlib.Data.Set.Card
import ScriptHost.Proofs.Conversion.Sequence
import ScriptHost.Proofs.Tables.Identity

/-!
# Tables as finite maps

A table is a map from what keys mean to the key that was written last and its value. Its entries are
a list, so three things have to be known of them: no value is nil, the slot of an entry is that of
its key, and no two entries have one slot (`Table.Lawful`). Then reading, counting and listing are
what they are for a map, and so is the sequence part, which a sort and a walk up to the first gap
find: it is as long as the places from one on are taken (`Table.Lawful.isGreatest_length`).
-/

set_option autoImplicit false

namespace ScriptHost

/-- A map from what keys mean to the key as it was written last, with its value. -/
abbrev Contents := KeyIdentity → Option (ScriptValue × ScriptValue)

namespace Contents

/-- What is stored when nothing was ever written. -/
def empty : Contents := fun _ => none

/-- Writing changes what is stored under one key; nil takes it away. What is no key changes
nothing. -/
def write (m : Contents) (key value : ScriptValue) : Contents :=
  match key.identity? with
  | none => m
  | some k => Function.update m k (if value.isNil then none else some (key, value))

/-- What is stored after writes in order. -/
def ofWrites (writes : List (ScriptValue × ScriptValue)) : Contents :=
  writes.foldl (fun m p => m.write p.1 p.2) empty

/-- What a key reads as. -/
def read (m : Contents) (key : ScriptValue) : ScriptValue :=
  ((key.identity?.bind m).map Prod.snd).getD .nil

/-- What is stored under the integer `n`. -/
def at? (m : Contents) (n : Nat) : Option (ScriptValue × ScriptValue) :=
  m (.number ((n : Int) * (Binary64.unit : Int)))

/-- All integers from one to `n` are there; integers have sixty-four bits. -/
def Filled (m : Contents) (n : Nat) : Prop :=
  n < 2 ^ 63 ∧ ∀ i, 1 ≤ i → i ≤ n → m.at? i ≠ none

/-- Writing under a key changes what is stored for what the key means. -/
theorem write_of_identity {m : Contents} {key value : ScriptValue} {k : KeyIdentity}
    (h : key.identity? = some k) :
    m.write key value = Function.update m k (if value.isNil then none else some (key, value)) := by
  rw [write, h]

/-- Writing under what is no key changes nothing. -/
theorem write_of_none {m : Contents} {key value : ScriptValue} (h : key.identity? = none) :
    m.write key value = m := by
  rw [write, h]

/-- The last write comes last. -/
theorem ofWrites_append (writes : List (ScriptValue × ScriptValue)) (key value : ScriptValue) :
    ofWrites (writes ++ [(key, value)]) = (ofWrites writes).write key value := by
  rw [ofWrites, List.foldl_append]
  rfl

end Contents

namespace Table

variable {t t' : Table} {s : SlotKey} {key value : ScriptValue} {k : KeyIdentity}
  {p : ScriptValue × ScriptValue}

/-- What is stored under what a key means. -/
def contents (t : Table) : Contents := fun k =>
  (t.entries.find? fun e => e.slot.identity == k).map fun e => (e.key, e.value)

/-- The entries of a map: nil is not stored, and slots are those of the keys, each once. -/
structure Lawful (t : Table) : Prop where
  noNil : t.NoNil
  slot_eq : ∀ e ∈ t.entries, SlotKey.ofValue e.key = .ok e.slot
  distinct : (t.entries.map Entry.slot).Nodup

/-- An empty table is lawful. -/
theorem lawful_empty : empty.Lawful where
  noNil := noNil_empty
  slot_eq := fun _ he => nomatch he
  distinct := .nil

namespace Lawful

/-- The slots of a lawful table are normal. -/
theorem normal (ht : t.Lawful) {e : Entry} (he : e ∈ t.entries) : e.slot.Normal :=
  (SlotKey.normal_ofValue (ht.slot_eq e he)).1

/-- Entries with one slot are one entry. -/
theorem entry_unique (ht : t.Lawful) {e f : Entry} (he : e ∈ t.entries) (hf : f ∈ t.entries)
    (h : e.slot = f.slot) : e = f :=
  List.inj_on_of_nodup_map ht.distinct he hf h

/-- What is stored comes from an entry. -/
theorem contents_eq_some_iff (ht : t.Lawful) :
    t.contents k = some p ↔ ∃ e ∈ t.entries, e.slot.identity = k ∧ (e.key, e.value) = p := by
  unfold contents
  constructor
  · intro h
    obtain ⟨e, he, hp⟩ := Option.map_eq_some_iff.mp h
    have hk : e.slot.identity = k := by simpa using List.find?_some he
    exact ⟨e, List.mem_of_find?_eq_some he, hk, hp⟩
  · rintro ⟨e, he, rfl, rfl⟩
    -- The first entry of this meaning has the same slot, so it is the same entry.
    cases hfind : t.entries.find? fun f => f.slot.identity == e.slot.identity with
    | none =>
      have hnone := List.find?_eq_none.mp hfind e he
      exact absurd (beq_self_eq_true _) hnone
    | some f =>
      have hf := List.mem_of_find?_eq_some hfind
      have hk : f.slot.identity = e.slot.identity := by simpa using List.find?_some hfind
      have hslot : f.slot = e.slot := SlotKey.identity_injective (ht.normal hf) (ht.normal he) hk
      rw [ht.entry_unique hf he hslot]
      rfl

/-- Something is stored where an entry is. -/
theorem contents_ne_none_iff (ht : t.Lawful) :
    t.contents k ≠ none ↔ k ∈ t.entries.map fun e => e.slot.identity := by
  rw [Option.ne_none_iff_exists', List.mem_map]
  constructor
  · rintro ⟨p, hp⟩
    obtain ⟨e, he, hk, -⟩ := ht.contents_eq_some_iff.mp hp
    exact ⟨e, he, hk⟩
  · rintro ⟨e, he, hk⟩
    exact ⟨_, ht.contents_eq_some_iff.mpr ⟨e, he, hk, rfl⟩⟩

/-- What is stored is not nil. -/
theorem not_isNil_of_contents (ht : t.Lawful) (h : t.contents k = some p) : p.2.isNil = false := by
  obtain ⟨e, he, -, rfl⟩ := ht.contents_eq_some_iff.mp h
  exact ht.noNil e he

/-- The entry of a slot is what is stored under the slot's keys. -/
theorem find?_eq (ht : t.Lawful) (hs : s.Normal) :
    (t.find? s).map (fun e => (e.key, e.value)) = t.contents s.identity := by
  -- To have one slot is to mean the same.
  have hsame : ∀ e ∈ t.entries, (e.slot == s) = (e.slot.identity == s.identity) := by
    intro e he
    rw [Bool.eq_iff_iff, beq_iff_eq, beq_iff_eq]
    exact ⟨congrArg SlotKey.identity, SlotKey.identity_injective (ht.normal he) hs⟩
  have hfind : t.find? s = t.entries.find? fun e => e.slot.identity == s.identity :=
    List.find?_congr hsame
  rw [hfind, contents]

/-! ### Reading -/

/-- **Reading** gives what is stored. -/
theorem get_eq (ht : t.Lawful) (key : ScriptValue) : t.get key = t.contents.read key := by
  unfold get Contents.read
  cases hs : SlotKey.ofValue key with
  | error fault =>
    rw [SlotKey.ofValue_eq_error_iff.mp ⟨fault, hs⟩]
    rfl
  | ok s =>
    obtain ⟨hnormal, hidentity⟩ := SlotKey.normal_ofValue hs
    rw [hidentity, Option.bind_some, ← ht.find?_eq hnormal, Option.map_map]
    rfl

/-- **Containing** a key is to have something stored for what it means. -/
theorem contains_iff (ht : t.Lawful) (key : ScriptValue) :
    t.contains key = true ↔ ∃ k p, key.identity? = some k ∧ t.contents k = some p := by
  have hread : t.contains key = !(t.contents.read key).isNil := by rw [contains, ht.get_eq]
  rw [hread, Contents.read]
  cases hk : key.identity? with
  | none => simp [ScriptValue.isNil]
  | some k =>
    rw [Option.bind_some]
    cases hp : t.contents k with
    | none => simp [hp, ScriptValue.isNil]
    | some p =>
      refine ⟨fun _ => ⟨k, p, rfl, hp⟩, fun _ => ?_⟩
      rw [Option.map_some, Option.getD_some, ht.not_isNil_of_contents hp]
      rfl

/-- **What is listed** is what is stored. -/
theorem mem_pairs_iff (ht : t.Lawful) : p ∈ t.pairs ↔ ∃ k, t.contents k = some p := by
  rw [pairs, List.mem_map]
  constructor
  · rintro ⟨e, he, hp⟩
    exact ⟨e.slot.identity, ht.contents_eq_some_iff.mpr ⟨e, he, rfl, hp⟩⟩
  · rintro ⟨k, hk⟩
    obtain ⟨e, he, -, hp⟩ := ht.contents_eq_some_iff.mp hk
    exact ⟨e, he, hp⟩

/-- The key of an entry means what its slot does. -/
theorem identity_of_mem (ht : t.Lawful) {e : Entry} (he : e ∈ t.entries) :
    e.key.identity? = some e.slot.identity :=
  (SlotKey.normal_ofValue (ht.slot_eq e he)).2

/-- No two entries mean the same. -/
theorem nodup_identities (ht : t.Lawful) : (t.entries.map fun e => e.slot.identity).Nodup := by
  have hdistinct := List.pairwise_map.mp ht.distinct
  refine List.pairwise_map.mpr (hdistinct.imp_of_mem ?_)
  intro e f he hf hne h
  exact hne (SlotKey.identity_injective (ht.normal he) (ht.normal hf) h)

/-- **Each key is listed once.** -/
theorem nodup_pairs (ht : t.Lawful) : (t.pairs.map fun p => p.1.identity?).Nodup := by
  have heq : (t.pairs.map fun p => p.1.identity?) =
      (t.entries.map fun e => e.slot.identity).map some := by
    rw [pairs, List.map_map, List.map_map]
    exact List.map_congr_left fun e he => ht.identity_of_mem he
  rw [heq]
  exact ht.nodup_identities.map (Option.some_injective _)

/-- **Counting** counts what is stored. -/
theorem count_eq (ht : t.Lawful) :
    {k | t.contents k ≠ none}.Finite ∧ t.count = {k | t.contents k ≠ none}.ncard := by
  have hset : {k | t.contents k ≠ none} = ↑(t.entries.map fun e => e.slot.identity).toFinset := by
    ext k
    rw [Set.mem_ofPred_eq, ht.contents_ne_none_iff, List.coe_toFinset, Set.mem_ofPred_eq]
  rw [hset]
  refine ⟨Finset.finite_toSet _, ?_⟩
  rw [Set.ncard_coe_finset, List.toFinset_card_of_nodup ht.nodup_identities, List.length_map, count]

end Lawful

/-! ### Writing -/

/-- Erasing removes what has the slot. -/
theorem mem_erase_iff {e : Entry} : e ∈ (t.erase s).entries ↔ e ∈ t.entries ∧ e.slot ≠ s := by
  rw [erase, List.mem_filter, bne_iff_ne]

/-- Writing under a key changes what is stored there and nothing else. -/
theorem contents_eq_write (ht : t.Lawful) (ht' : t'.Lawful) (hs : SlotKey.ofValue key = .ok s)
    (hmem : ∀ e, e ∈ t'.entries ↔
      e ∈ t.entries ∧ e.slot ≠ s ∨ value.isNil = false ∧ e = ⟨s, key, value⟩) :
    t'.contents = t.contents.write key value := by
  obtain ⟨hnormal, hidentity⟩ := SlotKey.normal_ofValue hs
  rw [Contents.write_of_identity hidentity]
  funext k
  refine Option.ext fun p => ?_
  rw [ht'.contents_eq_some_iff]
  -- Under the key itself there is what was written, and elsewhere there is what was there.
  by_cases hk : k = s.identity
  · rw [hk, Function.update_self]
    constructor
    · rintro ⟨e, he, heq, rfl⟩
      rcases (hmem e).mp he with ⟨he, hne⟩ | ⟨hnil, rfl⟩
      · exact absurd (SlotKey.identity_injective (ht.normal he) hnormal heq) hne
      · rw [hnil, if_neg Bool.false_ne_true]
    · intro hp
      split at hp
      · cases hp
      · next hnil =>
        obtain rfl := Option.some.inj hp
        have hentry := (hmem ⟨s, key, value⟩).mpr (.inr ⟨Bool.eq_false_iff.mpr hnil, rfl⟩)
        exact ⟨_, hentry, rfl, rfl⟩
  · rw [Function.update_of_ne hk, ht.contents_eq_some_iff]
    constructor
    · rintro ⟨e, he, heq, rfl⟩
      rcases (hmem e).mp he with ⟨he, -⟩ | ⟨-, rfl⟩
      · exact ⟨e, he, heq, rfl⟩
      · exact absurd heq.symm hk
    · rintro ⟨e, he, heq, rfl⟩
      have hne : e.slot ≠ s := fun h => hk (heq.symm.trans (congrArg SlotKey.identity h))
      exact ⟨e, (hmem e).mpr (.inl ⟨he, hne⟩), heq, rfl⟩

/-- A write under a key puts an entry, or erases one for nil. -/
theorem set_of_slot (hs : SlotKey.ofValue key = .ok s) :
    t.set key value = .ok (if value.isNil then t.erase s else t.put s key value) := by
  rw [set, hs]
  rfl

/-- The entries after writing. -/
theorem mem_set_iff (hs : SlotKey.ofValue key = .ok s) (h : t.set key value = .ok t') (e : Entry) :
    e ∈ t'.entries ↔
      e ∈ t.entries ∧ e.slot ≠ s ∨ value.isNil = false ∧ e = ⟨s, key, value⟩ := by
  rw [set_of_slot hs] at h
  obtain rfl := Except.ok.inj h
  cases hnil : value.isNil with
  | true =>
    rw [if_pos rfl, mem_erase_iff]
    exact ⟨.inl, fun he => he.resolve_right fun h => Bool.false_ne_true h.1.symm⟩
  | false =>
    rw [if_neg Bool.false_ne_true, put, List.mem_cons, mem_erase_iff]
    exact ⟨fun he => he.symm.imp_right fun heq => ⟨rfl, heq⟩, fun he => he.symm.imp_left And.right⟩

/-- Only what is no key cannot be written under, and then nothing is written. -/
theorem set_eq_error_iff {fault : KeyFault} :
    t.set key value = .error fault ↔ SlotKey.ofValue key = .error fault := by
  rw [set]
  cases SlotKey.ofValue key with
  | error f =>
    exact ⟨fun h => congrArg _ (Except.error.inj h), fun h => congrArg _ (Except.error.inj h)⟩
  | ok s => exact ⟨nofun, nofun⟩

namespace Lawful

/-- Writing keeps a table lawful. -/
theorem set (ht : t.Lawful) (h : t.set key value = .ok t') : t'.Lawful := by
  -- Something was written, so the key has a slot.
  obtain ⟨s, hs⟩ : ∃ s, SlotKey.ofValue key = .ok s := by
    cases hs : SlotKey.ofValue key with
    | ok s => exact ⟨s, rfl⟩
    | error fault => rw [set_eq_error_iff.mpr hs] at h; cases h
  refine ⟨ht.noNil.set h, ?_, ?_⟩
  · intro e he
    rcases (mem_set_iff hs h e).mp he with ⟨he, -⟩ | ⟨-, rfl⟩
    · exact ht.slot_eq e he
    · exact hs
  · have herase : ((t.erase s).entries.map Entry.slot).Nodup :=
      ht.distinct.sublist (List.filter_sublist.map Entry.slot)
    rw [set_of_slot hs] at h
    obtain rfl := Except.ok.inj h
    split
    · exact herase
    -- What is put stands alone in its slot, since that was erased.
    · refine List.nodup_cons.mpr ⟨?_, herase⟩
      intro hmem
      obtain ⟨e, he, hslot⟩ := List.mem_map.mp hmem
      exact (mem_erase_iff.mp he).2 hslot

/-- **Writing** changes what is stored under the key. -/
theorem contents_set (ht : t.Lawful) (h : t.set key value = .ok t') :
    t'.contents = t.contents.write key value := by
  cases hs : SlotKey.ofValue key with
  | error fault =>
    rw [set_eq_error_iff.mpr hs] at h
    cases h
  | ok s => exact contents_eq_write ht (ht.set h) hs (mem_set_iff hs h)

end Lawful

/-! ### Tables made of sequences -/

/-- The values of a sequence as writes to the places from one on. -/
def sequenceWrites (values : List ScriptValue) : List (ScriptValue × ScriptValue) :=
  (values.zipIdx 1).map fun p => (.integer (Int64.ofNat p.2), p.1)

/-- One more value is one more entry at the end, or none for nil. -/
theorem ofSequence_append (vs : List ScriptValue) (v : ScriptValue) :
    (ofSequence (vs ++ [v])).entries =
      (ofSequence vs).entries ++ (sequenceItem? v (vs.length + 1)).toList := by
  have hlast : ([v].zipIdx (1 + vs.length)).filterMap (fun p => sequenceItem? p.1 p.2) =
      (sequenceItem? v (vs.length + 1)).toList := by
    rw [Nat.add_comm 1]
    cases h : sequenceItem? v (vs.length + 1) <;> simp [h]
  simp only [ofSequence, List.zipIdx_append, List.filterMap_append, hlast]

/-- It is one more write. -/
theorem sequenceWrites_append (vs : List ScriptValue) (v : ScriptValue) :
    sequenceWrites (vs ++ [v]) =
      sequenceWrites vs ++ [(.integer (Int64.ofNat (vs.length + 1)), v)] := by
  simp [sequenceWrites, List.zipIdx_append, Nat.add_comm]

/-- The entries of a sequence stand at its places. -/
theorem slot_of_mem_ofSequence {vs : List ScriptValue} {e : Entry}
    (he : e ∈ (ofSequence vs).entries) :
    ∃ n, 1 ≤ n ∧ n ≤ vs.length ∧ e.slot = position n := by
  obtain ⟨⟨v, n⟩, hmem, hentry⟩ := List.mem_filterMap.mp he
  obtain ⟨hmin, hmax, -⟩ := List.mem_zipIdx hmem
  unfold sequenceItem? at hentry
  split at hentry
  · cases hentry
  · obtain rfl := Option.some.inj hentry
    exact ⟨n, hmin, by omega, rfl⟩

/-- **A table made of a sequence** is what writing the values one after another gives. -/
theorem lawful_ofSequence {vs : List ScriptValue} (h : vs.length < 2 ^ 63) :
    (ofSequence vs).Lawful ∧
      (ofSequence vs).contents = Contents.ofWrites (sequenceWrites vs) := by
  -- On the values from the last one: a place at the end is a new one.
  induction vs using List.reverseRecOn with
  | nil => exact ⟨lawful_empty, rfl⟩
  | append_singleton vs v ih =>
    rw [List.length_append, List.length_singleton] at h
    obtain ⟨hlawful, hcontents⟩ := ih (by omega)
    -- The place at the end is beyond all that are there.
    have hfresh : ∀ e ∈ (ofSequence vs).entries, e.slot ≠ position (vs.length + 1) := by
      intro e he heq
      obtain ⟨n, -, hmax, hslot⟩ := slot_of_mem_ofSequence he
      have := position_injective (by omega) h (hslot.symm.trans heq)
      omega
    have hmem : ∀ e, e ∈ (ofSequence (vs ++ [v])).entries ↔
        e ∈ (ofSequence vs).entries ∧ e.slot ≠ position (vs.length + 1) ∨
          v.isNil = false ∧
            e = ⟨position (vs.length + 1), .integer (Int64.ofNat (vs.length + 1)), v⟩ := by
      intro e
      rw [ofSequence_append, List.mem_append]
      refine or_congr ⟨fun he => ⟨he, hfresh e he⟩, And.left⟩ ?_
      cases hnil : v.isNil <;> simp [sequenceItem?, hnil]
    have hlawful' : (ofSequence (vs ++ [v])).Lawful := by
      refine ⟨noNil_ofSequence _, ?_, ?_⟩
      · intro e he
        rcases (hmem e).mp he with ⟨he, -⟩ | ⟨-, rfl⟩
        · exact hlawful.slot_eq e he
        · rfl
      · rw [ofSequence_append, List.map_append]
        refine List.nodup_append.mpr ⟨hlawful.distinct, ?_, ?_⟩
        · cases hnil : v.isNil <;> simp [sequenceItem?, hnil]
        · intro s hs s' hs' heq
          obtain ⟨e, he, rfl⟩ := List.mem_map.mp hs
          cases hnil : v.isNil <;> simp [sequenceItem?, hnil] at hs'
          exact hfresh e he (heq.trans hs')
    refine ⟨hlawful', ?_⟩
    rw [sequenceWrites_append, Contents.ofWrites_append, ← hcontents]
    exact contents_eq_write hlawful hlawful' rfl hmem

/-! ### The sequence part -/

/-- The slot of a place means the place. -/
theorem identity_position {n : Nat} (hn : n < 2 ^ 63) :
    (position n).identity = .number (n * (Binary64.unit : Int)) := by
  have hi : (Int64.ofNat n).toInt = n := Int64.toInt_ofNat_of_lt hn
  rw [position, SlotKey.identity, hi]

/-- An entry stands at the place of its slot. -/
theorem position?_eq_some_iff {e : Entry} (he : e.slot.Normal) {n : Nat} {v : ScriptValue} :
    e.position? = some (n, v) ↔ 0 < n ∧ n < 2 ^ 63 ∧
      e.slot.identity = .number (n * (Binary64.unit : Int)) ∧ e.value = v := by
  constructor
  · intro h
    unfold Entry.position? at h
    split at h
    · next i hslot =>
      split at h
      · next hpos =>
        have hmax := i.toInt_lt
        obtain ⟨rfl, rfl⟩ := Prod.mk.inj (Option.some.inj h)
        have hi : ((i.toInt.toNat : Nat) : Int) = i.toInt := Int.toNat_of_nonneg hpos.le
        refine ⟨by omega, by omega, ?_, rfl⟩
        rw [hslot, SlotKey.identity, hi]
      · cases h
    · cases h
  · rintro ⟨hpos, hn, hidentity, rfl⟩
    have hslot : e.slot = position n :=
      SlotKey.identity_injective he trivial (hidentity.trans (identity_position hn).symm)
    have hi : (Int64.ofNat n).toInt = n := Int64.toInt_ofNat_of_lt hn
    simp [Entry.position?, hslot, position, hi, hpos]

/-- A walk over places in order takes the values at consecutive ones. -/
theorem mem_of_getElem?_consecutive {ps : List (Nat × ScriptValue)} {n i : Nat} {v : ScriptValue}
    (h : (consecutive n ps)[i]? = some v) : (n + i, v) ∈ ps := by
  induction ps generalizing n i with
  | nil => cases h
  | cons p ps ih =>
    unfold consecutive at h
    split at h
    -- The walk goes on with the next place.
    · next heq =>
      cases i with
      | zero =>
        obtain rfl := Option.some.inj h
        rw [Nat.add_zero, ← heq]
        exact List.mem_cons_self
      | succ i =>
        have hrest := ih (n := n + 1) h
        rw [Nat.add_right_comm] at hrest
        exact List.mem_cons_of_mem p hrest
    · cases h

/-- The walk ends at a place that is not there. -/
theorem not_mem_of_length_consecutive {ps : List (Nat × ScriptValue)} {n : Nat}
    (hps : ps.Pairwise fun a b => a.1 < b.1) (hn : ∀ p ∈ ps, n ≤ p.1) (v : ScriptValue) :
    (n + (consecutive n ps).length, v) ∉ ps := by
  induction ps generalizing n with
  | nil => exact List.not_mem_nil
  | cons p ps ih =>
    obtain ⟨hp, hps⟩ := List.pairwise_cons.mp hps
    unfold consecutive
    split
    · next heq =>
      -- All later places are beyond this one.
      have hlater : ∀ q ∈ ps, n + 1 ≤ q.1 := fun q hq => heq ▸ hp q hq
      have hrest := ih (n := n + 1) hps hlater
      rw [List.length_cons, Nat.add_comm _ 1, ← Nat.add_assoc]
      intro hmem
      rcases List.mem_cons.mp hmem with hself | hmem
      · have := congrArg Prod.fst hself
        simp only at this
        omega
      · exact hrest hmem
    · next hne =>
      -- The first place is beyond the one that is looked for.
      rw [List.length_nil, Nat.add_zero]
      intro hmem
      have hle : n ≤ p.1 := hn p List.mem_cons_self
      rcases List.mem_cons.mp hmem with hself | hmem
      · exact hne (congrArg Prod.fst hself).symm
      · have hlt := hp _ hmem
        simp only at hlt
        omega

namespace Lawful

/-- The places that a table lists are those where something is stored. -/
theorem mem_positions_iff (ht : t.Lawful) {n : Nat} {v : ScriptValue} :
    (n, v) ∈ t.positions ↔
      0 < n ∧ n < 2 ^ 63 ∧ (t.contents.at? n).map Prod.snd = some v := by
  rw [positions, List.mem_mergeSort, List.mem_filterMap]
  -- The entry at a place means the place.
  constructor
  · rintro ⟨e, he, hposition⟩
    obtain ⟨hpos, hlt, hidentity, rfl⟩ := (position?_eq_some_iff (ht.normal he)).mp hposition
    have hstored : t.contents.at? n = some (e.key, e.value) :=
      ht.contents_eq_some_iff.mpr ⟨e, he, hidentity, rfl⟩
    exact ⟨hpos, hlt, by rw [hstored]; rfl⟩
  · rintro ⟨hpos, hlt, hstored⟩
    obtain ⟨p, hp, rfl⟩ := Option.map_eq_some_iff.mp hstored
    obtain ⟨e, he, hidentity, rfl⟩ := ht.contents_eq_some_iff.mp hp
    exact ⟨e, he, (position?_eq_some_iff (ht.normal he)).mpr ⟨hpos, hlt, hidentity, rfl⟩⟩

/-- Places are listed in order, each once. -/
theorem pairwise_positions (ht : t.Lawful) : t.positions.Pairwise fun a b => a.1 < b.1 := by
  -- No two entries stand at one place, and sorting does not change that.
  have hdistinct : (t.entries.filterMap Entry.position?).Pairwise fun a b => a.1 ≠ b.1 := by
    refine List.pairwise_filterMap.mpr ((List.pairwise_map.mp ht.distinct).imp_of_mem ?_)
    intro e f he hf hne p hp q hq hpq
    obtain ⟨-, -, hidentity, -⟩ := (position?_eq_some_iff (ht.normal he)).mp hp
    obtain ⟨-, -, hidentity', -⟩ := (position?_eq_some_iff (ht.normal hf)).mp hq
    rw [← hpq, ← hidentity] at hidentity'
    exact hne (SlotKey.identity_injective (ht.normal he) (ht.normal hf) hidentity'.symm)
  have hsorted : t.positions.Pairwise fun a b => decide (a.1 ≤ b.1) = true := by
    refine List.pairwise_mergeSort ?_ ?_ _
    · intro a b c hab hbc
      simp only [decide_eq_true_eq] at *
      omega
    · intro a b
      simp only [Bool.or_eq_true, decide_eq_true_eq]
      omega
  have hperm := List.mergeSort_perm (t.entries.filterMap Entry.position?) fun a b => a.1 ≤ b.1
  have hne := hperm.symm.pairwise hdistinct fun hab => Ne.symm hab
  exact (hsorted.and hne).imp fun hab => Nat.lt_of_le_of_ne (of_decide_eq_true hab.1) hab.2

/-- **The sequence part** holds the values at the places from one on. -/
theorem sequence_getElem? (ht : t.Lawful) {i : Nat} {v : ScriptValue}
    (h : t.sequence[i]? = some v) : (t.contents.at? (i + 1)).map Prod.snd = some v := by
  have hmem := mem_of_getElem?_consecutive h
  rw [Nat.add_comm] at hmem
  exact (ht.mem_positions_iff.mp hmem).2.2

/-- **The length** is the largest number of places from one on that are all taken. -/
theorem isGreatest_length (ht : t.Lawful) : IsGreatest {n | t.contents.Filled n} t.length := by
  constructor
  -- All places up to the length are taken.
  · refine ⟨length_sequence_lt t, ?_⟩
    intro i hmin hmax
    obtain ⟨j, rfl⟩ := Nat.exists_eq_add_of_le' hmin
    have hj : j < t.sequence.length := hmax
    have hstored := ht.sequence_getElem? (List.getElem?_eq_getElem hj)
    intro hnone
    rw [hnone] at hstored
    cases hstored
  · rintro n ⟨hn, hfilled⟩
    by_contra hlt
    have hlt : t.length < n := Nat.not_le.mp hlt
    -- The place after the last one is taken, so it is listed, and the walk goes on.
    have htaken := hfilled (1 + t.length) (Nat.le_add_right 1 _) (by omega)
    obtain ⟨p, hp⟩ := Option.ne_none_iff_exists'.mp htaken
    have hlisted : (1 + t.length, p.2) ∈ t.positions :=
      ht.mem_positions_iff.mpr ⟨by omega, by omega, by rw [hp]; rfl⟩
    have hmin : ∀ q ∈ t.positions, 1 ≤ q.1 := fun q hq => (ht.mem_positions_iff.mp hq).1
    exact not_mem_of_length_consecutive ht.pairwise_positions hmin p.2 hlisted

end Lawful

end Table

end ScriptHost
