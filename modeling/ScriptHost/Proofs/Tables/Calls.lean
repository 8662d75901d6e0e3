import ScriptHost.Proofs.Act.Outcome
import ScriptHost.Proofs.Tables.FiniteMap

/-!
# Tables under calls

All that is ever done with a table: it is made, of a sequence or empty, and then it is written, read,
measured and listed through its handle, wherever that is kept. `TableCall.Answers` says what each
call answers in terms of what is stored, where what is stored is the outcome of the writes so far
(`Contents.ofWrites`). One call keeps a table lawful and does to its contents what it should
(`TableCall.step`), calls on other tables do nothing to them, and so every answer in every history is
the answer of a map (`tables_are_finite_maps`).
-/

set_option autoImplicit false

namespace ScriptHost

open Act

/-- One call on a table. -/
inductive TableCall where
  | set (key value : ScriptValue)
  | get (key : ScriptValue)
  | contains (key : ScriptValue)
  | length
  | sequence
  | pairs
  | count

/-- What a call answers. -/
inductive TableAnswer where
  | done
  | value (v : ScriptValue)
  | truth (b : Bool)
  | number (n : Nat)
  | values (vs : List ScriptValue)
  | pairs (ps : List (ScriptValue × ScriptValue))

namespace TableCall

/-- The call through a handle. -/
def run (t : TableRef) : TableCall → Act ScriptError TableAnswer
  | .set key value => do
    setEntry t key value
    pure .done
  | .get key => look fun w => .value ((w.table t).get key)
  | .contains key => look fun w => .truth ((w.table t).contains key)
  | .length => look fun w => .number (w.table t).length
  | .sequence => look fun w => .values (w.table t).sequence
  | .pairs => look fun w => .pairs (w.table t).pairs
  | .count => look fun w => .number (w.table t).count

/-- What the call writes. -/
def write? : TableCall → Option (ScriptValue × ScriptValue)
  | .set key value => some (key, value)
  | _ => none

/-- **What a call has to answer** when `m` is stored. -/
def Answers (m : Contents) (r : Except ScriptError TableAnswer) : TableCall → Prop
  | .set key _ => match key with
    | .nil => r = .error ⟨.string "table index is nil", none⟩
    | .number x =>
      r = if x.isNaN then .error ⟨.string "table index is NaN", none⟩ else .ok .done
    | _ => r = .ok .done
  | .get key => r = .ok (.value (m.read key))
  | .contains key =>
    ∃ b, r = .ok (.truth b) ∧ (b = true ↔ ∃ k p, key.identity? = some k ∧ m k = some p)
  | .length => ∃ n, r = .ok (.number n) ∧ IsGreatest {n | m.Filled n} n
  | .sequence => ∃ vs, r = .ok (.values vs) ∧ IsGreatest {n | m.Filled n} vs.length ∧
      ∀ i v, vs[i]? = some v → (m.at? (i + 1)).map Prod.snd = some v
  | .pairs => ∃ ps, r = .ok (.pairs ps) ∧ (ps.map fun p => p.1.identity?).Nodup ∧
      ∀ p, p ∈ ps ↔ ∃ k, m k = some p
  | .count => ∃ n, r = .ok (.number n) ∧ {k | m k ≠ none}.Finite ∧ n = {k | m k ≠ none}.ncard

end TableCall

namespace World

/-- The world after calls in order, each through the handle of its table. -/
def afterCalls (w : World) (calls : List (TableRef × TableCall)) : World :=
  calls.foldl (fun w c => ((c.2.run c.1).outcome w).2) w

/-- The table is there and stores exactly `m`. -/
structure Stores (w : World) (t : TableRef) (m : Contents) : Prop where
  made : ∃ entries, w.tables.get? t = some entries
  lawful : (w.table t).Lawful
  contents : (w.table t).contents = m

end World

/-- The writes to one table among calls on many. -/
def writesTo (t : TableRef) (calls : List (TableRef × TableCall)) :
    List (ScriptValue × ScriptValue) :=
  calls.filterMap fun c => if c.1 = t then c.2.write? else none

variable {w : World} {t u : TableRef} {m : Contents} {key value : ScriptValue}

/-- An entry is written, or the call fails for its key. -/
theorem outcome_setEntry (t : TableRef) (key value : ScriptValue) (w : World) :
    (setEntry t key value).outcome w = match (w.table t).set key value with
      | .ok entries => (.ok (), { w with tables := w.tables.set t entries })
      | .error fault => (.error ⟨.string fault.message, none⟩, w) := by
  unfold setEntry
  rw [outcome_bind, outcome_look]
  simp only
  cases (w.table t).set key value <;> rfl

/-- So it is for the call. -/
theorem outcome_run_set (t : TableRef) (key value : ScriptValue) (w : World) :
    ((TableCall.set key value).run t).outcome w = match (w.table t).set key value with
      | .ok entries => (.ok .done, { w with tables := w.tables.set t entries })
      | .error fault => (.error ⟨.string fault.message, none⟩, w) := by
  rw [TableCall.run, outcome_bind, outcome_setEntry]
  cases (w.table t).set key value <;> rfl

/-- Writing is refused for what is no key and done otherwise. -/
theorem answers_set (m : Contents) (table : Table) (key value : ScriptValue) :
    (TableCall.set key value).Answers m (match table.set key value with
      | .ok _ => .ok .done
      | .error fault => .error ⟨.string fault.message, none⟩) := by
  -- What is no key is refused by name; everything else has a slot.
  cases key with
  | nil => rfl
  | number x =>
    rw [TableCall.Answers, Table.set]
    cases hnan : x.isNaN with
    | true =>
      rw [SlotKey.ofValue, if_pos hnan]
      rfl
    | false =>
      rw [SlotKey.ofValue_number hnan]
      rfl
  | _ => rfl

namespace World.Stores

/-- Writing one table leaves the others as they are. -/
theorem set_ne (h : w.Stores t m) (hne : t ≠ u) (entries : Table) :
    ({ w with tables := w.tables.set u entries } : World).Stores t m := by
  have hget : (w.tables.set u entries).get? t = w.tables.get? t :=
    Store.get?_set_ne w.tables entries hne
  have htable : ({ w with tables := w.tables.set u entries } : World).table t = w.table t := by
    rw [World.table, hget, World.table]
  -- The other table is looked up as before.
  refine ⟨?_, ?_, ?_⟩
  · rw [hget]
    exact h.made
  · rw [htable]
    exact h.lawful
  · rw [htable]
    exact h.contents

/-- A table that is written holds what was written. -/
theorem set_self (h : w.Stores t m) {entries : Table}
    (hset : (w.table t).set key value = .ok entries) :
    ({ w with tables := w.tables.set t entries } : World).Stores t (m.write key value) := by
  obtain ⟨old, hold⟩ := h.made
  have hget : (w.tables.set t entries).get? t = some entries := by
    rw [Store.get?_set, if_pos rfl, hold]
    rfl
  -- The table that is looked up is the one that was written.
  have htable : ({ w with tables := w.tables.set t entries } : World).table t = entries := by
    rw [World.table, hget]
    rfl
  refine ⟨⟨entries, hget⟩, ?_, ?_⟩
  · rw [htable]
    exact h.lawful.set hset
  · rw [htable, h.lawful.contents_set hset, h.contents]

/-- A call on another table is none on this one. -/
theorem call_ne (h : w.Stores t m) (hne : t ≠ u) (c : TableCall) :
    (((c.run u).outcome w).2).Stores t m := by
  cases c with
  | set key value =>
    rw [outcome_run_set]
    cases (w.table u).set key value with
    | ok entries => exact h.set_ne hne entries
    | error fault => exact h
  | _ => exact h

/-- **One call** answers what it has to, and afterwards the table holds what it has to. A call that
fails leaves the world as it was. -/
theorem call (h : w.Stores t m) (c : TableCall) :
    c.Answers m ((c.run t).outcome w).1 ∧
      ((c.run t).outcome w).2.Stores t ((c.write?.map fun p => m.write p.1 p.2).getD m) ∧
      ((∃ e, ((c.run t).outcome w).1 = .error e) → ((c.run t).outcome w).2 = w) := by
  have ht := h.lawful
  have hm := h.contents
  -- A write changes the contents or fails; all other calls read them.
  cases c with
  | set key value =>
    have hanswers := answers_set m (w.table t) key value
    rw [outcome_run_set]
    cases hset : (w.table t).set key value with
    | ok entries =>
      rw [hset] at hanswers
      exact ⟨hanswers, h.set_self hset, fun ⟨_, he⟩ => nomatch he⟩
    | error fault =>
      rw [hset] at hanswers
      have hidentity : key.identity? = none :=
        SlotKey.ofValue_eq_error_iff.mp ⟨fault, Table.set_eq_error_iff.mp hset⟩
      refine ⟨hanswers, ?_, fun _ => rfl⟩
      simp only [TableCall.write?, Option.map_some, Option.getD_some]
      rw [Contents.write_of_none hidentity]
      exact h
  | get key =>
    refine ⟨?_, h, fun _ => rfl⟩
    exact congrArg (fun v => Except.ok (TableAnswer.value v)) (hm ▸ ht.get_eq key)
  | contains key =>
    refine ⟨⟨_, rfl, ?_⟩, h, fun _ => rfl⟩
    rw [ht.contains_iff, hm]
  | length =>
    refine ⟨⟨_, rfl, ?_⟩, h, fun _ => rfl⟩
    rw [← hm]
    exact ht.isGreatest_length
  | sequence =>
    refine ⟨⟨_, rfl, ?_, ?_⟩, h, fun _ => rfl⟩
    · rw [← hm]
      exact ht.isGreatest_length
    · rw [← hm]
      exact fun i v hv => ht.sequence_getElem? hv
  | pairs =>
    refine ⟨⟨_, rfl, ht.nodup_pairs, ?_⟩, h, fun _ => rfl⟩
    rw [← hm]
    exact fun p => ht.mem_pairs_iff
  | count =>
    refine ⟨⟨_, rfl, ?_⟩, h, fun _ => rfl⟩
    rw [← hm]
    exact ht.count_eq

/-- **Calls in order** on many tables: one table holds what was written to it. -/
theorem afterCalls (h : w.Stores t m) (calls : List (TableRef × TableCall)) :
    (w.afterCalls calls).Stores t ((writesTo t calls).foldl (fun m p => m.write p.1 p.2) m) := by
  induction calls generalizing w m with
  | nil => exact h
  | cons c calls ih =>
    obtain ⟨u, c⟩ := c
    -- The first call is on this table or on another one.
    have hafter : w.afterCalls ((u, c) :: calls) = (((c.run u).outcome w).2).afterCalls calls := rfl
    rw [hafter, writesTo, List.filterMap_cons]
    by_cases htu : u = t
    · subst htu
      have hnext := ih (h.call c).2.1
      rw [if_pos rfl]
      cases hc : c.write? <;> simpa [hc, writesTo] using hnext
    · rw [if_neg htu]
      exact ih (h.call_ne (Ne.symm htu) c)

end World.Stores

/-- What is made holds what it was made of. -/
theorem stores_newTable {values : List ScriptValue} (h : values.length < 2 ^ 63) (w : World) :
    ({ w with tables := w.tables.push (.ofSequence values) } : World).Stores w.tables.next
      (Contents.ofWrites (Table.sequenceWrites values)) := by
  obtain ⟨hlawful, hcontents⟩ := Table.lawful_ofSequence h
  have hget : (w.tables.push (.ofSequence values)).get? w.tables.next = some (.ofSequence values) :=
    Store.get?_push_self _ _
  have htable : ({ w with tables := w.tables.push (.ofSequence values) } : World).table
      w.tables.next = .ofSequence values := by
    rw [World.table, hget]
    rfl
  -- The new table is the one under its reference.
  refine ⟨⟨_, hget⟩, ?_, ?_⟩
  · rw [htable]
    exact hlawful
  · rw [htable]
    exact hcontents

/-- **Tables are finite maps over what their keys mean.** A table is made of a sequence in any world,
and calls follow on it and on other tables. Whatever is called next on the table is answered as a map
would answer that holds the values of the sequence at one and following and then was written by these
calls: the same keys are those that are the same boolean, string or shared thing or numbers of one
value. A call that fails has changed nothing. -/
theorem tables_are_finite_maps (w : World) (values : List ScriptValue)
    (h : values.length < 2 ^ 63) (calls : List (TableRef × TableCall)) (c : TableCall) :
    ∃ t made, (newTable (.ofSequence values) : Act ScriptError TableRef).outcome w = (.ok t, made) ∧
      c.Answers (Contents.ofWrites (Table.sequenceWrites values ++ writesTo t calls))
        ((c.run t).outcome (made.afterCalls calls)).1 ∧
      ((∃ e, ((c.run t).outcome (made.afterCalls calls)).1 = .error e) →
        ((c.run t).outcome (made.afterCalls calls)).2 = made.afterCalls calls) := by
  -- The writes of the sequence come first, and then those of the calls.
  have hstores := (stores_newTable h w).afterCalls calls
  rw [Contents.ofWrites, ← List.foldl_append] at hstores
  obtain ⟨hanswers, -, hfails⟩ := hstores.call c
  exact ⟨w.tables.next, _, rfl, hanswers, hfails⟩

/-- A table with a gap, written at its first place under a float and then under what is no number,
while another table is written: the float's value is read under the integer. -/
theorem tables_are_finite_maps_floatKey :
    [ScriptValue.nil, .integer 7].length < 2 ^ 63 ∧
      ∃ t made, (newTable (.ofSequence [.nil, .integer 7]) : Act ScriptError TableRef).outcome
          (World.start .default Ref.index) = (.ok t, made) ∧
        (((TableCall.get (.integer 1)).run t).outcome (made.afterCalls
          [(⟨1⟩, .set (.number (Binary64.ofInt 1)) (.string "one")),
            (⟨1⟩, .set (.number Binary64.nan) .nil), (⟨0⟩, .set (.integer 1) .nil)])).1 =
          .ok (.value (.string "one")) := by
  refine ⟨by decide, ?_⟩
  obtain ⟨t, made, hmade, hanswers, -⟩ := tables_are_finite_maps
    (World.start .default Ref.index) [.nil, .integer 7] (by decide)
    [(⟨1⟩, .set (.number (Binary64.ofInt 1)) (.string "one")),
      (⟨1⟩, .set (.number Binary64.nan) .nil), (⟨0⟩, .set (.integer 1) .nil)] (.get (.integer 1))
  -- The table that was made is the second one, after the globals.
  obtain rfl : ⟨1⟩ = t := Except.ok.inj (congrArg Prod.fst hmade)
  refine ⟨⟨1⟩, made, hmade, hanswers.trans ?_⟩
  refine congrArg (fun v => Except.ok (TableAnswer.value v)) ?_
  decide +kernel

end ScriptHost
