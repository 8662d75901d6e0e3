import Mathlib.Order.Bounds.Basic
import ScriptHost.Proofs.Afterlife.Onward
import ScriptHost.Proofs.Conversion.SideBySide
import ScriptHost.Proofs.Instants.Faithful
import ScriptHost.Proofs.Tables.SequencePart

/-!
# Arrays are converted whole or not at all

A table becomes an array if every value of its sequence part converts, and the first one that does not is
what the failure names. `toHost_arrayAnswer` says so of the elements in turn. Here an element is judged on
its own, in the world in which the conversion begins: that the elements before it have been converted makes
no difference to it, because these conversions run side by side (`fits_iff_of_during`).

The same goes for entries outside of the sequence part. A world in which the table has other ones is a twin
of the first (`World.Edited.twins`), as long as proxies reach the same in both.
-/

set_option autoImplicit false

namespace ScriptHost

open Act

namespace World

variable {w w' w₁ : World} {via : BindingRef} {element t : HostType} {r : TableRef} {v : ScriptValue}

/-- The value converts, on its own in this world. -/
def Fits (w : World) (via : BindingRef) (t : HostType) (v : ScriptValue) : Prop :=
  ∃ x, ((toHost via t v).outcome w).1 = .ok x

/-- The places of the sequence part whose values do not convert, each on its own. -/
def misfits (w : World) (via : BindingRef) (element : HostType) (r : TableRef) : Set Nat :=
  {n | 1 ≤ n ∧ n ≤ (w.table r).length ∧ ¬ w.Fits via element ((w.table r).item n)}

/-- The failure that names the element at a place. -/
def elementError (w : World) (element : HostType) (r : TableRef) (n : Nat) : ConversionError :=
  .arrayElement (HostType.array element).name n ((w.table r).item n).kind
    (w.naturalType ((w.table r).item n)) element.name

/-- What a conversion is about is alive: the table, and the classes that the type names. -/
structure InHand (w : World) (element : HostType) (r : TableRef) : Prop where
  faithful : w.Faithful
  closed : w.Closed
  type : ∀ k ∈ handles element, w.alive k = true
  table : w.alive r.handle = true

namespace InHand

variable (h : w.InHand element r)
include h

/-- The element type is safe because its classes are alive. -/
theorem safe_type : w.AllSafe element := fun k hk => safe_of_alive (h.type k hk)

/-- The table is safe because it is alive. -/
theorem safe_table : w.AllSafe (ScriptValue.table r) := .table (safe_of_alive h.table)

/-- So is what its sequence consists of. -/
theorem safe_of_mem (hv : v ∈ (w.table r).sequence) : w.AllSafe v :=
  AllSafe.list_iff.mp (Table.allSafe_sequence
    ((Since.refl h.closed).table (h.safe_table _ List.mem_cons_self))) v hv

/-! ### Elements on their own -/

/-- **It makes no difference what was converted before.** -/
theorem fits_iff_of_during (hw₁ : w.During w₁) (hv : v ∈ (w.table r).sequence) :
    w₁.Fits via element v ↔ w.Fits via element v := by
  have hbeside : Beside False w w w w₁ := ⟨.refl h.closed, hw₁, False.elim⟩
  have htype : w.BothSafe w element := ⟨h.safe_type, h.safe_type⟩
  have hvalue : w.BothSafe w v := ⟨h.safe_of_mem hv, h.safe_of_mem hv⟩
  exact (SideBySide.toHost (.refl h.faithful) via htype hvalue w w₁ hbeside).verdict.ok_iff.symm

/-- Elements that convert in turn convert on their own. -/
theorem fits_of_inTurn {vs : List ScriptValue} {xs : List HostValue}
    (hturn : InTurn via element w₁ vs xs w') (hw₁ : w.During w₁)
    (hvs : ∀ v ∈ vs, v ∈ (w.table r).sequence) : ∀ v ∈ vs, w.Fits via element v := by
  induction hturn with
  | nil => exact fun _ hv => absurd hv List.not_mem_nil
  | @cons w₁ w₂ w' v x vs xs hv hrest ih =>
    obtain ⟨hfirst, hothers⟩ := List.forall_mem_cons.mp hvs
    have hfits : w₁.Fits via element v := ⟨x, by rw [hv]⟩
    have hnext := (Steady.toHost h.safe_type (h.safe_of_mem hfirst) via).during w₁ hw₁
    rw [hv] at hnext
    exact List.forall_mem_cons.mpr ⟨(h.fits_iff_of_during hw₁ hfirst).mp hfits, ih hnext hothers⟩

/-- **All or the first failure**, told with the places of the table. -/
theorem array_result (via : BindingRef) : (w.misfits via element r = ∅ ∧
      ∃ xs, ((toHost via (.array element) (.table r)).outcome w).1 = .ok (.array xs)) ∨
    ∃ n, IsLeast (w.misfits via element r) n ∧
      ((toHost via (.array element) (.table r)).outcome w).1 = .error (w.elementError element r n) := by
  have hanswer := toHost_arrayAnswer via element r w
  generalize (toHost via (.array element) (.table r)).outcome w = p at hanswer
  cases hanswer with
  | @all xs w' hall =>
    refine .inl ⟨Set.eq_empty_of_forall_notMem ?_, xs, rfl⟩
    rintro n ⟨hpos, hle, hmisfit⟩
    have hmem := Table.item_mem_sequence hpos hle
    exact hmisfit (h.fits_of_inTurn hall (.refl h.closed) (fun _ hv => hv) _ hmem)
  | @stops pre post v xs w₁ w₂ e hvs hpre hv =>
    have hplace : (w.table r).sequence[pre.length]? = some v := by rw [hvs]; simp
    have hitem : v = (w.table r).item (pre.length + 1) := Table.getElem?_sequence hplace
    have hmem : v ∈ (w.table r).sequence := List.mem_of_getElem? hplace
    have hbefore : ∀ u ∈ pre, u ∈ (w.table r).sequence := fun u hu =>
      hvs ▸ List.mem_append_left _ hu
    -- The worlds in which the element is met and left are on the way from the first one.
    have hw₁ : w.During w₁ :=
      hpre.during (.refl h.closed) h.safe_type fun u hu => h.safe_of_mem (hbefore u hu)
    have hw₂ : w.During w₂ := by
      have hafter := (Steady.toHost h.safe_type (h.safe_of_mem hmem) via).during w₁ hw₁
      rwa [hv] at hafter
    refine .inr ⟨pre.length + 1, ⟨⟨Nat.le_add_left 1 _, ?_, ?_⟩, ?_⟩, ?_⟩
    · exact (List.getElem?_eq_some_iff.mp hplace).1
    · rw [← hitem, ← h.fits_iff_of_during hw₁ hmem]
      rintro ⟨x, hx⟩
      cases hx.symm.trans (congrArg Prod.fst hv)
    · rintro n ⟨hpos, hle, hmisfit⟩
      by_contra hlt
      have hget := Table.sequence_getElem?_of_le hpos hle
      rw [hvs, List.getElem?_append_left (by omega)] at hget
      exact hmisfit (h.fits_of_inTurn hpre (.refl h.closed) hbefore _ (List.mem_of_getElem? hget))
    · have htype := naturalType_congr (hw₂.proxyTarget?_eq h.faithful) v
      rw [elementError, ← hitem, htype]

/-- **It succeeds exactly if each element converts.** -/
theorem array_fits_iff : w.Fits via (.array element) (.table r) ↔
    ∀ n, 1 ≤ n → n ≤ (w.table r).length → w.Fits via element ((w.table r).item n) := by
  have hempty : w.misfits via element r = ∅ ↔
      ∀ n, 1 ≤ n → n ≤ (w.table r).length → w.Fits via element ((w.table r).item n) := by
    rw [Set.eq_empty_iff_forall_notMem]
    simp only [misfits, Set.mem_ofPred_eq, not_and, not_not]
  rw [← hempty]
  unfold Fits
  rcases h.array_result via with ⟨hnone, xs, hok⟩ | ⟨n, hleast, herror⟩
  · exact iff_of_true ⟨_, hok⟩ hnone
  · rw [herror]
    exact iff_of_false nofun hleast.nonempty.ne_empty

/-- **It fails exactly with the first place that does not convert.** -/
theorem array_error_iff {e : ConversionError} :
    -- Either no item is a misfit and the conversion succeeds, or it fails with the first misfit.
    ((toHost via (.array element) (.table r)).outcome w).1 = .error e ↔
      ∃ n, IsLeast (w.misfits via element r) n ∧ e = w.elementError element r n := by
  rcases h.array_result via with ⟨hnone, xs, hok⟩ | ⟨n, hleast, herror⟩
  · rw [hok]
    refine iff_of_false nofun ?_
    rintro ⟨n, hleast, -⟩
    exact hleast.nonempty.ne_empty hnone
  · rw [herror]
    constructor
    · intro he
      exact ⟨n, hleast, (Except.error.inj he).symm⟩
    · rintro ⟨m, hm, rfl⟩
      rw [hm.unique hleast]

end InHand

/-! ### Entries outside of the sequence part -/

/-- Another world in which a table has other entries outside of its sequence part. All else is the same,
and proxies reach the same. -/
structure Edited (r : TableRef) (w w' : World) : Prop where
  rest : w' = { w with tables := w'.tables }
  others : ∀ s, s ≠ r → w'.table s = w.table s
  sequence : (w'.table r).sequence = (w.table r).sequence
  lawful : (w.table r).Lawful
  lawful' : (w'.table r).Lawful
  reached : ∀ u, w'.proxyTarget? u = w.proxyTarget? u

/-- Conversions cannot tell the two apart, if there is a sequence part. -/
theorem Edited.twins (h : w.Edited r w') (hw : w.Faithful) (hw' : w'.Faithful)
    (hsequence : (w.table r).sequence ≠ []) : w.Twins w' where
  faithful := hw
  faithful' := hw'
  classes := by rw [h.rest]
  bindings b := by rw [h.rest]; rfl
  reached := h.reached
  tables s := by
    -- Both tables have keys that are no strings, for their sequence is not empty.
    by_cases hs : s = r
    · subst hs
      refine ⟨h.sequence, .inr ⟨?_, ?_⟩⟩
      · exact h.lawful.otherKey?_ne_none hsequence
      · exact h.lawful'.otherKey?_ne_none (h.sequence ▸ hsequence)
    · rw [h.others s hs]
      exact ⟨rfl, .inl rfl⟩

namespace Edited

variable (h : w.Edited r w') (hw : w.InHand element r) (hw' : w'.InHand element r)
include h

/-- The edited table has as many items. -/
theorem length_eq : (w'.table r).length = (w.table r).length :=
  congrArg List.length h.sequence

/-- It has the same items. -/
theorem item_eq {n : Nat} (hpos : 1 ≤ n) (hn : n ≤ (w.table r).length) :
    (w'.table r).item n = (w.table r).item n := by
  have hget := Table.sequence_getElem?_of_le hpos hn
  have hget' := Table.sequence_getElem?_of_le hpos (h.length_eq ▸ hn)
  rw [h.sequence] at hget'
  exact Option.some.inj (hget'.symm.trans hget)

include hw hw'

/-- Both worlds are on their ways, which have added nothing yet. -/
theorem beside : Beside True w w' w w' :=
  ⟨.refl hw.closed, .refl hw'.closed, fun _ => by rw [h.rest]⟩

/-- A conversion succeeds in both worlds with the same value, or fails in both. -/
theorem verdict (via : BindingRef) (hsequence : (w.table r).sequence ≠ []) (ht : w.BothSafe w' t)
    (hv : w.BothSafe w' v) :
    SameVerdict True ((toHost via t v).outcome w).1 ((toHost via t v).outcome w').1 := by
  have htwins := h.twins hw.faithful hw'.faithful hsequence
  exact (SideBySide.toHost htwins via ht hv w w' (h.beside hw hw')).verdict

/-- The same places do not convert. -/
theorem misfits_eq (hsequence : (w.table r).sequence ≠ []) :
    w'.misfits via element r = w.misfits via element r := by
  ext n
  unfold misfits
  rw [Set.mem_ofPred_eq, Set.mem_ofPred_eq, h.length_eq]
  refine and_congr_right fun hpos => and_congr_right fun hn => not_congr ?_
  have hmem := Table.item_mem_sequence hpos hn
  have hmem' := Table.item_mem_sequence hpos (h.length_eq ▸ hn)
  rw [h.item_eq hpos hn] at hmem' ⊢
  exact (h.verdict hw hw' via hsequence ⟨hw.safe_type, hw'.safe_type⟩
    ⟨hw.safe_of_mem hmem, hw'.safe_of_mem hmem'⟩).ok_iff.symm

/-- **Entries outside of the sequence part make no difference.** -/
theorem result_eq : ((toHost via (.array element) (.table r)).outcome w').1 =
    ((toHost via (.array element) (.table r)).outcome w).1 := by
  by_cases hsequence : (w.table r).sequence = []
  · rw [outcome_toHost_array, outcome_toHost_array, h.sequence, hsequence]
    rfl
  · have htype : w.BothSafe w' (HostType.array element) := ⟨hw.safe_type, hw'.safe_type⟩
    have hverdict := h.verdict hw hw' via hsequence htype ⟨hw.safe_table, hw'.safe_table⟩
    generalize hp : ((toHost via (.array element) (.table r)).outcome w).1 = p at hverdict ⊢
    generalize hp' : ((toHost via (.array element) (.table r)).outcome w').1 = p' at hverdict ⊢
    cases hverdict with
    | ok heq => rw [heq trivial]
    | error e e' =>
      obtain ⟨n, hleast, rfl⟩ := hw.array_error_iff.mp hp
      obtain ⟨n', hleast', rfl⟩ := hw'.array_error_iff.mp hp'
      -- The same place is the first in both, and the same value is there.
      rw [h.misfits_eq hw hw' hsequence] at hleast'
      obtain rfl : n' = n := hleast'.unique hleast
      obtain ⟨hpos, hn, -⟩ := hleast.1
      rw [elementError, elementError, h.item_eq hpos hn, naturalType_congr h.reached]

omit h hw hw' in
/-- Other entries are put into the table. -/
theorem of_set {x : Table} (hr : r.index < w.tables.size) (hx : x.Lawful) (ht : (w.table r).Lawful)
    (hsequence : x.sequence = (w.table r).sequence)
    (hreached : ∀ u, proxyTarget? { w with tables := w.tables.set r x } u = w.proxyTarget? u) :
    w.Edited r { w with tables := w.tables.set r x } := by
  have hset : table { w with tables := w.tables.set r x } r = x := by
    unfold World.table
    rw [Store.get?_set_self w.tables x hr]
    rfl
  refine ⟨rfl, fun s hs => ?_, ?_, ht, ?_, hreached⟩
  · unfold World.table
    rw [Store.get?_set_ne w.tables x hs]
  · rw [hset, hsequence]
  · rwa [hset]

end Edited

/-- It is in hand with other entries as well, if it is alive with them. -/
theorem InHand.set (h : w.InHand element r) {x : Table} (hx : ScriptHost.Known (w.known true) x)
    (hnil : x.NoNil)
    (helement : ∀ k ∈ handles element, alive { w with tables := w.tables.set r x } k = true)
    (hr : alive { w with tables := w.tables.set r x } r.handle = true) :
    InHand { w with tables := w.tables.set r x } element r where
  faithful := by
    refine ⟨h.faithful.known.setTable r hx, fun q y hy => ?_⟩
    rcases Store.get?_set_cases hy with rfl | hy
    · exact hnil
    · exact h.faithful.noNil q y hy
  closed := { h.closed with }
  type := helement
  table := hr

/-- The end of a session is met at its last instant. -/
theorem exists_instant_after (ops : Program) (w : World) :
    ∃ i ∈ w.instants ops, i.world = w.after ops :=
  ⟨_, List.mem_of_getLast? (getLast?_instants ops w), rfl⟩

/-- The worlds of a run are faithful and closed. -/
theorem inHand_instants (c : Config) (layout : Ref .object → Nat) {ops : Program}
    (hops : Op.allClosed ops = true) {i : Instant} (hi : i ∈ (start c layout).instants ops)
    (helement : ∀ k ∈ handles element, i.world.alive k = true) (hr : i.world.alive r.handle = true) :
    i.world.InHand element r := by
  obtain ⟨hsince, -, -⟩ := instants_ordered ops hops (.start c layout)
  exact ⟨(faithful_instants c layout ops i hi).world, (hsince (.refl (.start c layout)) i hi).closed,
    helement, hr⟩

end World

/-- **All or the first failure.** The sequence part of a table holds the values at `1` and following, up to
the border. A table becomes an array by converting them in turn: it becomes the array of what they convert
to, in their order, or the first that does not convert is told (`ArrayAnswer`), so that two tables with one
sequence part become the same. In a world in which the table and the classes of the type are alive, as they
may be at any instant of a run, the elements can be judged on their own: the conversion succeeds exactly if
each place up to the border converts, and it fails exactly with the least place that does not, and the kind
and the natural type of the value there. Other entries outside of the sequence part make no difference, as
long as proxies reach the same. -/
theorem array_all_or_first_failure :
    (∀ t : Table, t.sequence = ((List.range t.length).map fun i => t.item (i + 1)) ∧
      (t.Lawful → IsGreatest {n | n < 2 ^ 63 ∧ ∀ i, 1 ≤ i → i ≤ n →
        t.contains (.integer (Int64.ofNat i)) = true} t.length)) ∧
    (∀ (w : World) via element r, ArrayAnswer via element w (w.table r).sequence
      ((toHost via (.array element) (.table r)).outcome w)) ∧
    (∀ (w : World) via element r s, (w.table r).sequence = (w.table s).sequence →
      (toHost via (.array element) (.table r)).outcome w =
        (toHost via (.array element) (.table s)).outcome w) ∧
    (∀ (c : Config) layout (ops : Program), Op.allClosed ops = true →
      ∀ i ∈ (World.start c layout).instants ops, ∀ element r,
        (∀ k ∈ handles element, i.world.alive k = true) → i.world.alive r.handle = true →
          i.world.InHand element r) ∧
    (∀ (w : World) via element r, w.InHand element r →
      (w.Fits via (.array element) (.table r) ↔
        ∀ n, 1 ≤ n → n ≤ (w.table r).length → w.Fits via element ((w.table r).item n)) ∧
      ∀ e, ((toHost via (.array element) (.table r)).outcome w).1 = .error e ↔
        ∃ n, IsLeast (w.misfits via element r) n ∧ e = w.elementError element r n) ∧
    ∀ (w w' : World) via element r, w.InHand element r → w'.InHand element r → w.Edited r w' →
      ((toHost via (.array element) (.table r)).outcome w').1 =
        ((toHost via (.array element) (.table r)).outcome w).1 := by
  refine ⟨fun t => ⟨t.sequence_eq_map, fun ht => ht.isGreatest_contains⟩, ?_, ?_, ?_, ?_, ?_⟩
  · exact fun w via element r => toHost_arrayAnswer via element r w
  · exact fun w via element r s => toHost_array_congr
  · exact fun c layout ops hops i hi element r => World.inHand_instants c layout hops hi
  · exact fun w via element r h => ⟨h.array_fits_iff, fun e => h.array_error_iff⟩
  · exact fun w w' via element r hw hw' h => h.result_eq hw hw'

namespace ArrayElements

/-- Points, and two tables with the same sequence part, whose second element is no point. One of them has
the second element under a float, and has entries beyond a hole and under a string. -/
def points : Program :=
  let stored (name : String) : Disposition := ⟨some name, none, false, false⟩
  [.cls (stored "point") ⟨"Point", [.field "x" (.plain (.integer ⟨true, .w32⟩)) "x" true none], some [],
      none⟩,
    .act (stored "first") (.value (.bind (.map [(.string "x", .integer 1)]))),
    .act (stored "second") (.value (.bind (.map [(.string "x", .string "one")]))),
    .act (stored "holey") (.value (.bind (.map [(.number ⟨0x4000000000000000⟩, .var "second" 0),
      (.integer 1, .var "first" 0), (.integer 4, .integer 0), (.string "n", .integer 2)]))),
    .act (stored "plain") (.value (.bind (.sequence (.list [.var "first" 0, .var "second" 0]))))]

/-- The class of points. -/
def pointRef : ClassRef := ⟨⟨0⟩, "Point"⟩

/-- The world after the session. -/
def world : World := (World.start .default fun r => r.index).after points

/-- The same world, but the first table has the entries of the second one. -/
def edited : World := { world with tables := world.tables.set ⟨3⟩ (world.table ⟨4⟩) }

/-- What a table becomes as an array of points. -/
def asPoints (w : World) (r : TableRef) : Except ConversionError HostValue :=
  ((toHost ⟨0⟩ (.array (.object pointRef)) (.table r)).outcome w).1

/-- What a table becomes as a point. -/
def asPoint (r : TableRef) : Except ConversionError HostValue :=
  ((toHost ⟨0⟩ (.object pointRef) (.table r)).outcome world).1

/-- The failure that names the second place. -/
def secondFails : ConversionError := .arrayElement "Point[]" 2 .table "table" "Point"

/-- Both tables are lawful. -/
theorem lawful {r : TableRef} (hr : r = ⟨3⟩ ∨ r = ⟨4⟩) : (world.table r).Lawful := by
  rcases hr with rfl | rfl
  · exact ⟨by unfold Table.NoNil; decide +kernel, by decide +kernel, by decide +kernel⟩
  · exact ⟨by unfold Table.NoNil; decide +kernel, by decide +kernel, by decide +kernel⟩

/-- There is something at the first two places of each table, and nothing at the third one. -/
theorem length_eq_two {r : TableRef} (hr : r = ⟨3⟩ ∨ r = ⟨4⟩) : (world.table r).length = 2 := by
  obtain ⟨⟨-, hfilled⟩, hlargest⟩ := (lawful hr).isGreatest_contains
  refine Nat.le_antisymm (Nat.not_lt.mp fun hlt => ?_) (hlargest ⟨by decide, fun i hmin hmax => ?_⟩)
  · have hthird := hfilled 3 (by decide) hlt
    rcases hr with rfl | rfl
    · exact absurd hthird (by decide +kernel)
    · exact absurd hthird (by decide +kernel)
  · obtain rfl | rfl : i = 1 ∨ i = 2 := by omega
    · rcases hr with rfl | rfl <;> decide +kernel
    · rcases hr with rfl | rfl <;> decide +kernel

/-- They have the same two items. -/
theorem sequence_eq : (world.table ⟨3⟩).sequence = (world.table ⟨4⟩).sequence := by
  rw [Table.sequence_eq_map, Table.sequence_eq_map, length_eq_two (.inl rfl), length_eq_two (.inr rfl)]
  decide +kernel

/-- The first element is a point, the second one is none. -/
theorem isLeast_misfits : IsLeast (world.misfits ⟨0⟩ (.object pointRef) ⟨3⟩) 2 := by
  have hfirst : (world.table ⟨3⟩).item 1 = .table ⟨1⟩ := by decide +kernel
  have hsecond : (world.table ⟨3⟩).item 2 = .table ⟨2⟩ := by decide +kernel
  refine ⟨⟨by decide, (length_eq_two (.inl rfl)).ge, ?_⟩, ?_⟩
  -- The second item is no point.
  · rw [hsecond]
    rintro ⟨x, hx⟩
    have hx : asPoint ⟨2⟩ = .ok x := hx
    have hfails : (asPoint ⟨2⟩).toOption.isSome = false := by decide +kernel
    rw [hx] at hfails
    cases hfails
  -- The first one is.
  · rintro n ⟨hpos, -, hmisfit⟩
    by_contra hlt
    obtain rfl : n = 1 := by omega
    rw [hfirst] at hmisfit
    refine hmisfit ?_
    have hfits : (asPoint ⟨1⟩).toOption.isSome = true := by decide +kernel
    show ∃ x, asPoint ⟨1⟩ = .ok x
    cases hx : asPoint ⟨1⟩ with
    | ok x => exact ⟨x, rfl⟩
    | error e =>
      rw [hx] at hfits
      cases hfits

/-- No proxy was made. -/
theorem proxyTarget?_eq_none (w : World) (hw : w.userdata.size = 0) (u : UserdataRef) :
    w.proxyTarget? u = none := by
  have hnone : w.userdata.get? u = none :=
    Array.getElem?_eq_none (hw.le.trans (Nat.zero_le _))
  unfold World.proxyTarget? World.proxy? World.userdatum
  rw [hnone]
  rfl

/-- With the entries of the second table the first one has the same sequence. -/
theorem world_edited : world.Edited ⟨3⟩ edited := by
  refine .of_set (by decide +kernel) (lawful (.inr rfl)) (lawful (.inl rfl)) sequence_eq.symm ?_
  intro u
  have hbefore : world.proxyTarget? u = none := proxyTarget?_eq_none world (by decide +kernel) u
  have hafter : edited.proxyTarget? u = none := proxyTarget?_eq_none edited (by decide +kernel) u
  exact hafter.trans hbefore.symm

/-- The type names the class of points only. -/
theorem alive_handles {w : World} (hw : w.alive pointRef.ref.handle = true) :
    ∀ k ∈ handles (HostType.object pointRef), w.alive k = true := by
  intro k hk
  rwa [List.mem_singleton.mp hk]

end ArrayElements

open ArrayElements in
/-- The second element is told of both tables, and of the first one when it has the other entries. -/
theorem array_all_or_first_failure_points :
    Op.allClosed points = true ∧ world.InHand (.object pointRef) ⟨3⟩ ∧
      edited.InHand (.object pointRef) ⟨3⟩ ∧ world.Edited ⟨3⟩ edited ∧
      (world.table ⟨3⟩).sequence = (world.table ⟨4⟩).sequence ∧ (world.table ⟨3⟩).Lawful ∧
      IsGreatest {n | n < 2 ^ 63 ∧ ∀ i, 1 ≤ i → i ≤ n →
        (world.table ⟨3⟩).contains (.integer (Int64.ofNat i)) = true} 2 ∧
      asPoints world ⟨3⟩ = .error secondFails ∧ asPoints world ⟨4⟩ = .error secondFails ∧
      asPoints edited ⟨3⟩ = .error secondFails := by
  obtain ⟨htables, -, hsame, hrun, hjudged, hedit⟩ := array_all_or_first_failure
  have hclosed : Op.allClosed points = true := by decide
  have hborder := (htables (world.table ⟨3⟩)).2 (lawful (.inl rfl))
  rw [length_eq_two (.inl rfl)] at hborder
  -- The table is in hand in the world after the session because it is so at the instant that ends it.
  have hinHand : world.InHand (.object pointRef) ⟨3⟩ := by
    obtain ⟨i, hi, hworld⟩ := World.exists_instant_after points (.start .default fun r => r.index)
    have halive := hrun .default _ points hclosed i hi (.object pointRef) ⟨3⟩
    rw [hworld] at halive
    exact halive (alive_handles (by decide +kernel)) (by decide +kernel)
  have hafter : edited.InHand (.object pointRef) ⟨3⟩ :=
    hinHand.set (hinHand.faithful.known.table ⟨4⟩) (lawful (.inr rfl)).noNil
      (alive_handles (by decide +kernel)) (by decide +kernel)
  have hsecond : asPoints world ⟨3⟩ = .error secondFails :=
    ((hjudged world ⟨0⟩ _ ⟨3⟩ hinHand).2 _).mpr ⟨2, isLeast_misfits, by decide +kernel⟩
  have hother : asPoints world ⟨3⟩ = asPoints world ⟨4⟩ :=
    congrArg Prod.fst (hsame world ⟨0⟩ (.object pointRef) ⟨3⟩ ⟨4⟩ sequence_eq)
  have hedited : asPoints edited ⟨3⟩ = asPoints world ⟨3⟩ :=
    hedit world edited ⟨0⟩ (.object pointRef) ⟨3⟩ hinHand hafter world_edited
  exact ⟨hclosed, hinHand, hafter, world_edited, sequence_eq, lawful (.inl rfl), hborder, hsecond,
    hother.symm.trans hsecond, hedited.trans hsecond⟩

end ScriptHost
