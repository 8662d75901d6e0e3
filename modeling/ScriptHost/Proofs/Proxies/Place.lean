import ScriptHost.Proofs.Conversion.Sequence
import ScriptHost.Proofs.Proxies.Entry

/-!
# Where objects end up

Where a host value has an object, the script value that comes of it has a proxy of the object,
through any nesting of arrays. `HostValue.at?` goes down the one and `World.readAt` reads down the
other, and `toScript_leaves` says what stands there.
-/

set_option autoImplicit false

namespace ScriptHost

/-! ### Sequences -/

namespace Table

/-- Looking for a position passes the entries of the items before it. -/
theorem find?_sequence {vs : List ScriptValue} {i n : Nat} {v : ScriptValue} (hv : vs[i]? = some v)
    (hnil : v.isNil = false) (hlt : n + i < 0x8000000000000000) :
    ((vs.zipIdx n).filterMap fun p => sequenceItem? p.1 p.2).find?
      (fun e => e.slot == position (n + i)) =
        some ⟨position (n + i), .integer (Int64.ofNat (n + i)), v⟩ := by
  -- On the items, where the number of the first one goes up.
  induction vs generalizing i n with
  | nil => cases hv
  | cons x xs ih =>
    cases i with
    | zero =>
      obtain rfl := Option.some.inj hv
      simp [sequenceItem?, hnil]
    | succ i =>
      have hrest := ih (n := n + 1) hv (by omega)
      have hadd : n + 1 + i = n + (i + 1) := by omega
      rw [hadd] at hrest
      cases hx : x.isNil with
      | true => simpa [sequenceItem?, hx] using hrest
      | false =>
        have hne : (position n == position (n + (i + 1))) = false := by
          refine beq_false_of_ne fun h => ?_
          have := position_injective (by omega) hlt h
          omega
        simpa [sequenceItem?, hx, List.find?_cons, hne] using hrest

/-- **A sequence reads back**: its items stand at `1`, `2` and so on. -/
theorem get_ofSequence {vs : List ScriptValue} {i : Nat} {v : ScriptValue} (hv : vs[i]? = some v)
    (hnil : v.isNil = false) (hlt : i + 1 < 0x8000000000000000) :
    (ofSequence vs).get (.integer (Int64.ofNat (i + 1))) = v := by
  have hfind := find?_sequence (n := 1) hv hnil (by omega)
  rw [Nat.add_comm 1 i] at hfind
  have hslot : (ofSequence vs).find? (position (i + 1)) = some _ := hfind
  simp only [get, SlotKey.ofValue]
  change (ofSequence vs).slotValue (position (i + 1)) = v
  rw [slotValue, hslot]
  rfl

/-- What is read from a table is held by it. -/
theorem handles_get {t : Table} {key : ScriptValue} {h : Handle} (hh : h ∈ handles (t.get key)) :
    h ∈ handles t := by
  unfold get at hh
  split at hh
  · next s _ =>
    unfold slotValue at hh
    cases he : t.find? s with
    | none => simp [he, handles] at hh
    | some e =>
      rw [he] at hh
      exact List.mem_flatMap.mpr
        ⟨e, List.mem_of_find?_eq_some he, List.mem_append_right _ hh⟩
  · simp [handles] at hh

end Table

/-! ### Where an object ends up -/

/-- What stands in a host value at the end of a path through arrays. -/
def HostValue.at? : HostValue → List Nat → Option HostValue
  | x, [] => some x
  | .array items, i :: p => items[i]?.bind fun x => x.at? p
  | _, _ :: _ => none

namespace World

/-- What script reads from a value along a path through tables, where positions count from one. -/
def readAt (w : World) : ScriptValue → List Nat → ScriptValue
  | v, [] => v
  | .table t, i :: p => w.readAt ((w.table t).get (.integer (Int64.ofNat (i + 1)))) p
  | _, _ :: _ => .nil

/-- Positions that an integer of script can name. -/
def Readable (p : List Nat) : Prop := ∀ i ∈ p, i + 1 < 0x8000000000000000

variable {w w' : World} {u : UserdataRef}

/-- Nothing but nil is read from nil. -/
theorem readAt_nil (p : List Nat) : w.readAt .nil p = .nil := by
  cases p <;> rfl

/-- What is held makes no difference to what is read. -/
theorem readAt_held (w : World) (hs : List Handle) (s : ScriptValue) (p : List Nat) :
    ({ w with held := hs } : World).readAt s p = w.readAt s p := by
  induction p generalizing s with
  | nil => rfl
  | cons i p ih =>
    cases s with
    | table t => exact ih _
    | _ => rfl

/-- What was read is read from then on. -/
theorem Grows.readAt (hg : w.Grows w') {s : ScriptValue} {p : List Nat}
    (h : w.readAt s p = .userdata u) : w'.readAt s p = .userdata u := by
  induction p generalizing s with
  | nil => exact h
  | cons i p ih =>
    cases s with
    | table t =>
      unfold World.readAt at h ⊢
      cases ht : w.tables.get? t with
      | none =>
        simp only [table, ht, Option.getD_none] at h
        exact absurd ((readAt_nil p).symm.trans h) nofun
      | some entries =>
        have heq : w'.table t = w.table t := by
          simp only [table, ht, hg.tables t entries ht]
        rw [heq]
        exact ih h
    | _ => cases h

/-- What can be read from something alive is alive. -/
theorem alive_readAt {s : ScriptValue} {p : List Nat} (h : ∀ x ∈ handles s, w.alive x = true)
    (hread : w.readAt s p = .userdata u) : w.alive u.handle = true := by
  induction p generalizing s with
  | nil =>
    obtain rfl : s = .userdata u := hread
    exact h _ List.mem_cons_self
  | cons i p ih =>
    cases s with
    | table t =>
      -- What is read from the table is held by it, and the table is alive.
      refine ih (fun x hx => ?_) hread
      have hmem := Table.handles_get hx
      cases ht : w.tables.get? t with
      | none => simp [table, ht, Table.empty, handles] at hmem
      | some entries =>
        simp only [table, ht, Option.getD_some] at hmem
        have hx : x ∈ handles (w.tables.get? t) := by
          rw [ht]
          exact List.mem_flatMap.mpr ⟨entries, List.mem_cons_self, hmem⟩
        exact alive_of_keeps (h t.handle List.mem_cons_self) (keeps_iff.mpr hx)
    | _ => cases hread

end World

namespace Act

open World

variable {ε : Type} {via : BindingRef} {o : ObjectRef} {u : UserdataRef}

/-- A value that is not nil stands in the table of an array where its item stood. -/
theorem readAt_sequence {w : World} {vs : List ScriptValue} {v : ScriptValue} {i : Nat}
    {p : List Nat} (hv : vs[i]? = some v) (hlt : i + 1 < 0x8000000000000000)
    (h : w.readAt v p = .userdata u) :
    ({ w with tables := w.tables.push (.ofSequence vs) } : World).readAt (.table w.tables.next)
      (i :: p) = .userdata u := by
  -- An item from which a proxy is read is not nil, so it has an entry.
  have hnil : v.isNil = false := by
    cases v with
    | nil => exact absurd ((readAt_nil p).symm.trans h) nofun
    | _ => rfl
  have htable : ({ w with tables := w.tables.push (.ofSequence vs) } : World).table w.tables.next =
      .ofSequence vs := by
    simp only [table, Store.get?_push_self, Option.getD_some]
  rw [World.readAt, htable, Table.get_ofSequence hv hnil hlt]
  exact (w.grows_table _).readAt h

/-- What a conversion leaves where an object stood: an undisposed proxy of it, which is the entry of
the object if that lives and shares its address with none of what is converted. -/
def Leaves (via : BindingRef) (o : ObjectRef) (hs : List Handle) (w : World) (v : ScriptValue)
    (p : List Nat) (w' : World) : Prop :=
  ∃ u, w'.readAt v p = .userdata u ∧ w'.Targets u o ∧
    (w.Lives o.ref.handle → w.ApartFrom o hs → w'.Entry via o u)

/-- Converting an object leaves its proxy, be it from the cache or new. -/
theorem toScript_object_leaves {a : ObjectRef} {w w' : World} {s : ScriptValue}
    (h : (toScript via (.object a) : Act ε ScriptValue).outcome w = (.ok s, w'))
    (hvia : ∃ b, w.bindings.get? via = some b) (hs : List Handle) :
    Leaves via a hs w s [] w' := by
  obtain ⟨u, hu, rfl⟩ := toScript_object h
  rw [outcome_proxyFor] at hu
  cases hc : w.cachedProxy? via a with
  | some v =>
    rw [hc] at hu
    cases hu
    exact ⟨u, rfl, targets_of_cached hc, fun _ _ => (entry_of_cached hvia hc).of_eq rfl rfl rfl⟩
  | none =>
    rw [hc] at hu
    cases hu
    exact ⟨_, rfl, targets_withProxy w via a, fun _ _ => entry_withProxy hvia⟩

/-- A proxy that can be read from what is held is in use. -/
theorem inUse_of_readAt {w : World} {v : ScriptValue} {p : List Nat}
    (hread : w.readAt v p = .userdata u) (ht : w.Targets u o) (ho : w.Lives o.ref.handle)
    (hheld : ∀ x ∈ handles v, x ∈ w.held) : w.InUse o u where
  object := ho
  held := ⟨ht.made, alive_readAt (fun x hx => alive_of_held (hheld x hx)) hread⟩
  undisposed q hq := by
    obtain ⟨q', t, hq', htarget, -⟩ := ht
    obtain rfl := Option.some.inj (hq'.symm.trans hq)
    rw [htarget]
    exact nofun

mutual

/-- **Where an object stood, its proxy stands**, through any nesting of arrays. -/
theorem toScript_leaves : ∀ {x : HostValue} {w w' : World} {s : ScriptValue},
    (toScript via x : Act ε ScriptValue).outcome w = (.ok s, w') →
    (∃ b, w.bindings.get? via = some b) → ∀ {p : List Nat}, Readable p →
    x.at? p = some (.object o) → Leaves via o x.held w s p w'
  | .null, _, _, _, _, _, p, _, hp | .bool _, _, _, _, _, _, p, _, hp
  | .int _, _, _, _, _, _, p, _, hp | .uint _, _, _, _, _, _, p, _, hp
  | .float _, _, _, _, _, _, p, _, hp | .string _, _, _, _, _, _, p, _, hp
  | .script _, _, _, _, _, _, p, _, hp | .cls _, _, _, _, _, _, p, _, hp => by
    cases p <;> cases hp
  | .object a, w, w', s, h, hvia, [], _, hp => by
    cases hp
    exact toScript_object_leaves h hvia _
  | .object a, _, _, _, _, _, _ :: _, _, hp => by cases hp
  | .array items, _, _, _, _, _, [], _, hp => by cases hp
  | .array items, w, w', s, h, hvia, i :: p, hr, hp => by
    -- The table of the array has the items, and the path goes on from one of them.
    obtain ⟨vs, w₁, hvs, rfl, rfl⟩ := toScript_array h
    obtain ⟨x, hx, hxp⟩ := Option.bind_eq_some_iff.mp hp
    obtain ⟨v, hv, u, hread, htargets, hentry⟩ := toScriptEach_leaves hvs hvia
      (fun j hj => hr j (List.mem_cons_of_mem _ hj)) hx hxp
    refine ⟨u, readAt_sequence hv (hr i List.mem_cons_self) hread,
      htargets.grows (w₁.grows_table _), fun ho hapart => ?_⟩
    exact (hentry ho hapart).of_eq rfl rfl rfl

theorem toScriptEach_leaves : ∀ {xs : List HostValue} {pending : List Handle} {w w' : World}
    {vs : List ScriptValue}, (toScriptEach via xs pending : Act ε _).outcome w = (.ok vs, w') →
    (∃ b, w.bindings.get? via = some b) → ∀ {i : Nat} {p : List Nat} {y : HostValue}, Readable p →
    xs[i]? = some y → y.at? p = some (.object o) →
    ∃ v, vs[i]? = some v ∧ Leaves via o (HostValue.heldAll xs) w v p w'
  | [], _, _, _, _, _, _, _, _, _, _, hy, _ => by cases hy
  | x :: xs, pending, w, w', vs, h, hvia, 0, p, y, hr, hy, hp => by
    obtain ⟨v, w₁, rest, w₂, hv, hrest, rfl, rfl⟩ := toScriptEach_cons h
    obtain rfl := Option.some.inj hy
    obtain ⟨u, hread, htargets, hentry⟩ := toScript_leaves hv hvia hr hp
    have hg : w.Grows { w₁ with held := w.held } := (toScript_grows hv).of_holding
    have hg' := toScriptEach_grows hrest
    -- While the items after it are converted, the proxy is held with what it stands in.
    have hread' : ({ w₁ with held := handles v ++ w.held } : World).readAt v p = .userdata u := by
      rw [readAt_held]
      exact hread
    have htargets' : ({ w₁ with held := handles v ++ w.held } : World).Targets u o := htargets
    have htargets₂ : w₂.Targets u o := htargets'.grows hg'
    refine ⟨v, rfl, u, ?_, htargets₂, fun ho hapart => ?_⟩
    · rw [readAt_held]
      exact hg'.readAt hread'
    · have ho₁ : w₁.Entry via o u := hentry (ho.extends (w.extends_holding pending))
        (hapart.mono (fun k hk => List.mem_append_left _ hk) rfl)
      have huse : ({ w₁ with held := handles v ++ w.held } : World).InUse o u := by
        refine inUse_of_readAt hread' htargets ?_ fun k hk => List.mem_append_left _ hk
        exact (ho.extends hg.extends).extends
          (extends_holding { w₁ with held := w.held } (handles v))
      have he₂ := toScriptEach_entry hrest (ho₁.of_eq rfl rfl rfl) huse
        (hapart.mono (fun k hk => List.mem_append_right _ hk) hg.layout)
      exact he₂.of_eq rfl rfl rfl
  | x :: xs, pending, w, w', vs, h, hvia, i + 1, p, y, hr, hy, hp => by
    obtain ⟨v, w₁, rest, w₂, hv, hrest, rfl, rfl⟩ := toScriptEach_cons h
    -- The item before it makes the world grow, and the rest is as from there.
    have hg : w.Grows { w₁ with held := w.held } := (toScript_grows hv).of_holding
    obtain ⟨b, hb⟩ := hvia
    obtain ⟨v', hv', u, hread, htargets, hentry⟩ :=
      toScriptEach_leaves hrest (hg.bindings via b hb) hr hy hp
    refine ⟨v', hv', u, ?_, htargets, fun ho hapart => ?_⟩
    · rw [readAt_held]
      exact hread
    · refine (hentry ?_ (hapart.mono (fun k hk => List.mem_append_right _ hk) hg.layout)).of_eq
        rfl rfl rfl
      exact (ho.extends hg.extends).extends (extends_holding { w₁ with held := w.held } (handles v))

end

end Act

end ScriptHost
