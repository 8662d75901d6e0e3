import ScriptHost.Proofs.Proxies.Entry

/-!
# Nothing comes back to life

An object that script cannot reach any more stays out of reach while values that have nothing to do
with it are converted. A conversion to script holds handles for a while and makes tables and proxies
that keep handles alive. As long as none of these handles is a dead one, nothing dead comes back to
life: `World.Spares w w'` says that all that holds something in `w'` and not in `w` holds what is not
dead in `w`.

`Store.Moves` and `World.Moves` say what changes of a world have to be like for that, and
`Spares.moves` that they are harmless.

Main statements: `Spares.dead`, by induction on why a thing is dead, and `toScript_spares`. A cached
proxy may be found again on the way, but only if it is alive, and then it was not dead before.
-/

set_option autoImplicit false

namespace ScriptHost

namespace World

/-- Not dead, or not made yet. -/
def Safe (w : World) (h : Handle) : Prop := h ∈ w.things → ¬ Dead w.roots w.holdings h

/-- A world with at least the same things in which nothing dead is held by anybody new. -/
structure Spares (w w' : World) : Prop where
  things : ∀ h ∈ w.things, h ∈ w'.things
  roots : ∀ h ∈ w'.roots, w.Safe h
  keeps : ∀ a h, Keeps w'.holdings a h → Keeps w.holdings a h ∨ w.Safe h

variable {w w₀ w' : World} {h : Handle}

/-- What is alive is not dead. -/
theorem safe_of_alive (halive : w.alive h = true) : w.Safe h := fun hh => not_dead_of_alive hh halive

namespace Spares

/-- A world has nothing new compared with itself. -/
theorem refl (w : World) : w.Spares w where
  things _ hx := hx
  roots _ hx := safe_of_alive (alive_of_root hx)
  keeps _ _ ha := .inl ha

/-- **What is dead stays dead.** -/
theorem dead (hs : w₀.Spares w) (hdead : Dead w₀.roots w₀.holdings h) (hh : h ∈ w₀.things) :
    Dead w.roots w.holdings h := by
  induction hdead with
  | intro h hroot hkeeps ih =>
    have hnot : ¬ w₀.Safe h := fun hsafe => hsafe hh (.intro h hroot hkeeps)
    refine .intro h (fun hr => hnot (hs.roots h hr)) fun a ha => ?_
    -- Whoever holds it held it before and is dead himself.
    have hkept := (hs.keeps a h ha).resolve_right hnot
    exact ih a hkept (mem_things_of_keeps hkept)

/-- What was dead is still dead. -/
theorem alive_eq_false (hs : w₀.Spares w) (hh : h ∈ w₀.things) (hdead : w₀.alive h = false) :
    w.alive h = false :=
  (alive_eq_false_iff (hs.things h hh)).mpr (hs.dead (dead_of_alive hdead) hh)

/-- What is alive now was not dead before. -/
theorem safe_of_lives (hs : w₀.Spares w) (hl : w.Lives h) : w₀.Safe h := fun hh hdead =>
  not_dead_of_alive hl.made hl.alive (hs.dead hdead hh)

/-- What is new was not dead before. -/
theorem safe_of_new (hs : w₀.Spares w) (hh : h ∉ w.things) : w₀.Safe h := fun hmade _ =>
  hh (hs.things h hmade)

/-- What is held is not dead. -/
theorem held (hs : w₀.Spares w) : ∀ h ∈ w.held, w₀.Safe h := fun h hh =>
  hs.roots h (mem_roots.mpr (.inl hh))

/-- Something else may be held, if it is not dead. -/
theorem holding (hs : w₀.Spares w) {ks : List Handle} (hks : ∀ k ∈ ks, w₀.Safe k) :
    w₀.Spares { w with held := ks } where
  things := hs.things
  roots x hx := (mem_roots.mp hx).elim (hks x) fun hx => hs.roots x (mem_roots.mpr (.inr hx))
  keeps := hs.keeps

/-- What is new was not dead before, since nothing was made where the next thing is put. -/
theorem safe_next (hs : w₀.Spares w) {k : Kind} {α : Type} {s : Store k α}
    (hstore : s.next.handle ∈ w.things → ∃ x, s.get? s.next = some x) :
    w₀.Safe s.next.handle := by
  refine hs.safe_of_new fun hmade => ?_
  obtain ⟨x, hx⟩ := hstore hmade
  rw [Store.get?_next] at hx
  cases hx

end Spares

end World

/-! ### Changes that keep the dead dead -/

/-- In the later store at least the same is made, and what things hold that they did not hold before
is safe. -/
structure Store.Moves (w₀ : World) {k : Kind} {α : Type} [Holds α] (s s' : Store k α) : Prop where
  made : ∀ r x, s.get? r = some x → ∃ y, s'.get? r = some y
  holds : ∀ r, ∀ h ∈ handles (s'.get? r), h ∈ handles (s.get? r) ∨ w₀.Safe h

namespace Store.Moves

variable {w₀ : World} {k : Kind} {α : Type} [Holds α]

/-- A store as it was. -/
theorem refl (s : Store k α) : s.Moves w₀ s := ⟨fun _ x h => ⟨x, h⟩, fun _ _ h => .inl h⟩

/-- Something is added that holds nothing dead. -/
theorem push (s : Store k α) {a : α} (ha : ∀ h ∈ handles a, w₀.Safe h) : s.Moves w₀ (s.push a) where
  made r x h := ⟨x, Store.get?_push_of_some a h⟩
  holds r h hh := by
    cases hx : (s.push a).get? r with
    | none =>
      rw [hx] at hh
      cases hh
    | some x =>
      rw [hx] at hh
      rcases Store.get?_push_cases hx with ⟨-, rfl⟩ | hold
      · exact .inr (ha h (World.mem_handles_some.mp hh))
      · exact .inl (hold ▸ hh)

/-- A thing is changed. What it holds afterwards, it held before or is safe. -/
theorem set (s : Store k α) (r : Ref k) {a : α}
    (ha : ∀ h ∈ handles a, h ∈ handles (s.get? r) ∨ w₀.Safe h) : s.Moves w₀ (s.set r a) where
  made x y h := by
    rw [Store.get?_set, h]
    split
    · exact ⟨a, rfl⟩
    · exact ⟨y, rfl⟩
  holds x h hh := by
    rw [Store.get?_set] at hh
    split at hh
    · next heq =>
      subst heq
      cases hx : s.get? x with
      -- What the changed thing held before, it may hold on to.
      | none =>
        rw [hx] at hh
        cases hh
      | some y =>
        rw [hx] at hh
        exact hx ▸ ha h (World.mem_handles_some.mp hh)
    · exact .inl hh

end Store.Moves

namespace World

/-- A change after which nothing is held from outside or by a thing that was not held there before
and is not safe. -/
structure Moves (w₀ w w' : World) : Prop where
  tables : w.tables.Moves w₀ w'.tables
  functions : w.functions.Moves w₀ w'.functions
  userdata : w.userdata.Moves w₀ w'.userdata
  objects : w.objects.Moves w₀ w'.objects
  classes : w.classes.Moves w₀ w'.classes
  coroutines : w.coroutines.Moves w₀ w'.coroutines
  roots : ∀ h ∈ w'.roots, h ∈ w.roots ∨ w₀.Safe h

variable {w₀ w w' : World}

/-- A world as it was. -/
theorem Moves.refl (w₀ w : World) : w₀.Moves w w where
  tables := .refl _
  functions := .refl _
  userdata := .refl _
  objects := .refl _
  classes := .refl _
  coroutines := .refl _
  roots _ h := .inl h

/-- What was made stays made. -/
theorem Moves.things (hm : w₀.Moves w w') {h : Handle} (hh : h ∈ w.things) : h ∈ w'.things := by
  rw [mem_things] at hh ⊢
  obtain ⟨kind, index⟩ := h
  cases kind with
  | binding => exact hh
  | table =>
    obtain ⟨x, hx⟩ := hh
    exact hm.tables.made _ x hx
  | function =>
    obtain ⟨x, hx⟩ := hh
    exact hm.functions.made _ x hx
  | userdata =>
    obtain ⟨x, hx⟩ := hh
    exact hm.userdata.made _ x hx
  | object =>
    obtain ⟨x, hx⟩ := hh
    exact hm.objects.made _ x hx
  | cls =>
    obtain ⟨x, hx⟩ := hh
    exact hm.classes.made _ x hx
  | coroutine =>
    obtain ⟨x, hx⟩ := hh
    exact hm.coroutines.made _ x hx

/-- What a thing holds it held before, or it is safe. -/
theorem Moves.contents (hm : w₀.Moves w w') (a : Handle) :
    ∀ h ∈ w'.contents a, h ∈ w.contents a ∨ w₀.Safe h := by
  obtain ⟨kind, index⟩ := a
  cases kind with
  | binding => exact fun _ hh => nomatch hh
  | table => exact hm.tables.holds ⟨index⟩
  | function => exact hm.functions.holds ⟨index⟩
  | userdata => exact hm.userdata.holds ⟨index⟩
  | object => exact hm.objects.holds ⟨index⟩
  | cls => exact hm.classes.holds ⟨index⟩
  | coroutine => exact hm.coroutines.holds ⟨index⟩

/-- **Such changes revive nothing.** -/
theorem Spares.moves (hs : w₀.Spares w) (hm : w₀.Moves w w') : w₀.Spares w' where
  things h hh := hm.things (hs.things h hh)
  roots h hh := (hm.roots h hh).elim (hs.roots h) id
  keeps a h hk := by
    rcases hm.contents a h (keeps_iff.mp hk) with hold | hsafe
    · exact hs.keeps a h (keeps_iff.mpr hold)
    · exact .inr hsafe

/-! ### What is made -/

/-- A new table, if nothing in it is dead. -/
theorem Spares.table (hs : w₀.Spares w) {t : Table} (ht : ∀ x ∈ handles t, w₀.Safe x) :
    w₀.Spares { w with tables := w.tables.push t } :=
  hs.moves { Moves.refl w₀ w with tables := .push _ ht }

/-- A new userdata value, if nothing that it holds is dead. -/
theorem Spares.userdata (hs : w₀.Spares w) {d : Userdata} (hd : ∀ x ∈ handles d, w₀.Safe x) :
    w₀.Spares { w with userdata := w.userdata.push d } :=
  hs.moves { Moves.refl w₀ w with userdata := .push _ hd }

/-- What is written to the journal or to a cache holds nothing. -/
theorem Spares.of_eq (hs : w₀.Spares w) (hroots : w'.roots = w.roots)
    (hholdings : w'.holdings = w.holdings) (hthings : w'.things = w.things) : w₀.Spares w' where
  things x hx := hthings ▸ hs.things x hx
  roots x hx := hs.roots x (hroots ▸ hx)
  keeps a x ha := hs.keeps a x (hholdings ▸ ha)

end World

/-- A sequence holds what its values hold. -/
theorem Table.handles_ofSequence {vs : List ScriptValue} {h : Handle}
    (hh : h ∈ handles (Table.ofSequence vs)) : ∃ v ∈ vs, h ∈ handles v := by
  obtain ⟨e, he, hh⟩ := List.mem_flatMap.mp hh
  obtain ⟨⟨v, n⟩, hv, hentry⟩ := List.mem_filterMap.mp he
  unfold Table.sequenceItem? at hentry
  split at hentry
  · cases hentry
  · obtain rfl := Option.some.inj hentry
    have hmem : v ∈ vs := (List.mem_zipIdx hv).2.2 ▸ List.getElem_mem _
    -- The keys are integers and hold nothing.
    rcases List.mem_append.mp hh with hh | hh
    · cases hh
    · exact ⟨v, hmem, hh⟩

namespace Act

open World

variable {ε : Type} {via : BindingRef} {w₀ : World}

/-- The proxy of an object that is in hand: a new one, or the cached one, which is alive then. -/
theorem proxyFor_spares {o : ObjectRef} {u : UserdataRef} {w w' : World}
    (h : (proxyFor via o : Act ε UserdataRef).outcome w = (.ok u, w')) (hs : w₀.Spares w)
    (ho : ∀ k ∈ handles o, w₀.Safe k) : w₀.Spares w' ∧ w₀.Safe u.handle := by
  rw [outcome_proxyFor] at h
  cases hc : w.cachedProxy? via o with
  | some v =>
    rw [hc] at h
    cases h
    -- The cached proxy is alive now, so it was not dead before.
    obtain ⟨-, halive, -⟩ := cachedProxy?_eq_some.mp hc
    have hlives : w.Lives u.handle := ⟨(targets_of_cached hc).made, halive⟩
    exact ⟨hs.of_eq rfl rfl rfl, hs.safe_of_lives hlives⟩
  | none =>
    rw [hc] at h
    cases h
    have hpushed : w₀.Spares { w with
        userdata := w.userdata.push (.proxy ⟨some (.object o), via, o.cls.name⟩) } := by
      refine hs.userdata fun k hk => ho k ?_
      exact List.mem_cons_of_mem _ hk
    exact ⟨hpushed.of_eq rfl rfl rfl, hs.safe_next mem_things.mp⟩

mutual

/-- **Conversion to script revives nothing**, and what it gives holds nothing that was dead. -/
theorem toScript_spares : ∀ (x : HostValue) {w w' : World} {s : ScriptValue},
    (toScript via x : Act ε ScriptValue).outcome w = (.ok s, w') → w₀.Spares w →
    (∀ k ∈ handles x, w₀.Safe k) → w₀.Spares w' ∧ ∀ k ∈ handles s, w₀.Safe k
  | .null, _, _, _, h, hs, _ | .bool _, _, _, _, h, hs, _ | .int _, _, _, _, h, hs, _
  | .float _, _, _, _, h, hs, _ | .string _, _, _, _, h, hs, _ => by
    unfold toScript at h
    cases h
    exact ⟨hs, fun k hk => nomatch hk⟩
  | .uint u, _, _, _, h, hs, _ => by
    unfold toScript ofUInt64 at h
    cases h
    refine ⟨hs, fun k hk => ?_⟩
    split at hk
    · cases hk
    · cases hk
  | .script v, _, _, _, h, hs, hx => by
    unfold toScript at h
    cases h
    exact ⟨hs, hx⟩
  | .array items, w, w', s, h, hs, hx => by
    obtain ⟨vs, w₁, hvs, rfl, rfl⟩ := toScript_array h
    obtain ⟨hs₁, hsafe⟩ := toScriptEach_spares items hvs hs hx hx
    -- The table holds what was given for the items.
    have htable : ∀ k ∈ handles (Table.ofSequence vs), w₀.Safe k := fun k hk => by
      obtain ⟨v, hv, hk⟩ := Table.handles_ofSequence hk
      exact hsafe v hv k hk
    refine ⟨hs₁.table htable, fun k hk => ?_⟩
    obtain rfl := List.mem_singleton.mp hk
    exact hs₁.safe_next mem_things.mp
  | .object o, w, w', s, h, hs, hx => by
    obtain ⟨u, hu, rfl⟩ := toScript_object h
    obtain ⟨hs', hsafe⟩ := proxyFor_spares hu hs hx
    exact ⟨hs', fun k hk => List.mem_singleton.mp hk ▸ hsafe⟩
  | .cls c, w, w', s, h, hs, hx => by
    unfold toScript at h
    cases h
    refine ⟨hs.userdata hx, fun k hk => ?_⟩
    obtain rfl := List.mem_singleton.mp hk
    exact hs.safe_next mem_things.mp

/-- The same for a list, of which the values that are still to come are held. -/
theorem toScriptEach_spares : ∀ (xs : List HostValue) {pending : List Handle} {w w' : World}
    {vs : List ScriptValue},
    (toScriptEach via xs pending : Act ε _).outcome w = (.ok vs, w') → w₀.Spares w →
    (∀ k ∈ pending, w₀.Safe k) → (∀ k ∈ HostValue.heldAll xs, w₀.Safe k) →
      w₀.Spares w' ∧ ∀ v ∈ vs, ∀ k ∈ handles v, w₀.Safe k
  | [], _, w, w', vs, h, hs, _, _ => by
    unfold toScriptEach at h
    cases h
    exact ⟨hs, List.forall_mem_nil _⟩
  | x :: xs, pending, w, w', vs, h, hs, hpending, hxs => by
    obtain ⟨v, w₁, rest, w₂, hv, hrest, rfl, rfl⟩ := toScriptEach_cons h
    -- Whatever is held on the way is not dead: what is pending, what was converted, what was held.
    have hheld : ∀ ks : List Handle, (∀ k ∈ ks, w₀.Safe k) → ∀ k ∈ ks ++ w.held, w₀.Safe k :=
      fun ks hks k hk => (List.mem_append.mp hk).elim (hks k) (hs.held k)
    obtain ⟨hs₁, hv'⟩ := toScript_spares x hv (hs.holding (hheld pending hpending))
      fun k hk => hxs k (List.mem_append_left _ hk)
    obtain ⟨hs₂, hrest'⟩ := toScriptEach_spares xs hrest (hs₁.holding (hheld _ hv'))
      (fun k hk => hpending k (List.mem_of_mem_drop hk))
      fun k hk => hxs k (List.mem_append_right _ hk)
    exact ⟨hs₂.holding hs.held, List.forall_mem_cons.mpr ⟨hv', hrest'⟩⟩

end

end Act

end ScriptHost
