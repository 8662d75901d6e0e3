import ScriptHost.World.Act

/-!
# Liveness without a bound

`World.alive` follows holders for as many steps as there are things. Here the bound goes away: a
thing is dead exactly when it is not held from outside and whoever holds it is dead, which is an
induction over its holders. A thing in a cycle of holders is never dead in this sense.

Main statements: `alive_eq_false_iff`, where the direction from dead to the bounded search counts
down the things that can still be met, and `Extends.alive`: what lives goes on living when more is
held and more is made.
-/

set_option autoImplicit false

namespace ScriptHost

namespace World

/-- One thing keeps another alive. -/
def Keeps (holdings : List (Handle × List Handle)) (a h : Handle) : Prop :=
  ∃ hs, (a, hs) ∈ holdings ∧ h ∈ hs

/-- Not held from outside, and not by anything that is not dead. -/
inductive Dead (roots : List Handle) (holdings : List (Handle × List Handle)) : Handle → Prop where
  | intro (h : Handle) (hroot : h ∉ roots)
      (hkeeps : ∀ a, Keeps holdings a h → Dead roots holdings a) : Dead roots holdings h

section Search

variable {roots roots' : List Handle} {holdings holdings' : List (Handle × List Handle)}

/-- The holders of some things are those that keep one of them alive. -/
theorem mem_holders {hs : List Handle} {a : Handle} :
    a ∈ holders holdings hs ↔ ∃ h ∈ hs, Keeps holdings a h := by
  unfold holders
  simp only [List.mem_map, List.mem_filter, List.any_eq_true, List.contains_iff_mem]
  refine ⟨?_, ?_⟩
  · rintro ⟨⟨a', ks⟩, ⟨hmem, h, hks, hhs⟩, rfl⟩
    exact ⟨h, hhs, ks, hmem, hks⟩
  · rintro ⟨h, hhs, ks, hmem, hks⟩
    exact ⟨(a, ks), ⟨hmem, h, hks, hhs⟩, rfl⟩

/-- Where the search ends without a root, everything was dead. -/
theorem dead_of_heldWithin {n : Nat} {hs : List Handle}
    (h : heldWithin roots holdings n hs = false) : ∀ x ∈ hs, Dead roots holdings x := by
  -- The induction is on the steps of the search; each goes from things to their holders.
  induction n generalizing hs with
  | zero =>
    cases hs with
    | nil => simp
    | cons x xs => cases h
  | succ n ih =>
    cases hs with
    | nil => simp
    | cons y ys =>
      simp only [heldWithin, Bool.or_eq_false_iff] at h
      intro x hx
      have hroot : x ∉ roots := by
        intro hmem
        have := List.any_eq_false.mp h.1 x hx
        simp [hmem] at this
      exact .intro x hroot fun a ha => ih h.2 a (mem_holders.mpr ⟨x, hx, ha⟩)

/-- Whoever holds a dead thing is dead. -/
theorem Dead.holder {a x : Handle} (h : Dead roots holdings x) (ha : Keeps holdings a x) :
    Dead roots holdings a := by
  obtain ⟨_, _, hkeeps⟩ := h
  exact hkeeps a ha

/-- Whoever keeps a dead thing alive, through however many others, is not that thing. -/
theorem Dead.irrefl {x : Handle} (h : Dead roots holdings x) :
    ¬ Relation.TransGen (Keeps holdings) x x := by
  induction h with
  | intro x _ hkeeps ih =>
    intro hcycle
    -- A cycle through `x` goes through a holder of `x`, which is in the same cycle and is dead.
    cases hcycle with
    | single hxx => exact ih x hxx (.single hxx)
    | tail ha hax => exact ih _ hax (.trans (.single hax) ha)

/-- The search ends when all is dead and, for each thing, fewer can be met above it than there are
steps left. Going up one generation, the holder itself cannot be met again. -/
theorem heldWithin_of_dead {n : Nat} {hs : List Handle}
    (h : ∀ x ∈ hs, Dead roots holdings x ∧
      ∃ above : List Handle, above.length < n ∧
        ∀ a, Relation.TransGen (Keeps holdings) a x → a ∈ above) :
    heldWithin roots holdings n hs = false := by
  -- Again on the steps, with a bound on what is above each thing in place of a bound on the things.
  induction n generalizing hs with
  | zero =>
    cases hs with
    | nil => rfl
    | cons x xs =>
      obtain ⟨-, above, hlt, -⟩ := h x List.mem_cons_self
      exact absurd hlt (Nat.not_lt_zero _)
  | succ n ih =>
    cases hs with
    | nil => rfl
    | cons y ys =>
      simp only [heldWithin, Bool.or_eq_false_iff]
      refine ⟨?_, ?_⟩
      · refine List.any_eq_false.mpr fun x hx => ?_
        obtain ⟨⟨_, hroot, _⟩, _⟩ := h x hx
        simpa using hroot
      · refine ih fun a ha => ?_
        obtain ⟨x, hx, hax⟩ := mem_holders.mp ha
        obtain ⟨⟨_, _, hkeeps⟩, above, hlt, habove⟩ := h x hx
        have hdead := hkeeps a hax
        have hmem : a ∈ above := habove a (.single hax)
        -- The holder is above `x` but not above itself, so there is one less above it.
        refine ⟨hdead, above.erase a, ?_, fun c hc => ?_⟩
        · rw [List.length_erase_of_mem hmem]
          have := List.length_pos_of_mem hmem
          omega
        · have hne : c ≠ a := by
            rintro rfl
            exact hdead.irrefl hc
          exact (List.mem_erase_of_ne hne).mpr (habove c (.tail hc hax))

/-- What is dead was dead when fewer kept others alive. -/
theorem Dead.of_keeps (hroots : ∀ x ∈ roots, x ∈ roots')
    (hkeeps : ∀ a x, Keeps holdings a x → Keeps holdings' a x) {x : Handle}
    (h : Dead roots' holdings' x) : Dead roots holdings x := by
  induction h with
  | intro x hroot _ ih =>
    exact .intro x (fun hx => hroot (hroots x hx)) fun a ha => ih a (hkeeps a x ha)

/-- What is dead was dead when less was held. -/
theorem Dead.anti (hroots : ∀ x ∈ roots, x ∈ roots') (hholdings : ∀ p ∈ holdings, p ∈ holdings')
    {x : Handle} (h : Dead roots' holdings' x) : Dead roots holdings x := by
  refine h.of_keeps hroots fun a x ha => ?_
  obtain ⟨hs, hmem, hx⟩ := ha
  exact ⟨hs, hholdings _ hmem, hx⟩

end Search

variable {w w' : World} {h : Handle}

/-- The things of a world are those that its stores have. -/
theorem mem_things : h ∈ w.things ↔ match h.kind with
    | .table => ∃ x, w.tables.get? ⟨h.index⟩ = some x
    | .function => ∃ x, w.functions.get? ⟨h.index⟩ = some x
    | .userdata => ∃ x, w.userdata.get? ⟨h.index⟩ = some x
    | .object => ∃ x, w.objects.get? ⟨h.index⟩ = some x
    | .cls => ∃ x, w.classes.get? ⟨h.index⟩ = some x
    | .coroutine => ∃ x, w.coroutines.get? ⟨h.index⟩ = some x
    | .binding => False := by
  -- The references of a store are those under which it has something.
  have hrefs {k : Kind} {α : Type} (s : Store k α) (a : Handle) :
      a ∈ s.refs.map Ref.handle ↔ a.kind = k ∧ ∃ x, s.get? ⟨a.index⟩ = some x := by
    simp only [List.mem_map, Store.mem_refs]
    constructor
    · rintro ⟨r, hr, rfl⟩
      exact ⟨rfl, hr⟩
    · rintro ⟨rfl, hx⟩
      exact ⟨⟨a.index⟩, hx, rfl⟩
  simp only [things, List.mem_append, hrefs]
  cases h.kind <;> simp

theorem mem_handles_some {α : Type} [Holds α] {x : α} : h ∈ handles (some x) ↔ h ∈ handles x := by
  simp [handles]

/-- What holds something was made. -/
theorem mem_things_of_mem_contents {a : Handle} (hh : h ∈ w.contents a) : a ∈ w.things := by
  have hmade {α : Type} [Holds α] {x? : Option α} (hx : h ∈ handles x?) : ∃ x, x? = some x := by
    cases x? with
    | some x => exact ⟨x, rfl⟩
    | none => cases hx
  rw [mem_things]
  unfold contents at hh
  obtain ⟨kind, index⟩ := a
  cases kind with
  | binding => cases hh
  | _ => exact hmade hh

/-- **What a thing keeps alive is what it holds.** -/
theorem keeps_iff {a : Handle} : Keeps w.holdings a h ↔ h ∈ w.contents a := by
  unfold Keeps holdings
  simp only [List.mem_map]
  constructor
  · rintro ⟨hs, ⟨b, -, heq⟩, hh⟩
    obtain ⟨rfl, rfl⟩ := Prod.mk.inj heq
    exact hh
  · intro hh
    exact ⟨_, ⟨a, mem_things_of_mem_contents hh, rfl⟩, hh⟩

/-- What keeps something alive was made. -/
theorem mem_things_of_keeps {a : Handle} (ha : Keeps w.holdings a h) : a ∈ w.things :=
  mem_things_of_mem_contents (keeps_iff.mp ha)

/-- What is above something keeps something alive itself. -/
theorem keeps_of_transGen {holdings : List (Handle × List Handle)} {a x : Handle}
    (ha : Relation.TransGen (Keeps holdings) a x) : ∃ c, Keeps holdings a c := by
  induction ha with
  | single h => exact ⟨_, h⟩
  | tail _ _ ih => exact ih

/-- What is not alive is dead. -/
theorem dead_of_alive (h' : w.alive h = false) : Dead w.roots w.holdings h :=
  dead_of_heldWithin h' h List.mem_cons_self

/-- **Alive without a bound**: a thing is not alive exactly when it is dead. -/
theorem alive_eq_false_iff (hh : h ∈ w.things) :
    w.alive h = false ↔ Dead w.roots w.holdings h := by
  refine ⟨dead_of_alive, fun hdead => heldWithin_of_dead fun x hx => ?_⟩
  obtain rfl := List.mem_singleton.mp hx
  refine ⟨hdead, w.things.erase x, ?_, fun a ha => ?_⟩
  · rw [List.length_erase_of_mem hh]
    have := List.length_pos_of_mem hh
    omega
  · have hne : a ≠ x := by
      rintro rfl
      exact hdead.irrefl ha
    obtain ⟨c, hc⟩ := keeps_of_transGen ha
    exact (List.mem_erase_of_ne hne).mpr (mem_things_of_keeps hc)

/-- What is not dead is alive. -/
theorem alive_of_not_dead (hdead : ¬ Dead w.roots w.holdings h) : w.alive h = true := by
  cases halive : w.alive h with
  | true => rfl
  | false => exact absurd (dead_of_alive halive) hdead

/-- What was made and is alive is not dead. -/
theorem not_dead_of_alive (hh : h ∈ w.things) (halive : w.alive h = true) :
    ¬ Dead w.roots w.holdings h := by
  intro hdead
  rw [(alive_eq_false_iff hh).mpr hdead] at halive
  cases halive

/-- What is held from outside is alive. -/
theorem alive_of_root (hr : h ∈ w.roots) : w.alive h = true := by
  refine alive_of_not_dead fun hdead => ?_
  obtain ⟨_, hroot, _⟩ := hdead
  exact hroot hr

/-- The roots are what is held and what is a root whatever is held. -/
theorem mem_roots : h ∈ w.roots ↔ h ∈ w.held ∨ h ∈ ({ w with held := [] } : World).roots := by
  simp [roots]

/-- What is held is alive. -/
theorem alive_of_held (hh : h ∈ w.held) : w.alive h = true := alive_of_root (mem_roots.mpr (.inl hh))

/-- What something alive holds is alive. -/
theorem alive_of_keeps {a : Handle} (ha : w.alive a = true) (hk : Keeps w.holdings a h) :
    w.alive h = true := by
  refine alive_of_not_dead fun hdead => ?_
  exact not_dead_of_alive (mem_things_of_keeps hk) ha (hdead.holder hk)

/-- A world in which at least as much is held from outside, and every thing is as it was. -/
structure Extends (w w' : World) : Prop where
  roots : ∀ h ∈ w.roots, h ∈ w'.roots
  holdings : ∀ p ∈ w.holdings, p ∈ w'.holdings

theorem Extends.refl (w : World) : w.Extends w := ⟨fun _ h => h, fun _ h => h⟩

theorem Extends.trans {w'' : World} (h : w.Extends w') (h' : w'.Extends w'') : w.Extends w'' :=
  ⟨fun x hx => h'.roots x (h.roots x hx), fun p hp => h'.holdings p (h.holdings p hp)⟩

/-- **What lives goes on living** when more is held and more is made. -/
theorem Extends.alive (he : w.Extends w') (hh : h ∈ w.things) (halive : w.alive h = true) :
    w'.alive h = true :=
  alive_of_not_dead fun hdead => not_dead_of_alive hh halive (hdead.anti he.roots he.holdings)

/-- A thing that was made and lives. -/
structure Lives (w : World) (h : Handle) : Prop where
  made : h ∈ w.things
  alive : w.alive h = true

/-- Enough for a world to extend another one: the roots are kept, and all things hold what they held.
-/
theorem Extends.of_roots (hroots : ∀ x ∈ w.roots, x ∈ w'.roots)
    (hthings : ∀ a ∈ w.things, a ∈ w'.things ∧ w'.contents a = w.contents a) : w.Extends w' := by
  refine ⟨hroots, fun p hp => ?_⟩
  obtain ⟨a, ha, rfl⟩ := List.mem_map.mp hp
  obtain ⟨hmem, hcontents⟩ := hthings a ha
  exact List.mem_map.mpr ⟨a, hmem, by rw [hcontents]⟩

/-- What was made stays made. -/
theorem Extends.things (he : w.Extends w') {a : Handle} (ha : a ∈ w.things) : a ∈ w'.things := by
  obtain ⟨b, hb, heq⟩ := List.mem_map.mp (he.holdings _ (List.mem_map.mpr ⟨a, ha, rfl⟩))
  rw [← (Prod.mk.inj heq).1]
  exact hb

/-- **What lives goes on living** in a world that extends it. -/
theorem Lives.extends {h : Handle} (hl : w.Lives h) (he : w.Extends w') : w'.Lives h :=
  ⟨he.things hl.made, he.alive hl.made hl.alive⟩

/-- Holding more lets nothing die. -/
theorem extends_holding (w : World) (hs : List Handle) :
    w.Extends { w with held := hs ++ w.held } := by
  refine .of_roots (fun x hx => ?_) fun a ha => ⟨ha, rfl⟩
  exact mem_roots.mpr ((mem_roots.mp hx).imp_left fun hx => List.mem_append_right hs hx)

end World

end ScriptHost
