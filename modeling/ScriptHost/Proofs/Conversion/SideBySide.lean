import ScriptHost.Proofs.Conversion.During

/-!
# Conversions side by side

Two worlds are twins if conversions cannot tell them apart: they have the same classes and bindings,
proxies reach the same in both, and tables have the same sequence part. A table may have other entries in
one of them, if some key of it is no string in both, because such a table becomes an object in neither.

`Act.SideBySide linked w₀ w₀' m m'` runs one act on the way from each of two twins: either both succeed or
both fail. The two ways need not have added the same objects; where they have, the runs are linked, and
then they give the same values and add the same objects again. `SideBySide.toHost` says so of conversions.
That the runs stay on their ways is known from each of them (`Act.Steady`), so the rules are about what the
two have in common.
-/

set_option autoImplicit false

namespace ScriptHost

open Act

/-! ### Twins -/

/-- Two tables that conversions cannot tell apart. -/
structure Table.Twin (t t' : Table) : Prop where
  sequence : t'.sequence = t.sequence
  /-- A table with a key that is no string never becomes an object. -/
  entries : t' = t ∨ otherKey? t ≠ none ∧ otherKey? t' ≠ none

namespace World

/-- **Two worlds that conversions cannot tell apart.** -/
structure Twins (w₀ w₀' : World) : Prop where
  faithful : w₀.Faithful
  faithful' : w₀'.Faithful
  classes : w₀'.classes = w₀.classes
  bindings : ∀ b, w₀'.binding b = w₀.binding b
  reached : ∀ u, w₀'.proxyTarget? u = w₀.proxyTarget? u
  tables : ∀ r, (w₀.table r).Twin (w₀'.table r)

/-- A world is its own twin. -/
theorem Twins.refl {w₀ : World} (hw : w₀.Faithful) : w₀.Twins w₀ :=
  ⟨hw, hw, rfl, fun _ => rfl, fun _ => rfl, fun _ => ⟨rfl, .inl rfl⟩⟩

/-- What holds nothing that is dead in one of the worlds. -/
structure BothSafe (w₀ w₀' : World) {α : Type} [Holds α] (x : α) : Prop where
  left : w₀.AllSafe x
  right : w₀'.AllSafe x

/-- **Two worlds on the way** from two others. Linked ways have added the same objects. -/
structure Beside (linked : Prop) (w₀ w₀' w w' : World) : Prop where
  left : w₀.During w
  right : w₀'.During w'
  objects : linked → w'.objects = w.objects

namespace Beside

variable {linked : Prop} {w₀ w₀' w w' : World} (h : Beside linked w₀ w₀' w w')
  (htwins : w₀.Twins w₀')
include h htwins

/-- The classes are the same on both ways. -/
theorem classes_eq : w'.classes = w.classes :=
  h.right.classes_eq.trans (htwins.classes.trans h.left.classes_eq.symm)

/-- A class is looked up as on the other way. -/
theorem cls_eq (c : ClassRef) : w'.cls c = w.cls c := by
  rw [World.cls, World.cls, h.classes_eq htwins]

/-- So is a binding. -/
theorem binding_eq (b : BindingRef) : w'.binding b = w.binding b :=
  (h.right.binding_eq b).trans ((htwins.bindings b).trans (h.left.binding_eq b).symm)

/-- Proxies reach what they reach on the other way. -/
theorem proxyTarget?_eq (u : UserdataRef) : w'.proxyTarget? u = w.proxyTarget? u :=
  calc w'.proxyTarget? u = w₀'.proxyTarget? u := h.right.proxyTarget?_eq htwins.faithful' u
    _ = w₀.proxyTarget? u := htwins.reached u
    _ = w.proxyTarget? u := (h.left.proxyTarget?_eq htwins.faithful u).symm

/-- Tables are twins on the ways, since they are as they were in the beginning. -/
theorem twin (r : TableRef) : (w.table r).Twin (w'.table r) := by
  rw [h.left.table_eq, h.right.table_eq]
  exact htwins.tables r

end Beside

end World

/-! ### Acts side by side -/

namespace Act

/-- Both succeed, with the same value if the ways are linked, or both fail. -/
inductive SameVerdict (linked : Prop) {ε α : Type} : Except ε α → Except ε α → Prop
  | ok {a b : α} (h : linked → b = a) : SameVerdict linked (.ok a) (.ok b)
  | error (e e' : ε) : SameVerdict linked (.error e) (.error e')

/-- Both succeed or both fail. -/
theorem SameVerdict.ok_iff {linked : Prop} {ε α : Type} {p p' : Except ε α}
    (h : SameVerdict linked p p') : (∃ a, p = .ok a) ↔ ∃ b, p' = .ok b := by
  cases h with
  | ok _ => exact iff_of_true ⟨_, rfl⟩ ⟨_, rfl⟩
  | error _ _ => exact iff_of_false nofun nofun

/-- What two runs have in common: whether they succeed, and what they give and add if they are linked. -/
structure Matches (linked : Prop) {ε α : Type} (p p' : Except ε α × World) : Prop where
  verdict : SameVerdict linked p.1 p'.1
  objects : linked → p'.2.objects = p.2.objects

/-- Two runs go on where both have succeeded. -/
theorem Matches.bind {linked : Prop} {ε α β : Type} {m m' : Act ε α} {k k' : α → Act ε β} {w w' : World}
    (hm : Matches linked (m.outcome w) (m'.outcome w'))
    (hk : ∀ a b w₁ w₁', m.outcome w = (.ok a, w₁) → m'.outcome w' = (.ok b, w₁') →
      (linked → b = a) → (linked → w₁'.objects = w₁.objects) →
      Matches linked ((k a).outcome w₁) ((k' b).outcome w₁')) :
    Matches linked ((m >>= k).outcome w) ((m' >>= k').outcome w') := by
  obtain ⟨hverdict, hobjects⟩ := hm
  rcases hout : m.outcome w with ⟨e | a, w₁⟩ <;> rcases hout' : m'.outcome w' with ⟨e' | b, w₁'⟩ <;>
    rw [hout, hout'] at hverdict hobjects
  -- Both have failed.
  · rw [outcome_bind_error hout, outcome_bind_error hout']
    exact ⟨.error e e', hobjects⟩
  -- One of them fails and the other one does not, which the verdict excludes.
  · cases hverdict
  · cases hverdict
  -- Both have succeeded, so the rest is run in both.
  · cases hverdict with | ok heq =>
    rw [outcome_bind_ok hout, outcome_bind_ok hout']
    exact hk a b w₁ w₁' hout hout' heq hobjects

/-- **Two acts side by side**, on the way from two worlds. -/
def SideBySide (linked : Prop) (w₀ w₀' : World) {ε α : Type} (m m' : Act ε α) : Prop :=
  ∀ w w', World.Beside linked w₀ w₀' w w' → Matches linked (m.outcome w) (m'.outcome w')

namespace SideBySide

variable {linked : Prop} {w₀ w₀' : World} {ε ε' α β γ : Type}

/-- Giving something in both. -/
theorem pure {a b : α} (h : linked → b = a) :
    SideBySide linked w₀ w₀' (pure a : Act ε α) (Pure.pure b) :=
  fun _ _ hw => ⟨.ok h, hw.objects⟩

/-- Failing in both, perhaps for different reasons. -/
theorem throw (e e' : ε) : SideBySide linked w₀ w₀' (throw e : Act ε α) (MonadExcept.throw e') :=
  fun _ _ hw => ⟨.error e e', hw.objects⟩

/-- The same with reasons that depend on the world. -/
theorem failWith (f f' : World → ε) :
    SideBySide linked w₀ w₀' (failWith f : Act ε α) (Act.failWith f') :=
  fun _ _ hw => ⟨.error _ _, hw.objects⟩

/-- What has come about already. -/
theorem ofExcept (r : Except ε α) : SideBySide linked w₀ w₀' (ofExcept r) (Act.ofExcept r) := by
  cases r with
  | ok a => exact pure fun _ => rfl
  | error e => exact throw e e

/-- What the one looks at and what the other looks at. -/
theorem look_bind {f : World → β} {f' : World → γ} {k : β → Act ε α} {k' : γ → Act ε α}
    (hk : ∀ w w', World.Beside linked w₀ w₀' w w' → SideBySide linked w₀ w₀' (k (f w)) (k' (f' w'))) :
    SideBySide linked w₀ w₀' (look f >>= k) (look f' >>= k') := by
  intro w w' hw
  rw [outcome_bind_ok (outcome_look f w), outcome_bind_ok (outcome_look f' w')]
  exact hk w w' hw w w' hw

/-- **One act after another.** The first ones leave both runs on their ways. -/
theorem bind {m m' : Act ε α} {k k' : α → Act ε β} {P P' : α → Prop}
    (hm : SideBySide linked w₀ w₀' m m') (hs : Steady w₀ m P) (hs' : Steady w₀' m' P')
    (hk : ∀ a b, P a → P' b → (linked → b = a) → SideBySide linked w₀ w₀' (k a) (k' b)) :
    SideBySide linked w₀ w₀' (m >>= k) (m' >>= k') := by
  intro w w' hw
  refine (hm w w' hw).bind fun a b w₁ w₁' hout hout' heq hobjects => ?_
  have hleft := hs.during w hw.left
  have hright := hs'.during w' hw.right
  rw [hout] at hleft
  rw [hout'] at hright
  exact hk a b (hs.gives w a w₁ hw.left hout) (hs'.gives w' b w₁' hw.right hout') heq w₁ w₁'
    ⟨hleft, hright, hobjects⟩

/-- What is given is only looked at in another way. -/
theorem map {m m' : Act ε α} {f f' : α → β} (hm : SideBySide linked w₀ w₀' m m')
    (hf : ∀ a, linked → f' a = f a) :
    SideBySide linked w₀ w₀' (m >>= fun a => Pure.pure (f a)) (m' >>= fun a => Pure.pure (f' a)) := by
  intro w w' hw
  refine (hm w w' hw).bind fun a b w₁ w₁' _ _ heq hobjects => ?_
  exact ⟨.ok fun hlinked => by rw [heq hlinked, hf a hlinked], hobjects⟩

/-- Errors are reworded as one likes. -/
theorem mapError {m m' : Act ε α} (f f' : World → ε → ε') (hm : SideBySide linked w₀ w₀' m m') :
    SideBySide linked w₀ w₀' (mapError f m) (Act.mapError f' m') := by
  intro w w' hw
  obtain ⟨hverdict, hobjects⟩ := hm w w' hw
  rw [outcome_mapError, outcome_mapError]
  rcases hout : m.outcome w with ⟨e | a, w₁⟩ <;> rcases hout' : m'.outcome w' with ⟨e' | b, w₁'⟩ <;>
    rw [hout, hout'] at hverdict hobjects <;> cases hverdict
  · exact ⟨.error _ _, hobjects⟩
  · next heq => exact ⟨.ok heq, hobjects⟩

/-- Each run may hold what was not dead. -/
theorem holding {m m' : Act ε α} {hs hs' : List Handle} (hsafe : ∀ x ∈ hs, w₀.Safe x)
    (hsafe' : ∀ x ∈ hs', w₀'.Safe x) (hm : SideBySide linked w₀ w₀' m m') :
    SideBySide linked w₀ w₀' (holding hs m) (Act.holding hs' m') := by
  intro w w' hw
  obtain ⟨hverdict, hobjects⟩ :=
    hm _ _ ⟨hw.left.keeping hsafe, hw.right.keeping hsafe', hw.objects⟩
  exact ⟨hverdict, hobjects⟩

/-! ### Setters and constructors -/

/-- **A setter does the same in both runs**, on objects that were added on the way: nobody has borrowed
them. -/
theorem setter {e e' : Event} {n n' k k' : String} {o o' : ObjectRef}
    (ho : w₀.objects.size ≤ o.ref.index) (ho' : w₀'.objects.size ≤ o'.ref.index)
    (heq : linked → o' = o) {x x' : HostValue} (hx : linked → x' = x) (s : Setter) :
    SideBySide linked w₀ w₀' (do note e; runSetter n k (some o) x s)
      (do note e'; runSetter n' k' (some o') x' s) := by
  intro w w' hw
  rw [outcome_bind_ok (outcome_note_noted e w), outcome_bind_ok (outcome_note_noted e' w')]
  have hfree : ((w.noted e).object o).refusal? true .slots = none := hw.left.writable ho
  have hfree' : ((w'.noted e').object o').refusal? true .slots = none := hw.right.writable ho'
  rw [outcome_runSetter_some, outcome_runSetter_some, hfree, hfree']
  cases s with
  | refuse message => exact ⟨.error _ _, hw.objects⟩
  | slot slot =>
    refine ⟨.ok fun _ => rfl, fun hlinked => ?_⟩
    -- Linked runs write the same value to the same object.
    rw [heq hlinked, hx hlinked]
    simp only [World.object, World.noted, hw.objects hlinked]

variable (htwins : w₀.Twins w₀')
include htwins

/-- A constructor is there in both worlds or in neither. -/
theorem construct (c : ClassRef) :
    SideBySide linked w₀ w₀' (construct c) (Act.construct c) := by
  refine look_bind fun w w' hw => ?_
  rw [hw.cls_eq htwins]
  cases (w.cls c).constructor with
  | none => exact throw _ _
  | some s =>
    intro w w' hw
    refine ⟨.ok fun hlinked => ?_, fun hlinked => ?_⟩
    · show (⟨w'.objects.next, c⟩ : ObjectRef) = ⟨w.objects.next, c⟩
      rw [hw.objects hlinked]
    · show w'.objects.push ⟨c, .slots s, .free⟩ = w.objects.push ⟨c, .slots s, .free⟩
      rw [hw.objects hlinked]

/-! ### Members -/

section Members

variable {via : BindingRef} {n : Nat}
  (hconvert : ∀ t v, w₀.BothSafe w₀' t → w₀.BothSafe w₀' v →
    SideBySide linked w₀ w₀' (convertWith (buildUpTo via n) t v) (convertWith (buildUpTo via n) t v))
  {c : ClassRef} (hc : w₀.BothSafe w₀' c) {o o' : ObjectRef} (ho : w₀.objects.size ≤ o.ref.index)
  (ho' : w₀'.objects.size ≤ o'.ref.index) (heq : linked → o' = o)
include hconvert hc ho ho' heq

omit htwins hc in
/-- The same member is assigned to in both. -/
theorem assignMember {m : Member} (hm : w₀.BothSafe w₀' m) {v : ScriptValue}
    (hv : w₀.BothSafe w₀' v) :
    SideBySide linked w₀ w₀' (assignMember (convertWith (buildUpTo via n)) via c (some o) m v)
      (Act.assignMember (convertWith (buildUpTo via n)) via c (some o') m v) := by
  cases ha : m.accepts? with
  | none =>
    rw [assignMember_of_not_accepts ha, assignMember_of_not_accepts ha]
    exact throw _ _
  | some p =>
    obtain ⟨t, s⟩ := p
    -- The types are the same, so both conversions succeed or both fail, and the setter comes after
    -- that.
    rw [assignMember_of_accepts ha fun _ => rfl, assignMember_of_accepts ha fun _ => rfl]
    have ht : w₀.BothSafe w₀' t := ⟨hm.left.accepted ha, hm.right.accepted ha⟩
    have hfor := mapError (fun _ _ => HostFailure.binding (.incompatibleValue c.name m.name t.name v.kind))
      (fun _ _ => HostFailure.binding (.incompatibleValue c.name m.name t.name v.kind))
      (hconvert t v ht hv)
    exact hfor.bind ((Steady.convertWith ht.left hv.left via n).mapError _)
      ((Steady.convertWith ht.right hv.right via n).mapError _)
      fun x x' _ _ hx => setter ho ho' heq hx s

/-- The same member is found in both. -/
theorem assignKey (k : MemberKey) {v : ScriptValue} (hv : w₀.BothSafe w₀' v) :
    SideBySide linked w₀ w₀' (assignKey (convertWith (buildUpTo via n)) via c (some o) k v)
      (Act.assignKey (convertWith (buildUpTo via n)) via c (some o') k v) := by
  refine look_bind fun w w' hw => ?_
  have hresolved : (w'.binding via).resolve (w'.cls c) k (some o').isSome =
      (w.binding via).resolve (w.cls c) k (some o).isSome := by
    rw [hw.binding_eq htwins, hw.cls_eq htwins]
    rfl
  rw [hresolved]
  split
  · next m hms =>
    -- The member comes from the class, which is safe in both.
    have hmember : m ∈ (w.binding via).resolve (w.cls c) k (some o).isSome :=
      hms ▸ List.mem_singleton_self m
    have hm : w₀.BothSafe w₀' m := ⟨(hw.left.since.resolve hc.left hmember).1,
      (hw.right.since.resolve hc.right (hresolved ▸ hmember)).1⟩
    exact assignMember hconvert ho ho' heq hm hv
  · exact throw _ _

/-- The same entries are assigned in both. Both stop at the same one. -/
theorem assignEntries {entries : List (String × ScriptValue)} (hsafe : w₀.AllSafe o)
    (hsafe' : w₀'.AllSafe o') (hentries : ∀ p ∈ entries, w₀.BothSafe w₀' p.2) :
    SideBySide linked w₀ w₀' (assignEntries (convertWith (buildUpTo via n)) via c o entries)
      (Act.assignEntries (convertWith (buildUpTo via n)) via c o' entries) := by
  induction entries with
  | nil => exact pure fun _ => rfl
  | cons p rest ih =>
    obtain ⟨hfirst, hrest⟩ := List.forall_mem_cons.mp hentries
    have hassign := mapError (fun _ (f : HostFailure) => ConversionError.structuredField c.name p.1 f.message)
      (fun _ (f : HostFailure) => ConversionError.structuredField c.name p.1 f.message)
      (assignKey htwins hconvert hc ho ho' heq (.name p.1) hfirst)
    exact hassign.bind ((Steady.assignKey hfirst.left hc.left hsafe ho via n _).mapError _)
      ((Steady.assignKey hfirst.right hc.right hsafe' ho' via n _).mapError _)
      fun _ _ _ _ _ => ih hrest

end Members

/-- **A table becomes an object in both runs or in neither.** -/
theorem buildObject {via : BindingRef} {n : Nat}
    (hconvert : ∀ t v, w₀.BothSafe w₀' t → w₀.BothSafe w₀' v →
      SideBySide linked w₀ w₀' (convertWith (buildUpTo via n) t v)
        (convertWith (buildUpTo via n) t v))
    {c : ClassRef} (hc : w₀.BothSafe w₀' c) {r : TableRef}
    (hr : w₀.BothSafe w₀' (ScriptValue.table r)) :
    SideBySide linked w₀ w₀' (buildObject (convertWith (buildUpTo via n)) via c r)
      (Act.buildObject (convertWith (buildUpTo via n)) via c r) := by
  refine (construct htwins c).bind (.construct hc.left) (.construct hc.right) ?_
  rintro o o' ⟨hsafe, ho⟩ ⟨hsafe', ho'⟩ heq
  refine look_bind fun w w' hw => ?_
  -- The tables are the same, or there is a key in both that is no string.
  rcases (hw.twin htwins r).entries with hsame | ⟨hother, hother'⟩
  · rw [hsame]
    cases hkey : otherKey? (w.table r) with
    | some k => exact failWith _ _
    | none =>
      have htable : w₀.AllSafe (w.table r) := hw.left.since.table (hr.left _ List.mem_cons_self)
      have htable' : w₀'.AllSafe (w.table r) :=
        hsame ▸ hw.right.since.table (hr.right _ List.mem_cons_self)
      have hentries : ∀ p ∈ stringEntries (w.table r), w₀.BothSafe w₀' p.2 := fun p hp =>
        ⟨(Table.allSafe_iff.mp htable).stringEntries hp,
          (Table.allSafe_iff.mp htable').stringEntries hp⟩
      have hassign := assignEntries htwins hconvert hc ho ho' heq hsafe hsafe' hentries
      exact (hassign.holding hsafe hsafe').map fun _ hlinked => by rw [heq hlinked]
  · obtain ⟨k, hk⟩ := Option.ne_none_iff_exists'.mp hother
    obtain ⟨k', hk'⟩ := Option.ne_none_iff_exists'.mp hother'
    rw [hk, hk']
    exact failWith _ _

/-! ### Conversion by type -/

section Build

variable {via : BindingRef} {n : Nat}
  (hbuild : ∀ c r, w₀.BothSafe w₀' c → w₀.BothSafe w₀' (ScriptValue.table r) →
    SideBySide linked w₀ w₀' (buildUpTo via n c r) (Act.buildUpTo via n c r))
include hbuild

/-- An object that a proxy reaches is the same in both, and a table is built in both. -/
theorem convertObject {c : ClassRef} (hc : w₀.BothSafe w₀' c) {v : ScriptValue}
    (hv : w₀.BothSafe w₀' v) :
    SideBySide linked w₀ w₀' (convertObject (buildUpTo via n) c v)
      (Act.convertObject (buildUpTo via n) c v) := by
  cases v with
  | userdata u =>
    -- The proxy has the same target in both worlds, so one split is enough for both.
    refine look_bind fun w w' hw => ?_
    rw [hw.proxyTarget?_eq htwins]
    rcases w.proxyTarget? u with _ | ⟨_⟩ | ⟨o⟩
    · exact failWith _ _
    · exact failWith _ _
    · dsimp only
      split
      · exact pure fun _ => rfl
      · exact throw _ _
  | table r => exact hbuild c r hc hv
  | _ => exact failWith _ _

omit hbuild htwins in
/-- nil is null or is refused. -/
theorem convertWith_nil (t : HostType) :
    SideBySide linked w₀ w₀' (convertWith (buildUpTo via n) t .nil)
      (Act.convertWith (buildUpTo via n) t .nil) := by
  unfold Act.convertWith
  split
  · exact pure fun _ => rfl
  · exact throw _ _

omit hbuild htwins in
/-- Elements side by side, by induction on the elements. -/
theorem convertItems {t : HostType} (ht : w₀.BothSafe w₀' t)
    (hconvert : ∀ v, w₀.BothSafe w₀' v →
      SideBySide linked w₀ w₀' (convertWith (buildUpTo via n) t v)
        (Act.convertWith (buildUpTo via n) t v))
    {vs : List ScriptValue} (hvs : ∀ v ∈ vs, w₀.BothSafe w₀' v) (target element : HostType) (i : Nat) :
    SideBySide linked w₀ w₀' (convertItems (convertWith (buildUpTo via n) t) target element vs i)
      (Act.convertItems (Act.convertWith (buildUpTo via n) t) target element vs i) := by
  induction vs generalizing i with
  | nil => exact pure fun _ => rfl
  | cons v vs ih =>
    obtain ⟨hfirst, hrest⟩ := List.forall_mem_cons.mp hvs
    -- A failure of the item is told with its natural type, which may be another one in the other
    -- world; that both fail is enough.
    have hv := mapError (fun w _ => ConversionError.arrayElement target.name i v.kind (w.naturalType v)
      element.name) (fun w _ => ConversionError.arrayElement target.name i v.kind (w.naturalType v)
      element.name) (hconvert v hfirst)
    refine hv.bind ((Steady.convertWith ht.left hfirst.left via n).mapError _)
      ((Steady.convertWith ht.right hfirst.right via n).mapError _) fun x x' _ _ hx => ?_
    exact (ih hrest (i + 1)).map fun xs hlinked => by rw [hx hlinked]

/-- **Conversion by type**, by induction on the type. What is looked at is the same in both runs: what a
proxy reaches, and the sequence part of a table. -/
theorem convertWith {t : HostType} (ht : w₀.BothSafe w₀' t) {v : ScriptValue}
    (hv : w₀.BothSafe w₀' v) :
    SideBySide linked w₀ w₀' (convertWith (buildUpTo via n) t v)
      (Act.convertWith (buildUpTo via n) t v) := by
  induction t generalizing v with
  | nullable inner ih =>
    cases v with
    | nil => exact convertWith_nil _
    | _ => unfold Act.convertWith; exact ih ⟨ht.left, ht.right⟩ hv
  | array element ih =>
    have helement : w₀.BothSafe w₀' element := ⟨ht.left, ht.right⟩
    cases v with
    | nil => exact convertWith_nil _
    | table r =>
      unfold Act.convertWith
      refine look_bind fun w w' hw => ?_
      have hleft : w₀.AllSafe (w.table r) := hw.left.since.table (hv.left _ List.mem_cons_self)
      have hright : w₀'.AllSafe (w'.table r) := hw.right.since.table (hv.right _ List.mem_cons_self)
      -- The sequence parts are the same, and all that is in them is safe in both.
      have hsequence := (hw.twin htwins r).sequence
      rw [hsequence]
      have hvs : ∀ v ∈ (w.table r).sequence, w₀.BothSafe w₀' v := fun v hmem =>
        ⟨World.AllSafe.list_iff.mp (Table.allSafe_sequence hleft) v hmem,
          World.AllSafe.list_iff.mp (Table.allSafe_sequence hright) v (hsequence ▸ hmem)⟩
      have hitems := convertItems helement (fun v hv => ih helement hv) hvs (.array element) element 1
      exact hitems.map fun _ _ => rfl
    | _ => unfold Act.convertWith; exact failWith _ _
  | object c =>
    cases v with
    | nil => exact convertWith_nil _
    | _ => unfold Act.convertWith; exact convertObject htwins hbuild ⟨ht.left, ht.right⟩ hv
  -- A value that passes through is the same in both, since proxies reach the same.
  | any =>
    cases v with
    | nil => exact convertWith_nil _
    | _ =>
      unfold Act.convertWith
      exact fun w w' hw =>
        ⟨.ok fun _ => World.naturalValue_congr (hw.proxyTarget?_eq htwins) _, hw.objects⟩
  | void =>
    cases v with
    | nil => exact convertWith_nil _
    | _ => unfold Act.convertWith; exact pure fun _ => rfl
  | integer t =>
    cases v with
    | nil => exact convertWith_nil _
    | integer _ | number _ => unfold Act.convertWith; exact ofExcept _
    | _ => unfold Act.convertWith; exact failWith _ _
  | single =>
    cases v with
    | nil => exact convertWith_nil _
    | _ =>
      unfold Act.convertWith
      split
      · split
        · exact pure fun _ => rfl
        · exact throw _ _
      · exact failWith _ _
  | double =>
    cases v with
    | nil => exact convertWith_nil _
    | _ =>
      unfold Act.convertWith
      split
      · exact pure fun _ => rfl
      · exact failWith _ _
  | bool | string | table | function =>
    cases v with
    | nil => exact convertWith_nil _
    | _ => unfold Act.convertWith; first | exact pure fun _ => rfl | exact failWith _ _

end Build

/-- Objects side by side, by induction on how deep they may nest. -/
theorem buildUpTo (via : BindingRef) (n : Nat) {c : ClassRef} (hc : w₀.BothSafe w₀' c) {r : TableRef}
    (hr : w₀.BothSafe w₀' (ScriptValue.table r)) :
    SideBySide linked w₀ w₀' (buildUpTo via n c r) (Act.buildUpTo via n c r) := by
  induction n generalizing c r with
  | zero => exact throw _ _
  | succ n ih =>
    have hnested (t : HostType) (v : ScriptValue) (ht : w₀.BothSafe w₀' t) (hv : w₀.BothSafe w₀' v) :=
      convertWith htwins (fun c r hc hr => ih hc hr) ht hv
    exact buildObject htwins hnested hc hr

/-- **Conversions side by side**: both succeed or both fail, with the same value if the runs are linked. -/
theorem toHost (via : BindingRef) {t : HostType} (ht : w₀.BothSafe w₀' t) {v : ScriptValue}
    (hv : w₀.BothSafe w₀' v) :
    SideBySide linked w₀ w₀' (toHost via t v) (Act.toHost via t v) := by
  refine look_bind fun w w' hw => ?_
  rw [hw.classes_eq htwins]
  exact convertWith htwins (fun c r hc hr => buildUpTo htwins via _ hc hr) ht hv

end SideBySide

end Act

end ScriptHost
