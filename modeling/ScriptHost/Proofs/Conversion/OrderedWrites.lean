import ScriptHost.Proofs.Conversion.Delivery
import ScriptHost.Proofs.Liveness
import ScriptHost.Proofs.OneMember
import ScriptHost.Proofs.Proxies.Gone
import ScriptHost.Proofs.Text.ByteOrder

/-!
# Tables become objects by writes

A table that becomes an object has its entries assigned to a fresh instance. A script that has a
proxy of such an instance can do the same with writes of its own. `writeEach` are these writes, one
after another until one fails, and `told` is what they tell of the conversion: the object, or the
key whose write has failed and why. `table_becomes_object_by_writes` says that a conversion is just
that, for the entries in the order of the bytes of their keys, in whatever order the table delivers
them.
-/

set_option autoImplicit false

namespace ScriptHost

open Act

/-- The world with an object in hand. -/
def World.inHand (w : World) (o : ObjectRef) : World := { w with held := handles o ++ w.held }

namespace Act

/-! ### Writes one after another -/

/-- **Writes one after another.** The first that fails ends them, and its key is told. -/
def writeEach (p : Proxy) : List (String × ScriptValue) → Act (String × HostFailure) Unit
  | [] => pure ()
  | (k, v) :: rest => do
    mapError (fun _ f => (k, f)) (writeProxy p (.string k) v)
    writeEach p rest

/-- **What writes to an object tell** of the conversion to it. The object is in hand no more. -/
def told (o : ObjectRef) (held : List Handle) :
    Except (String × HostFailure) Unit × World → Except ConversionError HostValue × World
  | (.ok (), w) => (.ok (.object o), { w with held := held })
  | (.error (k, f), w) =>
    (.error (.structuredField o.cls.name k f.message), { w with held := held })

section Writes

variable {p : Proxy} {o : ObjectRef} {w w' : World}

/-- While the object is held only what is held is different. -/
theorem outcome_holding_object {ε α : Type} (m : Act ε α) (w : World) :
    (holding (handles o) m).outcome w =
      ((m.outcome (w.inHand o)).1, { (m.outcome (w.inHand o)).2 with held := w.held }) :=
  rfl

/-- **The key that is told is the first one whose write fails.** -/
theorem writeEach_error {es : List (String × ScriptValue)} {k : String} {f : HostFailure}
    (h : (writeEach p es).outcome w = (.error (k, f), w')) :
    ∃ before v after w₁, es = before ++ (k, v) :: after ∧
      (writeEach p before).outcome w = (.ok (), w₁) ∧
      (writeProxy p (.string k) v).outcome w₁ = (.error f, w') := by
  induction es generalizing w with
  | nil => cases h
  | cons e es ih =>
    obtain ⟨j, x⟩ := e
    have hfirst := outcome_mapError (fun _ f => (j, f)) (writeProxy p (.string j) x) w
    rcases hwrite : (writeProxy p (.string j) x).outcome w with ⟨g | ⟨⟩, w₂⟩ <;>
      rw [hwrite] at hfirst
    -- The first write fails.
    · cases (outcome_bind_error hfirst).symm.trans h
      exact ⟨[], x, es, w, rfl, rfl, hwrite⟩
    -- A later one does, after those before it have succeeded.
    · have hrest := (outcome_bind_ok hfirst).symm.trans h
      obtain ⟨before, v, after, w₁, rfl, hbefore, hfails⟩ := ih hrest
      exact ⟨(j, x) :: before, v, after, w₁, rfl, (outcome_bind_ok hfirst).trans hbefore, hfails⟩

/-- As long as the object is in hand, a write through a proxy of it reaches it. -/
theorem outcome_writeProxy_name (hp : p.target = some (.object o)) (hheld : o.ref.handle ∈ w.held)
    (k : String) (v : ScriptValue) : (writeProxy p (.string k) v).outcome w =
      (assignKey (toHost p.via) p.via o.cls (some o) (.name k) v).outcome w := by
  have hreach := World.reach?_object (World.alive_of_held hheld)
  unfold writeProxy
  rw [outcome_bind_ok (outcome_namedTarget hp), outcome_bind_ok (outcome_reachTarget_ok hreach)]
  rfl

/-- **Entries are assigned as they are written**, by induction on the entries: what is in hand stays
in hand from one write to the next. -/
theorem outcome_assignEntries (hp : p.target = some (.object o)) (hheld : o.ref.handle ∈ w.held)
    (es : List (String × ScriptValue)) :
    (assignEntries (toHost p.via) p.via o.cls o es).outcome w =
      (mapError (fun _ e => .structuredField o.cls.name e.1 e.2.message)
        (writeEach p es)).outcome w := by
  induction es generalizing w with
  | nil => rfl
  -- The object is held at the next write as it is at this one.
  | cons e es ih =>
    obtain ⟨k, v⟩ := e
    have hwrite := outcome_writeProxy_name hp hheld k v
    have hfilling : Filling 0 (assignKey (toHost p.via) p.via o.cls (some o) (.name k) v) :=
      .assignKey (.toHost p.via) p.via o.cls (Nat.zero_le _) (.name k) v
    have hfills := hfilling w (Nat.zero_le _)
    unfold assignEntries writeEach
    rw [outcome_mapError, outcome_bind, outcome_bind, outcome_mapError, outcome_mapError, hwrite]
    rcases hassign : (assignKey (toHost p.via) p.via o.cls (some o) (.name k) v).outcome w with
      ⟨f | ⟨⟩, w₁⟩
    · -- A write that fails ends the one list and the other.
      rfl
    · rw [hassign] at hfills
      exact (ih (hfills.held_eq.symm ▸ hheld)).trans (outcome_mapError _ _ _)

end Writes

/-! ### The fresh instance -/

section Fresh

variable {w : World} {c : ClassRef} {s : Slots}

/-- Constructing starts the constructor, and leaves classes and tables as they are. -/
theorem construct_ok (hc : (w.cls c).constructor = some s) :
    ∃ o w₁, (construct c).outcome w = (.ok o, w₁) ∧ o.cls = c ∧ w.Still w₁ ∧ w₁.held = w.held ∧
      w.Starts [.constructor c] w₁ := by
  have hconstruct : (construct c).outcome w = (.ok ⟨w.objects.next, c⟩,
      { w.noted (.constructor c) with objects := w.objects.push ⟨c, .slots s, .free⟩ }) := by
    unfold construct
    rw [outcome_bind_ok (outcome_look _ w), hc]
    rfl
  exact ⟨_, _, hconstruct, rfl, ⟨rfl, rfl⟩, rfl, .noted w rfl⟩

/-- A class that has a constructor is one of those that are counted. -/
theorem pos_of_constructor (hc : (w.cls c).constructor = some s) : 0 < w.classes.size := by
  unfold World.cls at hc
  cases hget : w.classes.get? c.ref with
  | none =>
    rw [hget] at hc
    cases hc
  | some info => exact Nat.zero_lt_of_lt (Array.getElem?_eq_some_iff.mp hget).1

/-- **A key that is no string is named, and no setter is started.** -/
theorem toHostFrom_other (hc : (w.cls c).constructor = some s) {r : TableRef}
    (hother : otherKey? (w.table r) ≠ none) (d : Delivery) (via : BindingRef) :
    let out := (toHostFrom d via (.object c) (.table r)).outcome w
    w.Starts [.constructor c] out.2 ∧
      ∃ k v, (k, v) ∈ (w.table r).pairs ∧ k.asString? = none ∧ out.1 = .error (.structuredField
        c.name (out.2.dumpScript k) (k.kind.name ++ " keys are not supported")) := by
  intro out
  obtain ⟨n, hn⟩ := Nat.exists_eq_succ_of_ne_zero (pos_of_constructor hc).ne'
  obtain ⟨o, w₁, ho, -, hstill, -, hstarts⟩ := construct_ok hc
  have hperm : (d.table w₁ r).entries.Perm (w.table r).entries := hstill.table r ▸ d.perm w₁ r
  -- The entries are delivered after the object was constructed, and they are the same ones.
  obtain ⟨k, hk⟩ := exists_otherKey_of_perm hperm hother
  have hout : out = (.error (.structuredField c.name (w₁.dumpScript k)
      (k.kind.name ++ " keys are not supported")), w₁) := by
    show (toHostFrom d via (.object c) (.table r)).outcome w = _
    rw [toHostFrom, outcome_bind_ok (outcome_look _ w), convertWith_object, hn]
    exact outcome_buildObjectFrom_other ho hk
  obtain ⟨v, hv, hnone⟩ := otherKey?_eq_some hk
  rw [hout]
  exact ⟨hstarts, k, v, (hperm.map _).mem_iff.mp hv, hnone, rfl⟩

/-- **Without such a key, writes tell what becomes of the conversion.** -/
theorem toHostFrom_strings (hw : w.Tidy) (hc : (w.cls c).constructor = some s) {r : TableRef}
    {es : List (String × ScriptValue)} (hes : (w.table r).InByteOrder es) {o : ObjectRef}
    {w₁ : World} (ho : (construct c).outcome w = (.ok o, w₁)) {p : Proxy}
    (hp : p.target = some (.object o)) (d : Delivery) :
    (toHostFrom d p.via (.object c) (.table r)).outcome w =
      told o w.held ((writeEach p es).outcome (w₁.inHand o)) := by
  obtain rfl := eq_stringEntries hes (hw.strings.table r)
  have hkeys := otherKey?_of_inByteOrder hes
  obtain ⟨_, _, hconstruct, rfl, hstill, hheld, -⟩ := construct_ok hc
  cases hconstruct.symm.trans ho
  have hassign := outcome_assignEntries (w := w₁.inHand o) hp List.mem_cons_self
    (stringEntries (w.table r))
  -- From the delivered entries to those of the table, and from counted classes to the recursion.
  rw [agree_toHostFrom hw.strings hkeys d p.via o.cls w (.refl w),
    agree_convertStep hw.toInOrder _ _ w (.refl w), convertStep_object, buildObject,
    outcome_bind_ok ho, outcome_bind_ok (outcome_look _ w₁), hstill.table r, hkeys]
  dsimp only
  rw [outcome_bind, outcome_holding_object, hassign, outcome_mapError, ← hheld]
  rcases (writeEach p (stringEntries (w.table r))).outcome (w₁.inHand o) with ⟨⟨k, f⟩ | ⟨⟩, w₂⟩ <;>
    rfl

end Fresh

end Act

/-- **What becomes of a table** whose entries are delivered in any order, if it is converted to a
class. -/
structure World.BecomesByWrites (w : World) (via : BindingRef) (c : ClassRef) (r : TableRef) :
    Prop where
  /-- Some key is no string: a failure for such a key. Nothing but the constructor was started. -/
  other : (∃ e ∈ (w.table r).pairs, e.1.asString? = none) → ∀ d : Delivery,
    let out := (toHostFrom d via (.object c) (.table r)).outcome w
    w.Starts [.constructor c] out.2 ∧
      ∃ k v, (k, v) ∈ (w.table r).pairs ∧ k.asString? = none ∧ out.1 = .error (.structuredField
        c.name (out.2.dumpScript k) (k.kind.name ++ " keys are not supported"))
  /-- All keys are strings: the entries can be listed in the order of the bytes of their keys. -/
  listed : (∀ e ∈ (w.table r).pairs, e.1.asString? ≠ none) → ∃ es, (w.table r).InByteOrder es
  constructed : ∃ o w₁, (construct c).outcome w = (.ok o, w₁)
  /-- Writes of this list through a proxy of a fresh instance tell what is given, whatever the order
  of delivery: the object as the writes leave it, or the first key whose write fails. -/
  told : ∀ es o w₁ (p : Proxy), (w.table r).InByteOrder es →
    (construct c).outcome w = (.ok o, w₁) → p.target = some (.object o) → p.via = via →
      let writes := (writeEach p es).outcome (w₁.inHand o)
      (∀ d : Delivery,
        (toHostFrom d via (.object c) (.table r)).outcome w = Act.told o w.held writes) ∧
      ∀ k f w₂, writes = (.error (k, f), w₂) →
        ∃ before v after w', es = before ++ (k, v) :: after ∧
          (writeEach p before).outcome (w₁.inHand o) = (.ok (), w') ∧
          (writeProxy p (.string k) v).outcome w' = (.error f, w₂)

/-- **A table becomes an object by ordered writes.** In sessions of closed programs no table has a
string as a key twice. Where that is so, a table that is converted to a class with a constructor
becomes what writes of its entries, one after another in the order of the bytes of their keys, make
of a fresh instance. It does not matter in which order the entries are delivered, and a key that is
no string is refused before anything is assigned. -/
theorem table_becomes_object_by_writes :
    toHostFrom .stored = toHost ∧
    (∀ (cfg : Config) layout (ops : Program), Op.allClosed ops = true →
      ((World.start cfg layout).after ops).Tidy) ∧
    ∀ w : World, w.Tidy → ∀ c s, (w.cls c).constructor = some s → ∀ via r,
      w.BecomesByWrites via c r := by
  refine ⟨toHostFrom_stored, fun cfg layout ops h => (World.Tidy.start cfg layout).after h, ?_⟩
  intro w hw c s hc via r
  refine { other := ?other, listed := ?listed, constructed := ?constructed, told := ?told }
  case other =>
    -- A key that is no string is found before anything is written.
    rintro ⟨e, he, hother⟩ d
    refine toHostFrom_other hc (fun hnone => ?_) d via
    have hstring := otherKey?_eq_none.mp hnone e he
    rw [hother] at hstring
    cases hstring
  case listed =>
    -- If all keys are strings they can be put in order.
    intro hall
    have hkeys : otherKey? (w.table r) = none := otherKey?_eq_none.mpr fun e he =>
      Option.isSome_iff_ne_none.mpr (hall e he)
    exact ⟨_, stringEntries_inByteOrder (hw.strings.table r) hkeys⟩
  case constructed =>
    obtain ⟨o, w₁, ho, -⟩ := construct_ok hc
    exact ⟨o, w₁, ho⟩
  case told =>
    rintro es o w₁ p hes ho hp rfl writes
    exact ⟨toHostFrom_strings hw hc hes ho hp, fun k f w₂ => writeEach_error⟩

namespace OrderedWrites

/-- The tables with their entries in the opposite order. -/
def backwards : Delivery :=
  ⟨fun w r => ⟨(w.table r).entries.reverse⟩, fun _ _ => List.reverse_perm _⟩

/-- Points, and tables for them: one that fits, one of which nothing fits, and one with a key that
is no string. -/
def pointSession : Program :=
  let stored (name : String) : Disposition := ⟨some name, none, false, false⟩
  let coordinate (name : String) : Declaration Program :=
    .field name (.plain (.integer ⟨true, .w32⟩)) name true none
  [.cls (stored "point") ⟨"Point", [coordinate "x", coordinate "y"], some [], none⟩,
    .act (stored "good")
      (.value (.bind (.map [(.string "x", .integer 1), (.string "y", .integer 2)]))),
    .act (stored "bad")
      (.value (.bind (.map [(.string "x", .string "one"), (.string "y", .string "two")]))),
    .act (stored "mixed")
      (.value (.bind (.map [(.string "x", .integer 1), (.boolean true, .integer 2)])))]

/-- The class of points. -/
def pointRef : ClassRef := ⟨⟨0⟩, "Point"⟩

/-- The world after the session. -/
def pointWorld : World := (World.start .default fun r => r.index).after pointSession

/-- A fresh point. It is the first object. -/
def freshPoint : Except ConversionError ObjectRef × World := (construct pointRef).outcome pointWorld

/-- The proxy of the point that is made. -/
def pointProxy : Proxy := ⟨some (.object ⟨⟨0⟩, pointRef⟩), ⟨0⟩, "Point"⟩

/-- Conversion to a point, with the entries from the last one to the first. -/
def asPoint (r : TableRef) : Except ConversionError HostValue × World :=
  (toHostFrom backwards ⟨0⟩ (.object pointRef) (.table r)).outcome pointWorld

end OrderedWrites

open OrderedWrites in
/-- From the last entry to the first as well the table that fits becomes a point, the other one is
refused for `x`, and with the key that is no string nothing is started but the constructor. -/
theorem table_becomes_object_by_writes_pointSession :
    Op.allClosed pointSession = true ∧ pointWorld.Tidy ∧
      (asPoint ⟨1⟩).1.map HostValue.isObject = .ok true ∧
      (asPoint ⟨2⟩).1.map HostValue.isObject = .error (.structuredField "Point" "x"
        "cannot assign a string value to 'x' on 'Point': expected i32") ∧
      pointWorld.Starts [.constructor pointRef] (asPoint ⟨3⟩).2 := by
  obtain ⟨-, hsession, hconvert⟩ := table_becomes_object_by_writes
  have hclosed : Op.allClosed pointSession = true := by decide
  have hw : pointWorld.Tidy := hsession .default _ pointSession hclosed
  obtain ⟨s, hs⟩ := Option.isSome_iff_exists.mp
    (by decide +kernel : (pointWorld.cls pointRef).constructor.isSome = true)
  have hmade : freshPoint = (.ok ⟨⟨0⟩, pointRef⟩, freshPoint.2) :=
    Prod.mk.eta.symm.trans (congrArg (·, freshPoint.2) (by decide +kernel))
  have htold (r : TableRef) (es : List (String × ScriptValue))
      (hes : (pointWorld.table r).InByteOrder es) : asPoint r = told ⟨⟨0⟩, pointRef⟩ pointWorld.held
        ((writeEach pointProxy es).outcome (freshPoint.2.inHand ⟨⟨0⟩, pointRef⟩)) := by
    have hwrites := (hconvert pointWorld hw pointRef s hs ⟨0⟩ r).told
    exact (hwrites es _ _ pointProxy hes hmade rfl rfl).1 backwards
  refine ⟨hclosed, hw, ?_, ?_, ?_⟩
  -- The two writes succeed.
  · rw [htold ⟨1⟩ [("x", .integer 1), ("y", .integer 2)] ⟨by decide +kernel, by decide +kernel⟩]
    decide +kernel
  -- The first one fails, although the other one would fail too.
  · rw [htold ⟨2⟩ [("x", .string "one"), ("y", .string "two")]
      ⟨by decide +kernel, by decide +kernel⟩]
    decide +kernel
  · have hother := (hconvert pointWorld hw pointRef s hs ⟨0⟩ ⟨3⟩).other
    exact (hother (by decide +kernel) backwards).1

end ScriptHost
