import ScriptHost.Proofs.Conversion.Revival
import ScriptHost.Proofs.Conversion.Settled

/-!
# Conversion is stable on what it gives

What a conversion gives goes into script and comes back as the same value, whatever the type, void
apart. For most types this is a matter of numbers and tables: a settled value is read back from what
stands for it (`convertWith_settled_back`), and its objects are found again behind their proxies,
because they are held and a handle that is known is the only one of its object
(`World.readsBack_object`).

Where everything passes through there is one more thing to show. A proxy that reached nothing passed
through as it was, so it has to reach nothing when it comes back, although objects were wrapped and
handles held on the way. Nothing that the value holds was dead, so nothing dead came back to life
(`World.Natural.readsBack`).
-/

set_option autoImplicit false

namespace ScriptHost

/-! ### Reading back -/

namespace World

/-- Whatever stands for the value naturally stands for it, and is not nil. -/
def ReadsBack (w : World) (x : HostValue) : Prop :=
  ∀ s, w.Represents x s → s.isNil = false ∧ w.naturalValue s = x

/-- An instance comes of a proxy that reaches it. -/
theorem naturalValue_eq_object {w : World} {u : UserdataRef} {o : ObjectRef} :
    w.naturalValue (.userdata u) = .object o ↔ w.proxyTarget? u = some (.object o) := by
  simp only [naturalValue]
  rcases w.proxyTarget? u with _ | ⟨_⟩ | ⟨_⟩ <;> simp

end World

namespace Act

variable {w : World} {build : Builder} {t : HostType} {x : HostValue} {s : ScriptValue}

/-- An integer in the range of its type is read back from what it becomes in script: an integer, or a
float if it is wide, and then no other than itself. -/
theorem convertWith_integer_back {t : IntType} {n : Int} (hrange : t.min ≤ n ∧ n ≤ t.max)
    (hexact : 2 ^ 63 ≤ n → (Binary64.ofInt n).toInt? = some n) (hs : w.Represents (t.value n) s) :
    s.isNil = false ∧ (convertWith build (.integer t) s).outcome w = (.ok (t.value n), w) := by
  have hfit : t.fit n = .ok (t.value n) := IntType.fit_of_range hrange
  have hmax := IntType.lt_of_le_max hrange.2
  -- An integer of script fits as the number that it is.
  have hback (i : Int64) (hi : i.toInt = n) :
      (convertWith build (.integer t) (.integer i)).outcome w = (.ok (t.value n), w) := by
    unfold convertWith
    rw [outcome_ofExcept, hi, hfit]
  obtain ⟨_ | _, width⟩ := t
  · rw [IntType.mem_range_unsigned] at hrange
    obtain ⟨m, rfl⟩ := Int.eq_ofNat_of_zero_le hrange.1
    have hsize : m < 2 ^ 64 := by exact_mod_cast hmax
    have hword : (UInt64.ofNat m).toNat = m := UInt64.toNat_ofNat_of_lt' hsize
    obtain rfl : s = ofUInt64 (UInt64.ofNat m) := by cases hs; rfl
    unfold ofUInt64
    rw [hword]
    split
    · next hsmall =>
      refine ⟨rfl, hback _ (Int64.toInt_ofNat_of_lt ?_)⟩
      omega
    · next hwide =>
      have hfloat : (Binary64.ofInt m).toInt? = some (m : Int) := hexact (by omega)
      have hbound : (m : Int).natAbs < wideIntegerBound := by
        rw [wideIntegerBound, Nat.one_shiftLeft]
        omega
      refine ⟨rfl, ?_⟩
      unfold convertWith
      rw [outcome_ofExcept, IntType.fitFloat, hfloat]
      simp only [hbound, if_true, hfit]
  · obtain ⟨hmin, hlt⟩ := IntType.mem_range_signed.mp hrange
    have hwide : (2 : Int) ^ (width.bits - 1) ≤ 2 ^ 63 := by
      exact_mod_cast Nat.pow_le_pow_right (by decide) (Nat.sub_le_sub_right width.bits_le 1)
    cases hs
    exact ⟨rfl, hback _ (Int64.toInt_ofInt_of_le (by omega) (by omega))⟩

/-- **Settled values are read back as they are.** -/
theorem convertWith_settled_back (hx : x.Settled w.ReadsBack t) (hs : w.Represents x s) :
    s.isNil = false ∧ (convertWith build t s).outcome w = (.ok x, w) := by
  induction hx generalizing s with
  | integer hrange hexact => exact convertWith_integer_back hrange hexact hs
  | bool b => cases hs; exact ⟨rfl, rfl⟩
  | @single x hfits =>
    cases hs
    refine ⟨rfl, ?_⟩
    unfold convertWith
    simp only [ScriptValue.asNumber?, hfits, if_true]
    rfl
  | double x => cases hs; exact ⟨rfl, rfl⟩
  | string s => cases hs; exact ⟨rfl, rfl⟩
  | table r => cases hs; exact ⟨rfl, rfl⟩
  | function f => cases hs; exact ⟨rfl, rfl⟩
  | @nullable x t _ ih =>
    obtain ⟨hnil, hback⟩ := ih hs
    refine ⟨hnil, ?_⟩
    cases s with
    | nil => cases hnil
    | _ => unfold convertWith; exact hback
  | @any x _ hreads =>
    obtain ⟨hnil, hnatural⟩ := hreads s hs
    refine ⟨hnil, ?_⟩
    cases s with
    | nil => cases hnil
    | _ => unfold convertWith; rw [outcome_look, hnatural]
  | @object o c hc hreads =>
    obtain ⟨-, hnatural⟩ := hreads s hs
    cases hs with
    | @object _ u _ =>
      -- The proxy reaches this very object, or else it would not stand for it.
      have htarget := World.naturalValue_eq_object.mp hnatural
      refine ⟨rfl, ?_⟩
      unfold convertWith convertObject
      rw [outcome_bind_ok (outcome_look _ w), htarget]
      simp only [hc, if_true]
      rfl
  | @array items element _ hlength ih =>
    cases hs with
    | @array _ r vs htable hvs =>
      have hnil : ∀ v ∈ vs, v.isNil = false := fun v hv => by
        obtain ⟨y, hy, hrepr⟩ := World.Represents.of_mem hvs hv
        exact (ih y hy hrepr).1
      have hsequence : (w.table r).sequence = vs := by
        rw [World.table, htable, Option.getD_some]
        exact Table.sequence_ofSequence_of_noNil (hvs.length_eq ▸ hlength) hnil
      have hitems : (convertItems (convertWith build element) (.array element) element vs 1).outcome
          w = (.ok (items.map id), w) :=
        convertItems_represents hvs (fun y hy v hv => (ih y hy hv).2) 1
      refine ⟨rfl, ?_⟩
      unfold convertWith
      rw [outcome_bind_ok (outcome_look _ w), hsequence, outcome_bind_ok hitems, List.map_id]
      rfl

/-- What a conversion comes to, with the number of classes as the bound on nesting. -/
theorem outcome_toHost (via : BindingRef) (t : HostType) (v : ScriptValue) (w : World) :
    (toHost via t v).outcome w = (convertWith (buildUpTo via w.classes.size) t v).outcome w :=
  outcome_bind_ok (outcome_look _ w)

end Act

/-! ### What reads back -/

namespace World

variable {w₀ w : World} {x : HostValue}

/-- A handle that is known is the only one of its object. -/
theorem eq_of_known {a b : ObjectRef} (ha : ScriptHost.Known (w.known true) a)
    (hb : ScriptHost.Known (w.known true) b) (href : a.ref = b.ref) : a = b := by
  obtain ⟨y, hy, hya⟩ := Known.object_iff.mp ha rfl
  obtain ⟨z, hz, hzb⟩ := Known.object_iff.mp hb rfl
  have hsame : y = z := by
    rw [href, hz] at hy
    exact (Option.some.inj hy).symm
  have hcls : a.cls = b.cls := by rw [← hya, ← hzb, hsame]
  calc
    a = ⟨a.ref, a.cls⟩ := rfl
    _ = ⟨b.ref, b.cls⟩ := by rw [href, hcls]
    _ = b := rfl

/-- An object that is alive is read back from its proxies. -/
theorem readsBack_object (hw : w.Known (w.known true)) {o : ObjectRef}
    (ho : ScriptHost.Known (w.known true) o) (halive : w.alive o.ref.handle = true) :
    w.ReadsBack (.object o) := by
  intro s hs
  cases hs with
  | @object _ u htargets =>
    obtain ⟨p, a, hp, htarget, hsame⟩ := htargets
    -- Both references are known, and they point to the same object, so they name the same class too.
    have ha : ScriptHost.Known (w.known true) a := by
      have hknown := hw.proxy hp
      rw [htarget] at hknown
      exact Known.some_iff.mp (Known.some_iff.mp hknown)
    obtain rfl := eq_of_known ha ho (same_iff.mp hsame)
    refine ⟨rfl, naturalValue_eq_object.mpr ?_⟩
    exact proxyTarget?_eq_some.mpr ⟨p, hp, htarget, fun _ ho' => Target.object.inj ho' ▸ halive⟩

/-- A proxy keeps the class of its target alive. -/
theorem alive_cls_of_proxy {u : UserdataRef} {t : Target} (ht : w.proxyTarget? u = some t)
    (hu : w.alive u.handle = true) : w.alive t.cls.ref.handle = true := by
  obtain ⟨p, hp, htarget, -⟩ := proxyTarget?_eq_some.mp ht
  have hproxy := proxy?_eq_some.mp hp
  have hkept : t.cls.ref.handle ∈ handles (w.userdata.get? u) := by
    rw [hproxy, mem_handles_some]
    simp only [handles, htarget, Option.map_some, Option.getD_some]
    exact List.mem_singleton_self _
  exact alive_of_keeps hu (keeps_iff.mpr hkept)

/-- What a value naturally stands for holds nothing that is dead. -/
theorem Natural.safe (hx : w₀.Natural x) : ∀ k ∈ handles x, w₀.Safe k := by
  obtain ⟨s, -, -, halive, rfl⟩ := hx
  intro k hk
  cases s with
  | userdata u =>
    have hu : w₀.alive u.handle = true := halive _ (List.mem_singleton_self _)
    simp only [naturalValue] at hk
    split at hk
    -- The object is reached through the proxy, so it is alive, and so is the class that it is of.
    · next o ho =>
      obtain ⟨-, -, -, hobject⟩ := proxyTarget?_eq_some.mp ho
      have hk : k ∈ [o.ref.handle, o.cls.ref.handle] := hk
      rcases List.mem_pair.mp hk with rfl | rfl
      · exact safe_of_alive (hobject o rfl)
      · exact safe_of_alive (alive_cls_of_proxy ho hu)
    -- The class of a proxy is alive as long as the proxy is.
    · next c hc =>
      obtain rfl := List.mem_singleton.mp hk
      exact safe_of_alive (alive_cls_of_proxy hc hu)
    · exact safe_of_alive (halive k hk)
  | table t => exact safe_of_alive (halive k hk)
  | function f => exact safe_of_alive (halive k hk)
  | _ => cases hk

/-- **A proxy that reached nothing reaches nothing** where nothing was revived. -/
theorem Spares.proxyTarget?_eq_none (hspares : w₀.Spares w) (hw₀ : w₀.Known (w₀.known true))
    (huserdata : ∀ u d, w₀.userdata.get? u = some d → w.userdata.get? u = some d) {u : UserdataRef}
    (hu : ScriptHost.Known (w₀.known true) u) (hnone : w₀.proxyTarget? u = none) :
    w.proxyTarget? u = none := by
  cases htarget : w.proxyTarget? u with
  | none => rfl
  | some t =>
    obtain ⟨p, hp, ht, halive⟩ := proxyTarget?_eq_some.mp htarget
    obtain ⟨d, hd⟩ : ∃ d, w₀.userdata.get? u = some d := Known.userdata_iff.mp hu rfl
    have hproxy : w₀.proxy? u = some p := by
      have hkept := huserdata u d hd
      rw [proxy?_eq_some.mp hp] at hkept
      rw [proxy?_eq_some, hd, ← hkept]
    -- It was a proxy of the same thing, and of an object only if that was dead.
    have hreached : w₀.proxyTarget? u = some t := by
      refine proxyTarget?_eq_some.mpr ⟨p, hproxy, ht, fun o ho => ?_⟩
      by_contra hdead
      have hknown := hw₀.proxy hproxy
      rw [ht, ho] at hknown
      have hobject : ScriptHost.Known (w₀.known true) o :=
        Known.some_iff.mp (Known.some_iff.mp hknown)
      obtain ⟨y, hy, -⟩ := Known.object_iff.mp hobject rfl
      have hthere : o.ref.handle ∈ w₀.things := mem_things.mpr ⟨y, hy⟩
      have hgone := hspares.alive_eq_false hthere (Bool.eq_false_iff.mpr hdead)
      rw [halive o ho] at hgone
      cases hgone
    rw [hreached] at hnone
    cases hnone

/-- **What a value naturally stands for is read back** in a world in which nothing was revived: its
objects from their proxies, its classes from theirs, and a proxy that reached nothing passes through
and still reaches nothing. -/
theorem Natural.readsBack (hx : w₀.Natural x) (hw₀ : w₀.Known (w₀.known true))
    (hw : w.Known (w.known true)) (hknown : ScriptHost.Known (w.known true) x)
    (halive : ∀ k ∈ handles x, w.alive k = true) (hspares : w₀.Spares w)
    (huserdata : ∀ u d, w₀.userdata.get? u = some d → w.userdata.get? u = some d) :
    w.ReadsBack x := by
  obtain ⟨s, hnil, hthere, -, rfl⟩ := hx
  cases s with
  | nil => cases hnil
  | boolean b => intro s' hs; cases hs; exact ⟨rfl, rfl⟩
  | integer i => intro s' hs; cases hs; exact ⟨rfl, rfl⟩
  | number f => intro s' hs; cases hs; exact ⟨rfl, rfl⟩
  | string t => intro s' hs; cases hs; exact ⟨rfl, rfl⟩
  | function f => intro s' hs; cases hs; exact ⟨rfl, rfl⟩
  | table t => intro s' hs; cases hs; exact ⟨rfl, rfl⟩
  | userdata u =>
    cases htarget : w₀.proxyTarget? u with
    | some t =>
      cases t with
      | object o =>
        -- The value was an instance already.
        have hnatural : w₀.naturalValue (.userdata u) = .object o :=
          naturalValue_eq_object.mpr htarget
        rw [hnatural] at hknown halive ⊢
        exact readsBack_object hw hknown (halive _ List.mem_cons_self)
      -- It was a class, and any proxy of the class gives it again.
      | type c =>
        simp only [naturalValue, htarget]
        intro s' hs
        cases hs with
        | @cls _ u' p hp hc =>
          have hreached : w.proxyTarget? u' = some (.type c) := by
            refine proxyTarget?_eq_some.mpr ⟨p, hp, hc, fun o ho => ?_⟩
            cases ho
          simp only [naturalValue, hreached]
          exact ⟨rfl, trivial⟩
    -- It reached nothing, and still does: nothing comes back to life.
    | none =>
      have hnone := hspares.proxyTarget?_eq_none hw₀ huserdata hthere htarget
      simp only [naturalValue, htarget]
      intro s' hs
      cases hs
      simp only [naturalValue, hnone]
      exact ⟨rfl, trivial⟩

end World

/-! ### There and back once more -/

namespace Act

variable {via : BindingRef} {t : HostType} {x : HostValue} {s : ScriptValue} {w w' : World}

/-- **A value that is held arrives in script**: when it is converted, what is stored is known, and so
are its objects, and whatever it holds is alive. -/
theorem toScript_arrives (hw : w.Faithful) (hx : Known (w.known true) x)
    (h : (toScript via x : Act ConversionError ScriptValue).outcome
      { w with held := handles x ++ w.held } = (.ok s, w')) (ks : List Handle) :
    let w'' := { w' with held := ks ++ w'.held }
    w''.Known (w''.known true) ∧ Known (w''.known true) x ∧ ∀ k ∈ handles x, w''.alive k = true := by
  have hheld : ({ w with held := handles x ++ w.held } : World).Faithful := hw.holding _
  have hcomposed : Composed .all false (w.known true)
      (toScript via x : Act ConversionError ScriptValue) Known := toScript_composed via x hx
  have hran := hcomposed.run true (World.within_all _) hheld.known subset_rfl
  rw [h] at hran
  refine ⟨{ hran.known with }, hx.mono hran.subset, fun k hk => World.alive_of_held ?_⟩
  rw [(toScript_grows h).held]
  exact List.mem_append_right _ (List.mem_append_left _ hk)

/-- **A settled value comes back**, if its leaves do from wherever script has them. -/
theorem roundTrip_settled {P : HostValue → Prop} (hx : x.Settled P t)
    (hreads : ∀ s w', (toScript via x : Act ConversionError ScriptValue).outcome
        { w with held := handles x ++ w.held } = (.ok s, w') →
      ∀ y ∈ x.leaves, P y → ({ w' with held := handles s ++ w'.held } : World).ReadsBack y) :
    ((roundTrip via t x).outcome w).1 = .ok x := by
  obtain ⟨s, w₁, hs, hback⟩ := roundTrip_eq via t x w
  have hsettled := hx.mono (hreads s w₁ hs)
  have hrepr : ({ w₁ with held := handles s ++ w₁.held } : World).Represents x s :=
    (toScript_represents x hs).of_eq rfl rfl
  rw [hback, outcome_toHost, (convertWith_settled_back hsettled hrepr).2]

/-- Null comes back at the types that admit it. -/
theorem roundTrip_null (h : t.admitsNull = true) :
    ((roundTrip via t .null).outcome w).1 = .ok .null := by
  obtain ⟨s, w₁, hs, hback⟩ := roundTrip_eq via t .null w
  unfold toScript at hs
  cases hs
  rw [hback, outcome_toHost, convertWith_nil h]
  rfl

/-- Values of definite types come back: their objects are alive, because they are held. -/
theorem roundTrip_definite (hw : w.Faithful) (hknown : Known (w.known true) x)
    (hx : x.Settled (fun y => y.isObject = true) t) : ((roundTrip via t x).outcome w).1 = .ok x := by
  refine roundTrip_settled hx fun s w₁ hs y hy hobject => ?_
  obtain ⟨hk, hknown, halive⟩ := toScript_arrives hw hknown hs (handles s)
  cases y with
  | object o =>
    have ho : Known _ o := Known.of_mem_leaves x hknown hy
    have hheld : o.ref.handle ∈ handles x :=
      (HostValue.mem_held_iff x).mpr ⟨_, hy, List.mem_cons_self⟩
    exact World.readsBack_object hk ho (halive _ hheld)
  | _ => cases hobject

/-- Values that passed through come back, as long as nothing that was dead then is held now. -/
theorem roundTrip_passing {w₀ : World} (hw₀ : w₀.Faithful) (hw : w.Faithful)
    (hspares : w₀.Spares w) (huserdata : w.userdata = w₀.userdata) (hknown : Known (w.known true) x)
    (ht : t.Passing) (hx : x.Settled w₀.Natural t) : ((roundTrip via t x).outcome w).1 = .ok x := by
  refine roundTrip_settled hx fun s w₁ hs y hy hnatural => ?_
  obtain ⟨hk, hknown, halive⟩ := toScript_arrives hw hknown hs (handles s)
  have hleaf : ∀ z ∈ x.leaves, ∀ k ∈ handles z, k ∈ handles x := fun z hz k hk =>
    (HostValue.mem_held_iff x).mpr ⟨z, hz, hk⟩
  -- The value holds nothing dead, and so its conversion to script revives nothing.
  have hsafe : ∀ k ∈ handles x, w₀.Safe k := by
    intro k hk
    obtain ⟨z, hz, hk⟩ := (HostValue.mem_held_iff x).mp hk
    exact (hx.of_mem_leaves ht z hz).safe k hk
  have hheld : w₀.Spares { w with held := handles x ++ w.held } :=
    hspares.holding (List.forall_mem_append.mpr ⟨hsafe, hspares.held⟩)
  obtain ⟨hspares₁, hs'⟩ := toScript_spares x hs hheld hsafe
  have hspares₂ : w₀.Spares { w₁ with held := handles s ++ w₁.held } :=
    hspares₁.holding (List.forall_mem_append.mpr ⟨hs', hspares₁.held⟩)
  refine hnatural.readsBack hw₀.known hk (Known.of_mem_leaves x hknown hy) ?_ hspares₂ ?_
  · exact fun k hk => halive k (hleaf y hy k hk)
  · intro u d hd
    rw [← huserdata] at hd
    exact (toScript_grows hs).userdata u d hd

end Act

/-! ### Conversion is stable -/

open Act

/-- What the conversion of a value of the world gives comes back, in a faithful world. -/
theorem Act.roundTrip_toHost {w w' : World} {via : BindingRef} {t : HostType} {v : ScriptValue}
    {x : HostValue} (hw : w.Faithful) (hv : Known (w.known true) v) (ht : t.VoidFree)
    (h : (holding (handles v) (toHost via t v)).outcome w = (.ok x, w')) :
    ((roundTrip via t x).outcome w').1 = .ok x := by
  -- The first conversion runs while the value is held, and what it leaves behind is faithful.
  have hw₁ : ({ w with held := handles v ++ w.held } : World).Faithful := hw.holding _
  rw [outcome_holding] at h
  rcases hm : (toHost via t v).outcome { w with held := handles v ++ w.held } with ⟨r, w₂⟩
  rw [hm] at h
  cases h
  have hcomposed : Composed .all false (w.known true) (toHost via t v) t.Gives :=
    toHost_composed (.inl rfl) via t hv
  obtain ⟨hw₂, hgiven⟩ := hcomposed.faithful (World.within_all _) hw₁ subset_rfl
  rw [hm] at hw₂ hgiven
  obtain ⟨K, hK, -, hknown⟩ := hgiven x rfl
  have hw' : ({ w₂ with held := w.held } : World).Faithful := hw₂.holding _
  have hknown' : Known (({ w₂ with held := w.held } : World).known true) x := hknown.mono hK
  rw [outcome_toHost] at hm
  cases hnil : v.isNil with
  | true =>
    obtain rfl : v = .nil := by cases v <;> first | rfl | cases hnil
    unfold convertWith at hm
    split at hm
    · next hadmits =>
      cases hm
      exact roundTrip_null hadmits
    · cases hm
  | false =>
    rcases ht.passing_or_definite with hpassing | hdefinite
    · have halive : ∀ k ∈ handles v,
          ({ w with held := handles v ++ w.held } : World).alive k = true :=
        fun k hk => World.alive_of_held (List.mem_append_left _ hk)
      obtain ⟨rfl, hsettled⟩ := convertWith_passing hw₁ hpassing hnil hv halive hm
      refine roundTrip_passing hw₁ hw' ?_ rfl hknown' hpassing hsettled
      exact (World.Spares.refl _).holding fun k hk =>
        World.safe_of_alive (World.alive_of_held (List.mem_append_right _ hk))
    · exact roundTrip_definite hw' hknown' (convertWith_settled hw₁.noNil hdefinite hnil hm)

/-- **Conversion is stable on what it gives.** Every world of a session is faithful. Where a script
value of the world converts to a type in which void does not occur, what it converts to goes into
script and converts back to the very same host value. -/
theorem conversion_stable :
    (∀ (c : Config) layout (ops : Program), ((World.start c layout).after ops).Faithful) ∧
    ∀ (w w' : World) via t v x, w.Faithful → Known (w.known true) v → t.VoidFree →
      (holding (handles v) (toHost via t v)).outcome w = (.ok x, w') →
      ((roundTrip via t x).outcome w').1 = .ok x :=
  ⟨World.faithful_session, fun _ _ _ _ _ _ => roundTrip_toHost⟩

/-- A table with a float in it that is an integer too wide for script. -/
def wideSession : Program :=
  [.act ⟨some "wide", none, false, false⟩
    (.value (.bind (.sequence (.list [.number ⟨0x43e8000000000000⟩]))))]

/-- The float converts to an unsigned integer and comes back as one. -/
theorem conversion_stable_wideSession :
    let w := (World.start .default fun r => r.index).after wideSession
    let t : HostType := .array (.integer ⟨false, .w64⟩)
    let x : HostValue := .array [.uint 13835058055282163712]
    w.Faithful ∧ Known (w.known true) (ScriptValue.table ⟨1⟩) ∧ t.VoidFree ∧
      (holding (handles (ScriptValue.table ⟨1⟩)) (toHost ⟨0⟩ t (.table ⟨1⟩))).outcome w = (.ok x, w) ∧
      ((roundTrip ⟨0⟩ t x).outcome w).1 = .ok x := by
  intro w t x
  obtain ⟨hfaithful, hstable⟩ := conversion_stable
  have hw : w.Faithful := hfaithful .default _ wideSession
  have hknown : Known (w.known true) (ScriptValue.table ⟨1⟩) := .of_named_eq_nil rfl
  -- The float is this integer, which is in the range of the type.
  have hfloat : Binary64.toInt? ⟨0x43e8000000000000⟩ = some 13835058055282163712 := by decide +kernel
  have hfit : IntType.fitFloat ⟨false, .w64⟩ ⟨0x43e8000000000000⟩ =
      .ok (.uint 13835058055282163712) := by
    have hrange : IntType.min ⟨false, .w64⟩ ≤ 13835058055282163712 ∧
        13835058055282163712 ≤ IntType.max ⟨false, .w64⟩ := by decide
    have hbound : (13835058055282163712 : Int).natAbs < wideIntegerBound := by decide
    rw [IntType.fitFloat, hfloat]
    simp only [hbound, if_true, IntType.fit_of_range hrange]
    rfl
  have hsequence : (w.table ⟨1⟩).sequence = [.number ⟨0x43e8000000000000⟩] := by decide +kernel
  have hconverted : (holding (handles (ScriptValue.table ⟨1⟩)) (toHost ⟨0⟩ t (.table ⟨1⟩))).outcome w
      = (.ok x, w) := by
    have hrun (n : Nat) (v : World) (hv : (v.table ⟨1⟩).sequence = [.number ⟨0x43e8000000000000⟩]) :
        (convertWith (buildUpTo ⟨0⟩ n) t (.table ⟨1⟩)).outcome v = (.ok x, v) := by
      unfold convertWith
      rw [outcome_bind_ok (outcome_look _ v), hv]
      unfold convertItems convertWith
      simp only [outcome_bind, outcome_mapError, outcome_ofExcept, hfit]
      rfl
    rw [outcome_holding, outcome_toHost, hrun]
    exact hsequence
  refine ⟨hw, hknown, trivial, hconverted, ?_⟩
  exact hstable w w ⟨0⟩ t (.table ⟨1⟩) x hw hknown trivial hconverted

end ScriptHost
