import ScriptHost.Proofs.OneMember
import ScriptHost.Proofs.Proxies.Gone

/-!
# Failed writes

Before a write gets to the setter of its member, the target has to be reached, the key has to denote
one member that accepts values, and the value has to convert; the conversion of a table may construct
objects and run their setters before it fails. `Act.WriteFailure` tells the three ways in which a
write fails: nothing has happened yet, the value did not convert, or the setter failed. In none of
them has an object changed that was there before the write: a conversion fills new objects only, and a
setter that fails has changed nothing.
-/

set_option autoImplicit false

namespace ScriptHost

open Act

namespace Act

/-- How a write fails, and the world that it leaves. -/
inductive WriteFailure (w : World) (p : Proxy) (key v : ScriptValue) :
    HostFailure → World → Prop where
  /-- The target, the key or the member does not allow the write. Nothing was converted. -/
  | refused (e : AccessError) : WriteFailure w p key v (.binding e) w
  /-- The value does not convert to the type of the one member. -/
  | unconverted {t : Target} {m : Member} {ty : HostType} {s : Setter} {e : ConversionError}
      {w₁ : World} (hm : w.Denotes p t key [m]) (ha : m.accepts? = some (ty, s))
      (hconv : (toHost p.via ty v).outcome w = (.error e, w₁)) :
      WriteFailure w p key v
        (.binding (.incompatibleValue t.cls.name m.name ty.name v.kind)) w₁
  /-- The setter of the one member fails with what the value converts to. -/
  | unset {t : Target} {m : Member} {ty : HostType} {s : Setter} {x : HostValue} {e : HostFailure}
      {w₁ w' : World} (hm : w.Denotes p t key [m]) (ha : m.accepts? = some (ty, s))
      (hconv : (toHost p.via ty v).outcome w = (.ok x, w₁))
      (hset : (runSetter t.cls.name m.name t.receiver? x s).outcome
        (w₁.noted (.setter p.via t.cls m x)) = (.error e, w')) :
      WriteFailure w p key v e w'

variable {w w' : World} {p : Proxy} {key v : ScriptValue} {e : HostFailure}

/-- A write to one member that is found fails in one of these ways. -/
theorem writeFailure_of_found {t : Target} {m : Member} (hfinds : w.Finds p t key [m])
    (h : (assignMember (toHost p.via) p.via t.cls t.receiver? m v).outcome w = (.error e, w')) :
    WriteFailure w p key v e w' := by
  -- The member accepts no values.
  cases ha : m.accepts? with
  | none =>
    rw [assignMember_of_not_accepts ha] at h
    cases h
    exact .refused _
  | some q =>
    obtain ⟨ty, s⟩ := q
    -- Or it wants an object and there is none.
    by_cases hfield : m.isField = true ∧ t.receiver? = none
    · rw [hfield.2, assignMember_of_no_receiver ha hfield.1] at h
      cases h
      exact .refused _
    · -- The member has the object it wants.
      have hreceiver : m.isField = true → t.receiver?.isSome = true := fun hm =>
        Option.isSome_iff_ne_none.mpr fun hnone => hfield ⟨hm, hnone⟩
      have hm : w.Denotes p t key [m] := ⟨hfinds, List.forall_mem_singleton.mpr hreceiver⟩
      rw [assignMember_of_accepts ha hreceiver] at h
      -- The value is converted first, and only then the setter is started.
      rcases hconv : (toHost p.via ty v).outcome w with ⟨ce | x, w₁⟩
      · rw [outcome_assignThrough_error hconv] at h
        cases h
        exact .unconverted hm ha hconv
      · rw [outcome_assignThrough_ok hconv] at h
        exact .unset hm ha hconv h

/-- **Every failure of a write is of one of the three kinds.** -/
theorem writeFailure_of_error (h : (writeProxy p key v).outcome w = (.error e, w')) :
    WriteFailure w p key v e w' := by
  cases hp : p.target with
  | none =>
    have hgone := (World.refuses_disposed (w := w) hp).2 key v
    cases hgone.symm.trans h
    exact .refused _
  | some t =>
    cases hreach : w.reach? t with
    | none =>
      unfold writeProxy at h
      rw [outcome_bind_ok (outcome_namedTarget hp),
        outcome_bind_error (outcome_reachTarget_gone hreach)] at h
      cases h
      exact .refused _
    | some t' =>
      obtain rfl := World.reach?_eq_some hreach
      have hfinds : w.Finds p t key _ := ⟨hp, hreach, rfl⟩
      rw [outcome_writeProxy hfinds] at h
      -- Whatever is found, only a single member is written.
      generalize ((MemberKey.ofValue? key).elim [] fun k =>
        (w.binding p.via).resolve (w.cls t.cls) k t.isInstance) = S at hfinds h
      by_cases hS : ∃ m, S = [m]
      · obtain ⟨m, rfl⟩ := hS
        exact writeFailure_of_found hfinds h
      · rw [writeChosen_of_ne fun m hm => hS ⟨m, hm⟩] at h
        cases h
        exact .refused _

/-- The world that a write leaves when it fails is the one that its conversion left, but for the
journal. -/
theorem WriteFailure.fills (h : WriteFailure w p key v e w') :
    ∃ w₁, w.Fills w.objects.size w₁ ∧ w' = { w₁ with journal := w'.journal } := by
  cases h with
  | refused => exact ⟨w, .refl w, rfl⟩
  | unconverted _ _ hconv => exact ⟨w', toHost_fills hconv, rfl⟩
  | unset _ _ hconv hset =>
    obtain rfl := runSetter_failed hset
    exact ⟨_, toHost_fills hconv, rfl⟩

/-- **Objects survive a failed write** as they were. -/
theorem WriteFailure.objects (h : WriteFailure w p key v e w') {r : Ref .object} {x : Object}
    (hx : w.objects.get? r = some x) : w'.objects.get? r = some x := by
  obtain ⟨w₁, hfills, hw'⟩ := h.fills
  have hr : r.index < w.objects.size := (Array.getElem?_eq_some_iff.mp hx).1
  rw [hw']
  exact (hfills.objects (Nat.le_refl _) hr).trans hx

/-- No table, no class and no proxy is different afterwards. -/
theorem WriteFailure.rest (h : WriteFailure w p key v e w') :
    w' = { w with objects := w'.objects, journal := w'.journal } := by
  obtain ⟨w₁, hfills, hw'⟩ := h.fills
  rw [hw', hfills.rest]

/-- The reason of a failed conversion never gets out. -/
theorem WriteFailure.ne_conversion (h : WriteFailure w p key v e w') (ce : ConversionError) :
    e ≠ .conversion ce := by
  cases h with
  | refused => exact nofun
  | unconverted => exact nofun
  -- A setter fails for its object or of its own accord.
  | @unset t m ty s x _ _ _ _ _ _ hset =>
    rintro rfl
    cases hreceiver : t.receiver? with
    | none =>
      rw [hreceiver, outcome_runSetter_none] at hset
      cases hset
    | some o =>
      rw [hreceiver, outcome_runSetter_some] at hset
      split at hset <;> cases hset

end Act

/-- **A write that fails changes nothing.** Whatever the proxy, the key and the value, a write that
returns an error leaves every object that was there with the slots and the borrows that it had, and
apart from new objects and the journal the world as it was. It failed before anything was converted,
at the conversion of the value or in the setter of the one member that is denoted. Where the value
does not convert, the error says that it is incompatible with this member, and nothing else ever says
that a conversion has failed. -/
theorem failed_write_changes_nothing {w w' : World} {p : Proxy} {key v : ScriptValue}
    {e : HostFailure} (h : (writeProxy p key v).outcome w = (.error e, w')) :
    (∀ r x, w.objects.get? r = some x → w'.objects.get? r = some x) ∧
    w' = { w with objects := w'.objects, journal := w'.journal } ∧
    WriteFailure w p key v e w' ∧
    (∀ t m ty s ce w₁, w.Denotes p t key [m] → m.accepts? = some (ty, s) →
      (toHost p.via ty v).outcome w = (.error ce, w₁) →
      e = .binding (.incompatibleValue t.cls.name m.name ty.name v.kind)) ∧
    ∀ ce, e ≠ .conversion ce := by
  have hfailure := writeFailure_of_error h
  refine ⟨fun r x hx => hfailure.objects hx, hfailure.rest, hfailure, ?_, hfailure.ne_conversion⟩
  -- The failure of the conversion is what the write ends with, so it is the one that was reported.
  intro t m ty s ce w₁ hm ha hconv
  have hreported := (hm.write_accepts ha v).trans (outcome_assignThrough_error hconv)
  rw [h] at hreported
  exact Except.error.inj (Prod.mk.inj hreported).1

namespace FailedWrite

/-- The class of knobs. -/
def knobRef : ClassRef := ⟨⟨0⟩, "Knob"⟩

/-- The class of panels. -/
def panelRef : ClassRef := ⟨⟨1⟩, "Panel"⟩

/-- Tables become knobs. -/
def knob : HostClass :=
  ⟨"Knob", .slots, [], .empty, some [("turned", .bool false)], none⟩

/-- A dial takes an array of knobs. -/
def dial : Member :=
  .property ⟨"Dial", .array (.object knobRef), false, true, 0, none, some (.slot "dial")⟩

/-- The class with the dial. -/
def panel : HostClass := ⟨"Panel", .slots, [dial], ⟨[("Dial", [0])], []⟩, none, none⟩

/-- A panel without knobs, which somebody reads. -/
def fitted : Object := ⟨panelRef, .slots [("dial", .null)], .readers 1⟩

/-- A world with a panel that somebody reads. The second table holds a table, and the third one an
entry that is not named. -/
def workshop : World :=
  { World.start .default fun r => r.index with
    classes := (Store.empty.push knob).push panel
    objects := Store.empty.push fitted
    tables := ((Store.empty.push .empty).push (.ofSequence [.table ⟨2⟩])).push
      (.ofSequence [.boolean true])
    held := [⟨.object, 0⟩] }

/-- The proxy of the panel. -/
def proxy : Proxy := ⟨some (.object ⟨⟨0⟩, panelRef⟩), ⟨0⟩, "Panel"⟩

end FailedWrite

open FailedWrite in
/-- A knob is made before the only element turns out to be no knob. The panel is as it was. -/
theorem failed_write_changes_nothing_workshop :
    let out := (writeProxy proxy (.string "Dial") (.table ⟨1⟩)).outcome workshop
    out.1 = .error (.binding (.incompatibleValue "Panel" "Dial" "Knob[]" .table)) ∧
    out.2.objects.size = 2 ∧ out.2.objects.get? ⟨0⟩ = some fitted := by
  intro out
  have hout : out.1 = .error (.binding (.incompatibleValue "Panel" "Dial" "Knob[]" .table)) := by
    decide +kernel
  obtain ⟨hobjects, -⟩ := failed_write_changes_nothing (Prod.ext hout rfl : out = (_, out.2))
  exact ⟨hout, by decide +kernel, hobjects ⟨0⟩ fitted rfl⟩

end ScriptHost
