import ScriptHost.Proofs.Conversion.Observed
import ScriptHost.Proofs.Instants.Parts
import ScriptHost.Proofs.Proxies.Gone

/-!
# Receivers

Members check that they are given an instance, and that it holds what they expect. Whoever goes through a
proxy never meets these checks. A read, a write or a call works on the target on which its member was
found, to which it belongs (`World.belongs_of_finds`), and a table that becomes an object is assigned to
a fresh instance of the class (`outcome_toHostUnder`). `World.ServesReceivers` says so of a world, and
`receivers_always_served` of all worlds of all sessions.
-/

set_option autoImplicit false

namespace ScriptHost

open Act

namespace World

variable {w w' : World} {p : Proxy} {key v : ScriptValue} {e : HostFailure}

/-- A proxy refuses everything, or it reaches what it stands for. -/
theorem refuses_or_reaches (w : World) (p : Proxy) :
    (∃ e, w.Refuses p e ∧ HostFailure.isAboutReceiver (.binding e) = false) ∨
      ∃ t, p.target = some t ∧ w.reach? t = some t := by
  cases hp : p.target with
  | none => exact .inl ⟨_, refuses_disposed hp, rfl⟩
  | some t =>
    cases t with
    | type c => exact .inr ⟨_, rfl, rfl⟩
    | object o =>
      cases halive : w.alive o.ref.handle with
      | true => exact .inr ⟨_, rfl, reach?_object halive⟩
      | false => exact .inl ⟨_, refuses_released hp halive, rfl⟩

section Access

variable (hfaithful : w.Faithful) (hregular : w.Regular) {u : UserdataRef} (hp : w.proxy? u = some p)
include hfaithful hregular hp

/-- **A getter has its receiver.** On a class it needs none, and on an object it finds slots. -/
theorem getter_error {t : Target} {m : Member} {g : Getter} (h : w.Finds p t key [m])
    (hg : m.getter? = some g) {started : Event}
    (he : (runGetter t.cls.name m.name t.receiver? g).outcome (w.noted started) = (.error e, w')) :
    e.isAboutReceiver = false := by
  have hbelongs := belongs_of_finds hfaithful hregular hp h m List.mem_cons_self
  have hm := hregular.member hbelongs.declared
  cases t with
  | type c =>
    obtain ⟨x, rfl⟩ := hm.getter_constant hbelongs.static hg
    cases he
  | object o =>
    obtain ⟨slot, rfl⟩ := hm.getter_slot hbelongs.static hg
    have hslot := outcome_runGetter_slot (Target.object o).cls.name m.name o slot (w.noted started)
    have hobject : (w.noted started).object o = w.object o := rfl
    rw [hobject] at hslot
    cases hrefusal : (w.object o).refusal? false .slots with
    | some refusal =>
      rw [hrefusal] at hslot
      cases hslot.symm.trans he
      rw [Object.refusal?_eq_borrowed (hregular.payload o) hrefusal]
      rfl
    | none =>
      rw [hrefusal] at hslot
      cases hslot.symm.trans he

/-- **No read fails for want of a receiver.** -/
theorem readProxy_error (h : (readProxy p key).outcome w = (.error e, w')) :
    e.isAboutReceiver = false := by
  -- A disposed or released proxy refuses, and neither refusal is about a receiver.
  rcases w.refuses_or_reaches p with ⟨refusal, hrefuses, hother⟩ | ⟨t, ht, hreach⟩
  · -- The proxy refuses before anything is looked up.
    cases (hrefuses.1 key).symm.trans h
    exact hother
  · have hfinds : w.Finds p t key _ := ⟨ht, hreach, rfl⟩
    have hreading := (denotes_of_finds hfaithful hregular hp hfinds).reading
    generalize ((MemberKey.ofValue? key).elim [] fun k =>
      (w.binding p.via).resolve (w.cls t.cls) k t.isInstance) = S at hfinds hreading
    -- One member alone is read, by its kind; anything else that is found reads as nil.
    by_cases hS : ∃ m, S = [m]
    · obtain ⟨m, rfl⟩ := hS
      cases hmethod : m.isMethod with
      | true =>
        cases m with
        | method x => cases (hreading.method x rfl).symm.trans h
        | _ => cases hmethod
      | false =>
        cases hg : m.getter? with
        | none =>
          cases (hreading.unreadable m rfl hmethod hg).symm.trans h
          unfold Member.unreadable
          split <;> rfl
        | some g =>
          -- What a getter gives goes into script without a failure.
          have hread := (hreading.getter m g rfl hg).1
          rcases hget : (runGetter t.cls.name m.name t.receiver? g).outcome
            (w.noted (.getter p.via t.cls m)) with ⟨f | x, w₁⟩
          · rw [outcome_bind_error hget] at hread
            cases hread.symm.trans h
            exact getter_error hfaithful hregular hp hfinds hg hget
          · obtain ⟨s, w₂, hs, -⟩ := toScript_ok (ε := HostFailure) p.via x w₁
            rw [outcome_bind_ok hget, hs] at hread
            cases hread.symm.trans h
    · cases (hreading.absent fun m hm => hS ⟨m, hm⟩).symm.trans h

omit hfaithful hp in
/-- **No write fails for want of a receiver.** -/
theorem writeProxy_error (h : (writeProxy p key v).outcome w = (.error e, w')) :
    e.isAboutReceiver = false := by
  rcases w.refuses_or_reaches p with ⟨refusal, hrefuses, hother⟩ | ⟨t, ht, hreach⟩
  · cases (hrefuses.2 key v).symm.trans h
    exact hother
  · unfold writeProxy at h
    rw [outcome_bind_ok (outcome_namedTarget ht), outcome_bind_ok (outcome_reachTarget_ok hreach)]
      at h
    split at h
    · cases h
      rfl
    · refine assignKey_error (fun ty => ?_) hregular h
      exact (Filling.toHost (n := 0) p.via ty v w (Nat.zero_le _)).regular hregular

end Access

end World

/-! ### Calls -/

namespace Act

/-- A call of a method on what it was read from, which asks for no receiver. -/
def callMethod (run : Runner) (inCoroutine : Bool) (via : BindingRef) (name : String) (t : Target)
    (m : Method) (args : List ScriptValue) : Act ScriptError (List ScriptValue) := do
  let _ ← raising (reachTarget t)
  holding (handles t) do
    let rest ← look fun w => withoutSelf w t m.params.length args
    runHostCode inCoroutine via name m.params rest (runHostBody run inCoroutine via t.receiver? m.body)

/-- A target that is reached is the one that was asked for. -/
theorem reached_eq {t t' : Target} {w w' : World}
    (h : (raising (reachTarget t)).outcome w = (.ok t', w')) : t = t' := by
  rw [outcome_raising, outcome_reachTarget] at h
  cases hreach : w.reach? t with
  | some s =>
    rw [hreach] at h
    cases h
    exact World.reach?_eq_some hreach
  | none =>
    rw [hreach] at h
    obtain ⟨_, _, -, hthrow⟩ := outcome_bind_eq_ok h
    cases hthrow

/-- **A method of its target is called without asking for a receiver.** -/
theorem outcome_invokeCode_belongs {run : Runner} {b : Bool} {f : FunctionRef} {args : List ScriptValue}
    {w : World} {via : BindingRef} {t : Target} {m : Method}
    (hf : (w.function f).code = .method via t m) (hbelongs : w.Belongs t (.method m)) :
    (invokeCode run b f args).outcome w =
      (callMethod run b via (w.function f).name t m args).outcome w := by
  rw [outcome_invokeCode, hf]
  refine outcome_bind_congr fun t' w₁ ht => ?_
  obtain rfl := reached_eq ht
  simp only [hbelongs.methodReceiver_eq, pure_bind]

end Act

namespace World

/-- **Receivers are served**: whoever goes through a proxy finds members of its target, and nothing that is
done with them fails for want of a receiver. -/
structure ServesReceivers (w : World) : Prop where
  /-- Members are found on the class that declares them: static ones on the class itself, the others on an
  instance of that very class. -/
  found : ∀ u p t key S, w.proxy? u = some p → w.Finds p t key S → ∀ m ∈ S, w.Belongs t m
  read : ∀ u p key e w', w.proxy? u = some p → (readProxy p key).outcome w = (.error e, w') →
    e.isAboutReceiver = false
  write : ∀ u p key v e w', w.proxy? u = some p → (writeProxy p key v).outcome w = (.error e, w') →
    e.isAboutReceiver = false
  /-- A function that was made of a method names a target of it, and is called without asking for a
  receiver. -/
  called : ∀ f via t m, (w.function f).code = .method via t m → w.Belongs t (.method m) ∧
    ∀ run b args, (invokeCode run b f args).outcome w =
      (callMethod run b via (w.function f).name t m args).outcome w
  /-- Whatever is done around the assignments to objects that tables become: it notices nothing, as long
  as it overlooks assignments to instances of the very class that do not fail for want of a receiver. -/
  converted : ∀ obs : Observer, obs.Overlooks → ∀ via t v,
    (toHostUnder obs via t v).outcome w = (toHost via t v).outcome w

/-- Where exactly the loans are outstanding that are known, receivers are served. -/
theorem Outstanding.servesReceivers {L : List Loan} {w : World} (hw : w.Outstanding L) :
    w.ServesReceivers where
  found u p t key S hp h := belongs_of_finds hw.faithful hw.regular hp h
  read u p key e w' hp h := readProxy_error hw.faithful hw.regular hp h
  write u p key v e w' _ h := writeProxy_error hw.regular h
  called f via t m hf := by
    have hbelongs := hw.belongs_of_function hf
    exact ⟨hbelongs, fun run b args => outcome_invokeCode_belongs hf hbelongs⟩
  converted obs hobs via t v := outcome_toHostUnder hobs t v hw.regular

end World

/-- **Receivers are always served.** Whatever the policy and the configuration, in every world of every
session, at every instant and in whatever comes about from there, no access through a proxy and no
conversion fails for want of a receiver: what a member is started with is an instance of the very class
that declares it. -/
theorem receivers_always_served (policy : Policy) (c : Config) (layout : Ref .object → Nat)
    (ops : Program) : ∀ i ∈ (World.startUnder policy c layout).instants ops, ∀ w,
      i.world.Comes w → w.ServesReceivers := by
  intro i hi w hw
  rw [← World.map_point_lendings] at hi
  obtain ⟨x, hx, rfl⟩ := List.mem_map.mp hi
  exact (hw.outstanding (World.outstanding_lendings policy c layout ops x hx)).servesReceivers

namespace Receivers

/-- The result is stored under a name. -/
def into (name : String) : Disposition := ⟨some name, none, false, true⟩

/-- A lamp with a method that is read through a proxy, and a table that is no lamp. -/
def session : Program :=
  [.cls (into "Lamp") ⟨"Lamp", [.field "On" (.plain .bool) "on" true none,
      .staticProperty "Count" (.plain (.integer ⟨true, .w32⟩)) (.int 3), .method "Glow" [] false []],
      some [("on", .bool false)], none⟩,
    .act (into "lamp") (.cls (.construct "Lamp")),
    .act (into "p") (.proxy (.wrap (some "lamp"))),
    .act (into "q") (.proxy (.wrapClass "Lamp")),
    .act (into "glow") (.proxy (.read (.var "p" 0) (.string "Glow"))),
    .act (into "table") (.value (.bind (.map [(.string "On", .integer 1)])))]

/-- The world that the session leaves. -/
def room : World := (World.startUnder .permitAll .default fun r => r.index).after session

/-- The class of lamps. -/
def lampRef : ClassRef := ⟨⟨0⟩, "Lamp"⟩

/-- The lamp. -/
def lamp : Target := .object ⟨⟨0⟩, lampRef⟩

/-- What the function that was read runs, and on what. -/
def runs : Option (Target × String) :=
  match (room.function ⟨0⟩).code with
  | .method _ t m => some (t, m.name)
  | _ => none

/-- What a read through a proxy of the target gives. -/
def read (t : Target) (key : String) : Except HostFailure ScriptValue :=
  ((readProxy ⟨some t, ⟨0⟩, "Lamp"⟩ (.string key)).outcome room).1

/-- Conversion of the table to a lamp, with an alarm for failures about receivers. -/
def watched : Except ConversionError HostValue :=
  ((toHostUnder (.alarm fun _ => .host "no receiver") ⟨0⟩ (.object lampRef) (.table ⟨1⟩)).outcome
    room).1

end Receivers

open Receivers in
/-- On the lamp its field is found, and on the class the static property; neither is found on the other.
The function was made of the method, for the lamp. The table fails for its value, and no alarm is
raised. -/
theorem receivers_always_served_room :
    room.ServesReceivers ∧
    read lamp "On" = .ok (.boolean false) ∧ read (.type lampRef) "On" = .ok .nil ∧
    read (.type lampRef) "Count" = .ok (.integer 3) ∧ read lamp "Count" = .ok .nil ∧
    (∃ m, room.Belongs lamp (.method m) ∧ m.name = "Glow") ∧
    watched.map HostValue.isObject = .error (.structuredField "Lamp" "On"
      "cannot assign a number value to 'On' on 'Lamp': expected bool") := by
  -- The end of the session is one of its instants.
  have hlast : ⟨.top room, .body .top [], room⟩ ∈
      (World.startUnder .permitAll .default fun r => r.index).instants session :=
    List.mem_of_getLast? (World.getLast?_instants session _)
  have hserves := receivers_always_served .permitAll .default _ session _ hlast _ World.Comes.refl
  dsimp only at hserves
  refine ⟨hserves, by decide +kernel, by decide +kernel, by decide +kernel, by decide +kernel, ?_, ?_⟩
  · have hruns : runs = some (lamp, "Glow") := by decide +kernel
    unfold runs at hruns
    split at hruns
    · next via t m hcode =>
      obtain ⟨rfl, hname⟩ := Prod.mk.inj (Option.some.inj hruns)
      exact ⟨m, (hserves.called _ _ _ _ hcode).1, hname⟩
    · cases hruns
  · unfold watched
    rw [hserves.converted _ (Observer.alarm_overlooks _)]
    decide +kernel

end ScriptHost
