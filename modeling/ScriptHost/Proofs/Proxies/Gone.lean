import ScriptHost.Proofs.Act.Outcome

/-!
# Proxies that reach nothing

A proxy reaches nothing once it was disposed, and while its object is not alive. `World.Refuses w p e`
says that whoever reads or writes through `p` gets the error `e` and nothing else happens. Which error
that is does not depend on the life of the object where the proxy was disposed: that is asked first.
-/

set_option autoImplicit false

namespace ScriptHost

open Act

namespace World

variable {w : World} {p : Proxy} {o : ObjectRef}

/-- The userdata of a proxy is that proxy. -/
theorem userdatum_of_proxy {u : UserdataRef} (hp : w.proxy? u = some p) :
    w.userdatum u = .proxy p := by
  unfold proxy? at hp
  split at hp
  · next q hq =>
    obtain rfl := Option.some.inj hp
    exact hq
  · cases hp

/-- An object that is not alive is not reached. -/
theorem reach?_eq_none (hdead : w.alive o.ref.handle = false) : w.reach? (.object o) = none := by
  show (if w.alive o.ref.handle then some (Target.object o) else none) = none
  rw [hdead]
  rfl

/-- One that is alive is. -/
theorem reach?_object (halive : w.alive o.ref.handle = true) :
    w.reach? (.object o) = some (.object o) := by
  show (if w.alive o.ref.handle then some (Target.object o) else none) = some (.object o)
  rw [halive]
  rfl

/-- A proxy whose object is not alive is released. -/
theorem isReleased_of_dead (hp : p.target = some (.object o))
    (hdead : w.alive o.ref.handle = false) : w.isReleased p = true := by
  unfold isReleased targetOf?
  rw [hp, Option.bind_some, reach?_eq_none hdead]
  rfl

/-- Every read and every write through the proxy fails with the error, and changes nothing. -/
def Refuses (w : World) (p : Proxy) (e : AccessError) : Prop :=
  (∀ key, (readProxy p key).outcome w = (.error (.binding e), w)) ∧
    ∀ key v, (writeProxy p key v).outcome w = (.error (.binding e), w)

/-- Reading and writing begin with what the proxy names and what that reaches. -/
theorem refuses_of_error {e : AccessError}
    (h : (namedTarget p >>= reachTarget).outcome w = (.error (.binding e), w)) : w.Refuses p e := by
  have hfails {α : Type} (f : Target → Act HostFailure α) :
      (namedTarget p >>= fun t => reachTarget t >>= f).outcome w = (.error (.binding e), w) := by
    rw [← bind_assoc]
    exact outcome_bind_error h
  exact ⟨fun key => hfails _, fun key v => hfails _⟩

/-- **A disposed proxy refuses everything**, whether its object lives or not. -/
theorem refuses_disposed (hp : p.target = none) : w.Refuses p (.disposed p.typeName) := by
  refine refuses_of_error ?_
  have hnamed : (namedTarget p).outcome w = (.error (.binding (.disposed p.typeName)), w) := by
    unfold namedTarget
    rw [hp]
    rfl
  exact outcome_bind_error hnamed

/-- **A proxy whose object is not alive refuses everything.** -/
theorem refuses_released (hp : p.target = some (.object o))
    (hdead : w.alive o.ref.handle = false) : w.Refuses p (.objectReleased o.cls.name) := by
  refine refuses_of_error ?_
  have hnamed : (namedTarget p).outcome w = (.ok (.object o), w) := by
    unfold namedTarget
    rw [hp]
    rfl
  rw [outcome_bind_ok hnamed, outcome_reachTarget, reach?_eq_none hdead]
  rfl

end World

end ScriptHost
