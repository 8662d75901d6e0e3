import Mathlib.Data.List.Destutter
import ScriptHost.Proofs.Afterlife.Bound
import ScriptHost.Proofs.Afterlife.Onward
import ScriptHost.Proofs.Proxies.OneProxy

/-!
# The life of a proxy

Two things can happen to a proxy, in any order: it is disposed of, and its object dies. Neither can be
undone. `Instant.Ages` says what comes of both between two instants of a run, wherever the two are:
that a proxy stands for what it was made for or for nothing, that it refuses everything from then on,
and that functions read through it do not care.

All this is read off `World.instants_ordered`: of two instants the later one came after the earlier
one, in the sense that nothing was revived and no proxy was given anything new to stand for. What dies
was made before (`World.faithful_instants`), which is why it cannot be made later.
-/

set_option autoImplicit false

namespace ScriptHost

open Act

/-! ### Proxies fade -/

/-- **Whatever acts do, proxies at most lose what they stand for.** -/
theorem Effects.fades {l : License} {b : Bool} {w w' : World} (h : Effects l b w w') :
    w.Fades w' := by
  induction h with
  | trans _ _ ih ih' => exact ih.trans ih'
  | hold _ _ ih | lent _ _ _ _ ih | called _ _ _ ih | resumed _ _ _ ih => exact ih
  | carrier w | foreign w | proxy w => exact (w.grows_userdata _).fades
  | wrapped w via o _ => exact (w.grows_withProxy via o).fades
  | disposed w u p hp => exact World.fades_disposed hp
  | _ => exact .of_eq rfl

/-- **Proxies are made for something**: a fresh one stands for what it is made for, and what is given
for an object is a proxy of this object. What is read through a proxy of an object under the name of a
method runs the method on this object. -/
structure World.Mints (w : World) : Prop where
  fresh : ∀ via t, ∃ w', (newProxy via t : Act Failure UserdataRef).outcome w =
    (.ok w.userdata.next, w') ∧ w.proxy? w.userdata.next = none ∧
      w'.proxy? w.userdata.next = some ⟨some t, via, t.cls.name⟩
  wrapped : ∀ via o u w', (proxyFor via o : Act Failure UserdataRef).outcome w = (.ok u, w') →
    w'.Targets u o
  method : ∀ p o key k m, p.target = some (.object o) → w.alive o.ref.handle = true →
    MemberKey.ofValue? key = some k →
    (w.binding p.via).resolve (w.cls o.cls) k true = [.method m] →
      ∃ f w', (readProxy p key).outcome w = (.ok (.function f), w') ∧ w'.Binds f o m

/-- Proxies and bound functions are made for something, in every world. -/
theorem World.mints (w : World) : w.Mints where
  fresh via t := by
    refine ⟨_, rfl, ?_, proxy?_eq_some.mpr (Store.get?_push_self _ _)⟩
    unfold World.proxy? World.userdatum
    rw [Store.get?_next]
    rfl
  wrapped via o u w' hout := by
    rw [outcome_proxyFor] at hout
    -- A cached proxy stands for the object, or it would not be in the cache.
    cases hc : w.cachedProxy? via o with
    | some x =>
      rw [hc] at hout
      cases hout
      exact targets_of_cached hc
    | none =>
      rw [hc] at hout
      cases hout
      exact w.targets_withProxy via o
  method _ _ _ _ _ ht halive hkey hm := binds_readProxy ht halive hkey hm

/-! ### Between two instants -/

namespace Instant

/-- At this instant, and for whatever is about to be done, the proxy refuses with the error. -/
structure Refuses (i : Instant) (u : UserdataRef) (e : AccessError) : Prop where
  world : ∃ p, i.world.proxy? u = some p ∧ i.world.Refuses p e
  task : ∀ s rest, i.task = .body s rest → s.Refused i.world u e

/-- What refuses in every later world refuses at the instant, and to the body that runs there. -/
theorem refuses {i : Instant} {u : UserdataRef} {p : Proxy} {e : AccessError}
    (hclosed : i.world.Closed) (hs : i.Supplied) (hp : i.world.proxy? u = some p)
    (hrefuses : ∀ {v : World}, i.world.Since v → v.Refuses p e) : i.Refuses u e := by
  have hself := World.Since.refl hclosed
  refine ⟨⟨p, hp, hrefuses hself⟩, fun s rest htask => ?_⟩
  exact Scope.refused hclosed (hs.body s rest htask hself.held) hp hrefuses

/-- **What becomes of proxies, and of functions read through them**, from an instant to one that comes
not before it. -/
structure Ages (i j : Instant) : Prop where
  /-- A proxy stands for what it stood for or for nothing. -/
  target : ∀ u p, i.world.proxy? u = some p →
    ∃ t, j.world.proxy? u = some { p with target := t } ∧ (t = p.target ∨ t = none)
  /-- One that was disposed of refuses everything, whether its object lives or not. -/
  disposed : ∀ u p, i.world.proxy? u = some p → p.target = none →
    j.Refuses u (.disposed p.typeName)
  /-- If its object has died the object stays dead, and while nobody disposes of the proxy it refuses
  everything. -/
  released : ∀ u p o, i.world.proxy? u = some p → p.target = some (.object o) →
    i.world.alive o.ref.handle = false →
      j.world.alive o.ref.handle = false ∧
        (j.world.proxy? u = some p → j.Refuses u (.objectReleased o.cls.name))
  /-- A function that runs a method on an object goes on running it. A call that is about to begin,
  and any other call of a function that lives, reaches the object or is told that it is gone. -/
  bound : ∀ f o m, i.world.Binds f o m → j.world.Binds f o m ∧
    (i.world.alive o.ref.handle = false → j.world.alive o.ref.handle = false) ∧
      ((∃ b args, j.task = .call b f args) ∨ j.world.alive f.handle = true →
        j.world.Reaches f o m)

/-- **Time passes.** -/
theorem ages {i j : Instant} (hi : i.Faithful) (hj : j.Faithful) (hs : j.Supplied)
    (h : i.world.Since j.world) : i.Ages j where
  target u p hp := by
    obtain ⟨t, ht, hcases⟩ := h.proxies u p (World.proxy?_eq_some.mp hp)
    exact ⟨t, World.proxy?_eq_some.mpr ht, hcases⟩
  disposed u p hp hnone := by
    -- It stood for nothing already, and nothing is what it can stand for.
    obtain ⟨t, ht, hcases⟩ := h.proxies u p (World.proxy?_eq_some.mp hp)
    have htarget : t = none := hcases.elim (fun heq => heq.trans hnone) id
    exact refuses h.closed hs (World.proxy?_eq_some.mpr ht) fun _ =>
      World.refuses_disposed htarget
  released u p o hp ht hdead := by
    have hmade := (hi.world.has_of_proxy hp ht).made
    have hdead' := h.spares.alive_eq_false hmade hdead
    -- From the later instant on it is the same again: dead at each moment at which it is reached for.
    refine ⟨hdead', fun hp' => refuses h.closed hs hp' fun {v} hv => ?_⟩
    have hmade' := (hj.world.has_of_proxy hp' ht).made
    exact World.refuses_released ht (hv.spares.alive_eq_false hmade' hdead')
  bound f o m hb := by
    have hb' := h.binds hb
    have hmade := (hi.world.has_of_binds hb).made
    refine ⟨hb', h.spares.alive_eq_false hmade, fun hf => hb'.reaches h.closed hj.world ?_⟩
    -- Who calls a function has it in hand or finds it alive.
    rcases hf with ⟨b, args, htask⟩ | halive
    · exact fun _ => hs.call b f args htask
    · exact World.safe_of_alive halive

/-- Where a proxy stands for something at both instants it stands for the same. -/
def Agree (u : UserdataRef) (i j : Instant) : Prop :=
  ∀ p q s t, i.world.proxy? u = some p → p.target = some s → j.world.proxy? u = some q →
    q.target = some t → s = t

instance (u : UserdataRef) : Std.Symm (Agree u) :=
  ⟨fun _ _ h p q s t hp hs hq ht => (h q p t s hq ht hp hs).symm⟩

/-- A target is lost for good, so two targets of a proxy are the same one. -/
theorem Ages.agree {i j : Instant} (h : i.Ages j) (u : UserdataRef) : Agree u i j := by
  intro p q s t hp hs hq ht
  obtain ⟨t', ht', hcases⟩ := h.target u p hp
  rw [hq] at ht'
  obtain rfl := Option.some.inj ht'
  have htarget : t' = some t := ht
  rcases hcases with heq | hnone
  · exact Option.some.inj (hs.symm.trans (heq.symm.trans htarget))
  · cases hnone.symm.trans htarget

/-- **Never another**: a proxy stands for one thing at all instants at which it stands for any. -/
theorem exists_target {session : List Instant} (hself : ∀ i ∈ session, i.Ages i)
    (hpairs : session.Pairwise Ages) (u : UserdataRef) :
    ∃ t, ∀ i ∈ session, ∀ p, i.world.proxy? u = some p → p.target = some t ∨ p.target = none := by
  have hagree : ∀ i ∈ session, ∀ j ∈ session, Agree u i j := by
    have hordered : session.Pairwise (Agree u) := hpairs.imp fun h => h.agree u
    intro i hi j hj
    exact hordered.forall_of_forall (fun k hk => (hself k hk).agree u) hi hj
  -- What it stands for at one instant it stands for at all of them.
  by_cases hsome : ∃ i ∈ session, ∃ p t, i.world.proxy? u = some p ∧ p.target = some t
  · obtain ⟨i, hi, p, t, hp, ht⟩ := hsome
    refine ⟨t, fun j hj q hq => ?_⟩
    cases hs : q.target with
    | none => exact .inr rfl
    | some s => exact .inl (congrArg some (hagree j hj i hi q p s t hq hs hp ht))
  · refine ⟨.type ⟨⟨0⟩, ""⟩, fun i hi p hp => .inr ?_⟩
    cases ht : p.target with
    | none => rfl
    | some t => exact absurd ⟨i, hi, p, t, hp, ht⟩ hsome

end Instant

/-- **The life of a proxy.** In a run of any program whose types name their classes by variables, as
programs are written:
* a proxy is made for something, and whatever is done between two moments it only ever loses that:
  over the whole run it stands for one thing or for nothing;
* of two instants the later one tells what comes of the proxies of the earlier one (`Instant.Ages`).
  One that was disposed of refuses every read and write as disposed, also when its object has died.
  One whose object has died refuses them as released while nobody disposes of it, and the object
  stays dead. A function that was read through a proxy reaches the object while it lives, and fails
  as released afterwards, whatever has become of the proxy;
* at every instant the body that runs can dispose of any proxy it gets hold of, also of the one it
  was called through. That changes no object, no function and no other proxy, what others of the
  same target reach included, and to do it again changes nothing. -/
theorem proxy_life_cycle (c : Config) (layout : Ref .object → Nat) (ops : Program)
    (hops : Op.allClosed ops = true) :
    let session := (World.start c layout).instants ops
    (∀ w : World, w.Mints ∧ ∀ l b w', Effects l b w w' → w.Fades w') ∧
    (∀ u, ∃ t, ∀ i ∈ session, ∀ p, i.world.proxy? u = some p → p.target = some t ∨ p.target = none) ∧
    (∀ i ∈ session, i.Ages i) ∧ session.Pairwise Instant.Ages ∧
    ∀ i ∈ session, ∀ s rest, i.task = .body s rest → s.Disposes i.world := by
  intro session
  have hfaithful := World.faithful_instants c layout ops
  obtain ⟨hstarts, hsupplied, hordered⟩ := World.instants_ordered ops hops (.start c layout)
  have hages {i j : Instant} (hi : i ∈ session) (hj : j ∈ session)
      (h : i.world.Since j.world) : i.Ages j :=
    Instant.ages (hfaithful i hi) (hfaithful j hj) (hsupplied j hj) h
  -- An instant does not come before itself.
  have hself : ∀ i ∈ session, i.Ages i := by
    intro i hi
    have hclosed := (hstarts (.refl (.start c layout)) i hi).closed
    exact hages hi hi (.refl hclosed)
  have hpairs : session.Pairwise Instant.Ages :=
    hordered.imp_of_mem fun hi hj h => hages hi hj h
  refine ⟨fun w => ⟨w.mints, fun _ _ _ heff => heff.fades⟩,
    Instant.exists_target hself hpairs, hself, hpairs, ?_⟩
  intro i hi s rest htask
  have hknown := (hfaithful i hi).task
  rw [htask] at hknown
  exact Scope.disposes (hfaithful i hi).world hknown

namespace ProxyLife

/-- The result is stored under a name and is not told. -/
def into (name : String) : Disposition := ⟨some name, none, false, true⟩

/-- The failure is stored under a name. -/
def catching (name : String) : Disposition := ⟨none, some name, false, true⟩

/-- The result is neither stored nor told. -/
def quietly : Disposition := ⟨none, none, false, true⟩

/-- There are two proxies of a lamp. Its method is read through the first one and disposes of it when
it is called. Then the lamp dies, and the second proxy is disposed of. -/
def twoProxies : Program :=
  [.cls (into "Lamp") ⟨"Lamp", [.method "off" [] false
      [.act quietly (.proxy (.dispose (.var "p" 0)))]], none, none⟩,
    .act (into "lamp") (.cls (.instantiate "Lamp" [])),
    .act (into "p") (.proxy (.wrap (some "lamp"))),
    .act (into "q") (.proxy (.create (.object (some "lamp")) none)),
    .act (into "off") (.proxy (.read (.var "p" 0) (.string "off"))),
    .act quietly (.call (.call (.var "off" 0) (.list []))),
    .act quietly (.value (.drop "lamp")),
    .act (catching "gone") (.proxy (.read (.var "q" 0) (.string "off"))),
    .act (catching "late") (.call (.call (.var "off" 0) (.list []))),
    .act quietly (.proxy (.dispose (.var "q" 0))),
    .act (catching "closed") (.proxy (.read (.var "q" 0) (.string "off")))]

/-- Whether the proxies stand for something, and whether the lamp is alive. -/
def stage (i : Instant) : Bool × Bool × Bool :=
  let standing (u : UserdataRef) := (i.world.proxy? u).any fun p => p.target.isSome
  (standing ⟨0⟩, standing ⟨1⟩, i.world.alive ⟨.object, 0⟩)

/-- What was caught, on the side of the host or of script. -/
def caught (w : World) (name : String) : Option HostFailure :=
  match w.var? name with
  | some (.failed e) => some e
  | some (.raised x) => some (unwrapError w x)
  | _ => none

end ProxyLife

open ProxyLife in
/-- The proxies of the lamp come and go in this order, and of each two of these instants the later one
tells what comes of the proxies of the earlier one. -/
theorem proxy_life_cycle_twoProxies :
    let start := World.start .default fun r => r.index
    let session := start.instants twoProxies
    Op.allClosed twoProxies = true ∧
    (session.map stage).destutter (· ≠ ·) =
      [(false, false, false), (false, false, true), (true, false, true), (true, true, true),
        (false, true, true), (false, true, false), (false, false, false)] ∧
    ["gone", "late", "closed"].map (caught (start.after twoProxies)) =
      [some (.binding (.objectReleased "Lamp")), some (.binding (.objectReleased "Lamp")),
        some (.binding (.disposed "Lamp"))] ∧
    session.Pairwise Instant.Ages ∧
    ∀ i ∈ session, ∀ s rest, i.task = .body s rest → s.Disposes i.world := by
  have hclosed : Op.allClosed twoProxies = true := by decide
  obtain ⟨-, -, -, hages, hdisposes⟩ :=
    proxy_life_cycle .default (fun r => r.index) twoProxies hclosed
  exact ⟨hclosed, by decide +kernel, by decide +kernel, hages, hdisposes⟩

end ScriptHost
