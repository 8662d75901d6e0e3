import ScriptHost.Proofs.Act.Outcome
import ScriptHost.Proofs.Act.Program
import ScriptHost.Proofs.Proxies.Entry

/-!
# Effects

What an act may do to the world, apart from what it gives. `Effects l b w w'` says that `w'` comes
from `w` by the changes of primitive acts, one after another, where changes that are undone again
stand in brackets: what is held, the frame of a call, a borrow, a coroutine that is running.

Main statements: `Composed.effects`, by induction on how the act is put together, and
`World.step_effects` for one operation of a session. An invariant of sessions is proved by induction
on `Effects`, with one case for each way to change a world, and carried along by
`World.after_induction`; `Effects.within`, `Effects.fixed` and `Effects.class_kept` are the first.
-/

set_option autoImplicit false

namespace ScriptHost

open Act

/-- The changes that acts within a license make, inside a coroutine or outside. -/
inductive Effects (l : License) : Bool → World → World → Prop where
  | refl {b : Bool} (w : World) : Effects l b w w
  | trans {b : Bool} {w w' w'' : World} (h : Effects l b w w') (h' : Effects l b w' w'') :
      Effects l b w w''
  /-- What is held for a while is let go of again. -/
  | hold {b : Bool} {w w' : World} (hs : List Handle)
      (h : Effects l b { w with held := hs ++ w.held } w') :
      Effects l b w { w' with held := w.held }
  | table {b : Bool} (w : World) (t : Table) (h : t.NoNil) :
      Effects l b w { w with tables := w.tables.push t }
  | setTable {b : Bool} (w : World) (r : TableRef) (key value : ScriptValue) (t : Table)
      (h : (w.table r).set key value = .ok t) : Effects l b w { w with tables := w.tables.set r t }
  | function {b : Bool} (w : World) (f : Function) (h : f.code.Within l) (hf : f.code.FoundIn w) :
      Effects l b w { w with functions := w.functions.push f }
  | carrier {b : Bool} (w : World) (e : HostFailure) :
      Effects l b w { w with userdata := w.userdata.push (.carrier e) }
  | foreign {b : Bool} (w : World) (n : String) (t : Option (String × String)) :
      Effects l b w { w with userdata := w.userdata.push (.foreign n t) }
  | proxy {b : Bool} (w : World) (via : BindingRef) (t : Target) :
      Effects l b w { w with userdata := w.userdata.push (.proxy ⟨some t, via, t.cls.name⟩) }
  | object {b : Bool} (w : World) (c : ClassRef) (p : Payload) (h : w.Suits c p) :
      Effects l b w { w with objects := w.objects.push ⟨c, p, .free⟩ }
  | cls {b : Bool} (w : World) (c : HostClass) (h : c.Within l) (hc : c.Declared) :
      Effects l b w { w with classes := w.classes.push c }
  | coroutine {b : Bool} (w : World) (f : FunctionRef) :
      Effects l b w { w with coroutines := w.coroutines.push ⟨f, .suspended⟩ }
  | binding {b : Bool} (w : World) (c : Config) (h : l.seeing = true) :
      Effects l b w { w with bindings := w.bindings.push (.ofConfig c) }
  /-- A proxy loses its target. -/
  | disposed {b : Bool} (w : World) (u : UserdataRef) (p : Proxy) (h : w.proxy? u = some p) :
      Effects l b w { w with userdata := w.userdata.set u (.proxy { p with target := none }) }
  /-- A slot is written. -/
  | written {b : Bool} (w : World) (o : ObjectRef) (slot : String) (v : HostValue)
      (h : b = false ∨ l.direct = true) (hr : (w.object o).refusal? true .slots = none) :
      Effects l b w { w with
        objects := w.objects.set o.ref { w.object o with
          payload := .slots ((w.object o).payload.slotsOf.write slot v) } }
  /-- What is lent for a while comes back. -/
  | lent {b : Bool} {w w' : World} (o : ObjectRef) (mutably : Bool)
      (hr : (w.object o).refusal? mutably .slots = none)
      (h : Effects l b { w with
        objects := w.objects.set o.ref { w.object o with
          borrow := ((w.object o).lend mutably).getD (w.object o).borrow } } w') :
      Effects l b w { w' with
        objects := w'.objects.set o.ref { w'.object o with borrow := (w.object o).borrow } }
  | cached {b : Bool} (w : World) (via : BindingRef) (o : ObjectRef) (u : UserdataRef)
      (h : w.cachedProxy? via o = some u) :
      Effects l b w { w with journal := .wrapped via o u :: w.journal }
  | wrapped {b : Bool} (w : World) (via : BindingRef) (o : ObjectRef)
      (h : w.cachedProxy? via o = none) : Effects l b w (w.withProxy via o)
  /-- Code of the host is started, with what it declared. -/
  | started {b : Bool} (w : World) (e : Event) (he : e.isHostCode = true) (ht : e.Typed)
      (h : b = false ∨ l.direct = true ∧ e.isBody = false) :
      Effects l b w { w with journal := e :: w.journal }
  | refused {b : Bool} (w : World) (name : String) (h : b = true ∨ l.direct = true) :
      Effects l b w { w with journal := .refused name :: w.journal }
  | logged {b : Bool} (w : World) (a : Answer) : Effects l b w { w with log := a :: w.log }
  | assigned {b : Bool} (w : World) (name : String) (s : Stored) (h : s.Within l) :
      Effects l b w { w with vars := (name, s) :: w.vars.filter fun p => p.1 != name }
  | dropped {b : Bool} (w : World) (name : String) :
      Effects l b w { w with vars := w.vars.filter fun p => p.1 != name }
  /-- A call has its frame while it lasts. -/
  | called {b b' : Bool} {w w' : World} (f : FunctionRef) (hb : l.Enters b b')
      (h : Effects l b' (w.entered b' f) w') : Effects l b w (w'.left f)
  /-- While a coroutine is running, everything is inside a coroutine. -/
  | resumed {b : Bool} {w w' : World} (c : CoroutineRef)
      (hs : (w.coroutine c).status = .suspended) (h : Effects l true (w.resuming c) w') :
      Effects l b w (w'.finishing c)

namespace World

/-- What never changes while operations run, and what is as before when they are done. -/
structure Fixed (w w' : World) : Prop where
  held : w'.held = w.held
  frames : w'.frames = w.frames
  globals : w'.globals = w.globals
  bridge : w'.bridge = w.bridge
  maxDepth : w'.maxDepth = w.maxDepth
  layout : w'.layout = w.layout

end World

namespace Effects

variable {l : License} {b : Bool} {w w' : World}

/-- **Effects stay within the license**: every body that is stored was there before or comes from a
program. -/
theorem within (h : Effects l b w w') (hw : w.Within l) : w'.Within l := by
  -- Programs are stored in three places; whatever else changes is no program.
  induction h with
  | trans _ _ ih ih' => exact ih' (ih hw)
  | function w f hf =>
    refine ⟨fun g fn hg => ?_, hw.classes, hw.vars⟩
    rcases Store.get?_push_cases hg with ⟨-, rfl⟩ | hg
    · exact hf
    · exact hw.functions g fn hg
  | cls w c hc =>
    refine ⟨hw.functions, fun d info hd => ?_, hw.vars⟩
    rcases Store.get?_push_cases hd with ⟨-, rfl⟩ | hd
    · exact hc
    · exact hw.classes d info hd
  | assigned w name s hs =>
    refine ⟨hw.functions, hw.classes, fun p hp => ?_⟩
    rcases List.mem_cons.mp hp with rfl | hp
    · exact hs
    · exact hw.vars p (List.mem_filter.mp hp).1
  | dropped w name =>
    exact ⟨hw.functions, hw.classes, fun p hp => hw.vars p (List.mem_filter.mp hp).1⟩
  | hold _ _ ih | lent _ _ _ _ ih | called _ _ _ ih | resumed _ _ _ ih =>
    have hw' := ih ⟨hw.functions, hw.classes, hw.vars⟩
    exact ⟨hw'.functions, hw'.classes, hw'.vars⟩
  | _ => exact ⟨hw.functions, hw.classes, hw.vars⟩

/-- Brackets are closed when an act is done. -/
theorem fixed (h : Effects l b w w') : w.Fixed w' := by
  induction h with
  | trans _ _ ih ih' =>
    exact ⟨ih'.held.trans ih.held, ih'.frames.trans ih.frames, ih'.globals.trans ih.globals,
      ih'.bridge.trans ih.bridge, ih'.maxDepth.trans ih.maxDepth, ih'.layout.trans ih.layout⟩
  | hold _ _ ih => exact { ih with held := rfl }
  | called f _ _ ih =>
    -- The frame that is popped is the one that was pushed.
    have hframes := congrArg List.tail ih.frames
    exact { ih with frames := hframes }
  | lent _ _ _ _ ih | resumed _ _ _ ih => exact { ih with }
  | _ => exact ⟨rfl, rfl, rfl, rfl, rfl, rfl⟩

/-- Classes stay as they were defined. -/
theorem class_kept (h : Effects l b w w') {c : Ref .cls} {info : HostClass}
    (hc : w.classes.get? c = some info) : w'.classes.get? c = some info := by
  induction h with
  | trans _ _ ih ih' => exact ih' (ih hc)
  | cls w d _ => exact Store.get?_push_of_some _ hc
  | hold _ _ ih | lent _ _ _ _ ih | called _ _ _ ih | resumed _ _ _ ih => exact ih hc
  | _ => exact hc

/-- What a function runs never changes. -/
theorem function_kept (h : Effects l b w w') {f : FunctionRef} {x : Function}
    (hf : w.functions.get? f = some x) : w'.functions.get? f = some x := by
  induction h with
  | trans _ _ ih ih' => exact ih' (ih hf)
  | function w g _ => exact Store.get?_push_of_some g hf
  | hold _ _ ih | lent _ _ _ _ ih | called _ _ _ ih | resumed _ _ _ ih => exact ih hf
  | _ => exact hf

/-- **Nothing that has happened is forgotten.** -/
theorem journal_suffix (h : Effects l b w w') : w.journal <:+ w'.journal := by
  induction h with
  | trans _ _ ih ih' => exact ih.trans ih'
  | hold _ _ ih | lent _ _ _ _ ih => exact ih
  | cached | wrapped | started | refused => exact List.suffix_cons _ _
  | called _ _ _ ih | resumed _ _ _ ih =>
    exact ((List.suffix_cons _ _).trans ih).trans (List.suffix_cons _ _)
  | _ => exact List.suffix_refl _

end Effects

/-! ### From acts to effects -/

namespace Act

variable {l : License} {b strict : Bool} {K : Set Mention} {ε α : Type} [Names ε]

/-- What it comes to that a composed act ran where at least `K` was known: its changes are effects,
what is stored stays known, and the outcome is as promised. -/
structure Ran (strict : Bool) (l : License) (b : Bool) (K : Set Mention) (w : World)
    (out : Except ε α × World) (Q : Set Mention → α → Prop) : Prop where
  effects : Effects l b w out.2
  known : out.2.Known (out.2.known strict)
  promised : ∃ K', K ⊆ K' ∧ K' ⊆ out.2.known strict ∧ Promised Q K' out.1

namespace Ran

variable {w w' : World} {Q : Set Mention → α → Prop}

/-- What was known still is. -/
theorem subset {out : Except ε α × World} (h : Ran strict l b K w out Q) :
    K ⊆ out.2.known strict := by
  obtain ⟨K', hKK', hK', -⟩ := h.promised
  exact hKK'.trans hK'

/-- An outcome that is as promised once everything is known that is there in the end. -/
theorem of_promised {r : Except ε α} (heff : Effects l b w w') (hk : w'.Known (w'.known strict))
    (hK : K ⊆ w'.known strict) (h : Promised Q (w'.known strict) r) :
    Ran strict l b K w (r, w') Q :=
  ⟨heff, hk, _, hK, subset_rfl, h⟩

theorem fail {e : ε} (heff : Effects l b w w') (hk : w'.Known (w'.known strict))
    (hK : K ⊆ w'.known strict) (he : Known (w'.known strict) e) :
    Ran strict l b K w (.error e, w') Q :=
  .of_promised heff hk hK he

theorem ok {a : α} (heff : Effects l b w w') (hk : w'.Known (w'.known strict))
    (hK : K ⊆ w'.known strict) (hQ : Q (w'.known strict) a) :
    Ran strict l b K w ((.ok a : Except ε α), w') Q :=
  .of_promised heff hk hK hQ

/-- Nothing was promised of the value. -/
theorem plain {a : α} (heff : Effects l b w w') (hk : w'.Known (w'.known strict))
    (hK : K ⊆ w'.known strict) : Ran strict l b K w ((.ok a : Except ε α), w') fun _ _ => True :=
  .ok heff hk hK trivial

end Ran

/-- **What a composed act does**, by induction on how it is put together. What an act gives decides
what comes next, so all parts go through the induction together. -/
theorem Composed.run {m : Act ε α} {Q : Set Mention → α → Prop} (h : Composed l b K m Q)
    (strict : Bool) {w : World} (hw : w.Within l) (hk : w.Known (w.known strict))
    (hK : K ⊆ w.known strict) : Ran strict l b K w (m.outcome w) Q := by
  induction h generalizing w with
  | @pure _ K _ _ _ _ a h => exact ⟨.refl w, hk, K, subset_rfl, hK, h⟩
  | @throw _ K _ _ _ _ e he => exact ⟨.refl w, hk, K, subset_rfl, hK, he⟩
  | @bind _ _ _ _ _ _ m f P Q _ _ ihm ihf =>
    have hran := ihm hw hk hK
    obtain ⟨K', hKK', hK', hP⟩ := hran.promised
    rcases hm : m.outcome w with ⟨e | a, w₁⟩ <;> rw [hm] at hran hK' hP
    · rw [outcome_bind_error hm]
      exact ⟨hran.effects, hran.known, K', hKK', hK', hP⟩
    · rw [outcome_bind_ok hm]
      -- The second act starts with all that was known when the value of the first was promised.
      have hran' := ihf hKK' a hP (hran.effects.within hw) hran.known hK'
      obtain ⟨K'', hKK'', hK'', hQ⟩ := hran'.promised
      exact ⟨hran.effects.trans hran'.effects, hran'.known, K'', hKK'.trans hKK'', hK'', hQ⟩
  | attempt _ ih => exact { ih hw hk hK with }
  | @mapError _ _ _ _ _ _ _ m P f _ hf _ ih =>
    have hran := ih hw hk hK
    obtain ⟨K', hKK', hK', hP⟩ := hran.promised
    rw [outcome_mapError]
    rcases hm : m.outcome w with ⟨e | a, w₁⟩ <;> rw [hm] at hran hK' hP
    · have he : Known (w₁.known strict) e := Known.mono hP hK'
      exact .fail hran.effects hran.known hran.subset (hf w₁ e hran.known he)
    · exact ⟨hran.effects, hran.known, K', hKK', hK', hP⟩
  | @weaken _ _ _ _ _ m P Q _ hPQ ih =>
    have hran := ih hw hk hK
    obtain ⟨K', hKK', hK', hP⟩ := hran.promised
    refine ⟨hran.effects, hran.known, K', hKK', hK', ?_⟩
    cases hm : (m.outcome w).1 <;> rw [hm] at hP
    · exact hP
    · exact hPQ hKK' _ hP
  | holding hs _ ih =>
    have hw' : ({ w with held := hs ++ w.held } : World).Within l :=
      ⟨hw.functions, hw.classes, hw.vars⟩
    have hran := ih hw' { hk with } hK
    exact ⟨.hold hs hran.effects, { hran.known with }, hran.promised⟩
  | look f _ hQ => exact .ok (.refl w) hk hK (hQ hK w hw hk)
  | failWith f _ hf => exact .fail (.refl w) hk hK ((hf w).mono hK)
  | newTable t ht hkt => exact .plain (.table w t ht) (hk.pushTable (hkt.mono hK)) hK
  | writeTable r key value fail hkey hvalue _ ih =>
    rw [outcome_bind_ok (outcome_look _ w)]
    cases hset : (w.table r).set key value with
    | ok t =>
      -- The table holds what it held, and besides it a key and a value that are known.
      have ht := Table.known_set (hk.table r) (hkey.mono hK) (hvalue.mono hK) hset
      exact .plain (.setTable w r key value t hset) (hk.setTable r ht) hK
    | error fault => exact ih fault hw hk hK
  | newFunction f hf hkf hcode =>
    exact .plain (.function w f hf (Code.foundIn_of_not_method hcode w))
      (hk.pushFunction (hkf.mono hK)) hK
  | lookUp via t k ht other _ ih =>
    rw [outcome_bind_ok (outcome_look _ w)]
    generalize hms : (w.binding via).resolve (w.cls t.cls) k t.isInstance = ms
    have hwithin : ∀ m ∈ ms, m.Within l := hms ▸ hw.resolve _ _ _ _
    by_cases hmethod : ∃ m, ms = [.method m]
    · obtain ⟨m, rfl⟩ := hmethod
      exact .ok (.function w _ (hwithin _ List.mem_cons_self) ⟨k, hms⟩)
        (hk.pushFunction (ht.mono hK)) hK (.of_named_eq_nil rfl)
    · rw [methodOr_of_ne fun m hm => hmethod ⟨m, hm⟩]
      have hran := ih hK ms hwithin (hms ▸ hk.resolve _ _ _ _) hw hk subset_rfl
      obtain ⟨K', hKK', hK', hQ⟩ := hran.promised
      exact ⟨hran.effects, hran.known, K', hK.trans hKK', hK', hQ⟩
  | newCarrier e he =>
    obtain ⟨hsub, hmade, hu⟩ := hk.makeUserdata (x := .carrier e) (he.mono hK)
    exact .ok (.carrier w e) hmade (hK.trans hsub) hu
  | newForeign n t =>
    obtain ⟨hsub, hmade, hu⟩ := hk.makeUserdata (x := .foreign n t) (.of_named_eq_nil rfl)
    exact .ok (.foreign w n t) hmade (hK.trans hsub) hu
  | newProxy via t hkt =>
    obtain ⟨hsub, hmade, hu⟩ := hk.makeUserdata (x := .proxy ⟨some t, via, t.cls.name⟩)
      (Known.some_iff.mpr (hkt.mono hK))
    exact .ok (.proxy w via t) hmade (hK.trans hsub) hu
  | newObject c s hks =>
    obtain ⟨hsub, hmade, ho⟩ := hk.makeObject (x := ⟨c, .slots s, .free⟩) (hks.mono hK)
    exact .ok (.object w c _ (.inl rfl)) hmade (hK.trans hsub) ⟨rfl, ho⟩
  | instantiate c p hkp =>
    rw [outcome_instantiate]
    split
    · next hsuits =>
      obtain ⟨hsub, hmade, ho⟩ := hk.makeObject (x := ⟨c, p, .free⟩) (hkp.mono hK)
      exact .ok (.object w c p (.inr hsuits)) hmade (hK.trans hsub) ho
    · exact .fail (.refl w) hk hK (.of_named_eq_nil rfl)
  | newClass c hc hkc hdeclared =>
    exact .plain (.cls w c hc hdeclared) (hk.pushClass (hkc.mono hK)) hK
  | newCoroutine f => exact .plain (.coroutine w f) { hk with } hK
  | newBinding c hl => exact .plain (.binding w c hl) { hk with } hK
  | dispose u =>
    rw [outcome_dispose]
    cases hp : w.proxy? u with
    | some p =>
      -- The userdata is still there, and it names one thing less.
      have hsub := w.known_setUserdata strict u (.proxy { p with target := none })
      have hk' : World.Known _ _ := hk.setUserdata u (x := .proxy { p with target := none }) .none
      exact .plain (.disposed w u p hp) (hk'.mono hsub) (hK.trans hsub)
    | none => exact .plain (.refl w) hk hK
  | writeSlot o slot v h hkv =>
    rw [outcome_writeSlot]
    cases hr : (w.object o).refusal? true .slots with
    | some e => exact .fail (.refl w) hk hK (.of_named_eq_nil rfl)
    | none =>
      have hslots := Slots.known_write (hk.object o) slot (hkv.mono hK)
      obtain ⟨hsub, hwritten⟩ := hk.changeObject o (x := { w.object o with
        payload := .slots ((w.object o).payload.slotsOf.write slot v) }) rfl hslots
      exact .plain (.written w o slot v h hr) hwritten (hK.trans hsub)
  | @whileBorrowed _ _ _ _ _ m P o mutably fail hfail _ ih =>
    rw [outcome_whileBorrowed]
    cases hr : (w.object o).refusal? mutably .slots with
    | some e => exact .fail (.refl w) hk hK ((hfail e).mono hK)
    | none =>
      have hw' : ({ w with
          objects := w.objects.set o.ref { w.object o with
            borrow := ((w.object o).lend mutably).getD (w.object o).borrow } } : World).Within l :=
        ⟨hw.functions, hw.classes, hw.vars⟩
      obtain ⟨hsub, hlent⟩ := hk.changeBorrow o (((w.object o).lend mutably).getD _)
      have hran := ih hw' hlent (hK.trans hsub)
      obtain ⟨hsub', hback⟩ := hran.known.changeBorrow o (w.object o).borrow
      obtain ⟨K', hKK', hK', hP⟩ := hran.promised
      exact ⟨.lent o mutably hr hran.effects, hback, K', hKK', hK'.trans hsub', hP⟩
  | proxyFor via o hko =>
    rw [outcome_proxyFor]
    cases hc : w.cachedProxy? via o with
    | some u =>
      -- A proxy that is found in the cache is there.
      obtain ⟨p, -, hp, -⟩ := World.targets_of_cached hc
      have hu : Known (w.known strict) u :=
        Known.userdata_iff.mpr fun _ => ⟨_, World.proxy?_eq_some.mp hp⟩
      exact .ok (.cached w via o u hc) { hk with } hK hu
    | none =>
      obtain ⟨hsub, hmade, hu⟩ := hk.makeUserdata (x := .proxy ⟨some (.object o), via, o.cls.name⟩)
        (Known.some_iff.mpr (Known.some_iff.mpr (hko.mono hK)))
      exact .ok (.wrapped w via o hc) { hmade with } (hK.trans hsub) hu
  | started e he ht h => exact .plain (.started w e he ht h) { hk with } hK
  | guard inCoroutine name h =>
    rw [outcome_guard]
    cases inCoroutine with
    | true =>
      exact .fail (.refused w name (h.imp_left Eq.symm)) { hk with } hK (.of_named_eq_nil rfl)
    | false => exact .ok (.refl w) hk hK rfl
  | log a => exact .plain (.logged w a) { hk with } hK
  | assign name s hs hks =>
    exact .plain (.assigned w name s hs) ((hk.dropVars _).pushVar name (hks.mono hK)) hK
  | drop name => exact .plain (.dropped w name) (hk.dropVars _) hK
  | @framed b b' _ _ _ _ m P f hb _ ih =>
    rw [outcome_framed]
    have hw' : (w.entered b' f).Within l := ⟨hw.functions, hw.classes, hw.vars⟩
    have hran := ih hw' { hk with } hK
    exact ⟨.called f hb hran.effects, { hran.known with }, hran.promised⟩
  | resume call c args _ ih =>
    rw [outcome_resume]
    cases hs : (w.coroutine c).status with
    | running => exact .fail (.refl w) hk hK (.of_named_eq_nil rfl)
    | dead => exact .fail (.refl w) hk hK (.of_named_eq_nil rfl)
    | suspended =>
      have hw' : (w.resuming c).Within l := ⟨hw.functions, hw.classes, hw.vars⟩
      have hran := ih (w.coroutine c).function hw' { hk with } hK
      exact ⟨.resumed c hs hran.effects, { hran.known with }, hran.promised⟩

/-- **The effects of a composed act**, in any world: where nothing is asked of the world everything
is known. -/
theorem Composed.effects {m : Act ε α} {Q : Set Mention → α → Prop} (h : Composed l b K m Q)
    {w : World} (hw : w.Within l) :
    Effects l b w (m.outcome w).2 ∧ ∃ K', K ⊆ K' ∧ Promised Q K' (m.outcome w).1 := by
  have hall : w.known false = Set.univ := w.known_false
  have hran := h.run false hw (hall ▸ w.known_univ) (hall ▸ Set.subset_univ K)
  obtain ⟨K', hKK', -, hQ⟩ := hran.promised
  exact ⟨hran.effects, K', hKK', hQ⟩

/-- What a composed act gives is as promised. -/
theorem Composed.gives {m : Act ε α} {Q : Set Mention → α → Prop} (h : Composed l b K m Q)
    {w w' : World} (hw : w.Within l) {a : α} (ha : m.outcome w = (.ok a, w')) :
    ∃ K', K ⊆ K' ∧ Q K' a := by
  obtain ⟨-, K', hK, hP⟩ := h.effects hw
  rw [ha] at hP
  exact ⟨K', hK, hP⟩

end Act

/-! ### Sessions -/

namespace World

variable {l : License} {w : World}

/-- The world after the operations of a session. -/
def after (w : World) : List Op → World
  | [] => w
  | op :: rest => (w.step op).2.after rest

/-- An entry tells of the outcome, and the world is that of the operation. -/
theorem step_snd (w : World) (op : Op) :
    (w.step op).2 = ((op.run (callWithin w.maxDepth) .top).outcome { w with log := [] }).2 := by
  unfold step
  split <;> simp only [*]

/-- What one operation of a session does, its log apart. -/
theorem step_effects (hw : w.Within l) {op : Op} (hop : op.within l true = true) :
    Effects l false { w with log := [] } (w.step op).2 := by
  rw [step_snd]
  have hw' : ({ w with log := [] } : World).Within l := ⟨hw.functions, hw.classes, hw.vars⟩
  exact ((Op.top_composed w.maxDepth ∅ hop).effects hw').1

/-- A session stays within the license of its programs. -/
theorem Within.step (hw : w.Within l) {op : Op} (hop : op.within l true = true) :
    (w.step op).2.Within l :=
  (step_effects hw hop).within ⟨hw.functions, hw.classes, hw.vars⟩

/-- Nothing is stored at the beginning. -/
theorem Within.start (c : Config) (layout : Ref .object → Nat) : (start c layout).Within l where
  functions _ _ h := by simp [World.start, Store.empty, Store.get?] at h
  classes _ _ h := by simp [World.start, Store.empty, Store.get?] at h
  vars p hp := by cases hp

/-- **Induction over a session.** What one operation preserves, a session preserves. -/
theorem after_induction {I : World → Prop}
    (hstep : ∀ w op, w.Within l → op.within l true = true → I w → I (w.step op).2)
    {ops : List Op} (hops : Op.allWithin l true ops = true) (hw : w.Within l) (hI : I w) :
    (w.after ops).Within l ∧ I (w.after ops) := by
  induction ops generalizing w with
  | nil => exact ⟨hw, hI⟩
  | cons op rest ih =>
    simp only [Op.allWithin, Bool.and_eq_true] at hops
    exact ih hops.2 (hw.step hops.1) (hstep w op hw hops.1 hI)

end World

end ScriptHost
