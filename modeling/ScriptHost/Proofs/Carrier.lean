import ScriptHost.Proofs.Act.Effects

/-!
# Failures on their way through script

A script error stands for a host failure in one of two ways: it is a plain error, which the host
sees as it is, or its value is a carrier that the host opens. `World.Shows` says which failure an
error shows. What an error shows is settled once it is raised: `World.Later` relates a world to those
that come after it, and carriers stay what they are.

`Act.Raises P m w` says that an act fails with an error of which `P` holds, and `Act.RaisesAs m w e`
that it fails with an error that shows `e`. There is one lemma for each way in which an error passes
on its way out: the rest of the act is skipped, frames are popped, and the boundary neither adds a
layer nor takes one away.
-/

set_option autoImplicit false

namespace ScriptHost

open Act

namespace World

/-! ### Carriers stay -/

/-- Userdata of the first world is there in the second one, the carriers among it as they were. -/
def Later (w w' : World) : Prop :=
  ∀ u d, w.userdata.get? u = some d →
    ∃ d', w'.userdata.get? u = some d' ∧ ∀ e, d' = .carrier e ↔ d = .carrier e

/-- A world with the same userdata is a later one. -/
theorem Later.of_eq {w w' : World} (h : w'.userdata = w.userdata) : w.Later w' :=
  fun u d hd => ⟨d, by rw [h]; exact hd, fun _ => Iff.rfl⟩

/-- A world is later than itself. -/
theorem Later.refl (w : World) : w.Later w := .of_eq rfl

/-- What comes later than a later world is later. -/
theorem Later.trans {w w' w'' : World} (h : w.Later w') (h' : w'.Later w'') : w.Later w'' := by
  intro u d hd
  obtain ⟨d', hd', hiff⟩ := h u d hd
  obtain ⟨d'', hd'', hiff'⟩ := h' u d' hd'
  exact ⟨d'', hd'', fun e => (hiff' e).trans (hiff e)⟩

/-- A new userdata comes behind those that were there. -/
theorem Later.push {w w' : World} (d : Userdata) (h : w'.userdata = w.userdata.push d) :
    w.Later w' :=
  fun u x hx => ⟨x, by rw [h]; exact Store.get?_push_of_some d hx, fun _ => Iff.rfl⟩

end World

/-- **Whatever happens, carriers stay**, and nothing else becomes one. -/
theorem Effects.later {l : License} {b : Bool} {w w' : World} (h : Effects l b w w') :
    w.Later w' := by
  induction h with
  | trans _ _ ih ih' => exact ih.trans ih'
  | carrier | foreign | proxy | wrapped => exact .push _ rfl
  | disposed w v p hp =>
    -- The only userdata that changes is a proxy, before and after.
    intro u d hd
    by_cases huv : u = v
    · subst huv
      have hproxy : d = .proxy p := by
        simp only [World.proxy?, World.userdatum, hd, Option.getD_some] at hp
        split at hp
        · next q => rw [Option.some.inj hp]
        · cases hp
      refine ⟨.proxy { p with target := none }, ?_, fun e => by simp [hproxy]⟩
      rw [Store.get?_set, if_pos rfl, hd, Option.map_some]
    · exact ⟨d, by rw [Store.get?_set_ne _ _ huv]; exact hd, fun _ => Iff.rfl⟩
  | hold _ _ ih | lent _ _ _ _ ih | called _ _ _ ih | resumed _ _ _ ih => exact ih
  | _ => exact .of_eq rfl

/-! ### What an error shows -/

/-- Whether a value is no carrier, now and from now on. -/
def World.Plain (w : World) (v : ScriptValue) : Prop :=
  ∀ u, v = .userdata u → ∃ d, w.userdata.get? u = some d ∧ ∀ e, d ≠ .carrier e

/-- The failure that an error shows to the host. -/
inductive World.Shows (w : World) : ScriptError → HostFailure → Prop where
  /-- A plain error shows itself. -/
  | plain (x : ScriptError) (h : w.Plain x.value) : w.Shows x (.script x)
  /-- A carrier shows what it carries. -/
  | carried (u : UserdataRef) (traceback : Option String) (e : HostFailure)
      (h : w.userdata.get? u = some (.carrier e)) (he : e.isScript = false) :
      w.Shows ⟨.userdata u, traceback⟩ e

namespace World

variable {w w' : World} {x : ScriptError} {e : HostFailure}

/-- What is no carrier does not become one. -/
theorem Plain.later {v : ScriptValue} (h : w.Plain v) (hl : w.Later w') : w'.Plain v := by
  intro u hu
  obtain ⟨d, hd, hne⟩ := h u hu
  obtain ⟨d', hd', hiff⟩ := hl u d hd
  exact ⟨d', hd', fun e he => hne e ((hiff e).mp he)⟩

/-- What an error shows it goes on showing. -/
theorem Shows.later (h : w.Shows x e) (hl : w.Later w') : w'.Shows x e := by
  cases h with
  | plain x hx => exact .plain x (hx.later hl)
  | carried u tb e hu he =>
    obtain ⟨d, hd, hiff⟩ := hl u _ hu
    exact .carried u tb e (by rw [hd, (hiff e).mpr rfl]) he

/-- A script error that is shown is plain: carriers carry other failures. -/
theorem Shows.plain_of_script {y : ScriptError} (h : w.Shows x e) (he : e = .script y) :
    w.Plain y.value := by
  cases h with
  | plain x hx =>
    cases he
    exact hx
  | carried u tb e hu hs =>
    subst he
    cases hs

/-- **The host sees what an error shows.** -/
theorem Shows.unwrap (h : w.Shows x e) : unwrapError w x = e := by
  cases h with
  | carried u tb e hu he => simp [unwrapError, World.userdatum, hu]
  | plain x hx =>
    unfold unwrapError
    split
    · next u hu =>
      obtain ⟨d, hd, hne⟩ := hx u hu
      -- The second case of the match: `hne` excludes the first one.
      simp only [World.userdatum, hd, Option.getD_some]
    · rfl

end World

/-! ### Acts that raise -/

namespace Act

variable {α β ε : Type} {w w' : World} {e : HostFailure}

/-- The act fails, and `P` holds of the error in the world that is left. -/
def Raises (P : ScriptError → World → Prop) (m : Act ScriptError α) (w : World) : Prop :=
  ∃ x w', m.outcome w = (.error x, w') ∧ P x w'

/-- What is said of an error depends on the userdata of the world only. -/
def Lasting (P : ScriptError → World → Prop) : Prop :=
  ∀ x w w', w'.userdata = w.userdata → P x w → P x w'

section Raises

variable {P : ScriptError → World → Prop} {m m' : Act ScriptError α} {f : α → Act ScriptError β}

/-- Two acts with the same outcome raise the same. -/
theorem Raises.of_eq (hm : m.outcome w = m'.outcome w) (h : Raises P m' w) : Raises P m w := by
  obtain ⟨x, v, hm', hx⟩ := h
  exact ⟨x, v, hm.trans hm', hx⟩

/-- What raises at once raises, whatever was to follow. -/
theorem Raises.bind (h : Raises P m w) : Raises P (m >>= f) w := by
  obtain ⟨x, w', hm, hx⟩ := h
  exact ⟨x, w', outcome_bind_error hm, hx⟩

/-- What raises after something has succeeded raises. -/
theorem Raises.after {a : α} (hm : m.outcome w = (.ok a, w')) (h : Raises P (f a) w') :
    Raises P (m >>= f) w := by
  obtain ⟨x, w'', hf, hx⟩ := h
  exact ⟨x, w'', by rw [outcome_bind_ok hm, hf], hx⟩

variable (hP : Lasting P)
include hP

/-- What raises while something is held raises when it is let go of. -/
theorem Raises.holding {hs : List Handle} (h : Raises P m { w with held := hs ++ w.held }) :
    Raises P (holding hs m) w := by
  obtain ⟨x, w', hm, hx⟩ := h
  exact ⟨x, { w' with held := w.held }, by rw [outcome_holding, hm], hP x w' _ rfl hx⟩

/-- An error passes the frame of the call that raises it. -/
theorem Raises.framed {b : Bool} {f : FunctionRef} (h : Raises P m (w.entered b f)) :
    Raises P (framed b f m) w := by
  obtain ⟨x, w', hm, hx⟩ := h
  refine ⟨x, w'.left f, ?_, hP x w' _ rfl hx⟩
  rw [outcome_framed, hm]

/-- A coroutine that fails passes on the error. -/
theorem Raises.resume {call : Caller} {c : CoroutineRef} {args : List ScriptValue}
    (hs : (w.coroutine c).status = .suspended)
    (h : Raises P (call true (w.coroutine c).function args) (w.resuming c)) :
    Raises P (resume call c args) w := by
  obtain ⟨x, w', hm, hx⟩ := h
  refine ⟨x, w'.finishing c, ?_, hP x w' _ rfl hx⟩
  rw [outcome_resume, hs]
  simp only [hm]

end Raises

/-- What an error shows depends on the userdata only. -/
theorem lasting_shows (e : HostFailure) : Lasting fun x w => w.Shows x e :=
  fun _ _ _ h hx => hx.later (.of_eq h)

/-- The act fails with an error that shows the failure. -/
def RaisesAs (m : Act ScriptError α) (w : World) (e : HostFailure) : Prop :=
  ∃ x w', m.outcome w = (.error x, w') ∧ w'.Shows x e

/-- A failure that is no script error gets a new carrier and the traceback of the moment. -/
theorem outcome_toScriptError (e : HostFailure) (he : e.isScript = false) (w : World) :
    (toScriptError e).outcome w =
      (.ok ⟨.userdata w.userdata.next, some w.traceback⟩,
        { w with userdata := w.userdata.push (.carrier e) }) := by
  cases e <;> first | rfl | cases he

/-- What succeeds raises nothing. -/
theorem outcome_raising_ok {m : Act HostFailure α} {a : α} (h : m.outcome w = (.ok a, w')) :
    (raising m).outcome w = (.ok a, w') := by
  unfold raising
  rw [outcome_bind, outcome_attempt, h]
  rfl

/-- A plain script error goes into script as it is. -/
theorem outcome_raising_script {m : Act HostFailure α} {x : ScriptError}
    (h : m.outcome w = (.error (.script x), w')) : (raising m).outcome w = (.error x, w') := by
  unfold raising
  rw [outcome_bind, outcome_attempt, h]
  rfl

/-- Any other failure gets a carrier. -/
theorem outcome_raising_carried {m : Act HostFailure α} (h : m.outcome w = (.error e, w'))
    (he : e.isScript = false) :
    (raising m).outcome w = (.error ⟨.userdata w'.userdata.next, some w'.traceback⟩,
      { w' with userdata := w'.userdata.push (.carrier e) }) := by
  unfold raising
  rw [outcome_bind, outcome_attempt, h]
  show (toScriptError e >>= fun s => throw s).outcome w' = _
  rw [outcome_bind, outcome_toScriptError e he]
  rfl

/-- **Into script**: a failure is shown by what is raised for it. A script error has to be plain. -/
theorem RaisesAs.of_failure {m : Act HostFailure α} (h : m.outcome w = (.error e, w'))
    (he : ∀ x, e = .script x → w'.Plain x.value) : RaisesAs (raising m) w e := by
  cases hs : e.isScript with
  | false =>
    exact ⟨_, _, outcome_raising_carried h hs,
      .carried _ _ e (Store.get?_push_self _ _) hs⟩
  | true =>
    cases e with
    | script x => exact ⟨x, w', outcome_raising_script h, .plain x (he x rfl)⟩
    | _ => cases hs

/-- **Back to the host**: what is shown is what is caught. -/
theorem RaisesAs.catching {m : Act ScriptError α} (h : RaisesAs m w e) :
    ((catching m).outcome w).1 = .error e := by
  obtain ⟨x, w', hm, hx⟩ := h
  unfold Act.catching
  rw [outcome_mapError, hm]
  exact congrArg Except.error hx.unwrap

/-- There is only one outcome. -/
theorem RaisesAs.shows {m : Act ScriptError α} {x : ScriptError} (h : RaisesAs m w e)
    (hm : m.outcome w = (.error x, w')) : w'.Shows x e := by
  obtain ⟨y, v, hy, hshows⟩ := h
  rw [hm] at hy
  cases hy
  exact hshows

theorem RaisesAs.of_eq {m m' : Act ScriptError α} (hm : m.outcome w = m'.outcome w)
    (h : RaisesAs m' w e) : RaisesAs m w e :=
  Raises.of_eq hm h

theorem RaisesAs.bind {m : Act ScriptError α} {f : α → Act ScriptError β} (h : RaisesAs m w e) :
    RaisesAs (m >>= f) w e :=
  Raises.bind h

theorem RaisesAs.after {m : Act ScriptError α} {f : α → Act ScriptError β} {a : α}
    (hm : m.outcome w = (.ok a, w')) (h : RaisesAs (f a) w' e) : RaisesAs (m >>= f) w e :=
  Raises.after hm h

theorem RaisesAs.holding {hs : List Handle} {m : Act ScriptError α}
    (h : RaisesAs m { w with held := hs ++ w.held } e) : RaisesAs (holding hs m) w e :=
  Raises.holding (lasting_shows e) h

theorem RaisesAs.framed {b : Bool} {f : FunctionRef} {m : Act ScriptError α}
    (h : RaisesAs m (w.entered b f) e) : RaisesAs (framed b f m) w e :=
  Raises.framed (lasting_shows e) h

theorem RaisesAs.resume {call : Caller} {c : CoroutineRef} {args : List ScriptValue}
    (hs : (w.coroutine c).status = .suspended)
    (h : RaisesAs (call true (w.coroutine c).function args) (w.resuming c) e) :
    RaisesAs (resume call c args) w e :=
  Raises.resume (lasting_shows e) hs h

/-- The guard raises the refusal inside a coroutine. -/
theorem RaisesAs.guard (name : String) (w : World) :
    RaisesAs (raising (guard true name)) w (.reentrancy name) :=
  .of_failure (outcome_guard true name w) nofun

end Act

end ScriptHost
