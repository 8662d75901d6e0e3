import Mathlib.Data.List.Nodup
import ScriptHost.Proofs.CallStack
import ScriptHost.Proofs.Instants.Ordered

/-!
# The life of a coroutine

A coroutine is suspended, then it runs, and then it is dead. Its status is changed around an arbitrary
body, which may resume any coroutine, its own included, so what is said here is about everything that
acts can do in between.

`World.MovesOn` compares two worlds: what happened is remembered, and no coroutine has gone back. It
passes on from instant to instant (`MovesOn.passing`). `World.Counted` ties the journal to the status: a
coroutine that is suspended was never entered, and any other exactly once. Together they bound the
journal of the whole run, and so that of each instant.

What a single resumption does in whatever world is `World.ResumesOnce`.
-/

set_option autoImplicit false

namespace ScriptHost

open Act

/-- How far a coroutine has come. -/
def CoroutineStatus.stage : CoroutineStatus → Nat
  | .suspended => 0
  | .running => 1
  | .dead => 2

/-- How often a coroutine was entered. -/
def CoroutineStatus.entries : CoroutineStatus → Nat
  | .suspended => 0
  | .running | .dead => 1

/-! ### What the journal tells -/

namespace Journal

/-- The coroutine that is entered. -/
def resumed? : Event → Option CoroutineRef
  | .resumed c => some c
  | _ => none

/-- The coroutines that were entered, the latest first. -/
def resumed (j : List Event) : List CoroutineRef := j.filterMap resumed?

/-- The coroutines whose body was started: right after they were entered a call was begun. -/
def begun : List Event → List CoroutineRef
  | .called _ _ :: .resumed c :: es => c :: begun es
  | _ :: es => begun es
  | [] => []

/-- A body is only started where its coroutine was entered. -/
theorem begun_sublist (j : List Event) : (begun j).Sublist (resumed j) := by
  induction j using begun.induct with
  | case1 f b c es ih => exact ih.cons_cons c
  | case2 e es hne ih =>
    rw [begun.eq_2 e es hne]
    unfold resumed at ih ⊢
    rw [List.filterMap_cons]
    split
    · exact ih
    · exact ih.cons _
  | case3 => exact .slnil

/-- Host code resumes nothing. -/
theorem resumed_of_isHostCode {e : Event} (he : e.isHostCode = true) (es : List Event) :
    resumed (e :: es) = resumed es := by
  cases e <;> first | rfl | cases he

end Journal

open Journal

namespace World

/-- Nothing that has happened is forgotten, and no coroutine has gone back to where it was before. -/
structure MovesOn (w w' : World) : Prop where
  journal : w.journal <:+ w'.journal
  coroutines : ∀ c x, w.coroutines.get? c = some x → ∃ y, w'.coroutines.get? c = some y ∧
    y.function = x.function ∧ x.status.stage ≤ y.status.stage

namespace MovesOn

variable {w w' w'' : World}

/-- Where the coroutines are the same, time has passed. -/
theorem of_coroutines (hj : w.journal <:+ w'.journal) (hc : w'.coroutines = w.coroutines) :
    w.MovesOn w' where
  journal := hj
  coroutines c x hx := ⟨x, by rw [hc, hx], rfl, le_rfl⟩

/-- No time has passed. -/
theorem refl (w : World) : w.MovesOn w := of_coroutines (List.suffix_refl _) rfl

/-- What moves on from a world that has moved on has moved on. -/
theorem trans (h : w.MovesOn w') (h' : w'.MovesOn w'') : w.MovesOn w'' where
  journal := h.journal.trans h'.journal
  coroutines c x hx := by
    obtain ⟨y, hy, hfunction, hstage⟩ := h.coroutines c x hx
    obtain ⟨z, hz, hfunction', hstage'⟩ := h'.coroutines c y hy
    exact ⟨z, hz, hfunction'.trans hfunction, hstage.trans hstage'⟩

/-- A coroutine gets a later status. -/
theorem status (w : World) (c : CoroutineRef) (s : CoroutineStatus) (e : Event)
    (hs : (w.coroutine c).status.stage ≤ s.stage) : w.MovesOn { w with
      coroutines := w.coroutines.set c { w.coroutine c with status := s }
      journal := e :: w.journal } where
  journal := List.suffix_cons _ _
  coroutines d x hx := by
    by_cases hd : d = c
    · subst hd
      have hread : w.coroutine d = x := by rw [coroutine, hx, Option.getD_some]
      refine ⟨{ x with status := s }, ?_, rfl, by rwa [hread] at hs⟩
      rw [Store.get?_set, if_pos rfl, hx, hread]
      rfl
    · exact ⟨x, (Store.get?_set_ne _ _ hd).trans hx, rfl, le_rfl⟩

/-- To resume a coroutine moves it on. -/
theorem resuming (w : World) (c : CoroutineRef) (hs : (w.coroutine c).status = .suspended) :
    w.MovesOn (w.resuming c) :=
  status w c .running (.resumed c) (by rw [hs]; decide)

/-- So does finishing it. -/
theorem finishing (w : World) (c : CoroutineRef) : w.MovesOn (w.finishing c) :=
  status w c .dead (.finished c) (by cases (w.coroutine c).status <;> decide)

end MovesOn

end World

/-! ### What acts do to coroutines -/

namespace Effects

variable {l : License} {b : Bool} {w w' : World}

/-- **Whatever acts do, coroutines only move on.** -/
theorem movesOn (h : Effects l b w w') : w.MovesOn w' := by
  induction h with
  | trans _ _ ih ih' => exact ih.trans ih'
  | hold _ _ ih | lent _ _ _ _ ih => exact { ih with }
  | called f _ _ ih =>
    refine .trans ?_ (.trans ih ?_)
    · exact .of_coroutines (List.suffix_cons _ _) rfl
    · exact .of_coroutines (List.suffix_cons _ _) rfl
  | resumed c hs _ ih => exact (World.MovesOn.resuming _ c hs).trans (ih.trans (.finishing _ c))
  | coroutine w f =>
    refine ⟨List.suffix_refl _, fun c x hx => ⟨x, Store.get?_push_of_some _ hx, rfl, le_rfl⟩⟩
  | cached | wrapped | started | refused => exact .of_coroutines (List.suffix_cons _ _) rfl
  | _ => exact .of_coroutines (List.suffix_refl _) rfl

/-- A coroutine that runs goes on running: only what is suspended can be resumed. -/
theorem running (h : Effects l b w w') {c : CoroutineRef}
    (hc : (w.coroutine c).status = .running) : (w'.coroutine c).status = .running := by
  induction h with
  | trans _ _ ih ih' => exact ih' (ih hc)
  | hold _ _ ih | lent _ _ _ _ ih | called _ _ _ ih => exact ih hc
  -- A new coroutine is another one.
  | coroutine w f =>
    rw [World.coroutine_push]
    split
    · next heq =>
      rw [heq, World.status_next] at hc
      cases hc
    · exact hc
  -- One that is resumed in between was suspended, so it is another one too.
  | @resumed _ w w' d hs _ ih =>
    have hne : c ≠ d := by
      rintro rfl
      cases hc.symm.trans hs
    have hbefore : (w.resuming d).coroutine c = w.coroutine c := World.coroutine_set_ne _ hne
    have hafter : (w'.finishing d).coroutine c = w'.coroutine c := World.coroutine_set_ne _ hne
    rw [hafter]
    exact ih (by rw [hbefore]; exact hc)
  | _ => exact hc

end Effects

/-! ### Entered once -/

/-- A coroutine was entered as often as its status says, and one that is still to be made never. -/
def World.Counted (w : World) : Prop :=
  ∀ c, (resumed w.journal).count c =
    ((w.coroutines.get? c).map fun x => x.status.entries).getD 0

namespace World

variable {w : World} {c : CoroutineRef}

/-- What changes neither coroutines nor the journal changes no count. -/
theorem Counted.of_eq {w' : World} (h : w.Counted) (hc : w'.coroutines = w.coroutines)
    (hj : resumed w'.journal = resumed w.journal) : w'.Counted := by
  intro c
  rw [hc, hj]
  exact h c

/-- No coroutine was entered twice. -/
theorem Counted.nodup (h : w.Counted) : (resumed w.journal).Nodup := by
  refine List.nodup_iff_count_le_one.mpr fun c => ?_
  rw [h c]
  cases w.coroutines.get? c with
  | none => exact Nat.zero_le 1
  | some x => cases hx : x.status <;> simp [CoroutineStatus.entries, hx]

/-- A coroutine whose status is not dead was made. -/
theorem get?_of_status {s : CoroutineStatus} (hs : (w.coroutine c).status = s) (hne : s ≠ .dead) :
    ∃ x, w.coroutines.get? c = some x ∧ x.status = s := by
  unfold coroutine at hs
  cases hc : w.coroutines.get? c with
  | none =>
    rw [hc] at hs
    exact absurd hs.symm hne
  | some x => exact ⟨x, rfl, by rwa [hc] at hs⟩

/-- A coroutine that is made is suspended, and was never entered. -/
theorem Counted.made (h : w.Counted) (f : FunctionRef) :
    ({ w with coroutines := w.coroutines.push ⟨f, .suspended⟩ } : World).Counted := by
  intro d
  show (resumed w.journal).count d = _
  rw [h d]
  cases hd : w.coroutines.get? d with
  | some x =>
    have hread : (w.coroutines.push ⟨f, .suspended⟩).get? d = some x := Store.get?_push_of_some _ hd
    rw [hread]
  | none =>
    -- Whoever is read for the first time is the new one.
    cases hread : (w.coroutines.push ⟨f, .suspended⟩).get? d with
    | none => rfl
    | some y =>
      rcases Store.get?_push_cases hread with ⟨-, rfl⟩ | hbefore
      · rfl
      · cases hd.symm.trans hbefore

/-- A coroutine that is entered counts once more, and is not suspended any more. -/
theorem Counted.resuming (h : w.Counted) (hs : (w.coroutine c).status = .suspended) :
    (w.resuming c).Counted := by
  obtain ⟨x, hx, hstatus⟩ := get?_of_status hs (by decide)
  intro d
  -- The journal counts one more entry, for this coroutine.
  have hcount : (resumed (w.resuming c).journal).count d =
      (resumed w.journal).count d + if c = d then 1 else 0 := by
    show (c :: resumed w.journal).count d = _
    rw [List.count_cons]
    simp only [beq_iff_eq]
  -- Its status has changed, and no other one has.
  have hread : (w.resuming c).coroutines.get? d =
      if d = c then (w.coroutines.get? d).map fun _ => { w.coroutine c with status := .running }
      else w.coroutines.get? d := Store.get?_set _ _ _ _
  rw [hcount, h d, hread]
  by_cases hd : c = d
  · subst hd
    rw [if_pos rfl, if_pos rfl, hx]
    simp [hstatus, CoroutineStatus.entries]
  · rw [if_neg hd, if_neg (Ne.symm hd), Nat.add_zero]

/-- A coroutine that runs counts the same when it is dead. -/
theorem Counted.finishing (h : w.Counted) (hs : (w.coroutine c).status = .running) :
    (w.finishing c).Counted := by
  obtain ⟨x, hx, hstatus⟩ := get?_of_status hs (by decide)
  intro d
  -- No entry is counted when a coroutine finishes, and none is lost: a dead one was entered as often
  -- as a running one.
  have hread : (w.finishing c).coroutines.get? d =
      if d = c then (w.coroutines.get? d).map fun _ => { w.coroutine c with status := .dead }
      else w.coroutines.get? d := Store.get?_set _ _ _ _
  show (resumed w.journal).count d = _
  rw [h d, hread]
  by_cases hd : d = c
  · subst hd
    rw [if_pos rfl, hx]
    simp [hstatus, CoroutineStatus.entries]
  · rw [if_neg hd]

/-- A coroutine runs while its body does. -/
theorem status_resuming (hs : (w.coroutine c).status = .suspended) :
    ((w.resuming c).coroutine c).status = .running :=
  congrArg Coroutine.status (coroutine_set_self _ (by rw [hs]; decide))

/-- Then it is dead. -/
theorem status_finishing (hs : (w.coroutine c).status = .running) :
    ((w.finishing c).coroutine c).status = .dead :=
  congrArg Coroutine.status (coroutine_set_self _ (by rw [hs]; decide))

end World

/-- **Whatever acts do, the journal counts the coroutines.** -/
theorem Effects.counted {l : License} {b : Bool} {w w' : World} (h : Effects l b w w')
    (hw : w.Counted) : w'.Counted := by
  induction h with
  | trans _ _ ih ih' => exact ih' (ih hw)
  | hold _ _ ih | lent _ _ _ _ ih | called _ _ _ ih => exact (ih (hw.of_eq rfl rfl)).of_eq rfl rfl
  | started w e he _ _ => exact hw.of_eq rfl (resumed_of_isHostCode he _)
  | coroutine w f => exact hw.made f
  | @resumed _ w w' c hs h ih =>
    have hrunning := h.running (World.status_resuming hs)
    exact (ih (hw.resuming hs)).finishing hrunning
  | _ => exact hw.of_eq rfl rfl

/-! ### One resumption -/

/-- **What a resumption does**, in whatever world it is asked for and however many calls may still be
nested. -/
structure World.ResumesOnce (w : World) (n : Nat) (c : CoroutineRef) (args : List ScriptValue) : Prop
    where
  /-- A coroutine that runs is not entered again, and nothing happens but the error. -/
  running : (w.coroutine c).status = .running → (resume (callWithin n) c args).outcome w =
    (.error ⟨.string "cannot resume non-suspended coroutine", some w.traceback⟩, w)
  /-- Neither is one that is dead. -/
  dead : (w.coroutine c).status = .dead → (resume (callWithin n) c args).outcome w =
    (.error ⟨.string "cannot resume dead coroutine", some w.traceback⟩, w)
  /-- One that is suspended runs as long as the call of its function lasts, and then it is dead,
  whatever came of the call. -/
  entered : (w.coroutine c).status = .suspended → ∃ r v,
    ((w.resuming c).coroutine c).status = .running ∧
    (callWithin n true (w.coroutine c).function args).outcome (w.resuming c) = (r, v) ∧
    (v.coroutine c).status = .running ∧
    (resume (callWithin n) c args).outcome w = (r, v.finishing c) ∧
    ((v.finishing c).coroutine c).status = .dead
  /-- The body is started if a call may still be nested. -/
  started : (w.coroutine c).status = .suspended → ∀ m, n = m + 1 →
    (.called (w.coroutine c).function true :: .resumed c :: w.journal) <:+
      ((resume (callWithin n) c args).outcome w).2.journal
  /-- Otherwise the coroutine is entered and left with the overflow of the stack. -/
  overflow : (w.coroutine c).status = .suspended → n = 0 → (resume (callWithin n) c args).outcome w =
    (.error ⟨.string "stack overflow", some w.traceback⟩, (w.resuming c).finishing c)
  /-- Whoever resumes goes on with the calls and in the state that it had. -/
  sameStack : w.SameStack ((resume (callWithin n) c args).outcome w).2
  movesOn : w.MovesOn ((resume (callWithin n) c args).outcome w).2

/-- What resuming comes to, by the status of the coroutine. For a suspended one the body decides, but
it finds the coroutine running and leaves it so, whatever it does. -/
theorem World.resumesOnce (w : World) (n : Nat) (c : CoroutineRef) (args : List ScriptValue) :
    w.ResumesOnce n c args where
  running hs := by
    rw [outcome_resume, hs]
    rfl
  dead hs := by
    rw [outcome_resume, hs]
    rfl
  entered hs := by
    -- The body starts out in a world where its coroutine runs, and acts leave a running one running.
    have hcall := (callWithin_composed .all n true true (w.coroutine c).function args (.self true)
      (.univ args)).effects (w.resuming c).within_all
    rcases hout : (callWithin n true (w.coroutine c).function args).outcome (w.resuming c) with ⟨r, v⟩
    rw [hout] at hcall
    have hrunning : (v.coroutine c).status = .running := hcall.1.running (status_resuming hs)
    refine ⟨r, v, status_resuming hs, rfl, hrunning, ?_, status_finishing hrunning⟩
    rw [outcome_resume, hs]
    simp only [hout]
  started hs m hn := by
    subst hn
    have hcalled := (w.resuming c).called m true (w.coroutine c).function args
    rw [outcome_resume, hs]
    exact hcalled.trans (List.suffix_cons _ _)
  overflow hs hn := by
    subst hn
    rw [outcome_resume, hs]
    rfl
  sameStack := (w.keepsStack n).resume c args
  movesOn := by
    have hresume := resume_composed (b := true) (callWithin_composed .all n) c (.univ args)
    exact (hresume.effects w.within_all).1.movesOn

/-! ### Whole runs -/

/-- Time passes from instant to instant. -/
theorem World.MovesOn.passing : Passing World.MovesOn where
  refl := .refl
  trans := .trans
  effects h := h.movesOn
  held _ _ := .of_coroutines (List.suffix_refl _) rfl
  cleared _ := .of_coroutines (List.suffix_refl _) rfl
  entered _ _ _ := .of_coroutines (List.suffix_cons _ _) rfl
  left _ _ := .of_coroutines (List.suffix_cons _ _) rfl
  resuming := .resuming
  finishing := .finishing
  borrowed _ _ _ := .of_coroutines (List.suffix_refl _) rfl

/-- Nothing was entered before a session begins. -/
theorem World.counted_start (c : Config) (layout : Ref .object → Nat) : (start c layout).Counted := by
  intro co
  simp [start, Store.empty, Store.get?, resumed]

/-- The journal counts the coroutines at the end of a session. -/
theorem World.counted_session (c : Config) (layout : Ref .object → Nat) (ops : Program) :
    ((start c layout).after ops).Counted := by
  have hstep (w : World) (op : Op) (hw : w.Within .all) (hop : op.within .all true = true)
      (h : w.Counted) : (w.step op).2.Counted :=
    (World.step_effects hw hop).counted (h.of_eq rfl rfl)
  exact (World.after_induction hstep (Op.allWithin_all true ops) (World.within_all _)
    (counted_start c layout)).2

/-- **A coroutine body runs at most once.** In every session, at every instant of it:

* no coroutine was entered twice so far, and no body of a coroutine was started twice;
* compared with every later instant no coroutine goes back: it was suspended, then it runs, then it is
  dead, and its function stays what it was;
* the body that is running there is in the state that the call around it began with.

A resumption, in whatever world and of whatever coroutine, starts the body of a suspended one only and
leaves it dead, however its body ends and also if it could not be started (`World.ResumesOnce`). -/
theorem coroutine_runs_once (c : Config) (layout : Ref .object → Nat) (ops : Program) :
    let session := (World.start c layout).instants ops
    (∀ i ∈ session, (resumed i.world.journal).Nodup ∧ (begun i.world.journal).Nodup) ∧
    session.Pairwise (fun i j => i.world.MovesOn j.world) ∧
    (∀ i ∈ session, ∀ s rest, i.task = .body s rest → s.Placed i.world) ∧
    ∀ (w : World) n co args, w.ResumesOnce n co args := by
  intro session
  have hstretch := World.MovesOn.passing.instants c layout ops
  refine ⟨fun i hi => ?_, hstretch.ordered, hstretch.placed, World.resumesOnce⟩
  -- What happened so far is a part of what happens until the end.
  have hsuffix := (hstretch.ends i hi).journal
  have hnodup : (resumed i.world.journal).Nodup :=
    (World.counted_session c layout ops).nodup.sublist (hsuffix.sublist.filterMap _)
  exact ⟨hnodup, hnodup.sublist (begun_sublist _)⟩

namespace CoroutineLife

/-- A coroutine resumes itself, and is resumed once more when it is dead. -/
def selfResuming : Program :=
  let catching (name : String) : Disposition := ⟨none, some name, false, true⟩
  let resuming (name : String) : Op := .act (catching name) (.call (.resume "co" (.list [])))
  [.function ⟨some "again", none, false, true⟩ "again" false false [resuming "inner"],
    .act ⟨some "co", none, false, true⟩ (.call (.coroutine (.var "again" 0))),
    resuming "outer", resuming "late"]

end CoroutineLife

open CoroutineLife in
example :
    let w := (World.start .default fun r => r.index).after selfResuming
    resumed w.journal = [⟨0⟩] ∧ begun w.journal = [⟨0⟩] ∧ (w.coroutine ⟨0⟩).status = .dead ∧
      ["inner", "outer", "late"].map (fun name => (w.var? name).isSome) = [true, false, true] := by
  decide +kernel

end ScriptHost
