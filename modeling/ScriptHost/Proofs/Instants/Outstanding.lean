import ScriptHost.Proofs.Instants.Faithful
import ScriptHost.Proofs.Instants.Lending
import ScriptHost.Proofs.Instants.Regular

/-!
# Outstanding loans

The borrow state of an object is what its outstanding loans come to, at every instant of a session
(`World.outstanding_lendings`) and in all that comes about from there before anything else is lent
(`World.Comes.outstanding`). For acts put every borrow back that they make, whatever becomes of them
(`Effects.keepsBorrows`), so only the borrows around an instant are left.
-/

set_option autoImplicit false

namespace ScriptHost

open Act

/-! ### What acts do to borrows -/

/-- Borrows are kept: objects stay borrowed as they were, and new ones are not borrowed. -/
structure World.KeepsBorrows (w w' : World) : Prop where
  kept : ∀ r x, w.objects.get? r = some x → ∃ y, w'.objects.get? r = some y ∧ y.borrow = x.borrow
  fresh : ∀ r y, w.objects.get? r = none → w'.objects.get? r = some y → y.borrow = .free

/-- An object that is stored is the one that is looked up. -/
theorem World.object_of_get? {w : World} {o : ObjectRef} {x : Object}
    (h : w.objects.get? o.ref = some x) : w.object o = x := by
  unfold World.object
  rw [h]
  rfl

namespace World.KeepsBorrows

variable {w w' w'' : World}

/-- Where objects are untouched, so are their borrows. -/
theorem of_eq (h : w'.objects = w.objects) : w.KeepsBorrows w' where
  kept r x hx := ⟨x, h ▸ hx, rfl⟩
  fresh r y hnone hy := by
    rw [h, hnone] at hy
    cases hy

/-- Borrows that are kept twice are kept. -/
theorem trans (h : w.KeepsBorrows w') (h' : w'.KeepsBorrows w'') : w.KeepsBorrows w'' where
  kept r x hx := by
    obtain ⟨y, hy, hxy⟩ := h.kept r x hx
    obtain ⟨z, hz, hyz⟩ := h'.kept r y hy
    exact ⟨z, hz, hyz.trans hxy⟩
  fresh r z hnone hz := by
    -- The object was made in the second part, or in the first and kept in the second.
    cases hr : w'.objects.get? r with
    | none => exact h'.fresh r z hr hz
    | some y =>
      obtain ⟨z', hz', hyz⟩ := h'.kept r y hr
      obtain rfl := Option.some.inj (hz.symm.trans hz')
      exact hyz.trans (h.fresh r y hnone hr)

/-- An object that gets back the borrow state that it had, whatever it was lent for meanwhile. -/
theorem lent {o : ObjectRef} {s : Borrow}
    (h : World.KeepsBorrows
      { w with objects := w.objects.set o.ref { w.object o with borrow := s } } w') :
    w.KeepsBorrows { w' with
      objects := w'.objects.set o.ref { w'.object o with borrow := (w.object o).borrow } } where
  kept r x hx := by
    have hmeanwhile := h.kept r
    simp only [Store.get?_set] at hmeanwhile ⊢
    -- The object itself gets its own state back; to the others nothing was done but meanwhile.
    by_cases hr : r = o.ref
    · subst hr
      obtain ⟨y, hy, -⟩ := hmeanwhile _ (by rw [if_pos rfl, hx, Option.map_some])
      refine ⟨_, by rw [if_pos rfl, hy, Option.map_some], ?_⟩
      have hborrow : (w.object o).borrow = x.borrow := by rw [object_of_get? hx]
      exact hborrow
    · rw [if_neg hr] at hmeanwhile ⊢
      exact hmeanwhile x hx
  fresh r y hnone hy := by
    have hmeanwhile := h.fresh r y
    simp only [Store.get?_set, hnone] at hmeanwhile hy
    by_cases hr : r = o.ref
    · subst hr
      rw [if_pos rfl] at hy
      obtain ⟨-, -, rfl⟩ := Option.map_eq_some_iff.mp hy
      show (w.object o).borrow = .free
      unfold World.object
      rw [hnone]
      rfl
    · rw [if_neg hr] at hy
      exact hmeanwhile (by simp) hy

/-- Every lookup shows the same borrow state, also of an object that is not there or is made meanwhile.
-/
theorem borrow_eq (h : w.KeepsBorrows w') (o : ObjectRef) :
    (w'.object o).borrow = (w.object o).borrow := by
  unfold World.object
  -- What is not there is looked up as an object that is free, and a new one is free as well.
  cases ho : w.objects.get? o.ref with
  | some x =>
    obtain ⟨y, hy, hxy⟩ := h.kept o.ref x ho
    rw [hy]
    exact hxy
  | none =>
    cases ho' : w'.objects.get? o.ref with
    | none => rfl
    | some y => exact h.fresh o.ref y ho ho'

end World.KeepsBorrows

/-- **Acts leave all borrows as they were**, whatever becomes of them. -/
theorem Effects.keepsBorrows {l : License} {b : Bool} {w w' : World} (h : Effects l b w w') :
    w.KeepsBorrows w' := by
  induction h with
  | trans _ _ ih ih' => exact ih.trans ih'
  | object w c p _ =>
    refine ⟨fun r x hx => ⟨x, Store.get?_push_of_some _ hx, rfl⟩, fun r y hnone hy => ?_⟩
    rcases Store.get?_push_cases hy with ⟨-, rfl⟩ | hy
    · rfl
    · rw [hnone] at hy
      cases hy
  | written w o slot v _ _ =>
    -- A write replaces the payload and nothing else.
    refine ⟨fun r x hx => ?_, fun r y hnone hy => ?_⟩
    · rw [Store.get?_set]
      split
      · next hr =>
        subst hr
        refine ⟨_, by rw [hx, Option.map_some], ?_⟩
        have hborrow : (w.object o).borrow = x.borrow := by rw [World.object_of_get? hx]
        exact hborrow
      · exact ⟨x, hx, rfl⟩
    · rw [Store.get?_set, hnone] at hy
      simp at hy
  | lent o mutably _ _ ih => exact ih.lent
  | hold _ _ ih | called _ _ _ ih | resumed _ _ _ ih => exact ⟨ih.kept, ih.fresh⟩
  | _ => exact .of_eq rfl

/-- A borrow that is granted makes a state. -/
theorem Object.lend_of_granted {x : Object} {mutably : Bool}
    (h : x.refusal? mutably .slots = none) : ∃ s, x.lend mutably = some s := by
  unfold Object.refusal? at h
  split at h
  · cases h
  · next hlend => exact Option.ne_none_iff_exists'.mp (by simpa using hlend)

/-! ### What is outstanding -/

/-- **The loans are what is outstanding**: every object is borrowed as its loans say. -/
structure World.Outstanding (L : List Loan) (w : World) : Prop where
  faithful : w.Faithful
  regular : w.Regular
  borrows : ∀ o : ObjectRef, (w.object o).borrow = Loan.state L o.ref

namespace World.Outstanding

variable {L : List Loan} {w : World}

/-- Before any operation nothing is lent. -/
theorem start (policy : Policy) (c : Config) (layout : Ref .object → Nat) :
    (startUnder policy c layout).Outstanding [] where
  faithful := ⟨{ (faithful_start c layout).known with }, (faithful_start c layout).noNil⟩
  regular := regular_start policy c layout
  borrows _ := rfl

variable (h : w.Outstanding L)
include h

/-- What is held or in progress makes no difference. -/
theorem along (held : List Handle) (frames : List FunctionRef)
    (coroutines : Store .coroutine Coroutine) (log : List Answer) (journal : List Event) :
    World.Outstanding L { w with
      held := held, frames := frames, coroutines := coroutines, log := log, journal := journal } where
  faithful := ⟨{ h.faithful.known with }, h.faithful.noNil⟩
  regular := { h.regular with functions := h.regular.functions }
  borrows := h.borrows

/-- Holding more lends nothing. -/
theorem keeping (hs : List Handle) : (w.keeping hs).Outstanding L :=
  h.along (hs ++ w.held) w.frames w.coroutines w.log w.journal

/-- Entering a function lends nothing. -/
theorem entered (b : Bool) (f : FunctionRef) : (w.entered b f).Outstanding L :=
  h.along w.held (f :: w.frames) w.coroutines w.log _

/-- Resuming a coroutine lends nothing. -/
theorem resuming (c : CoroutineRef) : (w.resuming c).Outstanding L :=
  h.along w.held w.frames _ w.log _

/-- **Whatever is done on what is known leaves the loans outstanding.** -/
theorem act {ε α : Type} [Names ε] {b : Bool} {m : Act ε α} {Q : Set Mention → α → Prop}
    (hm : Composed .all b (w.known true) m Q) : (m.outcome w).2.Outstanding L := by
  have hran := hm.run true w.within_all h.faithful.known subset_rfl
  refine ⟨⟨hran.known, hran.effects.noNil h.faithful.noNil⟩, hran.effects.regular h.regular, ?_⟩
  exact fun o => (hran.effects.keepsBorrows.borrow_eq o).trans (h.borrows o)

/-- **A borrow that is granted is one more loan.** -/
theorem lent {o : ObjectRef} (ho : ScriptHost.Known (w.known true) o) {mutably : Bool}
    (hgranted : (w.object o).refusal? mutably .slots = none) :
    (w.lent o mutably).Outstanding (⟨o.ref, mutably⟩ :: L) where
  faithful := (h.faithful.lent o mutably).1
  regular := h.regular.changeBorrow o _
  borrows q := by
    obtain ⟨x, hx, -⟩ := ScriptHost.Known.object_iff.mp ho rfl
    -- Loans of one object say nothing of the others.
    by_cases hq : q.ref = o.ref
    · obtain ⟨s, hs⟩ := Object.lend_of_granted hgranted
      have hlent : (w.lent o mutably).objects.get? q.ref = some { w.object o with borrow := s } := by
        unfold World.lent
        rw [Store.get?_set, if_pos hq, hq, hx, hs]
        rfl
      -- What is granted is what the loans so far leave to be lent.
      have hgiven : (if mutably then (Loan.state L o.ref).write? else (Loan.state L o.ref).read?) =
          some s := by
        rw [← h.borrows o]
        exact hs
      rw [object_of_get? hlent, hq, Loan.state_cons hgiven]
    · have hsame : (w.lent o mutably).object q = w.object q := by
        unfold World.lent World.object
        rw [Store.get?_set, if_neg hq]
      rw [hsame, h.borrows q, Loan.state_cons_ne _ hq]

end World.Outstanding

/-! ### At all lendings -/

/-- The lendings of the calls of a caller, which are given known arguments. -/
def CallLendings.Outstanding (inside : CallLendings) : Prop :=
  ∀ {L : List Loan} {w : World}, w.Outstanding L → ∀ here b f args, Known (w.known true) args →
    ∀ x ∈ inside L here b f args w, x.point.world.Outstanding x.loans

section Calls

variable {inside : CallLendings} (hinside : inside.Outstanding) {L : List Loan} {w : World}
  {s : Scope}
include hinside

/-- The lendings of a call that is asked for are those inside the callee, if it is a function. -/
theorem Calling.outstanding_lendings (hw : w.Outstanding L) (c : Calling)
    (hargs : Known (w.known true) c.args) (here : Site) :
    ∀ x ∈ c.lendings inside L here w, x.point.world.Outstanding x.loans := by
  intro x hx
  cases c with
  | apply b callee args =>
    cases callee with
    | function f => exact hinside hw here b f args hargs x hx
    | _ => cases hx
  | resume c args =>
    simp only [Calling.lendings] at hx
    split at hx
    -- A coroutine is resumed in a world that lends the same.
    · exact hinside (hw.resuming c) here true _ args hargs x hx
    · cases hx

/-- Before its call an action leaves the loans as they are, so they are outstanding when it calls. -/
theorem CallAction.outstanding_lendings (hw : w.Outstanding L) (hs : Known (w.known true) s)
    (a : CallAction) (here : Site) :
    ∀ x ∈ a.lendings inside L s here w, x.point.world.Outstanding x.loans := by
  intro x hx
  have hprepare := CallAction.prepare_composed hs a
  have hafter := hw.act hprepare
  unfold CallAction.lendings at hx
  split at hx
  · next q w' hout =>
    rw [hout] at hafter
    obtain ⟨-, -, K, hK, hprepared⟩ := hprepare.faithful_ok hw.faithful hout
    have hargs := (hprepared.args q rfl).mono hK
    exact Calling.outstanding_lendings hinside (hafter.keeping _) q.calling hargs here x hx
  · cases hx

end Calls

mutual

/-- The lendings inside an operation, by recursion on the operation. -/
theorem Op.outstanding_lendings {inside : CallLendings} {n : Nat} (hinside : inside.Outstanding)
    (s : Scope) :
    ∀ (op : Op) (here : Site) {L : List Loan} {w : World}, w.Outstanding L →
      Known (w.known true) s → ∀ x ∈ op.lendings (callWithin n) inside s L here w,
        x.point.world.Outstanding x.loans
  | .act _ (.call a), here, L, w, hw, hs => by
    unfold Op.lendings
    exact a.outstanding_lendings hinside hw hs here
  -- The condition lends nothing, so the branch begins with the loans that there are.
  | .branch _ cond yes no, here, L, w, hw, hs => by
    have hcond := cond.eval_composed (l := .all) (b := true) hs
    have hafter := hw.act hcond
    unfold Op.lendings
    intro x hx
    split at hx
    · next v w' hout =>
      rw [hout] at hafter
      have hs' := hs.mono (hcond.faithful_ok hw.faithful hout).2.1
      split at hx
      · exact Op.outstanding_allLendings hinside s yes here hafter hs' x hx
      · exact Op.outstanding_allLendings hinside s no here hafter hs' x hx
    · cases hx
  | .borrow _ object mutably body, here, L, w, hw, hs => by
    -- Nor does finding the object. It is then one more loan for the body.
    have hobject := objectOrReceiver_composed (l := .all) (b := true) hs object
    have hafter := hw.act hobject
    unfold Op.lendings
    intro x hx
    split at hx
    · next o w' hout =>
      rw [hout] at hafter
      obtain ⟨-, hsub, K, hK, ho⟩ := hobject.faithful_ok hw.faithful hout
      split at hx
      -- What was known before the borrow is known inside it.
      · next hgranted =>
        have hlent := (hafter.keeping (handles o)).lent (ho.mono hK) hgranted
        have hsub' := (hafter.faithful.lent o mutably).2
        have hs' := hs.mono (hsub.trans hsub')
        exact Op.outstanding_allLendings hinside s body (here.workingOn (handles o)) hlent hs' x hx
      · cases hx
    · cases hx
  | .act _ (.value _), _, _, _, _, _ | .act _ (.table _), _, _, _, _, _
  | .act _ (.error _), _, _, _, _, _ | .act _ (.conversion _), _, _, _, _, _
  | .act _ (.cls _), _, _, _, _, _ | .act _ (.proxy _), _, _, _, _, _
  | .giveScript _ _, _, _, _, _, _ | .giveHost _ _, _, _, _, _, _ | .function .., _, _, _, _, _
  | .hostFunction .., _, _, _, _, _ | .cls _ _, _, _, _, _, _ => by
    simp [Op.lendings]

/-- The lendings of a body: an operation leaves the loans as they were to the rest. -/
theorem Op.outstanding_allLendings {inside : CallLendings} {n : Nat} (hinside : inside.Outstanding)
    (s : Scope) :
    ∀ (p : List Op) (here : Site) {L : List Loan} {w : World}, w.Outstanding L →
      Known (w.known true) s → ∀ x ∈ Op.allLendings (callWithin n) inside s p L here w,
        x.point.world.Outstanding x.loans
  | [], here, L, w, hw, hs => by
    unfold Op.allLendings
    exact List.forall_mem_singleton.mpr hw
  | op :: rest, here, L, w, hw, hs => by
    have hrun := Op.run_composed (callWithin_composed .all n) hs
      (fun h : false = true => nomatch h) op (Op.within_all false op)
    have hafter := hw.act hrun
    unfold Op.allLendings
    refine List.forall_mem_cons.mpr ⟨hw, List.forall_mem_append.mpr ⟨?_, ?_⟩⟩
    · exact Op.outstanding_lendings hinside s op here hw hs
    · intro x hx
      split at hx
      · next a w' hout =>
        rw [hout] at hafter
        have hs' := hs.mono (hrun.faithful_ok hw.faithful hout).2.1
        exact Op.outstanding_allLendings hinside s rest here hafter hs' x hx
      · cases hx

end

/-- The lendings of calls, by induction on how deep they may nest. -/
theorem callLendings_outstanding (n : Nat) : (callLendings n).Outstanding := by
  -- The depth of calls is the induction; each call is its beginning and its body one level further in.
  induction n with
  | zero =>
    intro L w hw here b f args hargs
    exact List.forall_mem_singleton.mpr (hw.keeping _)
  | succ n ih =>
    intro L w hw here b f args hargs
    refine List.forall_mem_cons.mpr ⟨hw.keeping _, fun x hx => ?_⟩
    have hargs' : Known ((w.entered b f).known true) args := hargs
    have hstart := startCode_composed (b := b) f hargs'
    have hafter := (hw.entered b f).act hstart
    split at hx
    · next t w' hout =>
      rw [hout] at hafter
      obtain ⟨-, -, K, hK, hscope⟩ := hstart.faithful_ok (hw.entered b f).faithful hout
      exact Op.outstanding_allLendings ih t.scope t.body ((here.within f n).workingOn t.given)
        (hafter.keeping _) (hscope.mono hK) x hx
    · cases hx

namespace World

/-- At every lending of a session, exactly those loans are outstanding that are around it. -/
theorem Outstanding.lendings (ops : List Op) {w : World} (hw : w.Outstanding []) :
    ∀ x ∈ w.lendings ops, x.point.world.Outstanding x.loans := by
  induction ops generalizing w with
  | nil => exact List.forall_mem_singleton.mpr hw
  | cons op rest ih =>
    have hv : World.Outstanding [] { w with log := [] } :=
      hw.along w.held w.frames w.coroutines [] w.journal
    have hrun := Op.top_composed (l := .all) w.maxDepth (w.known true) (Op.within_all true op)
    refine List.forall_mem_cons.mpr ⟨hv, List.forall_mem_append.mpr ⟨?_, ?_⟩⟩
    · exact Op.outstanding_lendings (callLendings_outstanding w.maxDepth) .top op _ hv .topScope
    · refine ih ?_
      rw [step_snd]
      exact hv.act hrun

/-- **What is outstanding at any instant of a session are the loans of the borrows around it.** -/
theorem outstanding_lendings (policy : Policy) (c : Config) (layout : Ref .object → Nat)
    (ops : Program) : ∀ x ∈ (startUnder policy c layout).lendings ops,
      x.point.world.Outstanding x.loans :=
  (Outstanding.start policy c layout).lendings ops

/-! ### What comes about -/

/-- **What comes about from a world** before anything else is lent: acts are done on what is known, and
calls, coroutines and bodies are entered. -/
inductive Comes (w₀ : World) : World → Prop where
  | refl : Comes w₀ w₀
  | act {w : World} {ε α : Type} [Names ε] {b : Bool} {m : Act ε α} {Q : Set Mention → α → Prop}
      (h : Comes w₀ w) (hm : Composed .all b (w.known true) m Q) : Comes w₀ (m.outcome w).2
  | keeping {w : World} (h : Comes w₀ w) (hs : List Handle) : Comes w₀ (w.keeping hs)
  | entered {w : World} (h : Comes w₀ w) (b : Bool) (f : FunctionRef) : Comes w₀ (w.entered b f)
  | resuming {w : World} (h : Comes w₀ w) (c : CoroutineRef) : Comes w₀ (w.resuming c)

/-- **The loans stay outstanding** in all that comes about. -/
theorem Comes.outstanding {w₀ w : World} (h : w₀.Comes w) {L : List Loan} (h₀ : w₀.Outstanding L) :
    w.Outstanding L := by
  induction h with
  | refl => exact h₀
  | act _ hm ih => exact ih.act hm
  | keeping _ hs ih => exact ih.keeping hs
  | entered _ b f ih => exact ih.entered b f
  | resuming _ c ih => exact ih.resuming c

end World

end ScriptHost
