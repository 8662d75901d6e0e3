import ScriptHost.Proofs.Conversion.Faithful
import ScriptHost.Proofs.Instants.Basic

/-!
# Instants of faithful worlds

A session begins in a faithful world and leaves faithful worlds behind. It passes through faithful
worlds only, too: whatever is stored at an instant names objects that are there, under their own
classes, and what is about to be done works on such things.

Main statement: `World.faithful_instants`.
-/

set_option autoImplicit false

namespace ScriptHost

open Act

/-- A body names what it works on, a call its arguments. -/
instance : Names Task where
  named
    | .body s _ => named s
    | .call _ _ args => named args

/-- At an instant all is faithful: the world, and what is about to be done there. -/
structure Instant.Faithful (i : Instant) : Prop where
  world : i.world.Faithful
  task : Known (i.world.known true) i.task

/-- Holding more changes nothing that could be unfaithful. -/
theorem World.Faithful.keeping {w : World} (hw : w.Faithful) (hs : List Handle) :
    (w.keeping hs).Faithful :=
  hw.holding (hs ++ w.held)

/-- An act that gives something leaves a faithful world behind, in which what was known is known, and
what was promised of what it gives. -/
theorem Act.Composed.faithful_ok {ε α : Type} [Names ε] {b : Bool} {m : Act ε α}
    {Q : Set Mention → α → Prop} {w w' : World} {a : α}
    (h : Composed .all b (w.known true) m Q) (hw : w.Faithful)
    (hout : m.outcome w = (.ok a, w')) :
    w'.Faithful ∧ w.known true ⊆ w'.known true ∧ ∃ K ⊆ w'.known true, Q K a := by
  have hran := h.run true w.within_all hw.known subset_rfl
  rw [hout] at hran
  obtain ⟨K, -, hK, hQ⟩ := hran.promised
  exact ⟨⟨hran.known, hran.effects.noNil hw.noNil⟩, hran.subset, K, hK, hQ⟩

/-- The instants of the calls of a caller, which are given known arguments. -/
def CallInstants.Faithful (inside : CallInstants) : Prop :=
  ∀ {w : World}, w.Faithful → ∀ here b f args, Known (w.known true) args →
    ∀ i ∈ inside here b f args w, i.Faithful

section Calls

variable {inside : CallInstants} (hinside : inside.Faithful) {w : World} {s : Scope}
include hinside

theorem Calling.instants_faithful (hw : w.Faithful) (c : Calling)
    (hargs : Known (w.known true) c.args) (here : Site) :
    ∀ i ∈ c.instants inside here w, i.Faithful := by
  intro i hi
  cases c with
  | apply b callee args =>
    cases callee with
    | function f => exact hinside hw here b f args hargs i hi
    | _ => cases hi
  | resume c args =>
    simp only [Calling.instants] at hi
    split at hi
    -- A coroutine that is resumed gets the arguments as they are.
    · have hresuming : (w.resuming c).Faithful := ⟨{ hw.known with }, hw.noNil⟩
      exact hinside hresuming here true _ args hargs i hi
    · cases hi

/-- An action has evaluated its operands before it calls, so its call is about things that are known.
-/
theorem CallAction.instants_faithful (hw : w.Faithful) (hs : Known (w.known true) s)
    (a : CallAction) (here : Site) : ∀ i ∈ a.instants inside s here w, i.Faithful := by
  intro i hi
  unfold CallAction.instants at hi
  split at hi
  · next q w' hout =>
    -- The arguments of the call are known since they were evaluated.
    obtain ⟨hw', -, K, hK, hprepared⟩ := (CallAction.prepare_composed hs a).faithful_ok hw hout
    have hargs := (hprepared.args q rfl).mono hK
    exact Calling.instants_faithful hinside (hw'.keeping _) q.calling hargs here i hi
  · cases hi

end Calls

/-- In a faithful world an object may be lent, and is known as before. -/
theorem World.Faithful.lent {w : World} (hw : w.Faithful) (o : ObjectRef) (mutably : Bool) :
    (w.lent o mutably).Faithful ∧ w.known true ⊆ (w.lent o mutably).known true := by
  obtain ⟨hsub, hlent⟩ := hw.known.changeBorrow o (((w.object o).lend mutably).getD _)
  exact ⟨⟨hlent, hw.noNil⟩, hsub⟩

mutual

/-- The instants inside an operation, by recursion on the operation. -/
theorem Op.instants_faithful {inside : CallInstants} {n : Nat} (hinside : inside.Faithful)
    (s : Scope) :
    ∀ (op : Op) (here : Site) {w : World}, w.Faithful → Known (w.known true) s →
      ∀ i ∈ op.instants (callWithin n) inside s here w, i.Faithful
  | .act _ (.call a), here, w, hw, hs => by
    unfold Op.instants
    exact a.instants_faithful hinside hw hs here
  | .branch _ cond yes no, here, w, hw, hs => by
    have hcond := cond.eval_composed (l := .all) (b := true) hs
    unfold Op.instants
    intro i hi
    split at hi
    · next v w' hout =>
      -- What the scope knows is known after the condition as well.
      obtain ⟨hw', hsub, -⟩ := hcond.faithful_ok hw hout
      split at hi
      · exact Op.allInstants_faithful hinside s yes here hw' (hs.mono hsub) i hi
      · exact Op.allInstants_faithful hinside s no here hw' (hs.mono hsub) i hi
    · cases hi
  | .borrow _ object mutably body, here, w, hw, hs => by
    have hobject := objectOrReceiver_composed (l := .all) (b := true) hs object
    unfold Op.instants
    intro i hi
    split at hi
    · next o w' hout =>
      -- And after the operand, and when the object is lent.
      obtain ⟨hw', hsub, -⟩ := hobject.faithful_ok hw hout
      split at hi
      · obtain ⟨hlent, hsub'⟩ := (hw'.keeping (handles o)).lent o mutably
        have hs' := hs.mono (hsub.trans hsub')
        exact Op.allInstants_faithful hinside s body (here.workingOn (handles o)) hlent hs' i hi
      · cases hi
    · cases hi
  | .act _ (.value _), _, _, _, _ | .act _ (.table _), _, _, _, _ | .act _ (.error _), _, _, _, _
  | .act _ (.conversion _), _, _, _, _ | .act _ (.cls _), _, _, _, _
  | .act _ (.proxy _), _, _, _, _ | .giveScript _ _, _, _, _, _ | .giveHost _ _, _, _, _, _
  | .function .., _, _, _, _ | .hostFunction .., _, _, _, _ | .cls _ _, _, _, _, _ => by
    simp [Op.instants]

/-- The instants of a body: what an operation leaves behind is known to the rest. -/
theorem Op.allInstants_faithful {inside : CallInstants} {n : Nat} (hinside : inside.Faithful)
    (s : Scope) :
    ∀ (p : List Op) (here : Site) {w : World}, w.Faithful → Known (w.known true) s →
      ∀ i ∈ Op.allInstants (callWithin n) inside s p here w, i.Faithful
  | [], here, w, hw, hs => by
    unfold Op.allInstants
    exact List.forall_mem_singleton.mpr ⟨hw, hs⟩
  | op :: rest, here, w, hw, hs => by
    have hrun := Op.run_composed (callWithin_composed .all n) hs
      (fun h : false = true => nomatch h) op (Op.within_all false op)
    unfold Op.allInstants
    refine List.forall_mem_cons.mpr ⟨⟨hw, hs⟩, List.forall_mem_append.mpr ⟨?_, ?_⟩⟩
    · exact Op.instants_faithful hinside s op here hw hs
    · intro i hi
      split at hi
      · next a w' hout =>
        -- And when an operation is over.
        obtain ⟨hw', hsub, -⟩ := hrun.faithful_ok hw hout
        exact Op.allInstants_faithful hinside s rest here hw' (hs.mono hsub) i hi
      · cases hi

end

/-- The instants of calls, by induction on how deep they may nest. -/
theorem callInstants_faithful (n : Nat) : (callInstants n).Faithful := by
  induction n with
  | zero =>
    intro w hw here b f args hargs
    exact List.forall_mem_singleton.mpr ⟨hw.keeping _, hargs⟩
  | succ n ih =>
    intro w hw here b f args hargs
    refine List.forall_mem_cons.mpr ⟨⟨hw.keeping _, hargs⟩, fun i hi => ?_⟩
    have hentered : (w.entered b f).Faithful := ⟨{ hw.known with }, hw.noNil⟩
    have hargs' : Known ((w.entered b f).known true) args := hargs
    split at hi
    · next t w' hout =>
      -- A body works on what its code was given, or on what the function names.
      obtain ⟨hw', -, K, hK, hscope⟩ := (startCode_composed f hargs').faithful_ok hentered hout
      exact Op.allInstants_faithful ih t.scope t.body ((here.within f n).workingOn t.given)
        (hw'.keeping _) (hscope.mono hK) i hi
    · cases hi

namespace World

/-- A session goes from one faithful world to the next. -/
theorem Faithful.instants (ops : List Op) {w : World} (hw : w.Faithful) :
    ∀ i ∈ w.instants ops, i.Faithful := by
  induction ops generalizing w with
  | nil => exact List.forall_mem_singleton.mpr ⟨hw, .topScope⟩
  | cons op rest ih =>
    have hv : World.Faithful { w with log := [] } := ⟨{ hw.known with }, hw.noNil⟩
    refine List.forall_mem_cons.mpr ⟨⟨hv, .topScope⟩, List.forall_mem_append.mpr ⟨?_, ?_⟩⟩
    · exact Op.instants_faithful (callInstants_faithful w.maxDepth) .top op _ hv .topScope
    · exact ih (hw.step op)

/-- **At all instants of sessions all is faithful.** -/
theorem faithful_instants (c : Config) (layout : Ref .object → Nat) (ops : Program) :
    ∀ i ∈ (start c layout).instants ops, i.Faithful :=
  (faithful_start c layout).instants ops

end World

end ScriptHost
