import ScriptHost.Proofs.Afterlife.Program
import ScriptHost.Proofs.Instants.Basic

/-!
# Instants come one after another

Of two instants of a run the later one came after the earlier one, in the sense of `World.Since`,
also where both are inside one operation, inside one call or at different depths of calls.

`Onward` says so of a stretch of a run, the instants inside one act. It holds together what is
needed to put stretches together: every instant comes after any moment from which the act was begun
(`starts`), and the end of the act comes after every instant (`ends`). The latter is where the parts
of an act count that run after its call. They need only what was held all the time, and what was
held when the act began is held at each instant (`held`).

Main statement: `World.instants_ordered`.
-/

set_option autoImplicit false

namespace ScriptHost

open Act
open World (AllSafe)

namespace World

variable {w : World}

/-- What is safe is safe when more is held. -/
theorem Safe.keeping {x : Handle} (h : w.Safe x) (hs : List Handle) : (w.keeping hs).Safe x :=
  fun hmade hdead =>
    h hmade (hdead.anti (w.extends_holding hs).roots (w.extends_holding hs).holdings)

/-- Letting go of what is held in addition leads back to the beginning. -/
theorem since_keeping (hw : w.Closed) (hs : List Handle) : (w.keeping hs).Since w := by
  have hself : (w.keeping hs).Since (w.keeping hs) := .refl { hw with }
  exact hself.holding fun x hx => hself.held x (List.mem_append_right hs hx)

/-- What is held is not dead. -/
theorem not_dead_of_held {x : Handle} (hx : x ∈ w.held) : ¬ Dead w.roots w.holdings x := by
  rintro ⟨_, hroot, -⟩
  exact hroot (mem_roots.mpr (.inl hx))

/-- What is in a thing that is not dead is not dead. -/
theorem not_dead_of_contents {a x : Handle} (ha : ¬ Dead w.roots w.holdings a)
    (hx : x ∈ w.contents a) : ¬ Dead w.roots w.holdings x := fun hdead =>
  ha (hdead.holder (keeps_iff.mpr hx))

/-- What is held in addition is not dead any more. -/
theorem safe_of_keeping (hw : w.Closed) (hs : List Handle) : ∀ x ∈ hs, (w.keeping hs).Safe x := by
  have hself : (w.keeping hs).Since (w.keeping hs) := .refl { hw with }
  exact fun x hx => hself.held x (List.mem_append_left _ hx)

end World

/-- The scope of a body works on what the body holds. -/
def Scope.Held (w : World) (s : Scope) : Prop :=
  ∀ {w₀ : World}, (∀ h ∈ w.held, w₀.Safe h) → w₀.AllSafe s

/-- Outside of all bodies a scope works on nothing. -/
theorem Scope.held_top (w : World) : Scope.top.Held w := fun _ => .topScope

/-- What is about to be done works on what is held, and a function that is about to be called is not
dead. -/
structure Instant.Supplied (i : Instant) : Prop where
  body : ∀ s rest, i.task = .body s rest → s.Held i.world
  call : ∀ b f args, i.task = .call b f args →
    ¬ World.Dead i.world.roots i.world.holdings f.handle

/-- A body that is about to go on is supplied if its scope works on what is held. -/
theorem Instant.supplied_body {w : World} {s : Scope} (hs : s.Held w) (here : Site) (p : Program) :
    Supplied ⟨here, .body s p, w⟩ where
  body s' rest heq := by
    obtain ⟨rfl, -⟩ := Task.body.inj heq
    exact hs
  call := nofun

/-- A call that is about to be made is supplied if its function is not dead. -/
theorem Instant.supplied_call {w : World} {f : FunctionRef}
    (hf : ¬ World.Dead w.roots w.holdings f.handle) (here : Site) (b : Bool)
    (args : List ScriptValue) : Supplied ⟨here, .call b f args, w⟩ where
  body := nofun
  call b' f' args' heq := by
    obtain ⟨-, rfl, -⟩ := Task.call.inj heq
    exact hf

/-- **The instants inside an act**, which is begun in a world with `needs` in hand. What the act
gives satisfies `Q`, counted from each of its instants. -/
structure Onward {ε α : Type} [Holds ε] (m : Act ε α) (Q : World → α → Prop) (needs : List Handle)
    (w : World) (L : List Instant) : Prop where
  closed : ∀ i ∈ L, i.world.Closed
  held : ∀ i ∈ L, ∀ h ∈ w.held, h ∈ i.world.held
  supplied : ∀ i ∈ L, i.Supplied
  starts : ∀ {w₀ : World}, w₀.Since w → (∀ h ∈ needs, w₀.Safe h) → ∀ i ∈ L, w₀.Since i.world
  ends : ∀ i ∈ L, i.world.Since (m.outcome w).2 ∧ Yields i.world (Q i.world) (m.outcome w).1
  ordered : L.Pairwise fun i j => i.world.Since j.world

namespace Onward

variable {ε ε' α β : Type} [Holds ε] [Holds ε'] {Q : World → α → Prop} {Q' : World → β → Prop}
  {needs needs' : List Handle} {w w₁ : World} {L L' : List Instant}

/-- An act without instants. -/
theorem nil {m : Act ε α} : Onward m Q needs w [] where
  closed _ hi := nomatch hi
  held _ hi := nomatch hi
  supplied _ hi := nomatch hi
  starts _ _ _ hi := nomatch hi
  ends _ hi := nomatch hi
  ordered := .nil

/-- What is held at the beginning is safe at each instant. -/
theorem safe {m : Act ε α} (h : Onward m Q needs w L) {i : Instant} (hi : i ∈ L) :
    ∀ x ∈ w.held, i.world.Safe x := fun x hx =>
  (World.Since.refl (h.closed i hi)).held x (h.held i hi x hx)

/-- The instant at the beginning of an act, where something more is held already. -/
theorem cons {m : Act ε α} (hs : List Handle) (hw : w.Closed) (h : Onward m Q needs w L)
    (hneeds : ∀ x ∈ needs, (w.keeping hs).Safe x) (hhs : hs ⊆ needs)
    (hm : Sparing (w.keeping hs) m (Q (w.keeping hs))) {here : Site} {task : Task}
    (htask : Instant.Supplied ⟨here, task, w.keeping hs⟩) :
    Onward m Q needs w (⟨here, task, w.keeping hs⟩ :: L) := by
  -- The instant itself came after the world in which the act begins, and everything inside the act
  -- after the instant.
  have hback := World.since_keeping hw hs
  have hstarts {w₀ : World} (hw₀ : w₀.Since w) (hsafe : ∀ x ∈ needs, w₀.Safe x) :
      w₀.Since (w.keeping hs) := hw₀.keeping fun x hx => hsafe x (hhs hx)
  exact
    { closed := List.forall_mem_cons.mpr ⟨{ hw with }, h.closed⟩
      held := List.forall_mem_cons.mpr ⟨fun _ hx => List.mem_append_right hs hx, h.held⟩
      supplied := List.forall_mem_cons.mpr ⟨htask, h.supplied⟩
      starts := fun hw₀ hsafe =>
        List.forall_mem_cons.mpr ⟨hstarts hw₀ hsafe, h.starts hw₀ hsafe⟩
      ends := List.forall_mem_cons.mpr ⟨hm w hback, h.ends⟩
      ordered := List.pairwise_cons.mpr ⟨h.starts hback hneeds, h.ordered⟩ }

/-- **One act after another**: the instants of the first one are followed by those of the second
one. Counted from each instant of the first one, the second one revives nothing. -/
theorem append {m : Act ε α} {f : α → Act ε β} {a : α} (h : Onward m Q needs w L)
    (hout : m.outcome w = (.ok a, w₁)) (hheld : w₁.held = w.held)
    (hstart : ∀ {w₀ : World}, w₀.Since w → (∀ h ∈ needs, w₀.Safe h) →
      w₀.Since w₁ ∧ ∀ h ∈ needs', w₀.Safe h)
    (hneeds : ∀ i ∈ L, ∀ h ∈ needs', i.world.Safe h)
    (hf : ∀ i ∈ L, Q i.world a → Sparing i.world (f a) (Q' i.world))
    (h' : Onward (f a) Q' needs' w₁ L') : Onward (m >>= f) Q' needs w (L ++ L') := by
  -- The first act ends in the world in which the second one begins.
  have hafter : ∀ i ∈ L, i.world.Since w₁ ∧ Q i.world a := by
    intro i hi
    have hends := h.ends i hi
    rw [hout] at hends
    exact hends
  refine ⟨List.forall_mem_append.mpr ⟨h.closed, h'.closed⟩, ?_, ?_, ?_, ?_, ?_⟩
  · exact List.forall_mem_append.mpr ⟨h.held, fun i hi x hx => h'.held i hi x (hheld ▸ hx)⟩
  · exact List.forall_mem_append.mpr ⟨h.supplied, h'.supplied⟩
  · intro w₀ hw₀ hsafe
    obtain ⟨hw₁, hsafe'⟩ := hstart hw₀ hsafe
    exact List.forall_mem_append.mpr ⟨h.starts hw₀ hsafe, h'.starts hw₁ hsafe'⟩
  · rw [outcome_bind_ok hout]
    refine List.forall_mem_append.mpr ⟨fun i hi => ?_, h'.ends⟩
    obtain ⟨hsince, hQ⟩ := hafter i hi
    exact hf i hi hQ w₁ hsince
  · refine List.pairwise_append.mpr ⟨h.ordered, h'.ordered, fun i hi j hj => ?_⟩
    -- An instant of the first act is a moment from which the second one was begun.
    exact h'.starts (hafter i hi).1 (hneeds i hi) j hj

/-- The first of two acts has no instants. -/
theorem after {m : Act ε α} {f : α → Act ε β} {a : α} (hout : m.outcome w = (.ok a, w₁))
    (hheld : w₁.held = w.held)
    (hstart : ∀ {w₀ : World}, w₀.Since w → (∀ h ∈ needs, w₀.Safe h) →
      w₀.Since w₁ ∧ ∀ h ∈ needs', w₀.Safe h)
    (h' : Onward (f a) Q' needs' w₁ L') : Onward (m >>= f) Q' needs w L' :=
  append (Q := fun _ _ => True) nil hout hheld hstart nofun nofun h'

/-- The second of two acts has no instants. -/
theorem andThen {m : Act ε α} {f : α → Act ε β} (h : Onward m Q needs w L)
    (hf : ∀ i ∈ L, ∀ a, Q i.world a → Sparing i.world (f a) (Q' i.world)) :
    Onward (m >>= f) Q' needs w L where
  closed := h.closed
  held := h.held
  supplied := h.supplied
  starts := h.starts
  ordered := h.ordered
  ends i hi := by
    obtain ⟨hsince, hyields⟩ := h.ends i hi
    -- The second act is reached only if the first one has succeeded.
    rcases hout : m.outcome w with ⟨e | a, w₁⟩ <;> rw [hout] at hsince hyields
    · rw [outcome_bind_error hout]
      exact ⟨hsince, hyields⟩
    · rw [outcome_bind_ok hout]
      exact hf i hi a hyields w₁ hsince

/-- An act whose errors are caught has the same instants. -/
theorem attempt {m : Act ε α} (h : Onward m Q needs w L) :
    Onward (Act.attempt m : Act ε' (Except ε α)) (fun w₀ => Yields w₀ (Q w₀)) needs w L :=
  ⟨h.closed, h.held, h.supplied, h.starts, h.ends, h.ordered⟩

/-! ### Brackets -/

/-- What is held for the act is held at all its instants, and what was held before at the end. -/
theorem holding {m : Act ε α} {hs : List Handle} (h : Onward m Q needs (w.keeping hs) L)
    (hhs : hs ⊆ needs') (hneeds : needs ⊆ needs' ++ w.held) :
    Onward (Act.holding hs m) Q needs' w L where
  closed := h.closed
  held i hi x hx := h.held i hi x (List.mem_append_right hs hx)
  supplied := h.supplied
  starts hw₀ hsafe := by
    refine h.starts (hw₀.keeping fun x hx => hsafe x (hhs hx)) fun x hx => ?_
    exact (List.mem_append.mp (hneeds hx)).elim (hsafe x) (hw₀.held x)
  ordered := h.ordered
  ends i hi := by
    obtain ⟨hsince, hyields⟩ := h.ends i hi
    exact ⟨hsince.holding fun x hx => h.safe hi x (List.mem_append_right hs hx), hyields⟩

/-- Inside a frame the called function is held in addition. -/
theorem framed {m : Act ε α} {b : Bool} {f : FunctionRef} (h : Onward m Q needs (w.entered b f) L)
    (hf : f.handle ∈ needs) : Onward (Act.framed b f m) Q needs w L where
  closed := h.closed
  held := h.held
  supplied := h.supplied
  starts hw₀ hsafe := h.starts (hw₀.entered b (hsafe _ hf)) hsafe
  ordered := h.ordered
  ends i hi := by
    obtain ⟨hsince, hyields⟩ := h.ends i hi
    exact ⟨hsince.left f, hyields⟩

/-- The instants inside a borrow, which happen while the object is lent. -/
theorem whileBorrowed {m : Act ε α} {o : ObjectRef} {mutably : Bool} {fail : HostFailure → ε}
    (hlend : (w.object o).refusal? mutably .slots = none)
    (h : Onward m Q needs (w.lent o mutably) L) :
    Onward (Act.whileBorrowed o mutably fail m) Q needs w L where
  closed := h.closed
  held := h.held
  supplied := h.supplied
  starts hw₀ := h.starts (hw₀.lent o _)
  ordered := h.ordered
  ends i hi := by
    obtain ⟨hsince, hyields⟩ := h.ends i hi
    rw [outcome_whileBorrowed, hlend]
    exact ⟨hsince.lent o _, hyields⟩

/-- A coroutine that is resumed holds its function. -/
theorem resume {call : Caller} {c : CoroutineRef} {args : List ScriptValue} {x : Coroutine}
    {Q : World → List ScriptValue → Prop} (hx : w.coroutines.get? c = some x)
    (hsuspended : (w.coroutine c).status = .suspended)
    (h : Onward (call true (w.coroutine c).function args) Q
      ((w.coroutine c).function.handle :: handles args) (w.resuming c) L) :
    Onward (Act.resume call c args) Q (c.handle :: handles args) w L := by
  have hfunction : w.coroutine c = x := by rw [World.coroutine, hx, Option.getD_some]
  refine ⟨h.closed, h.held, h.supplied, fun hw₀ hneeds => ?_, fun i hi => ?_, h.ordered⟩
  · obtain ⟨hcoroutine, hargs⟩ := List.forall_mem_cons.mp hneeds
    refine h.starts (hw₀.resuming c) (List.forall_mem_cons.mpr ⟨?_, hargs⟩)
    rw [hfunction]
    exact hw₀.coroutineFunction hcoroutine hx
  · obtain ⟨hsince, hyields⟩ := h.ends i hi
    rw [outcome_resume, hsuspended]
    exact ⟨hsince.finishing c, hyields⟩

/-- What the whole of an act gives holds nothing that was dead at one of its instants. -/
abbrev Whole {ε α : Type} [Holds ε] [Holds α] (m : Act ε α) (needs : List Handle) (w : World)
    (L : List Instant) : Prop :=
  Onward m (fun w₀ => w₀.AllSafe) needs w L

/-- What an operation makes of the result of its action revives nothing. -/
theorem settle (d : Disposition) {m : Act Failure Result}
    (h : Onward m Result.Storable needs w L) : Whole (d.settle m) needs w L :=
  h.attempt.andThen fun _ _ _ hr => Sparing.settle d (.ofExcept hr)

/-- The same for an operation that gives something to its caller. -/
theorem settleGiving (d : Disposition) {m : Act Failure (Option Given)} (h : Whole m needs w L) :
    Whole (d.settleGiving m) needs w L :=
  h.attempt.andThen fun _ _ _ hr => Sparing.settleGiving d (.ofExcept hr)

end Onward

open Onward (Whole)

/-! ### Calls -/

/-- The instants of the calls of a caller. -/
def CallInstants.Onward (inside : CallInstants) (call : Caller) : Prop :=
  ∀ {w : World}, w.Closed → ∀ here b f args, ¬ World.Dead w.roots w.holdings f.handle →
    Whole (call b f args) (f.handle :: handles args) w (inside here b f args w)

section Calls

variable {inside : CallInstants} {call : Caller} (hinside : inside.Onward call) {w : World}
  {s : Scope}
include hinside

/-- The instants of a call that an operation asks for, while the callee is held. -/
theorem Calling.instants_onward (hw : w.Closed) (c : Calling) (hcallee : c.callee ⊆ w.held)
    (here : Site) :
    Whole (c.run call) (c.callee ++ handles c.args) w (c.instants inside here w) := by
  cases c with
  | apply b callee args =>
    cases callee with
    | function f =>
      have hf := World.not_dead_of_held (hcallee List.mem_cons_self)
      exact hinside hw here b f args hf
    | _ => exact .nil
  | resume c args =>
    simp only [Calling.instants]
    split
    · next hsuspended =>
      obtain ⟨x, hx, hfunction⟩ := World.coroutine_of_suspended hsuspended
      have hresuming : (w.resuming c).Closed := { hw with }
      refine .resume hx hsuspended (hinside hresuming here true _ args ?_)
      -- The coroutine is running now, and holds its function as before.
      have hrunning : (w.resuming c).coroutines.get? c = some { x with status := .running } := by
        show (w.coroutines.set c { w.coroutine c with status := .running }).get? c = _
        rw [Store.get?_set, if_pos rfl, hx, hfunction]
        rfl
      have hholds : x.function.handle ∈ (w.resuming c).contents c.handle := by
        show x.function.handle ∈ handles ((w.resuming c).coroutines.get? c)
        rw [hrunning]
        exact World.mem_handles_some.mpr List.mem_cons_self
      have hc : c.handle ∈ (w.resuming c).held := hcallee List.mem_cons_self
      rw [hfunction]
      exact World.not_dead_of_contents (World.not_dead_of_held hc) hholds
    · exact .nil

/-- **The instants of an action that calls** are those of its call. -/
theorem CallAction.instants_onward (hback : call.Restores) (hw : w.Closed) (hs : s.Held w)
    (a : CallAction) (here : Site) :
    Onward (a.run call s) Result.Storable [] w (a.instants inside s here w) := by
  unfold CallAction.instants
  split
  · next q w' hout =>
    have hheld := (CallAction.prepare_composed (Known.univ s) a).restores.held hout
    have hfit {w₀ : World} (hw₀ : w₀.Since w) : w₀.Since w' ∧ q.Fit w₀ :=
      (a.prepare_sparing (hs hw₀.held)).ok hw₀ hout
    obtain ⟨hsince, hq⟩ := hfit (.refl hw)
    have hclosed : (w'.keeping q.kept).Closed := { hsince.closed with }
    have hcallee : q.calling.callee ⊆ (w'.keeping q.kept).held := fun x hx =>
      List.mem_append_left _ (hq.supported.callee hx)
    have hcall := Calling.instants_onward hinside hclosed q.calling hcallee here
    -- What is made of the outcome needs what was kept, which was held at each instant.
    have hback' : Onward (q.carryOut call) Result.Storable (q.kept ++ handles q.calling.args) w'
        (q.calling.instants inside here (w'.keeping q.kept)) := by
      refine .andThen (.holding hcall.attempt ?_ ?_) fun i hi r hr => hq.supported.back ?_ r hr
      · exact List.subset_append_left _ _
      · intro x hx
        refine List.mem_append_left _ ((List.mem_append.mp hx).elim (fun hx => ?_) ?_)
        · exact List.mem_append_left _ (hq.supported.callee hx)
        · exact List.mem_append_right _
      · exact fun x hx => hcall.safe hi x (List.mem_append_left _ hx)
    rw [a.run_eq hback]
    refine .after hout hheld (fun hw₀ _ => ?_) hback'
    obtain ⟨hsince, hq⟩ := hfit hw₀
    exact ⟨hsince, List.forall_mem_append.mpr ⟨hq.kept, hq.args⟩⟩
  · exact .nil

end Calls

/-! ### Operations -/

mutual

/-- **The instants inside an operation**, by recursion on the operation. -/
theorem Op.instants_onward {inside : CallInstants} {n : Nat}
    (hinside : inside.Onward (callWithin n)) (s : Scope) :
    ∀ (op : Op), op.isClosed = true → ∀ (here : Site) {w : World}, w.Closed → s.Held w →
      Whole (op.run (callWithin n) s) [] w (op.instants (callWithin n) inside s here w)
  | .act d (.call a), h, here, w, hw, hs => by
    unfold Op.run Op.instants
    exact .settle d (a.instants_onward hinside (callWithin_restores n) hw hs here)
  | .branch d cond yes no, h, here, w, hw, hs => by
    obtain ⟨hyes, hno⟩ := Bool.and_eq_true_iff.mp h
    have hcond := cond.eval_composed (l := .all) (b := true) (Known.univ s)
    unfold Op.run Op.instants
    refine .settleGiving d ?_
    split
    · next v w' hout =>
      -- The condition has no instants, and the branch begins where it ends.
      have hheld := hcond.restores.held hout
      have hafter {w₀ : World} (hw₀ : w₀.Since w) : w₀.Since w' :=
        ((cond.eval_sparing (hs hw₀.held)).ok hw₀ hout).1
      have hw' := (hafter (.refl hw)).closed
      have hs' : s.Held w' := fun hsafe => hs (hheld ▸ hsafe)
      refine .after hout hheld (fun hw₀ _ => ⟨hafter hw₀, List.forall_mem_nil _⟩) ?_
      split
      · exact Op.allInstants_onward hinside s yes hyes here hw' hs'
      · exact Op.allInstants_onward hinside s no hno here hw' hs'
    · exact .nil
  | .borrow d object mutably body, h, here, w, hw, hs => by
    have hobject := objectOrReceiver_composed (l := .all) (b := true) (Known.univ s) object
    unfold Op.run Op.instants
    refine .settleGiving d ?_
    split
    · next o w' hout =>
      -- The object is held by everything in the body, and lent while it runs.
      have hheld := hobject.restores.held hout
      have hafter {w₀ : World} (hw₀ : w₀.Since w) : w₀.Since w' ∧ w₀.AllSafe o :=
        (Sparing.objectOrReceiver (hs hw₀.held) object).ok hw₀ hout
      split
      · next hlend =>
        have hw' : ((w'.keeping (handles o)).lent o mutably).Closed :=
          { (hafter (.refl hw)).1.closed with }
        have hs' : s.Held ((w'.keeping (handles o)).lent o mutably) := fun hsafe =>
          hs fun x hx => hsafe x (List.mem_append_right _ (hheld ▸ hx))
        have hbody := Op.allInstants_onward hinside s body h (here.workingOn (handles o)) hw' hs'
        refine .after hout hheld (fun hw₀ _ => hafter hw₀) ?_
        exact .holding (.whileBorrowed hlend hbody) (List.Subset.refl _) (List.nil_subset _)
      · exact .nil
    · exact .nil
  | .act _ (.value _), _, _, _, _, _ | .act _ (.table _), _, _, _, _, _
  | .act _ (.error _), _, _, _, _, _ | .act _ (.conversion _), _, _, _, _, _
  | .act _ (.cls _), _, _, _, _, _ | .act _ (.proxy _), _, _, _, _, _
  | .giveScript _ _, _, _, _, _, _ | .giveHost _ _, _, _, _, _, _ | .function .., _, _, _, _, _
  | .hostFunction .., _, _, _, _, _ | .cls _ _, _, _, _, _, _ => by
    unfold Op.instants
    exact .nil

/-- **The instants of a body**: those inside an operation come before those of the rest. -/
theorem Op.allInstants_onward {inside : CallInstants} {n : Nat}
    (hinside : inside.Onward (callWithin n)) (s : Scope) :
    ∀ (p : List Op), Op.allClosed p = true → ∀ (here : Site) {w : World}, w.Closed → s.Held w →
      Whole (Op.runAll (callWithin n) s p) [] w (Op.allInstants (callWithin n) inside s p here w)
  | [], _, here, w, hw, hs => by
    unfold Op.runAll Op.allInstants
    refine .cons [] hw .nil (List.forall_mem_nil _) (List.Subset.refl _) (.pure .none) ?_
    exact Instant.supplied_body hs here []
  | op :: rest, h, here, w, hw, hs => by
    obtain ⟨hop, hrest⟩ := Bool.and_eq_true_iff.mp h
    have hcall {w₀ : World} : (callWithin n).Sparing w₀ := callWithin_sparing n
    have hself := World.Since.refl hw
    have hbody : Sparing (w.keeping []) (Op.runAll (callWithin n) s (op :: rest))
        (w.keeping []).AllSafe :=
      Op.runAll_sparing hcall (callWithin_restores n) (hs hself.held) (op :: rest) h
    have hfirst := Op.instants_onward hinside s op hop here hw hs
    -- At each instant inside the operation the scope is held, so that the rest can be run.
    have hthen (i : Instant) (hi : i ∈ op.instants (callWithin n) inside s here w) :
        Sparing i.world (Op.runAll (callWithin n) s rest) i.world.AllSafe :=
      Op.runAll_sparing hcall (callWithin_restores n) (hs (hfirst.safe hi)) rest hrest
    unfold Op.allInstants
    refine .cons [] hw ?_ (List.forall_mem_nil _) (List.Subset.refl _) hbody
      (Instant.supplied_body hs here (op :: rest))
    unfold Op.runAll
    split
    · next a w' hout =>
      have hheld := (Op.run_restores n s op).held hout
      have hafter {w₀ : World} (hw₀ : w₀.Since w) : w₀.Since w' :=
        ((Op.run_sparing hcall (callWithin_restores n) (hs hw₀.held) op hop).ok hw₀ hout).1
      have hs' : s.Held w' := fun hsafe => hs (hheld ▸ hsafe)
      have hsecond := Op.allInstants_onward hinside s rest hrest here (hafter hself).closed hs'
      refine .append hfirst hout hheld ?_ (fun _ _ => List.forall_mem_nil _) ?_ hsecond
      · exact fun hw₀ _ => ⟨hafter hw₀, List.forall_mem_nil _⟩
      · exact fun i hi _ => hthen i hi
    · rw [List.append_nil]
      refine .andThen hfirst fun i hi r hr => ?_
      cases r with
      | give g =>
        have hgiven : i.world.AllSafe g := hr
        exact .pure (AllSafe.some_iff.mpr hgiven)
      | answer a => exact hthen i hi

end

/-! ### Calls within calls -/

/-- **The instants of the code of a function** are those of its body, which works on what it was
given. -/
theorem invokeCode_onward {n : Nat} {inside : CallInstants} (hinside : inside.Onward (callWithin n))
    {w v : World} (hw : v.Since w) (b : Bool) {f : FunctionRef} {args : List ScriptValue}
    (hneeds : ∀ x ∈ f.handle :: handles args, v.Safe x) (here : Site) :
    Whole (invokeCode (Op.runAll (callWithin n)) b f args) (f.handle :: handles args) w
      (match (startCode b f args).outcome w with
        | (.ok t, w') => Op.allInstants (callWithin n) inside t.scope t.body
          (here.workingOn t.given) (w'.keeping t.given)
        | (.error _, _) => []) := by
  rw [invokeCode_eq (Op.runAll_restores n)]
  split
  · next t w' hout =>
    -- The start of the call has no instants either. What it gives is what the body works on.
    have hheld := (startCode_composed (b := b) f (.univ args)).restores.held hout
    have hstart {w₀ : World} (hw₀ : w₀.Since w)
        (hsafe : ∀ x ∈ f.handle :: handles args, w₀.Safe x) : w₀.Since w' ∧ t.Fit w₀ := by
      obtain ⟨hfunction, hargs⟩ := List.forall_mem_cons.mp hsafe
      exact (startCode_sparing b hfunction hargs).ok hw₀ hout
    obtain ⟨hsince, ht⟩ := hstart hw hneeds
    have hclosed : (w'.keeping t.given).Closed := { hsince.closed with }
    have hscope : t.scope.Held (w'.keeping t.given) := fun hsafe =>
      (ht.supported fun x hx => hsafe x (List.mem_append_left _ hx)).1
    have hbody := Op.allInstants_onward hinside t.scope t.body ht.body
      (here.workingOn t.given) hclosed hscope
    refine .after hout hheld (fun hw₀ hsafe => ?_)
      (.andThen (.holding hbody.attempt (List.Subset.refl _) (List.nil_subset _)) ?_)
    · obtain ⟨hsince, ht⟩ := hstart hw₀ hsafe
      exact ⟨hsince, ht.given⟩
    · -- What the body was given was held at each of its instants.
      intro i hi r hr
      exact (ht.supported fun x hx => hbody.safe hi x (List.mem_append_left _ hx)).2 r hr
  · exact .nil

/-- **The instants of calls**, by induction on how deep they may nest. -/
theorem callInstants_onward (n : Nat) : (callInstants n).Onward (callWithin n) := by
  -- When a call is about to begin, its function and its arguments are in hand.
  have hneeds {w : World} (hw : w.Closed) {f : FunctionRef}
      (hf : ¬ World.Dead w.roots w.holdings f.handle) (args : List ScriptValue) :
      ∀ x ∈ f.handle :: handles args, (w.keeping (handles args)).Safe x := by
    have hsafe : w.Safe f.handle := fun _ => hf
    exact List.forall_mem_cons.mpr ⟨hsafe.keeping _, World.safe_of_keeping hw _⟩
  have hcalled {w : World} {f : FunctionRef} (hf : ¬ World.Dead w.roots w.holdings f.handle)
      (args : List ScriptValue) (here : Site) (b : Bool) :
      Instant.Supplied ⟨here, .call b f args, w.keeping (handles args)⟩ := by
    have hmore := w.extends_holding (handles args)
    refine Instant.supplied_call (fun hdead => ?_) here b args
    exact hf (hdead.anti hmore.roots hmore.holdings)
  induction n with
  | zero =>
    intro w hw here b f args hf
    exact .cons _ hw .nil (hneeds hw hf args) (List.subset_cons_self _ _) (.runtimeError _)
      (hcalled hf args _ b)
  | succ n ih =>
    intro w hw here b f args hf
    have hgiven := hneeds hw hf args
    obtain ⟨hfunction, hargs⟩ := List.forall_mem_cons.mp hgiven
    have hentered := (World.since_keeping hw (handles args)).entered b hfunction
    have hcode := invokeCode_onward ih hentered b hgiven (here.within f n)
    exact .cons _ hw (hcode.framed List.mem_cons_self) hgiven (List.subset_cons_self _ _)
      (callWithin_sparing (n + 1) b f args hfunction hargs) (hcalled hf args _ b)

/-! ### Sessions -/

/-- **Of two instants of a session the later one came after the earlier one.** -/
theorem World.instants_ordered (ops : List Op) (hops : Op.allClosed ops = true) {w : World}
    (hw : w.Closed) :
    (∀ {w₀ : World}, w₀.Since w → ∀ i ∈ w.instants ops, w₀.Since i.world) ∧
      (∀ i ∈ w.instants ops, i.Supplied) ∧
        (w.instants ops).Pairwise fun i j => i.world.Since j.world := by
  induction ops generalizing w with
  | nil =>
    exact ⟨fun hw₀ => List.forall_mem_singleton.mpr hw₀,
      List.forall_mem_singleton.mpr (Instant.supplied_body (Scope.held_top w) _ _),
      List.pairwise_singleton _ _⟩
  | cons op rest ih =>
    obtain ⟨hop, hrest⟩ := Bool.and_eq_true_iff.mp hops
    have hv : World.Closed { w with log := [] } := { hw with }
    have hself := World.Since.refl hv
    have hfirst := Op.instants_onward (callInstants_onward w.maxDepth) .top op hop
      (.top { w with log := [] }) hv (Scope.held_top _)
    have hstep {w₀ : World} (hw₀ : w₀.Since { w with log := [] }) : w₀.Since (w.step op).2 := by
      rw [World.step_snd]
      exact (Op.run_sparing (callWithin_sparing _) (callWithin_restores _) .topScope op hop _ hw₀).1
    obtain ⟨hstarts, hsupplied, hordered⟩ := ih hrest (hstep hself).closed
    have hall {w₀ : World} (hw₀ : w₀.Since { w with log := [] }) :
        ∀ i ∈ Op.instants (callWithin w.maxDepth) (callInstants w.maxDepth) .top op
          (.top { w with log := [] }) { w with log := [] } ++ (w.step op).2.instants rest,
        w₀.Since i.world :=
      List.forall_mem_append.mpr
        ⟨hfirst.starts hw₀ (List.forall_mem_nil _), hstarts (hstep hw₀)⟩
    refine ⟨fun {w₀} hw₀ => ?_, ?_, List.pairwise_cons.mpr ⟨hall hself, ?_⟩⟩
    · have hcleared : w₀.Since { w with log := [] } := hw₀.noted rfl rfl rfl rfl rfl rfl rfl rfl
      exact List.forall_mem_cons.mpr ⟨hcleared, hall hcleared⟩
    · refine List.forall_mem_cons.mpr ⟨?_, List.forall_mem_append.mpr ⟨hfirst.supplied, hsupplied⟩⟩
      exact Instant.supplied_body (Scope.held_top _) _ _
    · refine List.pairwise_append.mpr ⟨hfirst.ordered, hordered, fun i hi j hj => ?_⟩
      -- Whatever was under way inside the operation ends before the next one begins.
      refine hstarts ?_ j hj
      rw [World.step_snd]
      exact (hfirst.ends i hi).1

end ScriptHost
