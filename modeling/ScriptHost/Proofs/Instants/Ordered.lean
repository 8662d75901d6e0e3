import ScriptHost.Proofs.EntryPoints
import ScriptHost.Proofs.Instants.Basic

/-!
# What passes on from instant to instant

`Lasting` is about one world at a time. Here two instants of a run are compared: a relation that every
change of the world respects, those that begin something and those that end it (`Passing`), leads from
each instant of a session to all later ones, also where the earlier one is deep inside a call that is
over at the later one.

The instants inside an act are a `Stretch` between the world before it and the world after it.
Stretches are put together end to end (`Stretch.append`), and so the recursion that defines the instants
is all there is to do. An act is split at its call or its body, as in `CallAction.run_eq` and
`invokeCode_eq`; what it does afterwards is composed, whatever came of the call.

Stretches also keep track of the state of the bodies. A body runs with the state that the innermost call
around it was begun with (`Scope.Placed`), so the journal tells the state in which script or host code
finds itself.

Main statement: `Passing.instants`.
-/

set_option autoImplicit false

namespace ScriptHost

open Act

/-- Every change of the world respects the relation, and so does every way to begin something or to
end it. -/
structure Passing (R : World → World → Prop) : Prop where
  refl : ∀ w, R w w
  trans : ∀ {u v w}, R u v → R v w → R u w
  effects : ∀ {b w w'}, Effects .all b w w' → R w w'
  held : ∀ w hs, R w { w with held := hs }
  cleared : ∀ w, R w { w with log := [] }
  entered : ∀ w b f, R w (w.entered b f)
  left : ∀ w f, R w (w.left f)
  resuming : ∀ w c, (w.coroutine c).status = .suspended → R w (w.resuming c)
  finishing : ∀ w c, R w (w.finishing c)
  borrowed : ∀ (w : World) (o : ObjectRef) s,
    R w { w with objects := w.objects.set o.ref { w.object o with borrow := s } }

/-- Acts that are composed of the operations respect the relation. -/
theorem Passing.outcome {ε α : Type} [Names ε] {R : World → World → Prop} {m : Act ε α} {b : Bool}
    {K : Set Mention} {Q : Set Mention → α → Prop} (hR : Passing R) (hm : Composed .all b K m Q)
    (w : World) : R w (m.outcome w).2 :=
  hR.effects (hm.effects w.within_all).1

/-- From the middle of two acts to their end. -/
theorem Passing.outcome_bind {ε α β : Type} [Names ε] {R : World → World → Prop} {m : Act ε α}
    {f : α → Act ε β} {b : Bool} {Q : Set Mention → β → Prop} (hR : Passing R)
    (hf : ∀ a, Composed .all b Set.univ (f a) Q) (w : World) :
    R (m.outcome w).2 ((m >>= f).outcome w).2 := by
  rcases hout : m.outcome w with ⟨e | a, w₁⟩
  · rw [outcome_bind_error hout]
    exact hR.refl w₁
  · rw [outcome_bind_ok hout]
    exact hR.outcome (hf a) w₁

/-- The body runs in the state that the innermost call around it gave to its code. -/
def Scope.Placed (s : Scope) (w : World) : Prop :=
  s.inCoroutine = Journal.inside (Journal.ongoing w.journal)

/-- No change moves a body to another place. -/
theorem Scope.Placed.effects {s : Scope} {w w' : World} {b : Bool} (h : s.Placed w)
    (heff : Effects .all b w w') : s.Placed w' :=
  h.trans (congrArg Journal.inside heff.ongoing_eq).symm

/-- So does whoever goes on when an act is over. -/
theorem Scope.Placed.outcome {ε α : Type} [Names ε] {s : Scope} {w w' : World} {m : Act ε α} {b : Bool}
    {K : Set Mention} {Q : Set Mention → α → Prop} {r : Except ε α} (h : s.Placed w)
    (hm : Composed .all b K m Q) (hout : m.outcome w = (r, w')) : s.Placed w' := by
  have hafter := h.effects (hm.effects w.within_all).1
  rwa [hout] at hafter

/-- The world that is left when what is about to be done at an instant is done. A call is made before
its arguments are kept for it. -/
inductive Instant.Leaves : Instant → World → Prop where
  | operation (here : Site) (s : Scope) (op : Op) (rest : Program) (w : World) :
      Leaves ⟨here, .body s (op :: rest), w⟩ ((op.run (callWithin here.left) s).outcome w).2
  | call (here : Site) (b : Bool) (f : FunctionRef) (args : List ScriptValue) (w : World) :
      Leaves ⟨here, .call b f args, w.keeping (handles args)⟩
        ((callWithin here.left b f args).outcome w).2

/-- What is held in addition can be told from the rest, so it can be taken away again. -/
theorem World.keeping_injective (hs : List Handle) :
    Function.Injective fun w : World => w.keeping hs := by
  rintro ⟨⟩ ⟨⟩ h
  simpa [World.keeping] using h

namespace Instant.Leaves

variable {here : Site} {w v : World}

/-- After an operation its outcome is left. -/
theorem of_operation {s : Scope} {op : Op} {rest : Program}
    (h : Leaves ⟨here, .body s (op :: rest), w⟩ v) :
    v = ((op.run (callWithin here.left) s).outcome w).2 := by
  cases h
  rfl

/-- After a call the outcome of the call is left, in the world before its arguments were kept. -/
theorem of_call {b : Bool} {f : FunctionRef} {args : List ScriptValue}
    (h : Leaves ⟨here, .call b f args, w.keeping (handles args)⟩ v) :
    v = ((callWithin here.left b f args).outcome w).2 := by
  generalize hkept : w.keeping (handles args) = w' at h
  cases h with
  | call _ _ _ _ w₁ => rw [World.keeping_injective _ hkept]

end Instant.Leaves

/-- **The instants between two worlds.** -/
structure Stretch (R : World → World → Prop) (w w' : World) (L : List Instant) : Prop where
  whole : R w w'
  starts : ∀ i ∈ L, R w i.world
  ends : ∀ i ∈ L, R i.world w'
  done : ∀ i ∈ L, ∀ v, i.Leaves v → R v w'
  ordered : L.Pairwise fun i j => R i.world j.world
  placed : ∀ i ∈ L, ∀ s rest, i.task = .body s rest → s.Placed i.world

namespace Stretch

variable {R : World → World → Prop} {w v w' : World} {L L' : List Instant}

/-- A stretch without instants. -/
theorem nil (h : R w w') : Stretch R w w' [] where
  whole := h
  starts _ hi := nomatch hi
  ends _ hi := nomatch hi
  done _ hi := nomatch hi
  ordered := .nil
  placed _ hi := nomatch hi

/-- **One stretch after another**: what was before the middle comes before what is after it. -/
theorem append (hR : Passing R) (h : Stretch R w v L) (h' : Stretch R v w' L') :
    Stretch R w w' (L ++ L') where
  whole := hR.trans h.whole h'.whole
  starts := List.forall_mem_append.mpr
    ⟨h.starts, fun j hj => hR.trans h.whole (h'.starts j hj)⟩
  ends := List.forall_mem_append.mpr
    ⟨fun i hi => hR.trans (h.ends i hi) h'.whole, h'.ends⟩
  done := List.forall_mem_append.mpr
    ⟨fun i hi v hv => hR.trans (h.done i hi v hv) h'.whole, h'.done⟩
  ordered := List.pairwise_append.mpr ⟨h.ordered, h'.ordered, fun i hi j hj =>
    hR.trans (h.ends i hi) (h'.starts j hj)⟩
  placed := List.forall_mem_append.mpr ⟨h.placed, h'.placed⟩

/-- Something happens before the first instant. -/
theorem before (hR : Passing R) (h : R w v) (h' : Stretch R v w' L) : Stretch R w w' L :=
  append hR (nil h) h'

/-- One more instant at the beginning, where more may be held than before and afterwards. -/
theorem cons (hR : Passing R) (here : Site) (task : Task) (hs : List Handle)
    (hplaced : ∀ s rest, task = .body s rest → s.Placed w)
    (hdone : ∀ v, Instant.Leaves ⟨here, task, w.keeping hs⟩ v → R v w') (h : Stretch R w w' L) :
    Stretch R w w' (⟨here, task, w.keeping hs⟩ :: L) where
  whole := h.whole
  starts := List.forall_mem_cons.mpr ⟨hR.held w _, h.starts⟩
  ends := List.forall_mem_cons.mpr ⟨hR.trans (hR.held (w.keeping hs) w.held) h.whole, h.ends⟩
  done := List.forall_mem_cons.mpr ⟨hdone, h.done⟩
  ordered := List.pairwise_cons.mpr
    ⟨fun j hj => hR.trans (hR.held (w.keeping hs) w.held) (h.starts j hj), h.ordered⟩
  placed := List.forall_mem_cons.mpr ⟨hplaced, h.placed⟩

/-- Something happens after the last one. -/
theorem after (hR : Passing R) (h : Stretch R w v L) (h' : R v w') : Stretch R w w' L := by
  have happend := append hR h (nil h')
  rwa [List.append_nil] at happend

/-! ### Brackets -/

variable {ε α β : Type} {b : Bool}

/-- What is held for the act is held at its instants. -/
theorem holding {m : Act ε α} {hs : List Handle} (hR : Passing R)
    (h : Stretch R (w.keeping hs) (m.outcome (w.keeping hs)).2 L) :
    Stretch R w ((Act.holding hs m).outcome w).2 L :=
  (before hR (hR.held w _) h).after hR (hR.held _ w.held)

/-- The instants inside a frame. -/
theorem framed {m : Act ε α} {f : FunctionRef} (hR : Passing R)
    (h : Stretch R (w.entered b f) (m.outcome (w.entered b f)).2 L) :
    Stretch R w ((Act.framed b f m).outcome w).2 L :=
  (before hR (hR.entered w b f) h).after hR (hR.left _ f)

/-- The instants inside a borrow that is granted. -/
theorem whileBorrowed {m : Act ε α} {o : ObjectRef} {mutably : Bool} {fail : HostFailure → ε}
    (hR : Passing R) (hlend : (w.object o).refusal? mutably .slots = none)
    (h : Stretch R (w.lent o mutably) (m.outcome (w.lent o mutably)).2 L) :
    Stretch R w ((Act.whileBorrowed o mutably fail m).outcome w).2 L := by
  rw [outcome_whileBorrowed, hlend]
  exact (before hR (hR.borrowed w o _) h).after hR (hR.borrowed _ o _)

/-! ### One act after another -/

variable [Names ε] {K : Set Mention}

/-- An act without instants. -/
theorem quiet {m : Act ε α} {Q : Set Mention → α → Prop} (hR : Passing R)
    (hm : Composed .all b K m Q) (w : World) : Stretch R w (m.outcome w).2 [] :=
  nil (hR.outcome hm w)

/-- The first of two acts has no instants. -/
theorem next {m : Act ε α} {f : α → Act ε β} {a : α} {Q : Set Mention → α → Prop} (hR : Passing R)
    (hm : Composed .all b K m Q) (hout : m.outcome w = (.ok a, v))
    (h : Stretch R v ((f a).outcome v).2 L) : Stretch R w ((m >>= f).outcome w).2 L := by
  have hfirst := hR.outcome hm w
  rw [hout] at hfirst
  rw [outcome_bind_ok hout]
  exact .before hR hfirst h

/-- The second of two acts has no instants. -/
theorem andThen {m : Act ε α} {f : α → Act ε β} {Q : Set Mention → β → Prop} (hR : Passing R)
    (h : Stretch R w (m.outcome w).2 L) (hf : ∀ a, Composed .all b Set.univ (f a) Q) :
    Stretch R w ((m >>= f).outcome w).2 L :=
  h.after hR (hR.outcome_bind hf w)

end Stretch

/-! ### What is done with an outcome -/

/-- Whatever the act gives satisfies `P`. -/
def Act.Gives {ε α : Type} (m : Act ε α) (P : α → Prop) : Prop :=
  ∀ w a w', m.outcome w = (.ok a, w') → P a

namespace Act.Gives

variable {ε α β : Type} {P : β → Prop}

/-- An act that gives something at once. -/
theorem pure {b : β} (h : P b) : Gives (pure b : Act ε β) P := by
  intro w a w' hout
  cases hout
  exact h

/-- What a sequence of acts gives is given by the last one. -/
theorem bind {m : Act ε α} {f : α → Act ε β} (h : ∀ a, Gives (f a) P) : Gives (m >>= f) P := by
  intro w b w' hout
  obtain ⟨a, w₁, -, hf⟩ := outcome_bind_eq_ok hout
  exact h a w₁ b w' hf

end Act.Gives

/-- What is made of the outcome of a call is composed, whatever the outcome is. -/
def Request.Back (q : Request) : Prop :=
  ∀ r, Composed .all true Set.univ (q.back r) (Result.Within .all)

/-- The body runs in the state of its call, and what is made of its outcome is composed. -/
structure Start.Back (inCoroutine : Bool) (t : Start) : Prop where
  state : t.scope.inCoroutine = inCoroutine
  finish : ∀ r, Composed .all true Set.univ (t.finish r) Known

/-- Of what nothing is asked, everything is as promised. -/
theorem promised_univ {ε α : Type} [Names ε] [Names α] (r : Except ε α) :
    Promised Known Set.univ r := by
  cases r with
  | ok a => exact .univ a
  | error e => exact .univ e

/-- Where everything is known, all outcomes are. -/
theorem ofExcept_composed {ε α : Type} [Names ε] [Names α] {b : Bool} (r : Except ε α) :
    Composed .all b Set.univ (Act.ofExcept r) Known :=
  .ofExcept (promised_univ r)

namespace CallAction

variable {s : Scope}

/-- A call of a script function comes back as its results or as its error. -/
theorem back_script (c : Calling) (kept hs : List Handle) :
    Request.Back ⟨c, kept, scriptBack hs⟩ := fun r =>
  .holding hs ((throwing_composed (ofExcept_composed r)).bind fun _ _ hvs =>
    replyScripts_composed hvs)

/-- A call of the host comes back as a failure of the host instead. -/
theorem back_host (b : Bool) (callee : ScriptValue) (args : List ScriptValue) :
    (hostRequest b callee args).Back := fun r =>
  .holding _ ((failing_composed (catching_composed (ofExcept_composed r))).bind fun _ _ hvs =>
    replyScripts_composed hvs)

/-- So does a call of a global function. -/
theorem back_global (b : Bool) (callee : ScriptValue) (args : List ScriptValue) :
    (globalRequest b callee args).Back := fun r =>
  (Composed.holding _ (failing_composed (catching_composed (ofExcept_composed r)))).bind
    fun _ _ hvs => replyScripts_composed hvs

/-- **What an action asks for**: it gets along with every outcome of its call. -/
theorem prepare_back (a : CallAction) :
    (a.prepare s).Gives fun x => ∀ q, x = .inl q → q.Back := by
  have hgive {q : Request} (h : q.Back) :
      Act.Gives (ε := Failure) (pure (.inl q)) fun x : Request ⊕ Result =>
        ∀ q, x = .inl q → q.Back :=
    .pure fun q' hq => Sum.inl.inj hq ▸ h
  -- In each case the operands come first, and the request is what is given in the end.
  cases a with
  | call callee args => exact .bind fun f => .bind fun vs => hgive (back_script _ _ _)
  | invoke target key args =>
    exact .bind fun t => .bind fun k => .bind fun vs => .bind fun f => hgive (back_script _ _ _)
  | resume name args => exact .bind fun c => .bind fun vs => hgive (back_script _ _ _)
  | bridgeCall callee args =>
    exact .bind fun f => .bind fun vs => .bind fun via => .bind fun vs => hgive (back_host _ _ _)
  | bridgeCallGlobal name args =>
    exact .bind fun vs => .bind fun via => .bind fun f => .bind fun vs => hgive (back_global _ _ _)
  | callFunction callee args =>
    exact .bind fun f => .bind fun vs => .bind fun via => .bind fun vs => hgive (back_host _ _ _)
  | callGlobal name args =>
    exact .bind fun vs => .bind fun via => .bind fun f => .bind fun vs => hgive (back_global _ _ _)
  | _ => exact .bind fun r => .pure nofun

end CallAction

/-- What is done with the outcome of a body of the host makes no calls. -/
theorem finishHostBody_composed (via : BindingRef) (hs : List Handle)
    (r : Except Failure (Option Given)) :
    Composed .all true Set.univ (finishHostBody via hs r) Known :=
  (raising_composed (.holding hs (intoHost_composed (ofExcept_composed r)))).bind fun _ _ hg =>
    toScriptAll_composed via hg.givenHost

/-- **What a function starts**: a body in the state of the call. -/
theorem startCode_back (b : Bool) (f : FunctionRef) (args : List ScriptValue) :
    (startCode b f args).Gives (Start.Back b) := by
  refine .bind fun fn => ?_
  split
  · refine .pure ⟨rfl, fun r => ?_⟩
    exact (Composed.holding _ (intoScript_composed (ofExcept_composed r))).bind fun _ _ hg =>
      .pure _ hg.givenScript
  · exact .bind fun hostArgs => .pure ⟨rfl, fun r => finishHostBody_composed _ _ r⟩
  · exact .bind fun t => .bind fun p =>
      .pure ⟨rfl, fun r => .holding _ (finishHostBody_composed _ _ r)⟩

/-! ### Calls -/

/-- The instants of the calls of a caller are stretches. -/
def CallInstants.Stretches (R : World → World → Prop) (inside : CallInstants) (call : Caller) : Prop :=
  ∀ here b f args w, Stretch R w ((call b f args).outcome w).2 (inside here b f args w)

section Calls

variable {R : World → World → Prop} (hR : Passing R) {inside : CallInstants} {call : Caller}
  (hinside : inside.Stretches R call)
include hR hinside

/-- A call that is made passes over its instants. -/
theorem Calling.stretch (c : Calling) (here : Site) (w : World) :
    Stretch R w ((c.run call).outcome w).2 (c.instants inside here w) := by
  cases c with
  | apply b callee args =>
    cases callee with
    | function f => exact hinside here b f args w
    | _ => exact .nil (hR.refl w)
  | resume c args =>
    show Stretch R w ((Act.resume call c args).outcome w).2 _
    rw [outcome_resume]
    cases hstatus : (w.coroutine c).status with
    | suspended =>
      -- The coroutine is entered before the call and finished after it.
      have hcall := hinside here true (w.coroutine c).function args (w.resuming c)
      simp only [Calling.instants, hstatus]
      exact (Stretch.before hR (hR.resuming w c hstatus) hcall).after hR (hR.finishing _ c)
    | _ =>
      simp only [Calling.instants, hstatus]
      exact .nil (hR.refl w)

/-- An action passes over the instants of its call: before them there are the operands, and after them
the results. -/
theorem CallAction.stretch (hcall : call.IsComposed .all) (hback : call.Restores) {s : Scope}
    (a : CallAction) (here : Site) (w : World) :
    Stretch R w ((a.run call s).outcome w).2 (a.instants inside s here w) := by
  unfold CallAction.instants
  split
  · next q w' hout =>
    have hq : q.Back := a.prepare_back w _ w' hout q rfl
    have hcarried := Calling.stretch hR hinside q.calling here (w'.keeping q.kept)
    rw [a.run_eq hback]
    refine .next hR (a.prepare_composed (Known.univ s)) hout ?_
    exact .andThen hR (.holding (m := attempt _) hR hcarried) hq
  · exact .quiet hR (a.run_composed hcall (Known.univ s) (License.all_admits false _)
      (absurd · Bool.false_ne_true)) w

end Calls

/-! ### Operations -/

/-- A body that begins where it was placed. -/
theorem Task.placed {s : Scope} {w : World} {p : Program} (hs : s.Placed w) :
    ∀ s' rest, Task.body s p = .body s' rest → s'.Placed w := by
  intro s' rest heq
  obtain ⟨rfl, -⟩ := Task.body.inj heq
  exact hs

/-- A license that allows everything allows everything that can be stored. -/
theorem Stored.within_all (v : Stored) : v.Within .all := by
  cases v with
  | hostFunction f => exact Op.allWithin_all true f.body
  | _ => trivial

/-- What a body does is composed, wherever it runs. -/
theorem Op.run_composed_univ {call : Caller} (hcall : call.IsComposed .all) (s : Scope) (op : Op) :
    Composed .all s.inCoroutine Set.univ (op.run call s) Known :=
  Op.run_composed hcall (.univ s) (absurd · Bool.false_ne_true) op (Op.within_all false op)

/-- A program makes no other changes than those that there are. -/
theorem Op.runAll_composed_univ {call : Caller} (hcall : call.IsComposed .all) (s : Scope)
    (p : List Op) : Composed .all s.inCoroutine Set.univ (Op.runAll call s p) Known :=
  Op.runAll_composed hcall (.univ s) (absurd · Bool.false_ne_true) p (Op.allWithin_all false p)

section Operations

variable {R : World → World → Prop} (hR : Passing R) {w : World} {L : List Instant}
include hR

/-- What becomes of the outcome of an operation adds no instants. -/
theorem Stretch.settle (d : Disposition) {m : Act Failure Result}
    (h : Stretch R w (m.outcome w).2 L) : Stretch R w ((d.settle m).outcome w).2 L := by
  have hstored (r : Except Failure Result) : Promised (Result.Within .all) Set.univ r := by
    cases r with
    | ok r => exact fun v _ => ⟨v.within_all, .univ v⟩
    | error e => exact .univ e
  exact .andThen (m := attempt m) hR h fun r => d.settle_composed (b := true) (.ofExcept (hstored r))

/-- What an operation makes of its result comes after its instants. -/
theorem Stretch.settleGiving (d : Disposition) {m : Act Failure (Option Given)}
    (h : Stretch R w (m.outcome w).2 L) : Stretch R w ((d.settleGiving m).outcome w).2 L :=
  .andThen (m := attempt m) hR h fun r =>
    d.settleGiving_composed (b := true) (ofExcept_composed r)

variable {n : Nat} {inside : CallInstants}

mutual

/-- **The instants inside an operation**, by recursion on the operation. -/
theorem Op.stretch (hinside : inside.Stretches R (callWithin n)) (s : Scope) :
    ∀ (op : Op) (here : Site) {w : World}, here.left = n → s.Placed w →
    Stretch R w ((op.run (callWithin n) s).outcome w).2 (op.instants (callWithin n) inside s here w)
  | .act d (.call a), here, w, hn, hs => by
    unfold Op.run Op.instants
    exact .settle hR d
      (a.stretch hR hinside (callWithin_composed .all n) (callWithin_restores n) here w)
  | .branch d cond yes no, here, w, hn, hs => by
    have hcond := cond.eval_composed (l := .all) (b := true) (Known.univ s)
    unfold Op.instants
    split
    · next v w' hout =>
      -- The condition is over when the body begins, and it has no instants.
      have hs' : s.Placed w' := hs.outcome hcond hout
      unfold Op.run
      refine .settleGiving hR d (.next hR hcond hout ?_)
      split
      · exact Op.stretchAll hinside s yes here hn hs'
      · exact Op.stretchAll hinside s no here hn hs'
    · exact Stretch.quiet hR (Op.run_composed_univ (callWithin_composed .all n) s _) w
  | .borrow d object mutably body, here, w, hn, hs => by
    have hobject := objectOrReceiver_composed (l := .all) (b := true) (Known.univ s) object
    unfold Op.instants
    split
    · next o w' hout =>
      have hs' : s.Placed w' := hs.outcome hobject hout
      split
      · next hlend =>
        unfold Op.run
        refine .settleGiving hR d (.next hR hobject hout ?_)
        exact .holding hR (.whileBorrowed hR hlend (Op.stretchAll hinside s body _ hn hs'))
      · exact Stretch.quiet hR (Op.run_composed_univ (callWithin_composed .all n) s _) w
    · exact Stretch.quiet hR (Op.run_composed_univ (callWithin_composed .all n) s _) w
  | .act _ (.value _), _, _, _, _ | .act _ (.table _), _, _, _, _ | .act _ (.error _), _, _, _, _
  | .act _ (.conversion _), _, _, _, _ | .act _ (.cls _), _, _, _, _
  | .act _ (.proxy _), _, _, _, _ | .giveScript _ _, _, _, _, _ | .giveHost _ _, _, _, _, _
  | .function .., _, _, _, _ | .hostFunction .., _, _, _, _ | .cls _ _, _, _, _, _ => by
    unfold Op.instants
    exact Stretch.quiet hR (Op.run_composed_univ (callWithin_composed .all n) s _) _

/-- **The instants of a body**: those inside an operation come before those of the rest. -/
theorem Op.stretchAll (hinside : inside.Stretches R (callWithin n)) (s : Scope) :
    ∀ (p : List Op) (here : Site) {w : World}, here.left = n → s.Placed w →
    Stretch R w ((Op.runAll (callWithin n) s p).outcome w).2
      (Op.allInstants (callWithin n) inside s p here w)
  | [], here, w, hn, hs => by
    unfold Op.runAll Op.allInstants
    exact .cons hR here _ [] (Task.placed hs) nofun (.nil (hR.refl w))
  | op :: rest, here, w, hn, hs => by
    have hfirst := Op.stretch hinside s op here hn hs
    -- Whether the body goes on depends on the operation, and both ways are composed.
    have hrest (r : Outcome) : Composed .all s.inCoroutine Set.univ
        (match r with
          | .give g => pure (some g)
          | .answer _ => Op.runAll (callWithin n) s rest : Act Failure (Option Given)) Known := by
      cases r with
      | give g => exact .pure _ (Known.univ _)
      | answer a => exact Op.runAll_composed_univ (callWithin_composed .all n) s rest
    unfold Op.allInstants Op.runAll
    refine .cons hR here _ [] (Task.placed hs) (fun v hv => ?_) ?_
    -- An operation that is done is followed by the rest of the body.
    · rw [hv.of_operation, hn]
      exact hR.outcome_bind hrest w
    split
    · next a w' hout =>
      rw [outcome_bind_ok hout]
      rw [hout] at hfirst
      have hs' : s.Placed w' :=
        hs.outcome (Op.run_composed_univ (callWithin_composed .all n) s op) hout
      exact hfirst.append hR (Op.stretchAll hinside s rest here hn hs')
    · rw [List.append_nil]
      exact .andThen hR hfirst hrest

end

end Operations

/-! ### Calls within calls -/

/-- The scope of a body that is started runs in the state of the call that was entered for it. -/
theorem Start.placed {b : Bool} {f : FunctionRef} {args : List ScriptValue} {t : Start} {w w' : World}
    (hout : (startCode b f args).outcome (w.entered b f) = (.ok t, w')) : t.scope.Placed w' := by
  have hstate := (startCode_back b f args _ t w' hout).state
  have heff := ((startCode_composed (b := b) f (.univ args)).effects (w.entered b f).within_all).1
  rw [hout] at heff
  calc t.scope.inCoroutine
    _ = b := hstate
    _ = Journal.inside (Journal.ongoing (w.entered b f).journal) := rfl
    _ = Journal.inside (Journal.ongoing w'.journal) := congrArg _ heff.ongoing_eq.symm

/-- **The instants of calls are stretches**, by induction on how deep calls may nest. -/
theorem callInstants_stretches {R : World → World → Prop} (hR : Passing R) (n : Nat) :
    (callInstants n).Stretches R (callWithin n) := by
  induction n with
  | zero =>
    intro here b f args w
    -- The stack overflows, and the call changes nothing.
    refine .cons hR _ _ _ nofun (fun v hv => ?_) (.nil (hR.refl w))
    rw [hv.of_call]
    exact hR.refl w
  | succ n ih =>
    have hcall : (callWithin n).IsComposed .all := callWithin_composed .all n
    have hrun : Runner.Restores (Op.runAll (callWithin n)) := fun s p =>
      (Op.runAll_composed_univ hcall s p).restores
    intro here b f args w
    refine .cons hR _ _ _ nofun (fun v hv => ?_) (.framed hR ?_)
    -- What the call leaves is what its frame leaves in the end.
    · rw [hv.of_call]
      exact hR.refl _
    split
    · next t w' hout =>
      -- The body passes over its own instants, by induction. The start comes before them and the
      -- results after them.
      have hback := startCode_back b f args _ t w' hout
      have hplaced : t.scope.Placed (w'.keeping t.given) := (Start.placed hout).trans rfl
      have hbody := Op.stretchAll hR ih t.scope t.body ((here.within f n).workingOn t.given) rfl
        hplaced
      rw [invokeCode_eq hrun]
      refine .next hR (startCode_composed (b := b) f (.univ args)) hout ?_
      exact .andThen hR (.holding (m := attempt _) hR hbody) hback.finish
    -- The call fails before its body begins.
    · have hcode : Composed .all b Set.univ
          (invokeCode (Op.runAll (callWithin n)) b f args) Known :=
        invokeCode_composed (fun s host p hp hs hk => Op.runAll_composed hcall hk hs p hp) f
          (.univ args)
      exact .quiet hR hcode _

/-! ### Sessions -/

/-- **The instants of a session are a stretch** from its beginning to its end, if nothing is going on
at the beginning. -/
theorem Passing.stretch {R : World → World → Prop} (hR : Passing R) (ops : List Op) {w : World}
    (hw : Journal.ongoing w.journal = []) : Stretch R w (w.after ops) (w.instants ops) := by
  induction ops generalizing w with
  | nil =>
    exact .cons hR _ _ [] (Task.placed (congrArg Journal.inside hw.symm)) nofun (.nil (hR.refl w))
  | cons op rest ih =>
    -- Nothing is going on once the first operation is done.
    have hstep := World.step_effects w.within_all (Op.within_all true op)
    have hw' : Journal.ongoing (w.step op).2.journal = [] := hstep.ongoing_eq.trans hw
    have hplaced : Scope.top.Placed { w with log := [] } := congrArg Journal.inside hw.symm
    have hfirst := op.stretch hR (callInstants_stretches hR w.maxDepth) .top
      (.top { w with log := [] }) rfl hplaced
    rw [← World.step_snd] at hfirst
    refine .before hR (hR.cleared w) (.cons hR _ _ [] (Task.placed hplaced) (fun v hv => ?_) ?_)
    · have hv' : v = (w.step op).2 := hv.of_operation.trans (w.step_snd op).symm
      rw [hv']
      exact (ih hw').whole
    · exact hfirst.append hR (ih hw')

/-- **What passes on leads from each instant of a session to all later ones**, and from the beginning to
each of them and from each of them to the end. Bodies run in the state that the journal tells. -/
theorem Passing.instants {R : World → World → Prop} (hR : Passing R) (c : Config)
    (layout : Ref .object → Nat) (ops : Program) :
    Stretch R (.start c layout) ((World.start c layout).after ops)
      ((World.start c layout).instants ops) :=
  hR.stretch ops rfl

end ScriptHost
