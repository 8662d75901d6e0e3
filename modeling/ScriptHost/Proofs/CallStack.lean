import ScriptHost.Proofs.EntryPoints
import ScriptHost.Proofs.Instants.Adequacy

/-!
# The call stack

Frames are pushed and popped around arbitrary bodies, on success and on failure, on the side of
script and of the host, inside coroutines and outside. `Balanced` says of an instant of a run that
the frames are exactly the calls that are in progress there, innermost first, that the journal knows
of the same calls, and that the calls in progress and those that may still be nested make up the
limit. It lasts through a run (`Balanced.lasting`), so no path through a program is left on which a
frame is forgotten or popped twice.

The calls in progress are told from the nesting of the run itself, not from the frames. What is left
of the limit is told by the number of calls that may still be nested, and `callWithin` starts nothing
when there are none. That the instants at which all this is said are those of the run is a part of the
statement (`World.AccountedBy`): bodies run in the worlds of the instants, so with these frames.
-/

set_option autoImplicit false

namespace ScriptHost

open Act

/-- The calls among what is going on, innermost first. -/
def Journal.calls : List Ongoing → List FunctionRef
  | .call f _ :: rest => f :: calls rest
  | .resumption _ :: rest => calls rest
  | [] => []

/-- The line of a call in a traceback. -/
def World.callLine (w : World) (f : FunctionRef) : String :=
  "\n\t" ++ (match (w.function f).origin with | .script => "[script]" | .host => "[host]") ++
    ": in function '" ++ (w.function f).name ++ "'"

/-- The frames are the calls in progress, and there are as many more as the limit leaves. -/
structure Balanced (limit : Nat) (here : Site) (w : World) : Prop where
  frames : w.frames = here.calls
  journal : Journal.calls (Journal.ongoing w.journal) = here.calls
  limit : here.calls.length + here.left = limit

namespace Balanced

variable {limit : Nat} {here : Site} {w w' : World}

/-- No calls are in progress when a run begins. -/
theorem top (w : World) (hframes : w.frames = []) (hj : Journal.ongoing w.journal = []) :
    Balanced w.maxDepth (.top w) w where
  frames := hframes
  journal := by rw [hj]; rfl
  limit := Nat.zero_add _

/-- What changes neither frames nor calls keeps the balance. -/
theorem of_eq (h : Balanced limit here w) (hframes : w'.frames = w.frames)
    (hj : Journal.ongoing w'.journal = Journal.ongoing w.journal) : Balanced limit here w' where
  frames := hframes.trans h.frames
  journal := by rw [hj]; exact h.journal
  limit := h.limit

/-- Entering a call pushes its frame and uses up one of the calls that are left. -/
theorem entered (h : Balanced limit here w) {n : Nat} (hn : here.left = n + 1) (b : Bool)
    (f : FunctionRef) : Balanced limit (here.within f n) (w.entered b f) where
  frames := congrArg (f :: ·) h.frames
  journal := congrArg (f :: ·) h.journal
  limit := by
    have hlimit := h.limit
    show (f :: here.calls).length + n = limit
    rw [List.length_cons]
    omega

/-- A resumption is no call. -/
theorem resuming (h : Balanced limit here w) (c : CoroutineRef) :
    Balanced limit here (w.resuming c) where
  frames := h.frames
  journal := h.journal
  limit := h.limit

/-- **The stack is balanced at every instant**, because acts pop what they push. -/
theorem lasting (limit : Nat) : Lasting (Balanced limit) where
  effects h heff := h.of_eq heff.fixed.frames heff.ongoing_eq
  keeping h _ := h.of_eq rfl rfl
  resuming h := h.resuming _
  entered h hn := h.entered hn _ _
  workingOn h := ⟨h.frames, h.journal, h.limit⟩
  lent h := h.of_eq rfl rfl

/-- Frames and calls that are left make up the limit. -/
theorem length_add_left (h : Balanced limit here w) : w.frames.length + here.left = limit := by
  rw [h.frames]
  exact h.limit

/-- At the limit no call is left. -/
theorem left_eq_zero (h : Balanced limit here w) (hfull : w.frames.length = limit) :
    here.left = 0 := by
  have hsum := h.length_add_left
  omega

/-- The traceback tells the calls in progress. -/
theorem traceback_eq (h : Balanced limit here w) :
    w.traceback = String.join ("stack traceback:" :: here.calls.map w.callLine) := by
  rw [← h.frames]
  rfl

end Balanced

/-! ### Calls -/

namespace World

/-- The same calls are in progress, and the frames say so. -/
structure SameStack (w w' : World) : Prop where
  frames : w'.frames = w.frames
  ongoing : Journal.ongoing w'.journal = Journal.ongoing w.journal

/-- What is composed of the operations leaves the stack as it was. -/
theorem sameStack {ε α : Type} [Names ε] {m : Act ε α} {b : Bool} {K : Set Mention}
    {Q : Set Mention → α → Prop} (hm : Composed .all b K m Q) (w : World) :
    w.SameStack (m.outcome w).2 := by
  have heff := (hm.effects w.within_all).1
  exact ⟨heff.fixed.frames, heff.ongoing_eq⟩

/-- Whatever is called, resumed or run, with however many calls that may be nested, returns with the
stack that it was started with. -/
structure KeepsStack (w : World) (n : Nat) : Prop where
  call : ∀ b f args, w.SameStack ((callWithin n b f args).outcome w).2
  callValue : ∀ b v args, w.SameStack ((apply (callWithin n) b v args).outcome w).2
  invoke : ∀ b t k args, w.SameStack ((invoke (callWithin n) b t k args).outcome w).2
  resume : ∀ c args, w.SameStack ((resume (callWithin n) c args).outcome w).2
  hostCall : ∀ b via f args, w.SameStack ((hostCall (callWithin n) b via f args).outcome w).2
  run : ∀ s p, w.SameStack ((Op.runAll (callWithin n) s p).outcome w).2

/-- Everything that can be started is composed in this way. -/
theorem keepsStack (w : World) (n : Nat) : w.KeepsStack n where
  call b f args := sameStack (callWithin_composed .all n b b f args (.self b) (.univ args)) w
  callValue b v args :=
    sameStack (apply_composed (callWithin_composed .all n) (.self b) v (.univ args)) w
  invoke b t k args :=
    sameStack (invoke_composed (callWithin_composed .all n) (.self b) t k (.univ args)) w
  resume c args :=
    sameStack (b := true) (resume_composed (callWithin_composed .all n) c (.univ args)) w
  hostCall b via f args :=
    sameStack (hostCall_composed (callWithin_composed .all n) (.self b) via f (.univ args)) w
  run s p := sameStack (Op.runAll_composed (callWithin_composed .all n) (.univ s)
    (fun h => absurd h Bool.false_ne_true) p (Op.allWithin_all false p)) w

/-- Without calls left nothing happens but the error, which tells of the calls around. -/
theorem overflow (w : World) (b : Bool) (f : FunctionRef) (args : List ScriptValue) :
    (callWithin 0 b f args).outcome w =
      (.error ⟨.string "stack overflow", some w.traceback⟩, w) := rfl

/-- With calls left the function is entered. -/
theorem called (w : World) (n : Nat) (b : Bool) (f : FunctionRef) (args : List ScriptValue) :
    (.called f b :: w.journal) <:+ ((callWithin (n + 1) b f args).outcome w).2.journal := by
  have hcode : Composed .all b Set.univ
      (invokeCode (Op.runAll (callWithin n)) b f args) ScriptHost.Known :=
    invokeCode_composed (fun s host p hp hs hk =>
      Op.runAll_composed (callWithin_composed .all n) hk hs p hp) f (.univ args)
  have heff := (hcode.effects (w.entered b f).within_all).1
  exact heff.journal_suffix.trans (List.suffix_cons _ _)

end World

/-- **Call stack discipline.** In every session, whatever its limit:

* at every instant the frames are the calls in progress, innermost first, and no more than the limit;
  the journal knows of the same calls, and a traceback lists them in this order;
* a call that is about to be made when the frames have reached the limit fails with a stack overflow
  that tells of the calls in progress, and leaves the world as it is; below the limit its function is
  entered;
* in every world, whatever is called, resumed or run leaves the stack as it found it, whatever comes
  of it;
* the instants are those of the run: the interpreter calls nothing and runs no body in another world
  than theirs, and what is about to be done at each of them is done. -/
theorem call_stack_discipline (c : Config) (layout : Ref .object → Nat) (ops : Program) :
    (∀ i ∈ (World.start c layout).instants ops,
      i.world.frames = i.site.calls ∧
      Journal.calls (Journal.ongoing i.world.journal) = i.site.calls ∧
      i.world.frames.length ≤ c.maxCallDepth ∧
      i.world.traceback =
        String.join ("stack traceback:" :: i.site.calls.map i.world.callLine) ∧
      ∀ b f args, i.task = .call b f args →
        (i.world.frames.length = c.maxCallDepth →
          (callWithin i.site.left b f args).outcome i.world =
            (.error ⟨.string "stack overflow", some i.world.traceback⟩, i.world)) ∧
        (i.world.frames.length < c.maxCallDepth →
          (.called f b :: i.world.journal) <:+
            ((callWithin i.site.left b f args).outcome i.world).2.journal)) ∧
    (∀ (w : World) (n : Nat), w.KeepsStack n) ∧
    (World.start c layout).AccountedBy ops ((World.start c layout).instants ops) := by
  refine ⟨fun i hi => ?_, fun w n => w.keepsStack n, World.accountedBy_instants ops rfl⟩
  have htop : Balanced c.maxCallDepth _ (World.start c layout) :=
    Balanced.top (World.start c layout) rfl rfl
  have hbalanced := (Balanced.lasting c.maxCallDepth).instants (fun h => h.of_eq rfl rfl) ops
    htop i hi
  have hsum := hbalanced.length_add_left
  refine ⟨hbalanced.frames, hbalanced.journal, by omega, hbalanced.traceback_eq, ?_⟩
  -- What may still be nested decides whether a call begins, and the balance turns that into the number
  -- of frames.
  intro b f args _
  refine ⟨fun hfull => ?_, fun hbelow => ?_⟩
  · rw [hbalanced.left_eq_zero hfull]
    exact i.world.overflow b f args
  · obtain ⟨n, hn⟩ : ∃ n, i.site.left = n + 1 := ⟨i.site.left - 1, by omega⟩
    rw [hn]
    exact i.world.called n b f args

namespace CallStack

/-- Failures are caught, and the result is not told. -/
def quietly (store : Option String) : Disposition := ⟨store, some "failure", false, true⟩

/-- Two calls may be nested. -/
def shallow : Config := ⟨.shared, true, false, 2⟩

/-- A function calls itself without end, at first from inside a coroutine, and then a function that
fails. -/
def descent : Program :=
  [.function (quietly none) "fail" false true [.act ⟨none, none, false, false⟩ (.error (.fail "no"))],
    .function (quietly (some "down")) "down" false true
      [.act (quietly none) (.call (.call (.global "down") (.list []))),
        .act (quietly none) (.call (.callGlobal "fail" (.list [])))],
    .act (quietly (some "co")) (.call (.coroutine (.var "down" 0))),
    .act (quietly none) (.call (.resume "co" (.list [])))]

/-- How many frames there are at an instant, and whether a call is about to be made. -/
def depth (i : Instant) : Nat × Bool :=
  (i.world.frames.length, match i.task with | .call _ _ _ => true | .body _ _ => false)

end CallStack

open CallStack in
/-- The descent reaches the limit, and both calls that are attempted there overflow. -/
theorem call_stack_discipline_descent :
    let is := (World.start shallow fun r => r.index).instants descent
    (is.map depth).filter Prod.snd = [(0, true), (1, true), (2, true), (2, true), (1, true)] ∧
    (∀ i ∈ is, i.world.frames = i.site.calls ∧ i.world.frames.length ≤ 2) ∧
    ∀ i ∈ is, ∀ b f args, i.task = .call b f args → i.world.frames.length = 2 →
      (callWithin i.site.left b f args).outcome i.world =
        (.error ⟨.string "stack overflow", some i.world.traceback⟩, i.world) := by
  have hdiscipline := (call_stack_discipline shallow (fun r => r.index) descent).1
  refine ⟨by decide +kernel, fun i hi => ?_, fun i hi b f args htask hfull => ?_⟩
  · exact ⟨(hdiscipline i hi).1, (hdiscipline i hi).2.2.1⟩
  · exact ((hdiscipline i hi).2.2.2.2 b f args htask).1 hfull

end ScriptHost
