import ScriptHost.Proofs.Instants.Ordered

/-!
# The instants are those of the run

`World.instants` has a recursion of its own beside that of the interpreter. That it lists the points of
the run that takes place is said here without this recursion, of any list of instants
(`World.AccountedBy`):

* Nothing is left out. What is done at an instant is settled by what is done at the instants of the
  list: whoever makes the calls and runs the bodies, it comes to the same if at these instants it does
  what the session does there (`Instant.Accounted`). So no call is made and no body is run in any world
  but theirs, with the frames that are pushed there, the objects that are lent and what is held.
* Nothing is made up. What is about to be done at an instant is done before the session ends, and what
  it leaves in the journal is there at the end (`Instant.Leaves`).

Main statement: `World.accountedBy_instants`. An act is taken apart as in `CallAction.run_eq` and
`invokeCode_eq`, where the caller and the runner are open; the frame of a call and the loan of a borrow
are around what is left (`outcome_framed_of_agreesAt`, `outcome_whileBorrowed_of_eq`).
-/

set_option autoImplicit false

namespace ScriptHost

open Act

/-! ### Whoever calls and runs -/

/-- The caller does at these instants what calls do that have `n` more calls to nest. -/
def Caller.AgreesAt (call : Caller) (n : Nat) (L : List Instant) : Prop :=
  ∀ here b f args w, ⟨here, .call b f args, w.keeping (handles args)⟩ ∈ L → here.left = n →
    (call b f args).outcome w = (callWithin n b f args).outcome w

/-- The runner does at these instants what bodies do. -/
def Runner.AgreesAt (run : Runner) (n : Nat) (L : List Instant) : Prop :=
  ∀ here s p w, ⟨here, .body s p, w⟩ ∈ L → here.left = n →
    (run s p).outcome w = (Op.runAll (callWithin n) s p).outcome w

/-- An operation with somebody to make its call and to run the bodies that stand in it. -/
def Op.runWith (call : Caller) (run : Runner) (s : Scope) : Op → Act Failure Outcome
  | .branch d cond yes no => d.settleGiving do
    let v ← cond.eval s
    if v.isTruthy then run s yes else run s no
  | .borrow d object mutably body => d.settleGiving do
    let o ← objectOrReceiver s object
    holding (handles o) (whileBorrowed o mutably Failure.failed (run s body))
  | op => op.run call s

section Agreement

variable {call : Caller} {run : Runner} {n : Nat} {L L' : List Instant}

/-- To agree at more instants is to agree at fewer. -/
theorem Caller.AgreesAt.mono (h : call.AgreesAt n L') (hsub : L ⊆ L') : call.AgreesAt n L :=
  fun here b f args w hi => h here b f args w (hsub hi)

/-- The same for a runner. -/
theorem Runner.AgreesAt.mono (h : run.AgreesAt n L') (hsub : L ⊆ L') : run.AgreesAt n L :=
  fun here s p w hi => h here s p w (hsub hi)

/-! ### Accounts -/

/-- **The list accounts for an instant**: what is done there depends on what is done at the instants of
the list, and on nothing else. -/
structure Instant.Accounted (L : List Instant) (i : Instant) : Prop where
  /-- An operation makes no calls and runs no bodies but at these instants. -/
  operation : ∀ s op rest, i.task = .body s (op :: rest) → ∀ (call : Caller) (run : Runner),
    call.Restores → call.AgreesAt i.site.left L → run.AgreesAt i.site.left L →
    (op.runWith call run s).outcome i.world = (op.run (callWithin i.site.left) s).outcome i.world
  /-- After an operation that answers, its body goes on at one of these instants. -/
  next : ∀ s op rest a v, i.task = .body s (op :: rest) →
    (op.run (callWithin i.site.left) s).outcome i.world = (.ok (.answer a), v) →
    ∃ log, ⟨i.site, .body s rest, { v with log := log }⟩ ∈ L
  /-- The frame of a call is around a body that runs at one of these instants. -/
  call : ∀ b f args w n, i.task = .call b f args → i.world = w.keeping (handles args) →
    i.site.left = n + 1 → ∀ run : Runner, Runner.Restores run → run.AgreesAt n L →
    (framed b f (invokeCode run b f args)).outcome w = (callWithin (n + 1) b f args).outcome w

/-- The list accounts for all of its own instants. -/
def Instant.Closed (L : List Instant) : Prop := ∀ i ∈ L, i.Accounted L

namespace Instant

/-- A longer list accounts for what a shorter one does. -/
theorem Accounted.mono {i : Instant} (h : i.Accounted L) (hsub : L ⊆ L') : i.Accounted L' where
  operation s op rest htask call run hcall hagree hrun :=
    h.operation s op rest htask call run hcall (hagree.mono hsub) (hrun.mono hsub)
  next s op rest a v htask hout := (h.next s op rest a v htask hout).imp fun _ hi => hsub hi
  call b f args w n htask hw hn run hrun hagree :=
    h.call b f args w n htask hw hn run hrun (hagree.mono hsub)

/-- At the end of a body nothing is left to be done. -/
theorem Accounted.of_end (here : Site) (s : Scope) (w : World) :
    Accounted L ⟨here, .body s [], w⟩ where
  operation _ _ _ htask := by cases htask
  next _ _ _ _ _ htask := by cases htask
  call _ _ _ _ _ htask := by cases htask

/-- A call that is about to begin is accounted for if its frame is around a body of the list. -/
theorem Accounted.of_call {here : Site} {b : Bool} {f : FunctionRef} {args : List ScriptValue}
    {w : World} (hcall : ∀ n, here.left = n + 1 → ∀ run : Runner, Runner.Restores run →
      run.AgreesAt n L →
      (framed b f (invokeCode run b f args)).outcome w = (callWithin (n + 1) b f args).outcome w) :
    Accounted L ⟨here, .call b f args, w.keeping (handles args)⟩ where
  operation _ _ _ htask := by cases htask
  next _ _ _ _ _ htask := by cases htask
  call _ _ _ _ n htask hw := by
    cases htask
    rw [← World.keeping_injective _ hw]
    exact hcall n

theorem Closed.nil : Closed [] := fun _ hi => nomatch hi

/-- A list stays closed when an instant is put in front that the longer list accounts for. -/
theorem Closed.cons {i : Instant} (hi : i.Accounted (i :: L)) (h : Closed L) : Closed (i :: L) :=
  List.forall_mem_cons.mpr ⟨hi, fun j hj => (h j hj).mono (List.subset_cons_self i L)⟩

/-- So it does when another closed list follows. -/
theorem Closed.append (h : Closed L) (h' : Closed L') : Closed (L ++ L') :=
  List.forall_mem_append.mpr ⟨fun i hi => (h i hi).mono (List.subset_append_left L L'),
    fun i hi => (h' i hi).mono (List.subset_append_right L L')⟩

end Instant

end Agreement

/-! ### Agreement at the instants is enough -/

namespace Act

variable {ε ε' α β : Type} {m m' : Act ε α} {w : World}

/-- What comes after acts with the same outcome comes to the same. -/
theorem outcome_bind_of_eq (h : m.outcome w = m'.outcome w) (f : α → Act ε β) :
    (m >>= f).outcome w = (m' >>= f).outcome w := by
  rw [outcome_bind, outcome_bind, h]

/-- So do acts whose errors are caught. -/
theorem outcome_attempt_of_eq (h : m.outcome w = m'.outcome w) :
    (attempt m : Act ε' (Except ε α)).outcome w = (attempt m').outcome w := by
  rw [outcome_attempt, outcome_attempt, h]

/-- Acts that are run while something is held need to agree in that world only. -/
theorem outcome_holding_of_eq {hs : List Handle}
    (h : m.outcome (w.keeping hs) = m'.outcome (w.keeping hs)) :
    (holding hs m).outcome w = (holding hs m').outcome w := by
  unfold World.keeping at h
  rw [outcome_holding, outcome_holding, h]

/-- Acts that are run during a loan need to agree in the world in which the object is lent, if there is
one. -/
theorem outcome_whileBorrowed_of_eq {o : ObjectRef} {mutably : Bool} {fail : HostFailure → ε}
    (h : (w.object o).refusal? mutably .slots = none →
      m.outcome (w.lent o mutably) = m'.outcome (w.lent o mutably)) :
    (whileBorrowed o mutably fail m).outcome w = (whileBorrowed o mutably fail m').outcome w := by
  rw [outcome_whileBorrowed, outcome_whileBorrowed]
  cases hlend : (w.object o).refusal? mutably .slots with
  | some e => rfl
  | none =>
    have hbody := h hlend
    unfold World.lent at hbody
    simp only [hbody]

end Act

section Enough

variable {call : Caller} {run : Runner} {n : Nat} {s : Scope} {here : Site} {w : World}

/-- An attempted call is an instant, whether there is a call left or not. -/
theorem mem_callInstants (hn : here.left = n) (b : Bool) (f : FunctionRef)
    (args : List ScriptValue) (w : World) :
    ⟨here, .call b f args, w.keeping (handles args)⟩ ∈ callInstants n here b f args w := by
  subst hn
  unfold callInstants
  cases h : here.left <;> simp [← h]

/-- The beginning of a body is an instant. -/
theorem mem_allInstants {call : Caller} {inside : CallInstants} (s : Scope) (p : Program)
    (here : Site) (w : World) :
    ⟨here, .body s p, w⟩ ∈ Op.allInstants call inside s p here w := by
  cases p <;> simp [Op.allInstants]

/-- What an action asks for is a call that is one of its instants. -/
theorem Calling.outcome_of_agreesAt (c : Calling) (hn : here.left = n)
    (h : call.AgreesAt n (c.instants (callInstants n) here w)) :
    (c.run call).outcome w = (c.run (callWithin n)).outcome w := by
  cases c with
  | apply b callee args =>
    cases callee with
    | function f => exact h here b f args w (mem_callInstants hn b f args w) hn
    | _ => rfl
  | resume c args =>
    show (Act.resume call c args).outcome w = (Act.resume (callWithin n) c args).outcome w
    rw [outcome_resume, outcome_resume]
    cases hstatus : (w.coroutine c).status with
    -- The call is made in the world in which the coroutine runs already.
    | suspended =>
      simp only [Calling.instants, hstatus] at h
      have hcall := h here true _ args (w.resuming c) (mem_callInstants hn _ _ _ _) hn
      simp only [hcall]
    | _ => rfl

/-- An action prepares its call in the same way whoever makes it. -/
theorem CallAction.outcome_of_agreesAt (hcall : call.Restores) (a : CallAction)
    (hn : here.left = n) (h : call.AgreesAt n (a.instants (callInstants n) s here w)) :
    (a.run call s).outcome w = (a.run (callWithin n) s).outcome w := by
  rw [a.run_eq hcall, a.run_eq (callWithin_restores n)]
  refine outcome_bind_congr fun x w' hout => ?_
  simp only [CallAction.instants, hout] at h
  cases x with
  | inl q =>
    have hrun := q.calling.outcome_of_agreesAt hn h
    exact outcome_bind_of_eq (outcome_holding_of_eq (outcome_attempt_of_eq hrun)) q.back
  | inr r => rfl

/-- What an operation makes of its result depends on the result only. -/
theorem Disposition.outcome_settle_of_eq (d : Disposition) {m m' : Act Failure Result}
    (h : m.outcome w = m'.outcome w) : (d.settle m).outcome w = (d.settle m').outcome w :=
  outcome_bind_of_eq (outcome_attempt_of_eq h) _

/-- So does what it gives. -/
theorem Disposition.outcome_settleGiving_of_eq (d : Disposition)
    {m m' : Act Failure (Option Given)} (h : m.outcome w = m'.outcome w) :
    (d.settleGiving m).outcome w = (d.settleGiving m').outcome w :=
  outcome_bind_of_eq (outcome_attempt_of_eq h) _

/-- **Agreement at the instants inside an operation is enough.** -/
theorem Op.outcome_runWith (hcall : call.Restores) (op : Op) (hn : here.left = n)
    (hagree : call.AgreesAt n (op.instants (callWithin n) (callInstants n) s here w))
    (hrun : run.AgreesAt n (op.instants (callWithin n) (callInstants n) s here w)) :
    (op.runWith call run s).outcome w = (op.run (callWithin n) s).outcome w := by
  cases op with
  | act d a =>
    unfold Op.runWith Op.run
    refine d.outcome_settle_of_eq ?_
    cases a with
    | call a =>
      -- Only actions that call have anything to do with the caller.
      simp only [Op.instants] at hagree
      exact a.outcome_of_agreesAt hcall hn hagree
    | _ => rfl
  | branch d cond yes no =>
    unfold Op.runWith Op.run
    -- The condition is evaluated in both, and the branch that it chooses begins at an instant.
    refine d.outcome_settleGiving_of_eq (outcome_bind_congr fun v w' hout => ?_)
    simp only [Op.instants, hout] at hrun
    cases hv : v.isTruthy with
    | true =>
      simp only [hv] at hrun
      exact hrun here s yes w' (mem_allInstants s yes here w') hn
    | false =>
      simp only [hv] at hrun
      exact hrun here s no w' (mem_allInstants s no here w') hn
  | borrow d object mutably body =>
    unfold Op.runWith Op.run
    -- The body of a borrow begins at an instant, with the object held and lent.
    refine d.outcome_settleGiving_of_eq (outcome_bind_congr fun o w' hout => ?_)
    simp only [Op.instants, hout] at hrun
    refine outcome_holding_of_eq (outcome_whileBorrowed_of_eq fun hlend => ?_)
    have hlend' : (w'.object o).refusal? mutably .slots = none := hlend
    simp only [hlend'] at hrun
    exact hrun _ s body _ (mem_allInstants s body _ _) hn
  | _ =>
    unfold Op.runWith Op.run
    rfl

/-- **Agreement at the first instant of its body is enough for a call.** -/
theorem outcome_framed_of_agreesAt (hrun : Runner.Restores run) (b : Bool) (f : FunctionRef)
    (args : List ScriptValue) (h : run.AgreesAt n (callInstants (n + 1) here b f args w)) :
    (framed b f (invokeCode run b f args)).outcome w =
      (callWithin (n + 1) b f args).outcome w := by
  have hrun' : Runner.Restores (Op.runAll (callWithin n)) := fun s p =>
    (Op.runAll_composed_univ (callWithin_composed .all n) s p).restores
  have hcode : (invokeCode run b f args).outcome (w.entered b f) =
      (invokeCode (Op.runAll (callWithin n)) b f args).outcome (w.entered b f) := by
    -- Up to the body the code has nothing to do with the runner, and after it either.
    rw [invokeCode_eq hrun, invokeCode_eq hrun']
    refine outcome_bind_congr fun t w' hout => ?_
    refine outcome_bind_of_eq (outcome_holding_of_eq (outcome_attempt_of_eq ?_)) _
    refine h ((here.within f n).workingOn t.given) t.scope t.body _ ?_ rfl
    unfold callInstants
    simp only [hout]
    exact List.mem_cons_of_mem _ (mem_allInstants _ _ _ _)
  show (framed b f _).outcome w = (framed b f _).outcome w
  rw [outcome_framed, outcome_framed, hcode]

/-- The instant before an operation is accounted for by those inside the operation and the one that comes
after it. -/
theorem Instant.Accounted.of_operation {L : List Instant} {op : Op} {rest : Program}
    (hn : here.left = n)
    (hinside : op.instants (callWithin n) (callInstants n) s here w ⊆ L)
    (hnext : ∀ a v, (op.run (callWithin n) s).outcome w = (.ok (.answer a), v) →
      ∃ log, ⟨here, .body s rest, { v with log := log }⟩ ∈ L) :
    Accounted L ⟨here, .body s (op :: rest), w⟩ where
  operation _ _ _ htask call run hcall hagree hrun := by
    cases htask
    subst hn
    exact op.outcome_runWith hcall rfl (hagree.mono hinside) (hrun.mono hinside)
  next _ _ _ a v htask hout := by
    cases htask
    subst hn
    exact hnext a v hout
  call _ _ _ _ _ htask := by cases htask

end Enough

/-! ### Every list of instants accounts for itself -/

/-- The instants of calls account for themselves. -/
def CallInstants.Closed (inside : CallInstants) (n : Nat) : Prop :=
  ∀ {here}, here.left = n → ∀ b f args w, Instant.Closed (inside here b f args w)

section Closed

variable {n : Nat} {s : Scope} {here : Site}

/-- What an action asks for is closed: it is one call, or none. -/
theorem Calling.closed (hinside : CallInstants.Closed (callInstants n) n) (c : Calling)
    (hn : here.left = n) (w : World) : Instant.Closed (c.instants (callInstants n) here w) := by
  cases c with
  | apply b callee args =>
    cases callee with
    | function f => exact hinside hn b f args w
    | _ => exact .nil
  | resume c args =>
    simp only [Calling.instants]
    split
    · exact hinside hn _ _ _ _
    · exact .nil

/-- So is an action that calls, since its call is all that it does there. -/
theorem CallAction.closed (hinside : CallInstants.Closed (callInstants n) n) (a : CallAction)
    (hn : here.left = n) (w : World) : Instant.Closed (a.instants (callInstants n) s here w) := by
  unfold CallAction.instants
  split
  · next q w' _ => exact q.calling.closed hinside hn _
  · exact .nil

mutual

/-- **The instants inside an operation account for themselves**, by recursion on the operation. -/
theorem Op.closed (hinside : CallInstants.Closed (callInstants n) n) (s : Scope) :
    ∀ (op : Op) {here : Site}, here.left = n → ∀ w : World,
      Instant.Closed (op.instants (callWithin n) (callInstants n) s here w)
  | .act d (.call a), here, hn, w => by
    unfold Op.instants
    exact a.closed hinside hn w
  | .branch d cond yes no, here, hn, w => by
    unfold Op.instants
    split
    · split
      · exact Op.closedAll hinside s yes hn _
      · exact Op.closedAll hinside s no hn _
    · exact .nil
  | .borrow d object mutably body, here, hn, w => by
    unfold Op.instants
    split
    -- What is held in addition does not change how many calls are left.
    · next o w' _ =>
      have hn' : (here.workingOn (handles o)).left = n := hn
      split
      · exact Op.closedAll hinside s body hn' _
      · exact .nil
    · exact .nil
  | .act _ (.value _), _, _, _ | .act _ (.table _), _, _, _ | .act _ (.error _), _, _, _
  | .act _ (.conversion _), _, _, _ | .act _ (.cls _), _, _, _ | .act _ (.proxy _), _, _, _
  | .giveScript _ _, _, _, _ | .giveHost _ _, _, _, _ | .function .., _, _, _
  | .hostFunction .., _, _, _ | .cls _ _, _, _, _ => by
    unfold Op.instants
    exact .nil

/-- A body is closed: its operations lead from one of its instants to the next one. -/
theorem Op.closedAll (hinside : CallInstants.Closed (callInstants n) n) (s : Scope) :
    ∀ (p : List Op) {here : Site}, here.left = n → ∀ w : World,
      Instant.Closed (Op.allInstants (callWithin n) (callInstants n) s p here w)
  | [], here, hn, w => by
    unfold Op.allInstants
    exact .cons (.of_end here s w) .nil
  | op :: rest, here, hn, w => by
    unfold Op.allInstants
    refine .cons (.of_operation hn ?inside ?next) (.append (Op.closed hinside s op hn w) ?rest)
    case inside => exact List.subset_cons_of_subset _ (List.subset_append_left _ _)
    case next =>
      intro a v hout
      refine ⟨v.log, List.mem_cons_of_mem _ (List.mem_append_right _ ?_)⟩
      simp only [hout]
      exact mem_allInstants s rest here v
    case rest =>
      split
      · exact Op.closedAll hinside s rest hn _
      · exact .nil

end

end Closed

/-- **The instants of calls account for themselves**, by induction on how deep calls may nest. -/
theorem callInstants_closed (n : Nat) : CallInstants.Closed (callInstants n) n := by
  induction n with
  | zero =>
    intro here hn b f args w
    -- At the limit there is a call that is attempted and nothing inside.
    exact .cons (.of_call fun m hm => nomatch hm) .nil
  | succ n ih =>
    intro here hn b f args w
    refine .cons (.of_call fun m hm run hrun hagree => ?_) ?_
    -- The call has one more to nest than the body inside, which is closed by induction.
    · obtain rfl : n = m := Nat.succ.inj hm
      exact outcome_framed_of_agreesAt hrun b f args hagree
    · split
      · next t w' _ =>
        have hleft : ((here.within f n).workingOn t.given).left = n := rfl
        exact Op.closedAll ih t.scope t.body hleft _
      · exact .nil

/-! ### Sessions -/

/-- **The list accounts for the session** that starts in the world `w`. -/
structure World.AccountedBy (w : World) (ops : Program) (L : List Instant) : Prop where
  /-- Every operation of the session is begun at an instant, in the world that those before it leave. -/
  operations : ∀ before op rest, ops = before ++ op :: rest →
    ⟨.top w, .body .top (op :: rest), { w.after before with log := [] }⟩ ∈ L
  /-- What comes of it is settled by what is done at instants. -/
  closed : Instant.Closed L
  /-- The instants are in order. -/
  ordered : L.Pairwise fun i j => i.world.journal <:+ j.world.journal
  /-- What is about to be done at an instant is done, and what it leaves in the journal stays there. -/
  done : ∀ i ∈ L, ∀ v, i.Leaves v → v.journal <:+ (w.after ops).journal
  /-- In the end nothing is left to be done. -/
  last : L.getLast? = some ⟨.top (w.after ops), .body .top [], w.after ops⟩

namespace World

/-- Between operations the site is the same, since the limit is part of the configuration. -/
theorem top_step (w : World) (op : Op) : Site.top (w.step op).2 = .top w := by
  have hfixed := (World.step_effects w.within_all (Op.within_all true op)).fixed
  unfold Site.top
  rw [hfixed.maxDepth]

/-- A session begins at an instant, but for what was logged before. -/
theorem exists_mem_instants (w : World) (ops : Program) :
    ∃ log, ⟨.top w, .body .top ops, { w with log := log }⟩ ∈ w.instants ops := by
  cases ops with
  | nil => exact ⟨w.log, List.mem_cons_self⟩
  | cons op rest => exact ⟨[], List.mem_cons_self⟩

/-- An operation begins at an instant, in the world that those before it have left. -/
theorem mem_instants (w : World) (before : Program) (op : Op) (rest : Program) :
    ⟨.top w, .body .top (op :: rest), { w.after before with log := [] }⟩ ∈
      w.instants (before ++ op :: rest) := by
  induction before generalizing w with
  | nil => exact List.mem_cons_self
  | cons first before ih =>
    have hlater := ih (w.step first).2
    rw [top_step] at hlater
    exact List.mem_cons_of_mem _ (List.mem_append_right _ hlater)

/-- A session is closed: its operations are, and each of them begins at an instant. -/
theorem closed_instants (ops : Program) (w : World) : Instant.Closed (w.instants ops) := by
  induction ops generalizing w with
  | nil => exact .cons (.of_end _ _ w) .nil
  | cons op rest ih =>
    have hinside : Instant.Closed (op.instants (callWithin w.maxDepth) (callInstants w.maxDepth)
        .top (.top { w with log := [] }) { w with log := [] }) :=
      Op.closed (callInstants_closed w.maxDepth) .top op rfl _
    refine .cons (.of_operation rfl ?inside ?next) (hinside.append (ih (w.step op).2))
    case inside => exact List.subset_cons_of_subset _ (List.subset_append_left _ _)
    case next =>
      intro a v hout
      -- Whatever its outcome, an operation of the session is followed by the next one.
      have hv : (w.step op).2 = v := (w.step_snd op).trans (congrArg Prod.snd hout)
      obtain ⟨log, hfirst⟩ := exists_mem_instants (w.step op).2 rest
      rw [top_step, hv] at hfirst
      refine ⟨log, List.mem_cons_of_mem _ (List.mem_append_right _ ?_)⟩
      rw [hv]
      exact hfirst

/-- What is in the journal stays there. -/
theorem journal_passing : Passing fun w w' => w.journal <:+ w'.journal where
  refl _ := List.suffix_refl _
  trans := List.IsSuffix.trans
  effects h := h.journal_suffix
  held _ _ := List.suffix_refl _
  cleared _ := List.suffix_refl _
  entered _ _ _ := List.suffix_cons _ _
  left _ _ := List.suffix_cons _ _
  resuming _ _ _ := List.suffix_cons _ _
  finishing _ _ := List.suffix_cons _ _
  borrowed _ _ _ := List.suffix_refl _

/-- **The instants of a session are those of its run**, if nothing is going on at the beginning. -/
theorem accountedBy_instants (ops : Program) {w : World} (hw : Journal.ongoing w.journal = []) :
    w.AccountedBy ops (w.instants ops) := by
  have hstretch := journal_passing.stretch ops hw
  constructor
  case operations =>
    rintro before op rest rfl
    exact w.mem_instants before op rest
  case closed => exact closed_instants ops w
  case ordered => exact hstretch.ordered
  case done => exact hstretch.done
  case last => exact getLast?_instants ops w

end World

end ScriptHost
