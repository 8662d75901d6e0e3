import ScriptHost.Proofs.Instants.Parts

/-!
# The instants of a run

Between the operations of a session much happens: bodies run, call other functions and return. An
instant is a point of a run at which something is about to be done, the next operation of a body or
a call, together with where that is (`Site`) and with the world, in which what is in flight is held.
`World.instants` lists all instants of a session in order: the recursion is that of running programs,
with every act taken apart at its calls.

Main statements: `Lasting.instants`, by which what acts keep and entering a body keeps holds at every
instant, and `World.getLast?_instants`: the last instant is the end of the session.
-/

set_option autoImplicit false

namespace ScriptHost

open Act

/-- Where code runs. -/
structure Site where
  /-- The functions whose calls are in progress, innermost first. -/
  calls : List FunctionRef
  /-- What the running bodies and the borrows around them were given to work on. -/
  uses : List Handle
  /-- How many calls may still be nested. -/
  left : Nat

/-- What is about to be done. -/
inductive Task where
  /-- The rest of a body. -/
  | body (s : Scope) (rest : Program)
  | call (inCoroutine : Bool) (f : FunctionRef) (args : List ScriptValue)

/-- A point of a run. -/
structure Instant where
  site : Site
  task : Task
  world : World

namespace Site

/-- Where the operations of a session run. -/
def top (w : World) : Site := ⟨[], [], w.maxDepth⟩

/-- Inside a body or a borrow that was given something. -/
def workingOn (here : Site) (hs : List Handle) : Site := { here with uses := hs ++ here.uses }

/-- Inside a call, where `n` more calls may be nested. -/
def within (here : Site) (f : FunctionRef) (n : Nat) : Site :=
  { here with calls := f :: here.calls, left := n }

end Site

namespace World

/-- The world in which more is held. -/
def keeping (w : World) (hs : List Handle) : World := { w with held := hs ++ w.held }

/-- The world in which an object is lent. -/
def lent (w : World) (o : ObjectRef) (mutably : Bool) : World :=
  { w with
    objects := w.objects.set o.ref { w.object o with
      borrow := ((w.object o).lend mutably).getD (w.object o).borrow } }

end World

/-- The instants of the call of a function. -/
abbrev CallInstants := Site → Bool → FunctionRef → List ScriptValue → World → List Instant

/-- The instants of a call that an operation asks for. What is no function is not called, and only a
suspended coroutine is entered. -/
def Calling.instants (inside : CallInstants) (here : Site) (w : World) : Calling → List Instant
  | .apply b (.function f) args => inside here b f args w
  | .apply _ _ _ => []
  | .resume c args => match (w.coroutine c).status with
    | .suspended => inside here true (w.coroutine c).function args (w.resuming c)
    | _ => []

/-- The instants of an action, which are those of its call. -/
def CallAction.instants (inside : CallInstants) (s : Scope) (here : Site) (w : World)
    (a : CallAction) : List Instant :=
  match (a.prepare s).outcome w with
  | (.ok (.inl q), w') => q.calling.instants inside here (w'.keeping q.kept)
  | _ => []

mutual

/-- The instants inside an operation. -/
def Op.instants (call : Caller) (inside : CallInstants) (s : Scope) :
    Op → Site → World → List Instant
  | .act _ (.call a), here, w => a.instants inside s here w
  | .branch _ cond yes no, here, w => match (cond.eval s).outcome w with
    | (.ok v, w') =>
      if v.isTruthy then Op.allInstants call inside s yes here w'
      else Op.allInstants call inside s no here w'
    | (.error _, _) => []
  | .borrow _ object mutably body, here, w => match (objectOrReceiver s object).outcome w with
    | (.ok o, w') => match (w'.object o).refusal? mutably .slots with
      | none => Op.allInstants call inside s body (here.workingOn (handles o))
        ((w'.keeping (handles o)).lent o mutably)
      | some _ => []
    | (.error _, _) => []
  | _, _, _ => []

/-- The instants of a body: before each operation and inside of it, and at the end. -/
def Op.allInstants (call : Caller) (inside : CallInstants) (s : Scope) :
    List Op → Site → World → List Instant
  | [], here, w => [⟨here, .body s [], w⟩]
  | op :: rest, here, w =>
    ⟨here, .body s (op :: rest), w⟩ :: (Op.instants call inside s op here w ++
      match (op.run call s).outcome w with
      | (.ok (.answer _), w') => Op.allInstants call inside s rest here w'
      | _ => [])

end

/-- **The instants of a call**, where `n` calls may be nested: when it is about to begin, and those of
the body that it starts. -/
def callInstants : Nat → CallInstants
  | 0, here, b, f, args, w => [⟨{ here with left := 0 }, .call b f args, w.keeping (handles args)⟩]
  | n + 1, here, b, f, args, w =>
    ⟨{ here with left := n + 1 }, .call b f args, w.keeping (handles args)⟩ ::
      match (startCode b f args).outcome (w.entered b f) with
      | (.ok t, w') => Op.allInstants (callWithin n) (callInstants n) t.scope t.body
        ((here.within f n).workingOn t.given) (w'.keeping t.given)
      | (.error _, _) => []

/-- **The instants of a session**, in order. -/
def World.instants (w : World) : List Op → List Instant
  | [] => [⟨.top w, .body .top [], w⟩]
  | op :: rest =>
    let v : World := { w with log := [] }
    ⟨.top v, .body .top (op :: rest), v⟩ ::
      (op.instants (callWithin v.maxDepth) (callInstants v.maxDepth) .top (.top v) v ++
        (w.step op).2.instants rest)

/-! ### What lasts through a run -/

/-- What holds at every instant once it holds at the first: acts keep it, and so does entering a call,
a coroutine, a body or a borrow. -/
structure Lasting (P : Site → World → Prop) : Prop where
  effects : ∀ {here b w w'}, P here w → Effects .all b w w' → P here w'
  /-- What is kept meanwhile is no object. -/
  keeping : ∀ {here w hs}, P here w → (∀ h ∈ hs, h.kind ≠ .object) → P here (w.keeping hs)
  resuming : ∀ {here w c}, P here w → P here (w.resuming c)
  entered : ∀ {here w b f n}, P here w → here.left = n + 1 → P (here.within f n) (w.entered b f)
  workingOn : ∀ {here w hs}, P here w → P (here.workingOn hs) (w.keeping hs)
  lent : ∀ {here w o mutably}, P here w → P here (w.lent o mutably)

namespace Lasting

variable {P : Site → World → Prop} {inside : CallInstants} {here : Site} {w : World} {s : Scope}

/-- What holds at all instants of calls. -/
def Everywhere (P : Site → World → Prop) (n : Nat) (inside : CallInstants) : Prop :=
  ∀ {here w}, P here w → here.left = n → ∀ b f args, ∀ i ∈ inside here b f args w, P i.site i.world

/-- A property that lasts is kept by all that acts do between their calls. -/
theorem outcome {ε α : Type} [Names ε] {m : Act ε α} {b : Bool} {K : Set Mention}
    {Q : Set Mention → α → Prop} (hP : Lasting P) (h : P here w) (hm : Composed .all b K m Q) :
    P here (m.outcome w).2 :=
  hP.effects h (hm.effects w.within_all).1

variable {n : Nat}

/-- It holds at the instants of a call that is made. -/
theorem calling (hP : Lasting P) (hinside : Everywhere P n inside) (h : P here w)
    (hn : here.left = n) (c : Calling) : ∀ i ∈ c.instants inside here w, P i.site i.world := by
  intro i hi
  cases c with
  | apply b callee args =>
    cases callee with
    | function f => exact hinside h hn b f args i hi
    | _ => cases hi
  | resume c args =>
    simp only [Calling.instants] at hi
    split at hi
    · exact hinside (hP.resuming h) hn _ _ _ i hi
    · cases hi

/-- And at those of an action, which come after the operands. -/
theorem callAction (hP : Lasting P) (hinside : Everywhere P n inside) (h : P here w)
    (hn : here.left = n) (a : CallAction) :
    ∀ i ∈ a.instants inside s here w, P i.site i.world := by
  intro i hi
  have hprepare := CallAction.prepare_composed (Known.univ s) a
  have hafter := hP.outcome h hprepare
  unfold CallAction.instants at hi
  split at hi
  · next q w' hout =>
    rw [hout] at hafter
    obtain ⟨_, -, hprepared⟩ := hprepare.gives w.within_all hout
    exact hP.calling hinside (hP.keeping hafter (hprepared.kept q rfl)) hn _ i hi
  · cases hi

mutual

/-- And at those of an operation. -/
theorem op (hP : Lasting P) {call : Caller} (hcall : call.IsComposed .all)
    (hinside : Everywhere P n inside) (s : Scope) :
    ∀ (op : Op) {here : Site} {w : World}, P here w → here.left = n →
      ∀ i ∈ op.instants call inside s here w, P i.site i.world
  | .act d (.call a), here, w, h, hn => by
    unfold Op.instants
    exact hP.callAction hinside h hn a
  | .branch d cond yes no, here, w, h, hn => by
    unfold Op.instants
    -- The branch begins where the condition ends.
    have hafter := hP.outcome h (cond.eval_composed (l := .all) (b := true) (.univ s))
    intro i hi
    split at hi
    · next v w' hout =>
      rw [hout] at hafter
      split at hi
      · exact allOps hP hcall hinside s yes hafter hn i hi
      · exact allOps hP hcall hinside s no hafter hn i hi
    · cases hi
  | .borrow d object mutably body, here, w, h, hn => by
    unfold Op.instants
    -- The body of the borrow begins when the object is in hand and lent.
    have hafter := hP.outcome h
      (objectOrReceiver_composed (l := .all) (b := true) (.univ s) object)
    intro i hi
    split at hi
    · next o w' hout =>
      rw [hout] at hafter
      split at hi
      · exact allOps hP hcall hinside s body (hP.lent (hP.workingOn hafter)) hn i hi
      · cases hi
    · cases hi
  | .act _ (.value _), _, _, _, _ | .act _ (.table _), _, _, _, _ | .act _ (.error _), _, _, _, _
  | .act _ (.conversion _), _, _, _, _ | .act _ (.cls _), _, _, _, _
  | .act _ (.proxy _), _, _, _, _ | .giveScript _ _, _, _, _, _ | .giveHost _ _, _, _, _, _
  | .function .., _, _, _, _ | .hostFunction .., _, _, _, _ | .cls _ _, _, _, _, _ => by
    simp [Op.instants]

/-- And at those of a body. -/
theorem allOps (hP : Lasting P) {call : Caller} (hcall : call.IsComposed .all)
    (hinside : Everywhere P n inside) (s : Scope) :
    ∀ (p : List Op) {here : Site} {w : World}, P here w → here.left = n →
      ∀ i ∈ Op.allInstants call inside s p here w, P i.site i.world
  | [], here, w, h, hn => by
    unfold Op.allInstants
    exact List.forall_mem_singleton.mpr h
  | first :: rest, here, w, h, hn => by
    unfold Op.allInstants
    refine List.forall_mem_cons.mpr ⟨h, List.forall_mem_append.mpr ⟨?_, ?_⟩⟩
    · exact op hP hcall hinside s first h hn
    · have hafter := hP.outcome h
        (Op.run_composed hcall (.univ s) (fun h : false = true => nomatch h) first
          (Op.within_all false first))
      intro i hi
      split at hi
      · next a w' hout =>
        rw [hout] at hafter
        exact allOps hP hcall hinside s rest hafter hn i hi
      · cases hi

end

/-- What lasts holds at all instants of a call, by induction on how many calls may be nested. -/
theorem callInstants (hP : Lasting P) (n : Nat) : Everywhere P n (callInstants n) := by
  -- What is kept for the arguments are no objects by themselves.
  have hattempt {here : Site} {w : World} {n : Nat} (h : P here w) (hn : here.left = n)
      (args : List ScriptValue) : P { here with left := n } (w.keeping (handles args)) := by
    subst hn
    refine hP.keeping h fun k hk => ?_
    obtain ⟨v, -, hv⟩ := List.mem_flatMap.mp hk
    exact CallAction.kind_of_mem_handles hv
  induction n with
  | zero =>
    intro here w h hn b f args
    exact List.forall_mem_singleton.mpr (hattempt h hn args)
  | succ n ih =>
    intro here w h hn b f args
    refine List.forall_mem_cons.mpr ⟨hattempt h hn args, fun i hi => ?_⟩
    -- The body begins where the start of the call ends, one call further in.
    have hafter := hP.outcome (hP.entered (b := b) (f := f) h hn)
      (startCode_composed (b := b) f (.univ args))
    split at hi
    · next t w' hout =>
      rw [hout] at hafter
      exact hP.allOps (callWithin_composed .all n) ih t.scope t.body (hP.workingOn hafter) rfl i hi
    · cases hi

/-- **What lasts holds at all instants of a session**, if it holds at the beginning and starting
another operation keeps it. -/
theorem instants (hP : Lasting P) (hlog : ∀ {here w}, P here w → P here { w with log := [] })
    (ops : List Op) {w : World} (h : P (.top w) w) :
    ∀ i ∈ w.instants ops, P i.site i.world := by
  induction ops generalizing w with
  | nil => exact List.forall_mem_singleton.mpr h
  | cons op rest ih =>
    -- Between operations only the log is cleared.
    have hstart : P (.top w) { w with log := [] } := hlog h
    refine List.forall_mem_cons.mpr ⟨hstart, List.forall_mem_append.mpr ⟨?_, ?_⟩⟩
    · exact hP.op (callWithin_composed .all w.maxDepth) (hP.callInstants w.maxDepth) .top op
        hstart rfl
    · have heff := World.step_effects w.within_all (Op.within_all true op)
      have hafter := hP.effects hstart heff
      have htop : Site.top (w.step op).2 = .top w := by
        unfold Site.top
        rw [heff.fixed.maxDepth]
      exact ih (htop ▸ hafter)

end Lasting

namespace World

/-- **The last instant of a session is its end.** -/
theorem getLast?_instants (ops : List Op) (w : World) :
    (w.instants ops).getLast? = some ⟨.top (w.after ops), .body .top [], w.after ops⟩ := by
  induction ops generalizing w with
  | nil => rfl
  | cons op rest ih =>
    show ((_ :: (_ ++ (w.step op).2.instants rest)) : List Instant).getLast? = _
    rw [← List.cons_append, List.getLast?_append, ih]
    rfl

end World

end ScriptHost
