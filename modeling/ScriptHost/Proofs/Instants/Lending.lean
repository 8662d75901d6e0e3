import ScriptHost.Proofs.Instants.Basic

/-!
# Loans

A body may borrow an object for as long as an inner body runs, and there it may call, borrow again and
be refused. `World.lendings` lists the instants of a session together with the loans that are
outstanding: the recursion is that of the instants, and a borrow that is granted adds a loan for the
body inside it. Without their loans the lendings are the instants (`World.map_point_lendings`).

`Loan.state` is what the loans of an object come to, and what may be lent besides follows from it
(`Loan.lend_eq_none_iff`).
-/

set_option autoImplicit false

namespace ScriptHost

open Act

/-! ### Loans -/

/-- A borrow that lasts. -/
structure Loan where
  object : Ref .object
  mutably : Bool
  deriving DecidableEq

namespace Loan

/-- The object is lent. -/
def Lent (L : List Loan) (r : Ref .object) : Prop := ∃ l ∈ L, l.object = r

/-- The object is lent for writing. -/
def LentMutably (L : List Loan) (r : Ref .object) : Prop := ∃ l ∈ L, l.object = r ∧ l.mutably = true

/-- What the loans of an object come to. -/
def state (L : List Loan) (r : Ref .object) : Borrow :=
  if L.any fun l => l.object = r && l.mutably then .writer
  else .readers (L.countP fun l => l.object = r)

variable {L : List Loan} {r q : Ref .object}

/-- A mutable loan is a loan. -/
theorem LentMutably.lent (h : LentMutably L r) : Lent L r :=
  h.imp fun _ hl => ⟨hl.1, hl.2.1⟩

/-- How the state looks for a mutable loan. -/
theorem any_iff_lentMutably :
    (L.any fun l => l.object = r && l.mutably) = true ↔ LentMutably L r := by
  simp [LentMutably]

/-- A mutable loan makes a writer, whatever else is lent. -/
theorem state_of_lentMutably (h : LentMutably L r) : state L r = .writer :=
  if_pos (any_iff_lentMutably.mpr h)

/-- Without one, each loan is a reader. -/
theorem state_of_not_lentMutably (h : ¬ LentMutably L r) :
    state L r = .readers (L.countP fun l => l.object = r) :=
  if_neg (mt any_iff_lentMutably.mp h)

/-- Nobody is refused as a reader unless the object is lent for writing. -/
theorem read?_eq_none_iff : (state L r).read? = none ↔ LentMutably L r := by
  by_cases h : LentMutably L r
  · simp [state_of_lentMutably h, h, Borrow.read?]
  · simp [state_of_not_lentMutably h, h, Borrow.read?]

/-- There are no readers where nothing is lent. -/
theorem countP_eq_zero_iff : (L.countP fun l => l.object = r) = 0 ↔ ¬ Lent L r := by
  simp [List.countP_eq_zero, Lent]

/-- A writer is refused exactly where the object is lent. -/
theorem write?_eq_none_iff : (state L r).write? = none ↔ Lent L r := by
  by_cases h : LentMutably L r
  · simp [state_of_lentMutably h, h.lent, Borrow.write?]
  · rw [state_of_not_lentMutably h, ← not_iff_not, ← countP_eq_zero_iff]
    cases L.countP fun l => l.object = r <;> simp [Borrow.write?]

/-- The loans exclude one more: for writing all of them do, for reading those for writing. -/
def Excluded (L : List Loan) (r : Ref .object) : Bool → Prop
  | true => Lent L r
  | false => LentMutably L r

/-- **Nobody is refused but where the loans exclude it.** -/
theorem lend_eq_none_iff {mutably : Bool} :
    (if mutably then (state L r).write? else (state L r).read?) = none ↔ Excluded L r mutably := by
  cases mutably with
  | true => exact write?_eq_none_iff
  | false => exact read?_eq_none_iff

/-- Another object's loans are its own. -/
theorem state_cons_ne (l : Loan) (h : q ≠ l.object) : state (l :: L) q = state L q := by
  have hne : ¬ l.object = q := fun heq => h heq.symm
  simp [state, hne]

/-- One more loan. -/
theorem state_cons {mutably : Bool} {s : Borrow}
    (h : (if mutably then (state L r).write? else (state L r).read?) = some s) :
    state (⟨r, mutably⟩ :: L) r = s := by
  cases mutably with
  | true =>
    obtain rfl : s = .writer := by
      simp only [if_pos, Borrow.write?] at h
      split at h
      · exact (Option.some.inj h).symm
      · cases h
    exact state_of_lentMutably ⟨_, List.mem_cons_self, rfl, rfl⟩
  | false =>
    -- A reader was admitted, so nobody writes, and the reader does not either.
    have hno : ¬ LentMutably L r := fun hl => by
      rw [read?_eq_none_iff.mpr hl] at h
      cases h
    have hno' : ¬ LentMutably (⟨r, false⟩ :: L) r := by
      rintro ⟨l, hl, hobject, hmutably⟩
      rcases List.mem_cons.mp hl with rfl | hl
      · cases hmutably
      · exact hno ⟨l, hl, hobject, hmutably⟩
    rw [state_of_not_lentMutably hno'] at *
    rw [state_of_not_lentMutably hno] at h
    simp only [Borrow.read?, Bool.false_eq_true, if_false] at h
    simp [← Option.some.inj h]

end Loan

/-- An instant with the loans that are outstanding there, the innermost first. -/
structure Lending where
  loans : List Loan
  point : Instant

/-! ### The instants with their loans -/

/-- The lendings of the call of a function, made while there are these loans. -/
abbrev CallLendings := List Loan → Site → Bool → FunctionRef → List ScriptValue → World → List Lending

/-- The lendings of a call: those inside it, with the same loans around. -/
def Calling.lendings (inside : CallLendings) (L : List Loan) (here : Site) (w : World) :
    Calling → List Lending
  | .apply b (.function f) args => inside L here b f args w
  | .apply _ _ _ => []
  | .resume c args => match (w.coroutine c).status with
    | .suspended => inside L here true (w.coroutine c).function args (w.resuming c)
    | _ => []

/-- The lendings of an action are those of the call that it asks for. -/
def CallAction.lendings (inside : CallLendings) (L : List Loan) (s : Scope) (here : Site)
    (w : World) (a : CallAction) : List Lending :=
  match (a.prepare s).outcome w with
  | (.ok (.inl q), w') => q.calling.lendings inside L here (w'.keeping q.kept)
  | _ => []

mutual

/-- The lendings inside an operation: a borrow that is granted is a loan for its body. -/
def Op.lendings (call : Caller) (inside : CallLendings) (s : Scope) :
    Op → List Loan → Site → World → List Lending
  | .act _ (.call a), L, here, w => a.lendings inside L s here w
  | .branch _ cond yes no, L, here, w => match (cond.eval s).outcome w with
    | (.ok v, w') =>
      if v.isTruthy then Op.allLendings call inside s yes L here w'
      else Op.allLendings call inside s no L here w'
    | (.error _, _) => []
  | .borrow _ object mutably body, L, here, w => match (objectOrReceiver s object).outcome w with
    | (.ok o, w') => match (w'.object o).refusal? mutably .slots with
      -- The loan lasts as long as the body and is not there after it.
      | none => Op.allLendings call inside s body (⟨o.ref, mutably⟩ :: L)
        (here.workingOn (handles o)) ((w'.keeping (handles o)).lent o mutably)
      | some _ => []
    | (.error _, _) => []
  | _, _, _, _ => []

/-- The lendings of a body. -/
def Op.allLendings (call : Caller) (inside : CallLendings) (s : Scope) :
    List Op → List Loan → Site → World → List Lending
  | [], L, here, w => [⟨L, here, .body s [], w⟩]
  | op :: rest, L, here, w =>
    ⟨L, here, .body s (op :: rest), w⟩ :: (Op.lendings call inside s op L here w ++
      match (op.run call s).outcome w with
      | (.ok (.answer _), w') => Op.allLendings call inside s rest L here w'
      | _ => [])

end

/-- The lendings of a call: a callee runs under the loans of its caller. -/
def callLendings : Nat → CallLendings
  | 0, L, here, b, f, args, w =>
    [⟨L, { here with left := 0 }, .call b f args, w.keeping (handles args)⟩]
  | n + 1, L, here, b, f, args, w =>
    ⟨L, { here with left := n + 1 }, .call b f args, w.keeping (handles args)⟩ ::
      match (startCode b f args).outcome (w.entered b f) with
      | (.ok t, w') => Op.allLendings (callWithin n) (callLendings n) t.scope t.body L
        ((here.within f n).workingOn t.given) (w'.keeping t.given)
      | (.error _, _) => []

/-- **The lendings of a session**, in order. -/
def World.lendings (w : World) : List Op → List Lending
  | [] => [⟨[], .top w, .body .top [], w⟩]
  | op :: rest =>
    let v : World := { w with log := [] }
    ⟨[], .top v, .body .top (op :: rest), v⟩ ::
      (op.lendings (callWithin v.maxDepth) (callLendings v.maxDepth) .top [] (.top v) v ++
        (w.step op).2.lendings rest)

/-! ### They are the instants -/

/-- Without their loans, the lendings of calls are their instants. -/
def CallLendings.Over (inside : CallLendings) (instants : CallInstants) : Prop :=
  ∀ L here b f args w, (inside L here b f args w).map Lending.point = instants here b f args w

section Over

variable {inside : CallLendings} {instants : CallInstants} {call : Caller}

/-- The lendings of a call are at its instants. -/
theorem Calling.map_point_lendings (h : inside.Over instants) (c : Calling) (L : List Loan)
    (here : Site) (w : World) :
    (c.lendings inside L here w).map Lending.point = c.instants instants here w := by
  cases c with
  | apply b callee args =>
    cases callee with
    | function f => exact h L here b f args w
    | _ => rfl
  | resume c args =>
    simp only [Calling.lendings, Calling.instants]
    cases (w.coroutine c).status with
    | suspended => exact h L here true _ args _
    | _ => rfl

/-- Those of an action are at its instants. -/
theorem CallAction.map_point_lendings (h : inside.Over instants) (a : CallAction) (L : List Loan)
    (s : Scope) (here : Site) (w : World) :
    (a.lendings inside L s here w).map Lending.point = a.instants instants s here w := by
  unfold CallAction.lendings CallAction.instants
  rcases (a.prepare s).outcome w with ⟨_ | q | _, w'⟩
  · rfl
  · exact Calling.map_point_lendings h q.calling L here _
  · rfl

mutual

/-- Those of an operation as well: the recursions are the same, but for the loans. -/
theorem Op.map_point_lendings (h : inside.Over instants) (s : Scope) :
    ∀ (op : Op) (L : List Loan) (here : Site) (w : World),
      (op.lendings call inside s L here w).map Lending.point = op.instants call instants s here w
  | .act d (.call a), L, here, w => by
    unfold Op.lendings Op.instants
    exact a.map_point_lendings h L s here w
  | .branch d cond yes no, L, here, w => by
    unfold Op.lendings Op.instants
    rcases (cond.eval s).outcome w with ⟨_ | v, w'⟩
    · rfl
    · simp only
      cases v.isTruthy with
      | true => exact Op.map_point_allLendings h s yes L here w'
      | false => exact Op.map_point_allLendings h s no L here w'
  | .borrow d object mutably body, L, here, w => by
    unfold Op.lendings Op.instants
    rcases (objectOrReceiver s object).outcome w with ⟨_ | o, w'⟩
    · rfl
    -- A borrow adds a loan and goes on as before.
    · simp only
      cases (w'.object o).refusal? mutably .slots with
      | none => exact Op.map_point_allLendings h s body _ _ _
      | some _ => rfl
  | .act _ (.value _), _, _, _ | .act _ (.table _), _, _, _ | .act _ (.error _), _, _, _
  | .act _ (.conversion _), _, _, _ | .act _ (.cls _), _, _, _ | .act _ (.proxy _), _, _, _
  | .giveScript _ _, _, _, _ | .giveHost _ _, _, _, _ | .function .., _, _, _
  | .hostFunction .., _, _, _ | .cls _ _, _, _, _ => by
    simp [Op.lendings, Op.instants]

/-- And those of a body. -/
theorem Op.map_point_allLendings (h : inside.Over instants) (s : Scope) :
    ∀ (p : List Op) (L : List Loan) (here : Site) (w : World),
      (Op.allLendings call inside s p L here w).map Lending.point =
        Op.allInstants call instants s p here w
  | [], L, here, w => by
    unfold Op.allLendings Op.allInstants
    rfl
  | op :: rest, L, here, w => by
    unfold Op.allLendings Op.allInstants
    -- Both lists go on from the world the operation leaves, or end with it.
    rw [List.map_cons, List.map_append, Op.map_point_lendings h s op L here w]
    congr 2
    rcases (op.run call s).outcome w with ⟨_ | _ | _, w'⟩
    · rfl
    · exact Op.map_point_allLendings h s rest L here w'
    · rfl

end

end Over

/-- And those of a call, however deep. -/
theorem callLendings_over (n : Nat) : (callLendings n).Over (callInstants n) := by
  induction n with
  | zero => exact fun _ _ _ _ _ _ => rfl
  | succ n ih =>
    intro L here b f args w
    unfold callLendings callInstants
    rw [List.map_cons]
    congr 1
    rcases (startCode b f args).outcome (w.entered b f) with ⟨_ | t, w'⟩
    · rfl
    · exact Op.map_point_allLendings ih t.scope t.body L _ _

/-- **Without their loans, the lendings of a session are its instants.** -/
theorem World.map_point_lendings (ops : List Op) (w : World) :
    (w.lendings ops).map Lending.point = w.instants ops := by
  induction ops generalizing w with
  | nil => rfl
  | cons op rest ih =>
    unfold World.lendings World.instants
    rw [List.map_cons, List.map_append, ih]
    congr 2
    exact Op.map_point_lendings (callLendings_over _) .top op [] _ _

end ScriptHost
