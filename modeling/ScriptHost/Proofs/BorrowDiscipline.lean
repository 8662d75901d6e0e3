import ScriptHost.Proofs.Instants.Adequacy
import ScriptHost.Proofs.Instants.Belonging
import ScriptHost.Proofs.Proxies.Gone

/-!
# The discipline of borrows

An object can be borrowed by many readers or by one writer. What is outstanding at a point of a run are the
loans of the borrows around it, however they are nested, and they settle what an access made there comes
to: a getter borrows for reading, so it is refused by a loan for writing only, and a setter borrows for
writing and is refused by any loan. `World.ReadUnder` and `World.WrittenUnder` say so of one access, and
`World.Disciplined` of a world. Whatever becomes of an access, the borrows that were outstanding still are
afterwards, and no others (`World.restoresBorrows`).
-/

set_option autoImplicit false

namespace ScriptHost

open Act

/-! ### Refusals -/

namespace World.Outstanding

variable {L : List Loan} {w : World} (h : w.Outstanding L)
include h

/-- An object refuses to be lent exactly when a borrow that is still out excludes it. -/
theorem lend_eq_none_iff {o : ObjectRef} {mutably : Bool} :
    (w.object o).lend mutably = none ↔ Loan.Excluded L o.ref mutably := by
  rw [← Loan.lend_eq_none_iff, ← h.borrows o]
  rfl

/-- Whom the loans exclude is told that the object is borrowed. -/
theorem refused {o : ObjectRef} {mutably : Bool} (hlent : Loan.Excluded L o.ref mutably) :
    (w.object o).refusal? mutably .slots = some (.objectBorrowed (w.object o).cls.name) := by
  unfold Object.refusal?
  rw [h.lend_eq_none_iff.mpr hlent]
  rfl

/-- Anybody else gets the object. -/
theorem granted {o : ObjectRef} {mutably : Bool} (hlent : ¬ Loan.Excluded L o.ref mutably) :
    (w.object o).refusal? mutably .slots = none := by
  have hlend : ¬ ((w.object o).lend mutably).isNone = true := fun hnone =>
    hlent (h.lend_eq_none_iff.mp (Option.isNone_iff_eq_none.mp hnone))
  unfold Object.refusal?
  rw [if_neg hlend, if_neg (not_not_intro (h.regular.payload o))]

end World.Outstanding

/-! ### Accesses -/

/-- What a setter does that got its object: it stores the value or refuses it. -/
def Setter.reached (s : Setter) (o : ObjectRef) (x : HostValue) (w : World) :
    Except HostFailure Unit × World :=
  match s with
  | .slot name => (.ok (), { w with
      objects := w.objects.set o.ref { w.object o with
        payload := .slots ((w.object o).payload.slotsOf.write name x) } })
  | .refuse message => (.error (.host message), w)

namespace World

/-- **What a read of a member of an object comes to** under the loans. The getter was started in either
case. -/
structure ReadUnder (L : List Loan) (w : World) (p : Proxy) (o : ObjectRef) (key : ScriptValue)
    (m : Member) : Prop where
  /-- Nobody writes: the value of the slot goes into script. -/
  granted : ¬ Loan.LentMutably L o.ref → ∃ slot v w', m.getter? = some (.slot slot) ∧
    (toScript p.via ((w.object o).payload.slotsOf.read slot) : Act HostFailure ScriptValue).outcome
      (w.noted (.getter p.via o.cls m)) = (.ok v, w') ∧
    (readProxy p key).outcome w = (.ok v, w')
  /-- Somebody writes: nothing but a failure. -/
  refused : Loan.LentMutably L o.ref → (readProxy p key).outcome w =
    (.error (.binding (.objectBorrowed o.cls.name)), w.noted (.getter p.via o.cls m))

/-- **What a write to a member of an object comes to** under the loans, where the conversion of the value
has left `w₁` and given `x`. -/
structure WrittenUnder (L : List Loan) (w : World) (p : Proxy) (o : ObjectRef) (key v : ScriptValue)
    (m : Member) (s : Setter) (x : HostValue) (w₁ : World) : Prop where
  /-- Nobody borrows: the setter gets its object. -/
  granted : ¬ Loan.Lent L o.ref → (writeProxy p key v).outcome w =
    s.reached o x (w₁.noted (.setter p.via o.cls m x))
  /-- Somebody borrows: nothing but a failure. -/
  refused : Loan.Lent L o.ref → (writeProxy p key v).outcome w =
    (.error (.binding (.objectBorrowed o.cls.name)), w₁.noted (.setter p.via o.cls m x))
  /-- The conversion has left every object as it was. -/
  kept : ∀ r y, w.objects.get? r = some y → w₁.objects.get? r = some y

/-- The text of an instance without a text of its own. -/
def bracketed (o : ObjectRef) : String := "[" ++ o.cls.name ++ "]"

/-- **The loans settle what accesses come to.** -/
structure Disciplined (L : List Loan) (w : World) : Prop where
  /-- Every object is borrowed as its loans say. -/
  state : ∀ o : ObjectRef, (w.object o).borrow = Loan.state L o.ref
  read : ∀ u p o key m g, w.proxy? u = some p → w.Finds p (.object o) key [m] →
    m.getter? = some g → w.ReadUnder L p o key m
  write : ∀ u p o key v m ty s x w₁, w.proxy? u = some p → w.Finds p (.object o) key [m] →
    m.accepts? = some (ty, s) → (toHost p.via ty v).outcome w = (.ok x, w₁) →
    w.WrittenUnder L p o key v m s x w₁
  /-- The text of an instance: the one that its class gives, unless somebody writes. -/
  display : ∀ u p o, w.proxy? u = some p → w.targetOf? p = some (.object o) →
    (Loan.LentMutably L o.ref → w.display (.userdata u) = bracketed o) ∧
    (¬ Loan.LentMutably L o.ref → w.display (.userdata u) =
      ((w.cls o.cls).display.map fun parts =>
        HostClass.displayText parts (w.object o).payload.slotsOf).getD (bracketed o))

/-- Every object is borrowed as it was. -/
def SameBorrows (w w' : World) : Prop := ∀ o : ObjectRef, (w'.object o).borrow = (w.object o).borrow

/-- **Accesses leave the borrows of all objects as they were**, whatever becomes of them. -/
structure RestoresBorrows (w : World) : Prop where
  read : ∀ p key, w.SameBorrows ((readProxy p key).outcome w).2
  write : ∀ p key v, w.SameBorrows ((writeProxy p key v).outcome w).2
  index : ∀ b target key, w.SameBorrows ((index b target key).outcome w).2
  setIndex : ∀ b target key v, w.SameBorrows ((setIndex b target key v).outcome w).2
  call : ∀ n b f args, w.SameBorrows ((callWithin n b f args).outcome w).2
  run : ∀ n s (op : Op), w.SameBorrows ((op.run (callWithin n) s).outcome w).2

end World

/-- What is composed of the operations leaves the borrows as they were. -/
theorem Act.Composed.sameBorrows {ε α : Type} [Names ε] {b : Bool} {m : Act ε α}
    {Q : Set Mention → α → Prop} (h : Composed .all b Set.univ m Q) (w : World) :
    w.SameBorrows (m.outcome w).2 :=
  (h.effects w.within_all).1.keepsBorrows.borrow_eq

namespace World

/-- Every access is composed of the operations, and each of those gives back what it borrows, also when
it ends in an error. -/
theorem restoresBorrows (w : World) : w.RestoresBorrows where
  read _ key := (readProxy_composed (b := true) (.inr rfl) (.univ _) key).sameBorrows w
  write _ key v := (writeProxy_composed (b := true) (.inr rfl) (.univ _) key (.univ v)).sameBorrows w
  index b target key := (index_composed (.self b) target key).sameBorrows w
  setIndex b target key v := (setIndex_composed (.self b) target (.univ key) (.univ v)).sameBorrows w
  call n b f args := (callWithin_composed .all n b b f args (.self b) (.univ args)).sameBorrows w
  run n s op := (Op.run_composed (callWithin_composed .all n) (.univ s)
    (fun h => absurd h Bool.false_ne_true) op (Op.within_all false op)).sameBorrows w

namespace Outstanding

variable {L : List Loan} {w : World} (h : w.Outstanding L) {u : UserdataRef} {p : Proxy}
  (hp : w.proxy? u = some p) {o : ObjectRef}
include h hp

/-- The object that a proxy stands for is of the class that its reference names. -/
theorem cls_eq (ht : p.target = some (.object o)) : (w.object o).cls = o.cls := by
  obtain ⟨x, hx, hcls⟩ := h.faithful.has_of_proxy hp ht
  rw [object_of_get? hx]
  exact hcls

/-- What a read comes to. The getter is the one of a slot, since the class is regular, so that nothing
but the borrow can fail it. -/
theorem readUnder {key : ScriptValue} {m : Member} {g : Getter} (hfinds : w.Finds p (.object o) key [m])
    (hg : m.getter? = some g) : w.ReadUnder L p o key m := by
  have hbelongs := belongs_of_finds h.faithful h.regular hp hfinds m List.mem_cons_self
  obtain ⟨slot, rfl⟩ := (h.regular.member hbelongs.declared).getter_slot hbelongs.static hg
  have hread := ((denotes_of_finds h.faithful h.regular hp hfinds).reading.getter m _ rfl hg).1
  have hslot := outcome_runGetter_slot o.cls.name m.name o slot (w.noted (.getter p.via o.cls m))
  have hobject : (w.noted (.getter p.via o.cls m)).object o = w.object o := rfl
  rw [hobject] at hslot
  constructor
  -- The object is lent for reading, and what a slot holds always becomes a script value.
  case granted =>
    intro hlent
    rw [h.granted (show ¬ Loan.Excluded L o.ref false from hlent)] at hslot
    obtain ⟨v, w', hv, -⟩ := toScript_ok (ε := HostFailure) p.via
      ((w.object o).payload.slotsOf.read slot) (w.noted (.getter p.via o.cls m))
    exact ⟨slot, v, w', hg, hv, (hread.trans (outcome_bind_ok hslot)).trans hv⟩
  -- The getter fails before it looks at the slot, and the read with it.
  case refused =>
    intro hlent
    rw [h.refused (show Loan.Excluded L o.ref false from hlent), h.cls_eq hp hfinds.named] at hslot
    exact hread.trans (outcome_bind_error hslot)

/-- What a write comes to. The value is converted before the object is borrowed, so that the loans are
asked in the world which the conversion leaves behind; it makes things and borrows nothing, and the
object is the same in both. -/
theorem writtenUnder {key v : ScriptValue} {m : Member} {ty : HostType} {s : Setter} {x : HostValue}
    {w₁ : World} (hfinds : w.Finds p (.object o) key [m]) (ha : m.accepts? = some (ty, s))
    (hconv : (toHost p.via ty v).outcome w = (.ok x, w₁)) :
    w.WrittenUnder L p o key v m s x w₁ := by
  have hdenotes := denotes_of_finds h.faithful h.regular hp hfinds
  obtain ⟨hwrite, hfills, -⟩ := (hdenotes.writing v).setter m ty s x w₁ rfl ha hconv
  have hkept (r : Ref .object) (y : Object) (hy : w.objects.get? r = some y) :
      w₁.objects.get? r = some y :=
    (hfills.objects (Nat.le_refl _) (Array.getElem?_eq_some_iff.mp hy).1).trans hy
  -- So the object is borrowed as it was before the conversion.
  have hobject : w₁.object o = w.object o := by
    obtain ⟨y, hy, -⟩ := h.faithful.has_of_proxy hp hfinds.named
    rw [object_of_get? hy, object_of_get? (hkept _ y hy)]
  -- The setter is started in any case, and decides by the borrows then.
  have hset := outcome_runSetter_some o.cls.name m.name o x s (w₁.noted (.setter p.via o.cls m x))
  have hnoted : (w₁.noted (.setter p.via o.cls m x)).object o = w.object o := hobject
  rw [hnoted] at hset
  constructor
  case granted =>
    intro hlent
    rw [h.granted (show ¬ Loan.Excluded L o.ref true from hlent)] at hset
    refine (hwrite.trans hset).trans ?_
    unfold Setter.reached
    rw [hnoted]
    cases s <;> rfl
  case refused =>
    intro hlent
    rw [h.refused (show Loan.Excluded L o.ref true from hlent), h.cls_eq hp hfinds.named] at hset
    exact hwrite.trans hset
  case kept => exact hkept

/-- What a live proxy displays is what its class gives, or its name. -/
theorem display_eq (ht : w.targetOf? p = some (.object o)) :
    w.display (.userdata u) = (w.classDisplay? o).getD (bracketed o) := by
  obtain ⟨t, htarget, hreach⟩ := Option.bind_eq_some_iff.mp ht
  obtain rfl := reach?_eq_some hreach
  have hname := h.regular.proxies u p (proxy?_eq_some.mp hp) _ htarget
  show w.userdataDisplay u = _
  unfold userdataDisplay proxyDisplay bracketed
  rw [userdatum_of_proxy hp]
  simp only [htarget, Option.isNone_some, Bool.false_eq_true, if_false, ht, hname]
  rfl

/-- What a live proxy displays. The text that a class declares is made from the slots, which have to be
borrowed for it. -/
theorem displayUnder (ht : w.targetOf? p = some (.object o)) :
    (Loan.LentMutably L o.ref → w.display (.userdata u) = bracketed o) ∧
    (¬ Loan.LentMutably L o.ref → w.display (.userdata u) =
      ((w.cls o.cls).display.map fun parts =>
        HostClass.displayText parts (w.object o).payload.slotsOf).getD (bracketed o)) := by
  rw [h.display_eq hp ht]
  constructor
  · intro hlent
    -- Without slots the class gives no text, and the name is left.
    have hread : w.readableSlots? o = none := by
      simp only [readableSlots?, h.refused (show Loan.Excluded L o.ref false from hlent)]
    unfold classDisplay?
    rw [hread]
    cases (w.cls o.cls).display <;> rfl
  · intro hlent
    have hread : w.readableSlots? o = some (w.object o).payload.slotsOf := by
      simp only [readableSlots?, h.granted (show ¬ Loan.Excluded L o.ref false from hlent)]
    unfold classDisplay?
    rw [hread]
    cases (w.cls o.cls).display <;> rfl

end Outstanding

/-- Where the loans are the outstanding ones, they settle everything. -/
theorem Outstanding.disciplined {L : List Loan} {w : World} (h : w.Outstanding L) :
    w.Disciplined L where
  state := h.borrows
  read _ _ _ _ _ _ hp hfinds hg := h.readUnder hp hfinds hg
  write _ _ _ _ _ _ _ _ _ _ hp hfinds ha hconv := h.writtenUnder hp hfinds ha hconv
  display _ _ _ hp ht := h.displayUnder hp ht

end World

/-- **The discipline of borrows.** The lendings of a session are its instants together with the loans of the
borrows around them, and the instants are those of the run. At every instant, and in whatever comes about
from there before anything else is lent, these loans settle what is outstanding and what becomes of
accesses; and no access, nor any call or operation, changes what is outstanding. -/
theorem borrow_discipline :
    (∀ (policy : Policy) (c : Config) layout (ops : Program),
      let lendings := (World.startUnder policy c layout).lendings ops
      lendings.map Lending.point = (World.startUnder policy c layout).instants ops ∧
      (∀ x ∈ lendings, ∀ w, x.point.world.Comes w → w.Disciplined x.loans) ∧
      (World.startUnder policy c layout).AccountedBy ops (lendings.map Lending.point)) ∧
    ∀ w : World, w.RestoresBorrows := by
  refine ⟨fun policy c layout ops => ?_, World.restoresBorrows⟩
  intro lendings
  have hpoints : lendings.map Lending.point = _ := World.map_point_lendings ops _
  refine ⟨hpoints, fun x hx w hw => ?_, hpoints ▸ World.accountedBy_instants ops rfl⟩
  exact (hw.outstanding (World.outstanding_lendings policy c layout ops x hx)).disciplined

namespace BorrowDiscipline

/-- The result is stored under a name and is not told. -/
def into (name : String) : Disposition := ⟨some name, none, false, true⟩

/-- The result is neither stored nor told. -/
def quietly : Disposition := ⟨none, none, false, true⟩

/-- A lamp is lent to two readers, one inside the other, and then to a writer. -/
def session : Program :=
  [.cls (into "Lamp") ⟨"Lamp", [.field "On" (.plain .bool) "on" true none],
      some [("on", .bool false)], some [.text "lamp ", .slot "on"]⟩,
    .act (into "lamp") (.cls (.construct "Lamp")),
    .act (into "p") (.proxy (.wrap (some "lamp"))),
    .borrow quietly (some "lamp") false [.borrow quietly (some "lamp") false []],
    .borrow quietly (some "lamp") true []]

/-- The lendings of the session. -/
def lendings : List Lending :=
  (World.startUnder .permitAll .default fun r => r.index).lendings session

/-- The proxy of the lamp. -/
def proxy : Proxy := ⟨some (.object ⟨⟨0⟩, ⟨⟨0⟩, "Lamp"⟩⟩), ⟨0⟩, "Lamp"⟩

/-- The loans of a lending, and there the outcome of a read and of a write, and the text of the proxy. -/
def told (i : Nat) :
    Option (List Loan × Except HostFailure ScriptValue × Except HostFailure Unit × String) :=
  lendings[i]?.map fun x => (x.loans,
    ((readProxy proxy (.string "On")).outcome x.point.world).1,
    ((writeProxy proxy (.string "On") (.boolean true)).outcome x.point.world).1,
    x.point.world.display (.userdata ⟨0⟩))

end BorrowDiscipline

open BorrowDiscipline in
/-- Inside the two readers the lamp can be read and not be written. Inside the writer it can be neither,
and its text is its bracketed name. -/
theorem borrow_discipline_lamp :
    told 5 = some ([⟨⟨0⟩, false⟩, ⟨⟨0⟩, false⟩], .ok (.boolean false),
      .error (.binding (.objectBorrowed "Lamp")), "lamp false") ∧
    told 8 = some ([⟨⟨0⟩, true⟩], .error (.binding (.objectBorrowed "Lamp")),
      .error (.binding (.objectBorrowed "Lamp")), "[Lamp]") ∧
    ∀ x ∈ lendings, x.point.world.Disciplined x.loans := by
  refine ⟨by decide +kernel, by decide +kernel, fun x hx => ?_⟩
  obtain ⟨hsessions, -⟩ := borrow_discipline
  exact (hsessions .permitAll .default _ session).2.1 x hx _ .refl

end ScriptHost
