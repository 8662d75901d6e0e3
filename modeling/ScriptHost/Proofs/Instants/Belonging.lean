import ScriptHost.Proofs.Afterlife.Disposal
import ScriptHost.Proofs.Instants.Outstanding
import ScriptHost.Proofs.OneMember

/-!
# Members and their targets

A member of an object is given the object, and a static one nothing. The checks for this are made where
the member runs, but the lookups before have settled it: in a world that is faithful and regular what is
found belongs to its target (`World.belongs_of_finds`). Its getter reads a slot of an object or gives the
constant of a class, its setter has an object, and a method runs on what it was read from
(`World.Belongs.methodReceiver_eq`). An object of a regular world holds slots, so an access that is refused
there finds its object borrowed (`Object.refusal?_eq_borrowed`).
-/

set_option autoImplicit false

namespace ScriptHost

open Act

/-! ### Members of classes and of instances -/

/-- A getter that is found is the one that was declared. -/
theorem Property.getter_of_getter? {p : Property} {g : Getter}
    (hg : (Member.property p).getter? = some g) : p.getter = some g := by
  cases hindexer : p.isIndexer with
  | true => cases (if_pos hindexer).symm.trans hg
  | false => exact (if_neg (Bool.eq_false_iff.mp hindexer)).symm.trans hg

namespace Member.Regular

variable {m : Member} (h : m.Regular)
include h

/-- Instance members read slots. -/
theorem getter_slot (hstatic : m.isStatic = false) {g : Getter} (hg : m.getter? = some g) :
    ∃ slot, g = .slot slot := by
  cases m with
  | method x => cases hg
  | property p =>
    cases g with
    | slot slot => exact ⟨slot, rfl⟩
    | constant v => exact absurd (Property.getter_of_getter? hg) (h.instance_ hstatic v)
  | field f => exact ⟨f.slot, (Option.some.inj hg).symm⟩

/-- Static members give constants. -/
theorem getter_constant (hstatic : m.isStatic = true) {g : Getter} (hg : m.getter? = some g) :
    ∃ v, g = .constant v := by
  cases m with
  | method x => cases hg
  | property p =>
    obtain ⟨⟨v, hv⟩, -⟩ := h.static hstatic
    exact ⟨v, Option.some.inj ((Property.getter_of_getter? hg).symm.trans hv)⟩
  | field f => cases hstatic

/-- Static members accept nothing. -/
theorem accepts_none (hstatic : m.isStatic = true) : m.accepts? = none := by
  cases m with
  | method x => rfl
  | property p =>
    simp only [accepts?, (h.static hstatic).2, Option.map_none, ite_self]
  | field f => cases hstatic

end Member.Regular

/-! ### Refusals -/

/-- **What holds slots is refused for its borrows only.** -/
theorem Object.refusal?_eq_borrowed {x : Object} (hx : x.payload.type = .slots) {mutably : Bool}
    {e : AccessError} (h : x.refusal? mutably .slots = some e) : e = .objectBorrowed x.cls.name := by
  unfold refusal? at h
  split at h
  · exact (Option.some.inj h).symm
  · rw [if_neg (not_not_intro hx)] at h
    cases h

namespace World

/-! ### What belongs to a target -/

/-- The object is an instance of this very class, and holds what the class holds. -/
structure Instance (w : World) (c : ClassRef) (o : ObjectRef) : Prop where
  named : o.cls = c
  made : w.Has (.object o)
  holds : (w.object o).payload.type = (w.cls c).holds

/-- **The member belongs to the target**: the class of the target declares it; on the class it is
static, and on an object it is not, and the object is an instance of that very class. -/
structure Belongs (w : World) (t : Target) (m : Member) : Prop where
  declared : w.Declares t.cls m
  static : m.isStatic = !t.isInstance
  instance_ : ∀ o, t = .object o → w.Instance t.cls o

variable {w : World}

/-- An object that is there has the members of its class. -/
theorem Regular.instance_ (hw : w.Regular) {o : ObjectRef} (ho : w.Has (.object o)) :
    w.Instance o.cls o :=
  ⟨rfl, ho, (hw.payload o).trans (hw.holds o.cls).symm⟩

/-- **What is found through a proxy belongs to its target.** -/
theorem belongs_of_finds (hfaithful : w.Faithful) (hregular : w.Regular) {u : UserdataRef} {p : Proxy}
    (hp : w.proxy? u = some p) {t : Target} {key : ScriptValue} {S : List Member}
    (h : w.Finds p t key S) : ∀ m ∈ S, w.Belongs t m := by
  intro m hm
  -- What is no key finds nothing, so there is a key.
  obtain ⟨k, -, hk⟩ : ∃ k, MemberKey.ofValue? key = some k ∧
      m ∈ (w.binding p.via).resolve (w.cls t.cls) k t.isInstance := by
    rw [← h.found] at hm
    cases hkey : MemberKey.ofValue? key with
    | none =>
      rw [hkey] at hm
      cases hm
    | some k =>
      rw [hkey] at hm
      exact ⟨k, rfl, hm⟩
  obtain ⟨hdeclared, hstatic⟩ := hregular.declares_of_resolve hk
  refine ⟨hdeclared, hstatic, ?_⟩
  rintro o rfl
  exact hregular.instance_ (hfaithful.has_of_proxy hp h.named)

/-- So the proxy denotes them: fields are found on objects only. -/
theorem denotes_of_finds (hfaithful : w.Faithful) (hregular : w.Regular) {u : UserdataRef} {p : Proxy}
    (hp : w.proxy? u = some p) {t : Target} {key : ScriptValue} {S : List Member}
    (h : w.Finds p t key S) : w.Denotes p t key S := by
  refine ⟨h, fun m hm hfield => ?_⟩
  have hbelongs := belongs_of_finds hfaithful hregular hp h m hm
  cases m with
  | field f =>
    -- No field is static, so a field was looked up for an object.
    have hinstance : t.isInstance = true := by simpa [Member.isStatic] using hbelongs.static
    exact t.isInstance_eq.symm.trans hinstance
  | _ => cases hfield

/-- **A function that was made of a method names a target of it.** -/
theorem Outstanding.belongs_of_function {L : List Loan} (hw : w.Outstanding L) {f : FunctionRef}
    {via : BindingRef} {t : Target} {x : Method} (hf : (w.function f).code = .method via t x) :
    w.Belongs t (.method x) := by
  -- A reference without a function gives the fallback, which runs no method.
  have hplaced : (w.function f).code.Placed w := by
    unfold World.function at hf ⊢
    cases hget : w.functions.get? f with
    | some fn => exact hw.regular.functions f fn hget
    | none => trivial
  rw [hf] at hplaced
  refine ⟨hplaced.1, hplaced.2, ?_⟩
  rintro o rfl
  have hnamed : Mention.object o ∈ named (w.function f) := by
    show Mention.object o ∈ named (w.function f).code
    rw [hf]
    exact List.mem_cons_self
  exact hw.regular.instance_ (hw.faithful.known.function f _ hnamed rfl)

/-- **A method runs on what it was read from**, on the object or on nothing. -/
theorem Belongs.methodReceiver_eq {t : Target} {x : Method} (h : w.Belongs t (.method x)) :
    methodReceiver t x = pure t.receiver? := by
  have hstatic : x.isStatic = !t.isInstance := h.static
  unfold methodReceiver
  rw [hstatic]
  cases t <;> rfl

end World

/-! ### Getters -/

namespace Act

/-- A getter that reads a slot borrows its object. -/
theorem outcome_runGetter_slot (n m : String) (o : ObjectRef) (slot : String) (w : World) :
    (runGetter n m (some o) (.slot slot)).outcome w =
      match (w.object o).refusal? false .slots with
      | some e => (.error (.binding e), w)
      | none => (.ok ((w.object o).payload.slotsOf.read slot), w) := by
  have hread : (runGetter n m (some o) (.slot slot)).outcome w =
      (borrowed o false .slots >>= fun ob => pure (ob.payload.slotsOf.read slot)).outcome w := rfl
  rw [hread, outcome_bind, outcome_borrowed]
  cases (w.object o).refusal? false .slots <;> rfl

end Act

end ScriptHost
