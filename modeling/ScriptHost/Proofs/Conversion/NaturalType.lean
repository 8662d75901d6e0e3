import ScriptHost.Proofs.Conversion.ExactInteger
import ScriptHost.Proofs.Conversion.Transparent

/-!
# Natural types are lossless

An error that turns a value down says what the value is convertible to: it names the natural type. This
module shows that the name can be taken at its word. For an ordinary value, which is one that is neither nil
nor some userdata other than a proxy of a living object, there is exactly one type that the name stands for
(`World.Advertises`), the value converts to it, and what it becomes goes back into script as an equal value
(`Lossless`).

Everything follows from `World.naturalHostType?`, the type as a function of the value: it is the type that is
advertised (`World.advertises_iff`), because no two types of the kind in question share a name, and it is
lossless by cases on the value (`World.Advertises.lossless`). Two of them need an argument. A float that is
called an integer is one, and is below `naturalIntegerBound`, so that it fits and is equal to the integer that
comes back. The object of a proxy comes back as the proxy that the binding has for it, which is an equal one.

Where hints come from is settled by recursion on the type (`convertWith_faults`): a hint is about the value
itself, or about an element of the table that the value is.
-/

set_option autoImplicit false

namespace ScriptHost

open Act

/-! ### What a name stands for -/

namespace HostType

/-- The types that natural types name, those of objects apart. -/
def naturals : List HostType :=
  [.bool, .integer ⟨true, .w64⟩, .double, .string, .table, .function]

/-- The types that are neither made of other types nor classes. -/
def scalars : List HostType :=
  [.void, .bool, .single, .double, .string, .table, .function, .any] ++
    [Width.w8, .w16, .w32, .w64].flatMap fun width => [.integer ⟨true, width⟩, .integer ⟨false, width⟩]

/-- Arrays and nullable types are told by the last character of their names, and the other types are
few. -/
theorem eq_of_name_eq {t b : HostType} (hb : b ∈ naturals) (ht : ∀ c, t ≠ .object c)
    (h : t.name = b.name) : t = b := by
  have hlast : ∀ b ∈ naturals, b.name.toList.getLast? ≠ some ']' ∧ b.name.toList.getLast? ≠ some '?' := by
    decide +kernel
  have hscalars : ∀ t ∈ scalars, ∀ b ∈ naturals, t.name = b.name → t = b := by
    decide +kernel
  -- Arrays and nullable types have names that end as that of no natural type does, and other types are
  -- scalars.
  by_cases hscalar : t ∈ scalars
  · exact hscalars t hscalar b hb h
  · exfalso
    cases t with
    | object c => exact ht c rfl
    | array element =>
      apply (hlast b hb).1
      rw [← h, name, String.toList_append]
      exact List.getLast?_append_of_ne_nil _ (List.cons_ne_nil _ _)
    | nullable inner =>
      apply (hlast b hb).2
      rw [← h, name, String.toList_append]
      exact List.getLast?_append_of_ne_nil _ (List.cons_ne_nil _ _)
    | integer t =>
      apply hscalar
      obtain ⟨_ | _, _ | _ | _ | _⟩ := t <;> decide
    | _ => exact hscalar (by decide)

end HostType

/-- An integer of script is in the range of the type that is named for it. -/
theorem IntType.fit_toInt (i : Int64) : IntType.fit ⟨true, .w64⟩ i.toInt = .ok (.int i) := by
  have hrange : IntType.min ⟨true, .w64⟩ ≤ i.toInt ∧ i.toInt ≤ IntType.max ⟨true, .w64⟩ :=
    IntType.mem_range_signed.mpr ⟨i.le_toInt, i.toInt_lt⟩
  rw [IntType.fit_of_range hrange, IntType.value, if_pos rfl, Int64.ofInt_toInt]

/-- Whether a float is called an integer. -/
def Binary64.isNaturalInteger (x : Binary64) : Bool := x.isIntegral && x.absBelow naturalIntegerBound

/-- **A float that is called an integer is one**, and fits. -/
theorem Binary64.exists_fitFloat {x : Binary64} (h : x.isNaturalInteger = true) :
    ∃ i : Int64, x.scaled = i.toInt * (Binary64.unit : Int) ∧ x.isNaN = false ∧
      IntType.fitFloat ⟨true, .w64⟩ x = .ok (.int i) := by
  obtain ⟨hintegral, hbelow⟩ := Bool.and_eq_true_iff.mp h
  have hn : x.toInt? = some (x.scaled / (Binary64.unit : Int)) := if_pos hintegral
  generalize x.scaled / (Binary64.unit : Int) = n at hn
  obtain ⟨hfinite, hscaled⟩ := Binary64.toInt?_eq_some_iff.mp hn
  -- The bound on the float is one on the integer that it is.
  have hsmall : n.natAbs < naturalIntegerBound := by
    have hmagnitude : x.magnitude = n.natAbs * Binary64.unit := by
      rw [← Binary64.natAbs_scaled, hscaled, Int.natAbs_mul, Int.natAbs_natCast]
    have hlt : x.magnitude < naturalIntegerBound * Binary64.unit :=
      of_decide_eq_true (Bool.and_eq_true_iff.mp hbelow).2
    rw [hmagnitude] at hlt
    exact Nat.lt_of_mul_lt_mul_right hlt
  rw [naturalIntegerBound] at hsmall
  have hi : (Int64.ofInt n).toInt = n := Int64.toInt_ofInt_of_le (by omega) (by omega)
  refine ⟨Int64.ofInt n, by rw [hi, hscaled], Binary64.isNaN_of_isFinite hfinite, ?_⟩
  have hwide : n.natAbs < wideIntegerBound := by
    rw [wideIntegerBound, Nat.one_shiftLeft]
    omega
  calc IntType.fitFloat ⟨true, .w64⟩ x
    _ = IntType.fit ⟨true, .w64⟩ n := by rw [IntType.fitFloat, hn]; exact if_pos hwide
    _ = IntType.fit ⟨true, .w64⟩ (Int64.ofInt n).toInt := by rw [hi]
    _ = .ok (.int (Int64.ofInt n)) := IntType.fit_toInt _

namespace World

variable {w : World} {v : ScriptValue} {t : HostType}

/-- A boolean, a number, a string, a table, a function, or a proxy of a living object. -/
inductive Ordinary (w : World) : ScriptValue → Prop
  | boolean (b : Bool) : Ordinary w (.boolean b)
  | integer (i : Int64) : Ordinary w (.integer i)
  | number (x : Binary64) : Ordinary w (.number x)
  | string (s : String) : Ordinary w (.string s)
  | table (t : TableRef) : Ordinary w (.table t)
  | function (f : FunctionRef) : Ordinary w (.function f)
  | proxy {u : UserdataRef} {o : ObjectRef} (ht : w.proxyTarget? u = some (.object o)) :
    Ordinary w (.userdata u)

/-- **The type that is advertised for a value**: the type that the name of its natural type stands for. The
name that is given for a proxy of an object is the one of the object's own class. -/
inductive Advertises (w : World) : ScriptValue → HostType → Prop
  | named {v : ScriptValue} {t : HostType} (hv : v.kind ≠ .nil ∧ v.kind ≠ .userdata)
    (ht : ∀ c, t ≠ .object c) (hname : t.name = w.naturalType v) : Advertises w v t
  | object {u : UserdataRef} {o : ObjectRef} (ht : w.proxyTarget? u = some (.object o)) :
    Advertises w (.userdata u) (.object o.cls)

/-- The type that is advertised, as a function of the value. -/
def naturalHostType? (w : World) : ScriptValue → Option HostType
  | .nil => none
  | .boolean _ => some .bool
  | .integer _ => some (.integer ⟨true, .w64⟩)
  | .number x => some (if x.isNaturalInteger then .integer ⟨true, .w64⟩ else .double)
  | .string _ => some .string
  | .table _ => some .table
  | .function _ => some .function
  | .userdata u => match w.proxyTarget? u with
    | some (.object o) => some (.object o.cls)
    | _ => none

/-- Of userdata only the proxies of living objects have a type. -/
theorem naturalHostType?_userdata {u : UserdataRef} : w.naturalHostType? (.userdata u) = some t ↔
    ∃ o, w.proxyTarget? u = some (.object o) ∧ t = .object o.cls := by
  rw [naturalHostType?]
  constructor
  · intro h
    split at h
    · next o ho => exact ⟨o, ho, (Option.some_inj.mp h).symm⟩
    · cases h
  · rintro ⟨o, ho, rfl⟩
    rw [ho]

/-- The ordinary values are those that have a natural type. -/
theorem ordinary_iff : w.Ordinary v ↔ ∃ t, w.naturalHostType? v = some t := by
  constructor
  · intro hv
    cases hv with
    | proxy ht => exact ⟨_, naturalHostType?_userdata.mpr ⟨_, ht, rfl⟩⟩
    | _ => exact ⟨_, rfl⟩
  · rintro ⟨t, ht⟩
    cases v with
    | nil => cases ht
    | boolean b => exact .boolean b
    | integer i => exact .integer i
    | number x => exact .number x
    | string s => exact .string s
    | table r => exact .table r
    | function f => exact .function f
    | userdata u =>
      obtain ⟨o, ho, -⟩ := naturalHostType?_userdata.mp ht
      exact .proxy ho

/-- The type has the name of the natural type. -/
theorem name_of_naturalHostType? (h : w.naturalHostType? v = some t) : t.name = w.naturalType v := by
  cases v with
  | nil => cases h
  | number x =>
    cases h
    rw [naturalType, Binary64.isNaturalInteger, apply_ite HostType.name]
    rfl
  | userdata u =>
    obtain ⟨o, ho, rfl⟩ := naturalHostType?_userdata.mp h
    rw [naturalType, ho]
    rfl
  | _ => cases h; rfl

/-- A value that is no userdata has one of the few types that cannot be mistaken. -/
theorem mem_naturals (w : World) (hv : v.kind ≠ .nil ∧ v.kind ≠ .userdata) :
    ∃ t ∈ HostType.naturals, w.naturalHostType? v = some t := by
  cases v with
  | nil => exact absurd rfl hv.1
  | userdata u => exact absurd rfl hv.2
  | number x =>
    refine ⟨_, ?_, rfl⟩
    split <;> decide
  | _ => exact ⟨_, by decide, rfl⟩

/-- **No other type is meant by the name.** -/
theorem advertises_iff : w.Advertises v t ↔ w.naturalHostType? v = some t := by
  constructor
  · intro h
    cases h with
    -- By its name it can be no other type than the natural one.
    | named hv ht hname =>
      obtain ⟨b, hb, hnatural⟩ := w.mem_naturals hv
      rw [hnatural, HostType.eq_of_name_eq hb ht]
      rw [hname, name_of_naturalHostType? hnatural]
    | object ht => exact naturalHostType?_userdata.mpr ⟨_, ht, rfl⟩
  · intro h
    -- What the natural type of a value is called is what is advertised.
    have hname := name_of_naturalHostType? h
    cases v with
    | nil => cases h
    | userdata u =>
      obtain ⟨o, ho, rfl⟩ := naturalHostType?_userdata.mp h
      exact .object ho
    | number x =>
      refine .named ⟨nofun, nofun⟩ (fun c hc => ?_) hname
      rw [naturalHostType?, hc, Option.some_inj] at h
      split at h <;> cases h
    | _ =>
      refine .named ⟨nofun, nofun⟩ (fun c hc => ?_) hname
      cases hc
      cases h

/-- The type that is advertised is called what the value says. -/
theorem Advertises.name_eq (h : w.Advertises v t) : t.name = w.naturalType v :=
  name_of_naturalHostType? (advertises_iff.mp h)

/-- **An ordinary value has one type advertised.** -/
theorem Ordinary.existsUnique (hv : w.Ordinary v) : ∃! t, w.Advertises v t := by
  obtain ⟨t, ht⟩ := ordinary_iff.mp hv
  refine ⟨t, advertises_iff.mpr ht, fun s hs => ?_⟩
  exact Option.some_inj.mp ((advertises_iff.mp hs).symm.trans ht)

/-- **What came back for a value is equal to it**: by raw equality, a float that is no number as this very
float, and a proxy in the eyes of the session. -/
def Recovers (w : World) (v' : ScriptValue) : ScriptValue → Prop
  | .number x => if x.isNaN then v' = .number x else v'.rawEquals (.number x) = true
  | .userdata u => w.equals v' (.userdata u) = true
  | v => v'.rawEquals v = true

/-- What comes back as the same recovers the value, unless it is userdata. -/
theorem recovers_self (hv : v.kind ≠ .userdata) : w.Recovers v v := by
  cases v with
  | userdata u => exact absurd rfl hv
  | number x =>
    rw [Recovers]
    split
    · rfl
    · next hnan =>
      refine ScriptValue.rawEquals_self fun y hy => ?_
      cases hy
      exact Bool.eq_false_of_not_eq_true hnan
  | _ => exact ScriptValue.rawEquals_self nofun

end World

/-! ### There and back -/

/-- **A value converts to a type without loss**: it does convert, by which nothing changes, and what it
becomes goes back into script, under the same or another binding, as a value that is equal to it. -/
def Lossless (via via' : BindingRef) (w : World) (t : HostType) (v : ScriptValue) : Prop :=
  ∃ x v' w', (toHost via t v).outcome w = (.ok x, w) ∧
    (toScript via' x : Act ConversionError ScriptValue).outcome w = (.ok v', w') ∧ w'.Recovers v' v

section

variable {w : World} {via via' : BindingRef} {v : ScriptValue} {t : HostType}

/-- A proxy comes back as a proxy of the same object. -/
theorem lossless_proxy (hw : w.Faithful) {u : UserdataRef} {o : ObjectRef}
    (ht : w.proxyTarget? u = some (.object o)) :
    Lossless via via' w (.object o.cls) (.userdata u) := by
  obtain ⟨a, w', ha, hg⟩ := proxyFor_ok (ε := ConversionError) via' o w
  refine ⟨.object o, .userdata a, w', ?_, ?_, ?_⟩
  · rw [outcome_toHost]
    unfold convertWith convertObject
    rw [outcome_bind_ok (outcome_look _ w), ht]
    exact congrArg (Act.outcome · w) (if_pos (beq_self_eq_true _))
  · unfold toScript
    rw [outcome_bind_ok ha]
    rfl
  · show w'.equals (.userdata a) (.userdata u) = true
    -- Whether it comes out of the cache or is new, it reaches the object.
    have htargets : w'.Targets a o := by
      rw [outcome_proxyFor] at ha
      cases hcached : w.cachedProxy? via' o with
      | some b =>
        rw [hcached] at ha
        cases ha
        exact World.targets_of_cached hcached
      | none =>
        rw [hcached] at ha
        cases ha
        exact w.targets_withProxy via' o
    exact (htargets.meet (hg.proxyTarget? hw ht)).equals

/-- Whoever becomes what it naturally stands for comes back as it is. -/
theorem lossless_of_naturalValue (hv : v.kind ≠ .userdata)
    (h : (toHost via t v).outcome w = (.ok (w.naturalValue v), w)) : Lossless via via' w t v := by
  have hnothing : w.ReachesNothing v := by
    rintro u p rfl
    exact absurd rfl hv
  exact ⟨_, v, w, h, toScript_of_reachesNothing hnothing, World.recovers_self hv⟩

/-- A float comes back as an integer that is equal to it, or as itself. -/
theorem lossless_number (x : Binary64) :
    Lossless via via' w (if x.isNaturalInteger then .integer ⟨true, .w64⟩ else .double)
      (.number x) := by
  -- An integral float comes back as the integer that it is.
  by_cases h : x.isNaturalInteger = true
  · rw [if_pos h]
    obtain ⟨i, hi, hnan, hfit⟩ := Binary64.exists_fitFloat h
    refine ⟨.int i, .integer i, w, ?_, by unfold toScript; rfl, ?_⟩
    · rw [outcome_toHost_number, hfit]
    · rw [World.Recovers, hnan]
      exact (ScriptValue.rawEquals_integer_number hnan).mpr (.inl hi.symm)
  · rw [if_neg h]
    refine lossless_of_naturalValue nofun ?_
    rw [outcome_toHost]
    rfl

/-- **What is advertised is lossless.** -/
theorem World.Advertises.lossless (hw : w.Faithful) (h : w.Advertises v t) :
    Lossless via via' w t v := by
  have hnatural := World.advertises_iff.mp h
  cases v with
  | nil => cases hnatural
  | userdata u =>
    obtain ⟨o, ho, rfl⟩ := World.naturalHostType?_userdata.mp hnatural
    exact lossless_proxy hw ho
  | number x =>
    cases hnatural
    exact lossless_number x
  | integer i =>
    cases hnatural
    refine lossless_of_naturalValue nofun ?_
    rw [outcome_toHost_integer, IntType.fit_toInt]
    rfl
  -- The others become what they naturally stand for at their own types.
  | _ =>
    cases hnatural
    refine lossless_of_naturalValue nofun ?_
    rw [outcome_toHost]
    rfl

end

/-! ### What errors tell -/

/-- What an error says a value is convertible to. -/
def ConversionError.hint? : ConversionError → Option String
  | .typeMismatch _ text _ | .arrayElement _ _ _ text _ => some text
  | _ => none

/-- **What an error says of a value is true**: what it says the value is convertible to is the natural type
of the value, and for an ordinary value that is the name of a type to which it converts without loss. -/
structure World.HintTrue (w : World) (v : ScriptValue) (text : String) : Prop where
  natural : text = w.naturalType v
  lossless : w.Ordinary v → ∃ t, w.Advertises v t ∧ t.name = text ∧
    ∀ via via', Lossless via via' w t v

/-- In a faithful world the natural type is a true hint. -/
theorem World.Faithful.hintTrue {w : World} (hw : w.Faithful) (v : ScriptValue) :
    w.HintTrue v (w.naturalType v) where
  natural := rfl
  lossless hv := by
    obtain ⟨t, ht, -⟩ := hv.existsUnique
    exact ⟨t, ht, ht.name_eq, fun _ _ => ht.lossless hw⟩

/-- **Conversions of a value to a type**: from the start, or on the way to an object, where objects can nest
only so many more classes deep. -/
inductive ConversionOf (via : BindingRef) (t : HostType) (v : ScriptValue) :
    Act ConversionError HostValue → Prop
  | whole : ConversionOf via t v (toHost via t v)
  | nested (n : Nat) : ConversionOf via t v (convertWith (buildUpTo via n) t v)

/-- **How a conversion fails**, and the world that it leaves: it turns down the value itself, or an element of
the table that the value is, or it gives no hint. -/
inductive Faults (w : World) (v : ScriptValue) : ConversionError → World → Prop
  | mismatch (name : String) : Faults w v (.typeMismatch v.kind (w.naturalType v) name) w
  | element {r : TableRef} {i : Nat} {item : ScriptValue} (hv : v = .table r)
    (hitem : (w.table r).sequence[i]? = some item) (target name : String) (w' : World) :
    Faults w v (.arrayElement target (i + 1) item.kind (w'.naturalType item) name) w'
  | silent {e : ConversionError} (he : e.hint? = none) (w' : World) : Faults w v e w'

namespace Act

variable {via : BindingRef} {w w' : World} {v : ScriptValue} {t : HostType} {e : ConversionError}

/-- A mismatch names the value that was to be converted. -/
theorem faults_mismatch (h : (mismatch v t : Act ConversionError HostValue).outcome w = (.error e, w')) :
    Faults w v e w' := by
  cases h
  exact .mismatch t.name

/-- The elements of an array fail at one of them, which is told in the world that it leaves. -/
theorem convertItems_error {convert : ScriptValue → Act ConversionError HostValue}
    {target element : HostType} {vs : List ScriptValue} {i : Nat}
    (h : (convertItems convert target element vs i).outcome w = (.error e, w')) :
    ∃ j item, vs[j]? = some item ∧ e = .arrayElement target.name (i + j) item.kind
      (w'.naturalType item) element.name := by
  induction vs generalizing w i with
  | nil => cases h
  | cons v vs ih =>
    rw [convertItems] at h
    -- This item fails, and it is the one that is named.
    rcases outcome_bind_eq_error h with h | ⟨x, w₁, -, h⟩
    · obtain ⟨e', -, rfl⟩ := outcome_mapError_eq_error h
      exact ⟨0, v, rfl, rfl⟩
    -- A later one does, and its place is counted from the first one of those that are left.
    · rcases outcome_bind_eq_error h with h | ⟨xs, w₂, -, h⟩
      · obtain ⟨j, item, hitem, he⟩ := ih h
        exact ⟨j + 1, item, hitem, by rw [he, Nat.add_assoc, Nat.add_comm 1]⟩
      · cases h

/-- A missing constructor gives no hint. -/
theorem construct_hint? {c : ClassRef} (h : (construct c).outcome w = (.error e, w')) :
    e.hint? = none := by
  unfold construct at h
  rw [outcome_bind_ok (outcome_look _ w)] at h
  split at h
  · cases h
  · cases h
    rfl

/-- Nor does a field that was not assigned. -/
theorem assignEntries_hint? {convert : Converter} {c : ClassRef} {o : ObjectRef}
    {entries : List (String × ScriptValue)}
    (h : (assignEntries convert via c o entries).outcome w = (.error e, w')) : e.hint? = none := by
  induction entries generalizing w with
  | nil => cases h
  | cons entry rest ih =>
    rw [assignEntries] at h
    rcases outcome_bind_eq_error h with h | ⟨_, w₁, -, h⟩
    · obtain ⟨e', -, rfl⟩ := outcome_mapError_eq_error h
      rfl
    · exact ih h

/-- **Nothing that goes wrong with an object gives a hint**: the reason is in the text of the error. -/
theorem buildUpTo_hint? {n : Nat} {c : ClassRef} {r : TableRef}
    (h : (buildUpTo via n c r).outcome w = (.error e, w')) : e.hint? = none := by
  cases n with
  | zero =>
    cases h
    rfl
  | succ n =>
    rw [buildUpTo, buildObject] at h
    -- The object is constructed, then the keys are looked at, then the fields are assigned.
    rcases outcome_bind_eq_error h with h | ⟨o, w₁, -, h⟩
    · exact construct_hint? h
    · rw [outcome_bind_ok (outcome_look _ w₁)] at h
      split at h
      · cases h
        rfl
      · rcases outcome_bind_eq_error h with h | ⟨_, w₂, -, h⟩
        · rw [outcome_holding] at h
          obtain ⟨he, -⟩ := Prod.mk.inj h
          exact assignEntries_hint? (Prod.ext he rfl)
        · cases h

/-- The numbers that a type does not take are told as they are. -/
theorem fit_hint? {t : IntType} {n : Int} (h : t.fit n = .error e) : e.hint? = none := by
  unfold IntType.fit at h
  split at h
  · cases h
  · cases h
    rfl

/-- Nor does a float that does not fit. -/
theorem fitFloat_hint? {t : IntType} {x : Binary64} (h : t.fitFloat x = .error e) : e.hint? = none := by
  unfold IntType.fitFloat at h
  split at h
  · cases h
    rfl
  · split at h
    · exact fit_hint? h
    · cases h
      rfl

/-- What is no object and no table is turned down itself, and what fails inside of a table gives no
hint. -/
theorem convertObject_faults {n : Nat} {c : ClassRef}
    (h : (convertObject (buildUpTo via n) c v).outcome w = (.error e, w')) : Faults w v e w' := by
  unfold convertObject at h
  -- A proxy of an object of another class is turned down as an object, without a hint.
  cases v with
  | userdata u =>
    rw [outcome_bind_ok (outcome_look _ w)] at h
    split at h
    · split at h
      · cases h
      · cases h
        exact .silent rfl w
    · exact faults_mismatch h
  | table r => exact .silent (buildUpTo_hint? h) w'
  | _ => exact faults_mismatch h

/-- **How conversions fail**, by recursion on the type: only a nullable type passes a failure on. -/
theorem convertWith_faults {n : Nat} {t : HostType}
    (h : (convertWith (buildUpTo via n) t v).outcome w = (.error e, w')) : Faults w v e w' := by
  by_cases hnil : v = .nil
  · subst hnil
    unfold convertWith at h
    split at h
    · cases h
    · cases h
      exact .silent rfl w
  -- From here on the type decides, and of the types only the inner one of a nullable type is gone into.
  induction t with
  | nullable inner ih =>
    rw [convertWith] at h
    · exact ih h
    · exact hnil
  | array element =>
    cases v with
    | table r =>
      unfold convertWith at h
      rw [outcome_bind_ok (outcome_look _ w)] at h
      rcases outcome_bind_eq_error h with h | ⟨xs, w₁, -, h⟩
      · obtain ⟨j, item, hitem, rfl⟩ := convertItems_error h
        rw [Nat.add_comm 1]
        exact .element rfl hitem _ _ w'
      · cases h
    | nil => exact absurd rfl hnil
    | _ => unfold convertWith at h; exact faults_mismatch h
  | object c =>
    rw [convertWith] at h
    · exact convertObject_faults h
    · exact hnil
  | integer t =>
    cases v with
    | nil => exact absurd rfl hnil
    | integer i =>
      unfold convertWith at h
      obtain ⟨he, rfl⟩ := Prod.mk.inj h
      exact .silent (fit_hint? he) w
    | number x =>
      unfold convertWith at h
      obtain ⟨he, rfl⟩ := Prod.mk.inj h
      exact .silent (fitFloat_hint? he) w
    | _ => unfold convertWith at h; exact faults_mismatch h
  | single =>
    rw [convertWith] at h
    · split at h
      · split at h
        · cases h
        · cases h
          exact .silent rfl w
      · exact faults_mismatch h
    · exact hnil
  | double =>
    rw [convertWith] at h
    · split at h
      · cases h
      · exact faults_mismatch h
    · exact hnil
  | void | any =>
    rw [convertWith] at h
    · cases h
    · exact hnil
  -- Values of one kind are taken as they are, and the others are turned down.
  | bool | string | table | function =>
    cases v with
    | nil => exact absurd rfl hnil
    | _ => unfold convertWith at h; first | exact faults_mismatch h | cases h

end Act

namespace ConversionOf

variable {via : BindingRef} {t : HostType} {v : ScriptValue} {m : Act ConversionError HostValue}
  {w w' : World} {e : ConversionError}

/-- Conversions differ only in how deep objects can nest. -/
theorem exists_outcome (h : ConversionOf via t v m) (w : World) :
    ∃ n, m.outcome w = (convertWith (buildUpTo via n) t v).outcome w := by
  cases h with
  | whole => exact ⟨_, outcome_toHost via t v w⟩
  | nested n => exact ⟨n, rfl⟩

/-- Every conversion through which values enter fails in this way. -/
theorem faults (h : ConversionOf via t v m) (hm : m.outcome w = (.error e, w')) : Faults w v e w' := by
  obtain ⟨n, hn⟩ := h.exists_outcome w
  exact convertWith_faults (hn.symm.trans hm)

/-- The conversion of a table leaves a faithful world behind. -/
theorem faithful_table {r : TableRef} (h : ConversionOf via t (.table r) m) (hw : w.Faithful) :
    (m.outcome w).2.Faithful := by
  obtain ⟨n, hn⟩ := h.exists_outcome w
  have hr : Known (w.known true) (ScriptValue.table r) := .of_named_eq_nil rfl
  have hcomposed : Composed .all false (w.known true) (convertWith (buildUpTo via n) t (.table r))
      t.Gives := convertWith_composed (buildUpTo_composed (.inl rfl) via n) t hr
  rw [hn]
  exact (hcomposed.faithful w.within_all hw subset_rfl).1

end ConversionOf

/-- **Natural types are lossless.** All worlds of a run are faithful. For an ordinary value there is exactly
one type that its natural type names, the object's own class for a proxy of an object. In a faithful world
the value converts to that type without loss, under every binding. So what an error says a value is
convertible to is true, whatever conversion to whatever type it comes from: a mismatch of kinds tells of the
value itself, and the error of an element of that element. -/
theorem natural_type_lossless :
    (∀ (c : Config) layout (ops : Program), ∀ i ∈ (World.start c layout).instants ops,
      i.world.Faithful) ∧
    (∀ (w : World) v, w.Ordinary v → ∃! t, w.Advertises v t) ∧
    (∀ (w : World) v t, w.Faithful → w.Advertises v t →
      t.name = w.naturalType v ∧ ∀ via via', Lossless via via' w t v) ∧
    ∀ (w w' : World) via t v m, w.Faithful → ConversionOf via t v m →
      (∀ k text name, m.outcome w = (.error (.typeMismatch k text name), w') →
        k = v.kind ∧ w'.HintTrue v text) ∧
      ∀ target i k text name, m.outcome w = (.error (.arrayElement target i k text name), w') →
        ∃ r item, v = .table r ∧ 1 ≤ i ∧ (w.table r).sequence[i - 1]? = some item ∧ k = item.kind ∧
          w'.HintTrue item text := by
  refine ⟨fun c layout ops i hi => (World.faithful_instants c layout ops i hi).world,
    fun w v hv => hv.existsUnique, fun w v t hw ht => ⟨ht.name_eq, fun _ _ => ht.lossless hw⟩, ?_⟩
  intro w w' via t v m hw hconversion
  constructor
  -- A mismatch of the whole value.
  · intro k text name hm
    cases hconversion.faults hm with
    | mismatch name => exact ⟨rfl, hw.hintTrue v⟩
    | silent he => cases he
  -- A mismatch of an item.
  · intro target i k text name hm
    cases hconversion.faults hm with
    | silent he => cases he
    | @element r i item hv hitem =>
      subst hv
      have hw' : w'.Faithful := by
        have hleft := hconversion.faithful_table hw
        rwa [hm] at hleft
      exact ⟨r, item, rfl, Nat.succ_pos i, hitem, rfl, hw'.hintTrue item⟩

namespace NaturalTypeLossless

/-- The result is stored under a name and is not told. -/
def into (name : String) : Disposition := ⟨some name, none, false, true⟩

/-- A table that contains the proxy of a lamp. -/
def lampInTable : Program :=
  [.cls (into "Lamp") ⟨"Lamp", [], none, none⟩,
    .act (into "lamp") (.cls (.instantiate "Lamp" [])),
    .act (into "proxy") (.proxy (.wrap (some "lamp"))),
    .act (into "table") (.value (.bind (.sequence (.list [.var "proxy" 0]))))]

end NaturalTypeLossless

open NaturalTypeLossless in
/-- The float is no string and the lamp is no number. The errors tell that the one is convertible to an
integer and the other to its class, and so they are. -/
theorem natural_type_lossless_lampInTable :
    let w := (World.start .default fun r => r.index).after lampInTable
    let two : ScriptValue := .number ⟨0x4000000000000000⟩
    let lamp : ScriptValue := .userdata ⟨0⟩
    let elements := toHost ⟨0⟩ (.array .double) (.table ⟨1⟩)
    w.Faithful ∧ (∃! t, w.Advertises two t) ∧ (∃! t, w.Advertises lamp t) ∧
      (∀ via via', Lossless via via' w (.integer ⟨true, .w64⟩) two) ∧
      (toHost ⟨0⟩ .string two).outcome w = (.error (.typeMismatch .number "i64" "string"), w) ∧
      w.HintTrue two "i64" ∧
      elements.outcome w = (.error (.arrayElement "f64[]" 1 .userdata "Lamp" "f64"), w) ∧
      w.HintTrue lamp "Lamp" := by
  intro w two lamp elements
  obtain ⟨-, hunique, hlossless, herrors⟩ := natural_type_lossless
  have hw : w.Faithful := World.faithful_session .default _ lampInTable
  have hproxy : w.proxyTarget? ⟨0⟩ = some (.object ⟨⟨0⟩, ⟨⟨0⟩, "Lamp"⟩⟩) := by decide +kernel
  have htwo : w.Advertises two (.integer ⟨true, .w64⟩) :=
    .named ⟨nofun, nofun⟩ nofun (by decide +kernel)
  have hstring : (toHost ⟨0⟩ .string two).outcome w =
      (.error (.typeMismatch .number "i64" "string"), w) := by
    have hname : w.naturalType two = "i64" := by decide +kernel
    rw [outcome_toHost, ← hname]
    rfl
  have hsequence : (w.table ⟨1⟩).sequence = [lamp] := by decide +kernel
  have helement : elements.outcome w = (.error (.arrayElement "f64[]" 1 .userdata "Lamp" "f64"), w) := by
    have hname : w.naturalType lamp = "Lamp" := by decide +kernel
    rw [outcome_toHost, ← hname]
    unfold convertWith
    rw [outcome_bind_ok (outcome_look _ w), hsequence]
    rfl
  obtain ⟨hmismatch, -⟩ := herrors w w ⟨0⟩ .string two _ hw .whole
  obtain ⟨-, harray⟩ := herrors w w ⟨0⟩ (.array .double) (.table ⟨1⟩) elements hw .whole
  obtain ⟨r, item, hr, -, hitem, -, htrue⟩ := harray _ _ _ _ _ helement
  -- The element that the error tells of is the lamp.
  obtain rfl : lamp = item := by
    cases hr
    rw [hsequence] at hitem
    exact Option.some_inj.mp hitem
  exact ⟨hw, hunique w two (.number _), hunique w lamp (.proxy hproxy), (hlossless w two _ hw htwo).2,
    hstring, (hmismatch _ _ _ hstring).2, helement, htrue⟩

end ScriptHost
