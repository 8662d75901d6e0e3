import ScriptHost.Proofs.Afterlife.Sparing
import ScriptHost.Proofs.Conversion.HasType

/-!
# Crossing the boundary revives nothing

Conversions, accesses to members and accesses through proxies, followed from their parts. Whatever
is handed over was in hand before or is new, with one exception: a proxy names its object weakly,
and reaching it takes hold of the object again. That is done only after a look whether the object is
alive, so it is not the object of a proxy that was dead before (`Sparing.reachTarget`).

Main statements: `Sparing.toScript`, `Sparing.toHost`, `Sparing.readProxy`, `Sparing.writeProxy`,
`Sparing.index` and `Sparing.setIndex`.
-/

set_option autoImplicit false

namespace ScriptHost

namespace Act

namespace Sparing

open World (AllSafe)

variable {w₀ : World} {ε α : Type} [Holds ε]

/-! ### To script -/

mutual

/-- **Conversion to script** makes proxies of what was in hand. -/
theorem toScript (via : BindingRef) :
    ∀ v : HostValue, w₀.AllSafe v → Sparing w₀ (Act.toScript via v : Act ε ScriptValue) w₀.AllSafe
  | .null, _ | .bool _, _ | .int _, _ | .float _, _ | .string _, _ => by
    unfold Act.toScript
    exact .pure (.of_eq_nil rfl)
  | .uint u, _ => by
    unfold Act.toScript ofUInt64
    split <;> exact .pure (.of_eq_nil rfl)
  | .script v, hv => by
    unfold Act.toScript
    exact .pure hv
  | .array items, hv => by
    -- The table is made last, when all that goes into it is in hand.
    unfold Act.toScript
    have hitems : w₀.AllSafe items := AllSafe.array_iff.mp hv
    refine Sparing.bind (toScriptEach via items _ hitems hv) fun vs hvs => ?_
    exact (newTable (Table.allSafe_ofSequence hvs)).bind fun t ht => .pure (.table ht)
  | .object o, hv => by
    unfold Act.toScript
    exact (proxyFor via hv).bind fun u hu => .pure (.userdata hu)
  | .cls c, hv => by
    unfold Act.toScript
    exact (newProxy via hv).bind fun u hu => .pure (.userdata hu)

/-- The same for a list, of which the values that are still to come are held. -/
theorem toScriptEach (via : BindingRef) : ∀ (vs : List HostValue) (pending : List Handle),
    w₀.AllSafe vs → (∀ x ∈ pending, w₀.Safe x) →
      Sparing w₀ (Act.toScriptEach via vs pending : Act ε (List ScriptValue)) w₀.AllSafe
  | [], _, _, _ => by
    unfold Act.toScriptEach
    exact .pure .nil
  | v :: vs, pending, hvs, hpending => by
    unfold Act.toScriptEach
    refine Sparing.bind (.holding hpending (toScript via v hvs.head)) fun x hx => ?_
    -- What is pending after this value was pending before.
    have hrest : ∀ y ∈ pending.drop (HostValue.held v).length, w₀.Safe y :=
      fun y hy => hpending y (List.mem_of_mem_drop hy)
    exact Sparing.bind (.holding hx (toScriptEach via vs _ hvs.tail hrest)) fun xs hxs =>
      .pure (.cons hx hxs)

end

/-- Arguments and results are converted in this way. -/
theorem toScriptAll (via : BindingRef) {vs : List HostValue} (hvs : w₀.AllSafe vs) :
    Sparing w₀ (Act.toScriptAll via vs : Act ε (List ScriptValue)) w₀.AllSafe :=
  toScriptEach via vs _ hvs (AllSafe.array_iff.mpr hvs)

/-! ### Members -/

/-- The receiver that a member needs is the one that was given. -/
theorem needReceiver (c member : String) {receiver : Option ObjectRef} (hr : w₀.AllSafe receiver) :
    Sparing w₀ (Act.needReceiver c member receiver) w₀.AllSafe := by
  cases receiver with
  | some o => exact .pure (AllSafe.some_iff.mp hr)
  | none => exact .fails rfl

/-- Borrowing an object gives what is in it. -/
theorem borrowed {o : ObjectRef} (ho : w₀.AllSafe o) (mutably : Bool) (expected : PayloadType) :
    Sparing w₀ (Act.borrowed o mutably expected) w₀.AllSafe := by
  refine Sparing.bind (.look fun w hw => hw.object (ho _ List.mem_cons_self)) fun ob hob => ?_
  split
  · exact .fails rfl
  · exact .pure hob

/-- What is read from a slot was in the object. -/
theorem readSlot {o : ObjectRef} (ho : w₀.AllSafe o) (slot : String) :
    Sparing w₀ (Act.readSlot o slot) w₀.AllSafe :=
  (borrowed ho false .slots).bind fun _ hob => .pure (Slots.allSafe_read hob slot)

/-- A constant is held by its member. -/
theorem runGetter (c member : String) {receiver : Option ObjectRef} (hr : w₀.AllSafe receiver)
    {g : Getter} (hg : ∀ v, g = .constant v → w₀.AllSafe v) :
    Sparing w₀ (Act.runGetter c member receiver g) w₀.AllSafe := by
  cases g with
  | constant v => exact .pure (hg v rfl)
  | slot s => exact (needReceiver c member hr).bind fun _ ho => readSlot ho s

/-- What a member reads as: what is in its slot, or the constant that its getter gives and that the
member holds. -/
theorem readMember (via : BindingRef) (c : ClassRef) {receiver : Option ObjectRef}
    (hr : w₀.AllSafe receiver) {m : Member} (hm : w₀.AllSafe m) :
    Sparing w₀ (Act.readMember via c receiver m) w₀.AllSafe := by
  cases m with
  | method x => exact .pure .none
  | property p =>
    simp only [Act.readMember]
    split
    · exact .fails rfl
    · cases hg : p.getter with
      | none => exact .fails rfl
      | some g =>
        refine (note _).andThen fun _ => ?_
        refine (runGetter c.name p.name hr ?_).bind fun _ hv => .pure (AllSafe.some_iff.mpr hv)
        -- A constant is a part of its getter, which is a part of the member.
        rintro v rfl x hx
        refine hm x (List.mem_append_right _ ?_)
        rw [hg]
        exact hx
  | field f =>
    refine (needReceiver _ _ hr).bind fun o ho => (note _).andThen fun _ => ?_
    have hslot : Sparing w₀ (Act.runGetter c.name f.name (some o) (.slot f.slot)) w₀.AllSafe :=
      runGetter _ _ (AllSafe.some_iff.mpr ho) nofun
    exact hslot.bind fun _ hv => .pure (AllSafe.some_iff.mpr hv)

/-- A setter stores the value that it was given. -/
theorem runSetter (c member : String) {receiver : Option ObjectRef} (hr : w₀.AllSafe receiver)
    {v : HostValue} (hv : w₀.AllSafe v) (s : Setter) :
    Sparing w₀ (Act.runSetter c member receiver v s) fun _ => True := by
  cases s with
  | slot s => exact (needReceiver _ _ hr).bind fun o _ => writeSlot o s hv
  | refuse message =>
    exact (needReceiver _ _ hr).bind fun _ ho =>
      (borrowed ho true .slots).andThen fun _ => .fails rfl

/-- The members that a key denotes are members of the class. -/
theorem resolve (via : BindingRef) {c : ClassRef} (hc : w₀.AllSafe c) (k : MemberKey)
    (onInstance : Bool) :
    Sparing w₀ (Act.look fun w => (w.binding via).resolve (w.cls c) k onInstance :
      Act ε (List Member)) fun ms => ∀ m ∈ ms, w₀.AllSafe m ∧ m.Closed :=
  .look fun _ hw _ hm => hw.resolve hc hm

section Converter

variable {convert : Converter}
  (hconvert : ∀ t v, w₀.AllSafe t → w₀.AllSafe v → Sparing w₀ (convert t v) w₀.AllSafe)
include hconvert

/-- An error of a conversion holds nothing, also when the member that it was for is named. -/
theorem convertFor (c : ClassRef) (member : String) {t : HostType} (ht : w₀.AllSafe t)
    {v : ScriptValue} (hv : w₀.AllSafe v) :
    Sparing w₀ (Act.convertFor convert c member t v) w₀.AllSafe :=
  .mapError _ (fun _ _ _ _ => .of_eq_nil rfl) (hconvert t v ht hv)

/-- A value that is assigned to a member is converted to the type of the member, and given to its
setter. -/
theorem assignMember (via : BindingRef) (c : ClassRef) {receiver : Option ObjectRef}
    (hr : w₀.AllSafe receiver) {m : Member} (hm : w₀.AllSafe m) {v : ScriptValue}
    (hv : w₀.AllSafe v) :
    Sparing w₀ (Act.assignMember convert via c receiver m v) fun _ => True := by
  cases m with
  | method x => exact .fails rfl
  | property p =>
    -- The type comes with the member, and a class may stand in it.
    have htype : w₀.AllSafe p.type := fun x hx => hm x (List.mem_append_left _ hx)
    simp only [Act.assignMember]
    split
    · exact .fails rfl
    · cases p.setter with
      | none => exact .fails rfl
      | some s =>
        refine (convertFor hconvert c _ htype hv).bind fun x hx => ?_
        exact (note _).andThen fun _ => runSetter _ _ hr hx s
  | field f =>
    have htype : w₀.AllSafe f.type := hm
    simp only [Act.assignMember]
    cases f.setter with
    | none => exact .fails rfl
    | some s =>
      refine (needReceiver _ _ hr).bind fun o ho => ?_
      refine (convertFor hconvert c _ htype hv).bind fun x hx => ?_
      exact (note _).andThen fun _ => runSetter _ _ (AllSafe.some_iff.mpr ho) hx s

/-- Assigning to whatever a key finds. -/
theorem assignKey (via : BindingRef) {c : ClassRef} (hc : w₀.AllSafe c)
    {receiver : Option ObjectRef} (hr : w₀.AllSafe receiver) (k : MemberKey) {v : ScriptValue}
    (hv : w₀.AllSafe v) :
    Sparing w₀ (Act.assignKey convert via c receiver k v) fun _ => True := by
  refine (resolve via hc k receiver.isSome).bind fun ms hms => ?_
  split
  · exact assignMember hconvert via c hr (hms _ List.mem_cons_self).1 hv
  · exact .fails rfl

/-- Assigning the entries of a table one after another. -/
theorem assignEntries (via : BindingRef) {c : ClassRef} (hc : w₀.AllSafe c) {o : ObjectRef}
    (ho : w₀.AllSafe o) (entries : List (String × ScriptValue))
    (hentries : ∀ p ∈ entries, w₀.AllSafe p.2) :
    Sparing w₀ (Act.assignEntries convert via c o entries) fun _ => True := by
  induction entries with
  | nil => exact .done
  | cons p rest ih =>
    obtain ⟨hfirst, hrest⟩ := List.forall_mem_cons.mp hentries
    have hassign := assignKey hconvert via hc (AllSafe.some_iff.mpr ho) (.name p.1) hfirst
    exact (mapError _ (fun _ _ _ _ => .of_eq_nil rfl) hassign).andThen fun _ => ih hrest

end Converter

/-! ### To host -/

/-- A fresh instance starts from what its class holds. -/
theorem construct {c : ClassRef} (hc : w₀.AllSafe c) :
    Sparing w₀ (Act.construct c) w₀.AllSafe := by
  refine Sparing.bind (P := fun s? => ∀ s, s? = some s → w₀.AllSafe s)
    (.look fun w hw s hs => hw.constructor hc hs) fun s? hs => ?_
  cases s? with
  | none => exact .fails rfl
  | some s => exact (note _).andThen fun _ => newObject c hc (x := .slots s) (hs s rfl)

/-- A new object holds its class and the payload that it was given. -/
theorem instantiate {c : ClassRef} (hc : w₀.AllSafe c) {p : Payload} (hp : w₀.AllSafe p) :
    Sparing w₀ (Act.instantiate c p) w₀.AllSafe := by
  refine Sparing.seen.andThen fun expected => ?_
  split
  · exact newObject c hc hp
  · exact .fails rfl

/-- The error of a conversion holds nothing. -/
theorem mismatch (v : ScriptValue) (t : HostType) {Q : α → Prop} :
    Sparing w₀ (Act.mismatch v t : Act ConversionError α) Q :=
  .failWith fun _ => .of_eq_nil rfl

/-- Converting the items of a list: if each conversion gives what is safe, so do all of them. -/
theorem convertItems {convert : ScriptValue → Act ConversionError HostValue}
    {target element : HostType} (hconvert : ∀ v, w₀.AllSafe v → Sparing w₀ (convert v) w₀.AllSafe)
    {vs : List ScriptValue} (hvs : w₀.AllSafe vs) (i : Nat) :
    Sparing w₀ (Act.convertItems convert target element vs i) w₀.AllSafe := by
  induction vs generalizing i with
  | nil => exact .pure .nil
  | cons v vs ih =>
    have hfirst := hconvert v hvs.head
    refine Sparing.bind (mapError _ (fun _ _ _ _ => .of_eq_nil rfl) hfirst) fun x hx => ?_
    exact (ih hvs.tail (i + 1)).bind fun xs hxs => .pure (.cons hx hxs)

section Builder

variable {build : Builder}
  (hbuild : ∀ c t, w₀.AllSafe c → w₀.Safe t.handle → Sparing w₀ (build c t) w₀.AllSafe)
include hbuild

/-- An object is one that a proxy reaches, or a fresh one. -/
theorem convertObject {c : ClassRef} (hc : w₀.AllSafe c) {v : ScriptValue} (hv : w₀.AllSafe v) :
    Sparing w₀ (Act.convertObject build c v) w₀.AllSafe := by
  cases v with
  | userdata u =>
    refine Sparing.bind (P := fun t? => ∀ t, t? = some t → w₀.AllSafe t) ?_ fun t? ht => ?_
    · exact .look fun w hw t ht => hw.proxyTarget (hv _ List.mem_cons_self) ht
    · rcases t? with _ | ⟨d | o⟩
      · exact mismatch _ _
      · exact mismatch _ _
      -- The proxy reached its object, which is given as it is if it is of the class.
      · dsimp only
        split
        · exact .pure (ht _ rfl)
        · exact .fails rfl
  | table t => exact hbuild c t hc (hv _ List.mem_cons_self)
  | _ => exact mismatch _ _

omit hbuild in
/-- Nil becomes null, or is refused. -/
theorem convertWith_nil (t : HostType) :
    Sparing w₀ (Act.convertWith build t .nil) w₀.AllSafe := by
  unfold Act.convertWith
  split
  · exact .pure (.of_eq_nil rfl)
  · exact .fails rfl

omit hbuild in
/-- A number as an integer of some type holds nothing. -/
theorem fitted {t : IntType} {r : Except ConversionError HostValue}
    (h : ∀ x, r = .ok x → x.HasType (.integer t)) : Sparing w₀ (Act.ofExcept r) w₀.AllSafe := by
  refine .ofExcept ?_
  cases r with
  | ok x => cases h x rfl <;> exact .of_eq_nil rfl
  | error e => exact .of_eq_nil rfl

/-- **Conversion by type**, by recursion on the type. What passes through unconverted was in hand,
and the type holds the class of which instances are made. -/
theorem convertWith {t : HostType} (ht : w₀.AllSafe t) {v : ScriptValue} (hv : w₀.AllSafe v) :
    Sparing w₀ (Act.convertWith build t v) w₀.AllSafe := by
  -- For every type nil comes first: it is decided before the type is looked at.
  induction t generalizing v with
  | nullable inner ih =>
    cases v with
    | nil => exact convertWith_nil _
    | _ => unfold Act.convertWith; exact ih ht hv
  | array element ih =>
    cases v with
    | nil => exact convertWith_nil _
    | table t =>
      unfold Act.convertWith
      refine Sparing.bind (P := w₀.AllSafe) ?_ fun vs hvs => ?_
      · exact .look fun w hw => Table.allSafe_sequence (hw.table (hv _ List.mem_cons_self))
      · exact (convertItems (fun v hv => ih ht hv) hvs 1).bind fun xs hxs =>
          .pure (AllSafe.array_iff.mpr hxs)
    | _ => unfold Act.convertWith; exact mismatch _ _
  | object c =>
    cases v with
    | nil => exact convertWith_nil _
    | _ => unfold Act.convertWith; exact convertObject hbuild ht hv
  | any =>
    cases v with
    | nil => exact convertWith_nil _
    | _ => unfold Act.convertWith; exact .look fun w hw => hw.naturalValue hv
  | integer t =>
    cases v with
    | nil => exact convertWith_nil _
    | integer _ => unfold Act.convertWith; exact fitted fun x hx => IntType.hasType_of_fit hx
    | number _ => unfold Act.convertWith; exact fitted fun x hx => IntType.hasType_of_fitFloat hx
    | _ => unfold Act.convertWith; exact mismatch _ _
  | single =>
    cases v with
    | nil => exact convertWith_nil _
    | _ =>
      unfold Act.convertWith
      split
      · split
        · exact .pure (.of_eq_nil rfl)
        · exact .fails rfl
      · exact mismatch _ _
  | double =>
    cases v with
    | nil => exact convertWith_nil _
    | _ =>
      unfold Act.convertWith
      split
      · exact .pure (.of_eq_nil rfl)
      · exact mismatch _ _
  | void =>
    cases v with
    | nil => exact convertWith_nil _
    | _ => unfold Act.convertWith; exact .pure (.of_eq_nil rfl)
  | bool =>
    cases v with
    | nil => exact convertWith_nil _
    | boolean x => unfold Act.convertWith; exact .pure (.of_eq_nil rfl)
    | _ => unfold Act.convertWith; exact mismatch _ _
  | string =>
    cases v with
    | nil => exact convertWith_nil _
    | string s => unfold Act.convertWith; exact .pure (.of_eq_nil rfl)
    | _ => unfold Act.convertWith; exact mismatch _ _
  | table =>
    cases v with
    | nil => exact convertWith_nil _
    | table t => unfold Act.convertWith; exact .pure hv
    | _ => unfold Act.convertWith; exact mismatch _ _
  | function =>
    cases v with
    | nil => exact convertWith_nil _
    | function f => unfold Act.convertWith; exact .pure hv
    | _ => unfold Act.convertWith; exact mismatch _ _

end Builder

/-- An object is built from a table by assigning the entries to it. -/
theorem buildObject {convert : Converter}
    (hconvert : ∀ t v, w₀.AllSafe t → w₀.AllSafe v → Sparing w₀ (convert t v) w₀.AllSafe)
    (via : BindingRef) {c : ClassRef} (hc : w₀.AllSafe c) {t : TableRef} (ht : w₀.Safe t.handle) :
    Sparing w₀ (Act.buildObject convert via c t) w₀.AllSafe := by
  refine (construct hc).bind fun o ho => ?_
  refine Sparing.bind (P := w₀.AllSafe) (.look fun w hw => hw.table ht) fun entries hentries => ?_
  split
  · exact .failWith fun _ => .of_eq_nil rfl
  · have hstrings := assignEntries hconvert via hc ho (stringEntries entries) fun _ hp =>
      (Table.allSafe_iff.mp hentries).stringEntries hp
    exact (hstrings.holding ho).andThen fun _ => .pure ho

/-- The same to any depth of nesting. -/
theorem buildUpTo (via : BindingRef) (n : Nat) {c : ClassRef} (hc : w₀.AllSafe c) {t : TableRef}
    (ht : w₀.Safe t.handle) : Sparing w₀ (Act.buildUpTo via n c t) w₀.AllSafe := by
  induction n generalizing c t with
  | zero => exact .fails rfl
  | succ n ih =>
    have hnested : ∀ t v, w₀.AllSafe t → w₀.AllSafe v →
        Sparing w₀ (Act.convertWith (Act.buildUpTo via n) t v) w₀.AllSafe :=
      fun _ _ ht hv => convertWith (fun _ _ hc ht => ih hc ht) ht hv
    exact buildObject hnested via hc ht

/-- **Conversion to host.** -/
theorem toHost (via : BindingRef) {t : HostType} (ht : w₀.AllSafe t) {v : ScriptValue}
    (hv : w₀.AllSafe v) : Sparing w₀ (Act.toHost via t v) w₀.AllSafe :=
  Sparing.seen.andThen fun n => convertWith (fun _ _ hc ht => buildUpTo via n hc ht) ht hv

/-! ### Proxies -/

/-- **What is reached is alive**, so it was not dead before. -/
theorem reachTarget {t : Target} (ht : w₀.AllSafe t.cls) :
    Sparing w₀ (Act.reachTarget t) w₀.AllSafe := by
  refine Sparing.bind (P := fun t? => ∀ t', t? = some t' → w₀.AllSafe t')
    (.look fun w hw t' hreach => hw.reached ht hreach) fun t? hreached => ?_
  cases t? with
  | some t' => exact .pure (hreached t' rfl)
  | none => exact .fails rfl

/-- Taking hold of a target, one has hold of its class. -/
theorem allSafe_cls {t : Target} (ht : w₀.AllSafe t) : w₀.AllSafe t.cls := by
  cases t with
  | type c => exact ht
  | object o => exact fun x hx => ht x (List.mem_cons_of_mem _ hx)

/-- The receiver is the target, if that is an object. -/
theorem allSafe_receiver {t : Target} (ht : w₀.AllSafe t) : w₀.AllSafe t.receiver? := by
  cases t with
  | type c => exact .none
  | object o => exact AllSafe.some_iff.mpr ht

/-- A function that is read names what the proxy names, as weakly. -/
theorem methodFunction (via : BindingRef) {t : Target} (ht : w₀.AllSafe t) {m : Method}
    (hm : w₀.AllSafe m.params) (hclosed : Op.allClosed m.body) :
    Sparing w₀ (Act.methodFunction via t m) w₀.AllSafe := by
  have hf : w₀.AllSafe (Function.mk (t.cls.name ++ "." ++ m.name) .host (.method via t m)) :=
    List.forall_mem_append.mpr ⟨allSafe_cls ht, hm⟩
  exact (newFunction hf hclosed).bind fun _ hf => .pure (.function hf)

section Access

variable {p : Proxy} (hp : ∀ t, p.target = some t → w₀.AllSafe t.cls)
include hp

/-- The target that a proxy names. -/
theorem namedTarget : Sparing w₀ (Act.namedTarget p) fun t => w₀.AllSafe t.cls := by
  unfold Act.namedTarget
  cases ht : p.target with
  | some t => exact .pure (hp t ht)
  | none => exact .fails rfl

/-- **Reading through a proxy.** -/
theorem readProxy (key : ScriptValue) : Sparing w₀ (Act.readProxy p key) w₀.AllSafe := by
  have hnil : w₀.AllSafe ScriptValue.nil := .of_eq_nil rfl
  refine (namedTarget hp).bind fun _ ht => (reachTarget ht).bind fun t ht => ?_
  -- A method gives a function that is bound to the target; other members are read, and what they give
  -- crosses.
  split
  · exact .pure hnil
  · next k _ =>
    refine (resolve p.via (allSafe_cls ht) k t.isInstance).bind fun ms hms => ?_
    split
    · obtain ⟨hm, hclosed⟩ := hms _ List.mem_cons_self
      exact methodFunction p.via ht hm hclosed
    · obtain ⟨hm, -⟩ := hms _ List.mem_cons_self
      refine (readMember p.via t.cls (allSafe_receiver ht) hm).bind fun v? hv => ?_
      cases v? with
      | some v => exact toScript p.via v (AllSafe.some_iff.mp hv)
      | none => exact .pure hnil
    · exact .pure hnil

/-- **Writing through a proxy.** -/
theorem writeProxy (key : ScriptValue) {v : ScriptValue} (hv : w₀.AllSafe v) :
    Sparing w₀ (Act.writeProxy p key v) fun _ => True := by
  refine (namedTarget hp).bind fun _ ht => (reachTarget ht).bind fun t ht => ?_
  split
  · exact .fails rfl
  · exact assignKey (fun _ _ ht hv => toHost p.via ht hv) p.via (allSafe_cls ht)
      (allSafe_receiver ht) _ hv

end Access

/-! ### Errors -/

/-- A failure becomes an error: a script error that went through the host is the one it was, and for
anything else there is a new error object. -/
theorem toScriptError {e : HostFailure} (he : w₀.AllSafe e) :
    Sparing w₀ (Act.toScriptError e) w₀.AllSafe := by
  unfold Act.toScriptError
  split
  · exact .pure he
  · -- The carrier is new and holds the failure, and the error holds the carrier.
    exact (newUserdata (d := .carrier e) he).bind fun u hu =>
      .look fun _ _ => AllSafe.userdata hu

/-- Failures of the host are raised in script. -/
theorem raising {m : Act HostFailure α} {Q : α → Prop} (h : Sparing w₀ m Q) :
    Sparing w₀ (Act.raising m) Q := by
  refine Sparing.bind (attempt h) fun r hr => ?_
  cases r with
  | ok a => exact .pure hr
  | error e => exact (toScriptError hr).bind fun _ hs => .throw hs

/-- Errors of a script are caught by the host. -/
theorem catching {m : Act ScriptError α} {Q : α → Prop} (h : Sparing w₀ m Q) :
    Sparing w₀ (Act.catching m) Q :=
  .mapError _ (fun _ _ hw he => hw.unwrapError he) h

/-! ### Indexing -/

/-- The complaint about a value that has no keys holds nothing. -/
theorem notIndexable (name : String) {Q : α → Prop} :
    Sparing w₀ (Act.notIndexable name : Act ScriptError α) Q :=
  .runtimeError _

/-- What a proxy in hand names is of a class that is safe. -/
theorem userdatum {u : UserdataRef} (hu : w₀.Safe u.handle) :
    Sparing w₀ (Act.look fun w => w.userdatum u : Act ε Userdata)
      fun d => ∀ p, d = .proxy p → ∀ t, p.target = some t → w₀.AllSafe t.cls := by
  refine .look fun w hw p hp t ht => hw.proxy hu ?_ ht
  unfold World.proxy?
  rw [hp]

/-- **An index** gives what is in a table or what a proxy reads. -/
theorem index (inCoroutine : Bool) {target : ScriptValue} (htarget : w₀.AllSafe target)
    (key : ScriptValue) : Sparing w₀ (Act.index inCoroutine target key) w₀.AllSafe := by
  unfold Act.index
  cases target with
  | table t =>
    exact .look fun w hw => Table.allSafe_get (hw.table (htarget _ List.mem_cons_self)) key
  | userdata u =>
    refine (userdatum (htarget _ List.mem_cons_self)).bind fun d hd => ?_
    cases d with
    | proxy p => exact raising ((guard inCoroutine _).andThen fun _ => readProxy (hd p rfl) key)
    | carrier e =>
      -- An error object has its texts only.
      refine .pure ?_
      split <;> exact .of_eq_nil rfl
    | «foreign» n t => exact notIndexable _
  | _ => exact notIndexable _

/-- **An assignment to an index** puts what is in hand into a table or through a proxy. -/
theorem setIndex (inCoroutine : Bool) {target key value : ScriptValue}
    (htarget : w₀.AllSafe target) (hkey : w₀.AllSafe key) (hvalue : w₀.AllSafe value) :
    Sparing w₀ (Act.setIndex inCoroutine target key value) fun _ => True := by
  unfold Act.setIndex
  cases target with
  | table t =>
    exact writeTable (htarget _ List.mem_cons_self) hkey hvalue fun _ => .runtimeError _
  | userdata u =>
    refine (userdatum (htarget _ List.mem_cons_self)).bind fun d hd => ?_
    cases d with
    | proxy p =>
      exact raising ((guard inCoroutine _).andThen fun _ => writeProxy (hd p rfl) key hvalue)
    | carrier e => exact notIndexable _
    | «foreign» n t => exact notIndexable _
  | _ => exact notIndexable _

end Sparing

end Act

end ScriptHost
