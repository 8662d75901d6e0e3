import ScriptHost.Proofs.Confinement.Keeps
import ScriptHost.Proofs.Conversion.HasType

/-!
# Crossing the boundary inside a realm

Everything that crosses into script crosses under the binding of the realm: `Keeps.toScript` makes
proxies of that binding only, from its cache or afresh, and `Keeps.readProxy` gives what an open
member gives, or a function that is bound to the binding. On the way to the host a conversion finds
targets that script had and fills fresh instances through open setters (`Keeps.toHost`).

Main statements for script's own accesses: `Keeps.index` and `Keeps.setIndex`. They ask nothing of
host code, since getters and setters are no bodies.
-/

set_option autoImplicit false

namespace ScriptHost

open Act

namespace Realm

variable {R : Realm} {S : Set Item} {ε α : Type} [Exposes ε]

/-- What an act keeps inside may be shown with a confined world at hand. -/
theorem Keeps.of_confined {m : Act ε α} {Q : Set Item → α → Prop}
    (h : ∀ {S'}, S ⊆ S' → ∀ w, R.Confined S' w → R.Keeps S' m Q) : R.Keeps S m Q :=
  fun S₁ hS w hw => h hS w hw S₁ subset_rfl w hw

/-! ### To script -/

mutual

/-- **Conversion to script** under the binding: an object gets its proxy of the binding, a class a
fresh one, and everything else exposes what it exposed. -/
theorem Keeps.toScript {S : Set Item} :
    ∀ v : HostValue, Inside S v → R.Keeps S (Act.toScript R.via v : Act ε ScriptValue) Inside
  | .null, _ | .bool _, _ | .int _, _ | .float _, _ | .string _, _ => by
    unfold Act.toScript
    exact .give (.of_exposed_eq_nil rfl)
  | .uint u, _ => by
    unfold Act.toScript ofUInt64
    split <;> exact .give (.of_exposed_eq_nil rfl)
  | .script v, hv => by
    unfold Act.toScript
    exact .give (Inside.script_iff.mp hv)
  | .array items, hv => by
    unfold Act.toScript
    -- The items are inside, and the table that is made of them joins what is inside.
    refine (toScriptEach items _ (Inside.array_iff.mp hv)).bind fun _ vs hvs => ?_
    exact (newTable (Table.inside_ofSequence hvs)).bind fun _ t ht =>
      .give (Inside.table_iff.mpr ht)
  | .object o, hv => by
    unfold Act.toScript
    exact (proxyFor (Inside.object_iff.mp hv)).bind fun _ u hu => .give (Inside.userdata_iff.mpr hu)
  | .cls c, hv => by
    unfold Act.toScript
    exact (newProxy (Inside.cls_iff.mp hv)).bind fun _ u hu => .give (Inside.userdata_iff.mpr hu)

/-- The same for a list, of which the values that are still to come are held. -/
theorem Keeps.toScriptEach {S : Set Item} : ∀ (vs : List HostValue) (pending : List Handle),
    Inside S vs → R.Keeps S (Act.toScriptEach R.via vs pending : Act ε (List ScriptValue)) Inside
  | [], _, _ => by
    unfold Act.toScriptEach
    exact .give .nil
  | v :: vs, pending, hv => by
    unfold Act.toScriptEach
    refine (holding _ (toScript v hv.head)).bind fun hS x hx => ?_
    exact (holding _ (toScriptEach vs _ (hv.tail.mono hS))).bind fun hS' rest hrest =>
      .give (.cons (hx.mono hS') hrest)

end

/-- Arguments and results are converted in this way. -/
theorem Keeps.toScriptAll {vs : List HostValue} (hvs : Inside S vs) :
    R.Keeps S (Act.toScriptAll R.via vs : Act ε (List ScriptValue)) Inside :=
  toScriptEach vs _ hvs

/-! ### Members -/

/-- A receiver that is needed is the one that was given. -/
theorem Keeps.needReceiver (c member : String) (receiver : Option ObjectRef) :
    R.Keeps S (Act.needReceiver c member receiver) fun _ o => receiver = some o := by
  cases receiver with
  | some o => exact .pure fun _ => rfl
  | none => exact .fails rfl

/-- Borrowing an object gives no value by itself. -/
theorem Keeps.borrowed (o : ObjectRef) (mutably : Bool) (expected : PayloadType) :
    R.Keeps S (Act.borrowed o mutably expected) fun _ _ => True := by
  refine seen.andThen fun _ ob => ?_
  split
  · exact .fails rfl
  · exact .done

/-- **Reading a slot** that an open member reads. -/
theorem Keeps.readSlot {o : ObjectRef} (ho : .target (.object o) ∈ S) {m : Member}
    (hm : .opened o.cls true m ∈ S) {slot : String}
    (hslot : ∀ slots : Slots, m.given? slots = some (slots.read slot)) :
    R.Keeps S (Act.readSlot o slot) Inside := by
  -- What lies in the other slots of the object need not be inside.
  have hborrowed : R.Keeps S (Act.borrowed o false .slots)
      fun S' ob => Inside S' (ob.payload.slotsOf.read slot) := by
    refine Keeps.bind (P := fun S' ob => Inside S' (ob.payload.slotsOf.read slot)) ?_ ?_
    · exact .look fun hS w hw =>
        hw.given (hS ho) (hw.items _ (hS hm)) (hslot (w.object o).payload.slotsOf)
    · intro S' _ ob hob
      split
      · exact .fails rfl
      · exact .pure fun hS => hob.mono hS
  exact hborrowed.bind fun _ ob hob => .give hob

/-- A constant that an open member gives. -/
theorem Keeps.constant {t : Target} (ht : .target t ∈ S) {m : Member}
    (hm : .opened t.cls t.isInstance m ∈ S) {v : HostValue}
    (hv : ∀ slots : Slots, m.given? slots = some v) :
    R.Keeps S (Pure.pure v : Act ε HostValue) Inside :=
  .of_confined fun hS _ hw => .give (hw.given (hS ht) (hw.items _ (hS hm)) (hv _))

/-- **A getter that script starts** is one of an open member, and what it gives is inside. -/
theorem Keeps.readMember {t : Target} (ht : .target t ∈ S) {m : Member}
    (hm : .opened t.cls t.isInstance m ∈ S) :
    R.Keeps S (Act.readMember R.via t.cls t.receiver? m) Inside := by
  have hadmitted : R.Admits S (.getter R.via t.cls m) := ⟨rfl, _, hm⟩
  -- A slot is read of the object that the target is.
  have hread {S'} (hS : S ⊆ S') {o : ObjectRef} (ho : t.receiver? = some o) {slot : String}
      (hslot : ∀ slots : Slots, m.given? slots = some (slots.read slot)) :
      R.Keeps S' (Act.readSlot o slot) Inside := by
    cases t with
    | type c => cases ho
    | object q =>
      obtain rfl := Option.some.inj ho
      exact .readSlot (hS ht) (hS hm) hslot
  cases m with
  | method x => exact .give .none
  | property p =>
    simp only [Act.readMember]
    split
    · exact .fails rfl
    · next hplain =>
      cases hg : p.getter with
      | none => exact .fails rfl
      | some g =>
        refine (note hadmitted).andThen fun {S'} hS _ => ?_
        have hgetter : R.Keeps S' (runGetter t.cls.name p.name t.receiver? g) Inside := by
          cases g with
          | constant v =>
            exact .constant (hS ht) (hS hm) fun _ => by rw [Member.given?, if_neg hplain, hg]; rfl
          | slot s =>
            refine (needReceiver _ _ _).bind fun hS' o ho => hread (hS.trans hS') ho fun _ => ?_
            rw [Member.given?, if_neg hplain, hg]
            rfl
        exact hgetter.bind fun _ v hv => .give (Inside.some_iff.mpr hv)
  | field f =>
    refine (needReceiver _ _ _).bind fun hS o ho => ?_
    refine (note (hadmitted.mono hS)).andThen fun {S'} hS' _ => ?_
    have hgetter : R.Keeps S' (runGetter t.cls.name f.name (some o) (.slot f.slot)) Inside := by
      refine (needReceiver _ _ _).bind fun hS'' q hq => ?_
      exact hread (hS.trans (hS'.trans hS'')) (ho.trans hq) fun _ => rfl
    exact hgetter.bind fun _ v hv => .give (Inside.some_iff.mpr hv)

/-- A setter stores the value that it was given. -/
theorem Keeps.runSetter (c member : String) (receiver : Option ObjectRef) {v : HostValue}
    (hv : Inside S v) (s : Setter) :
    R.Keeps S (Act.runSetter c member receiver v s) fun _ _ => True := by
  cases s with
  | slot s => exact (needReceiver _ _ _).bind fun hS o _ => .writeSlot o s (hv.mono hS)
  | refuse message =>
    exact (needReceiver _ _ _).bind fun _ o _ =>
      (borrowed o true .slots).andThen fun _ _ => .fails rfl

/-- Resolution teaches script which members are open. -/
theorem Keeps.resolve (c : ClassRef) (k : MemberKey) (onInstance : Bool) :
    R.Keeps S (Act.look fun w => (w.binding R.via).resolve (w.cls c) k onInstance :
      Act ε (List Member)) fun S' ms => ∀ m ∈ ms, .opened c onInstance m ∈ S' := by
  refine .learn fun {S'} _ w hw => ?_
  refine ⟨{i | ∃ m ∈ (w.binding R.via).resolve (w.cls c) k onInstance, i = .opened c onInstance m},
    ?_, fun m hm => .inr ⟨m, hm, rfl⟩⟩
  rintro i ⟨m, hm, rfl⟩
  exact hw.resolve hm

section Converter

variable {convert : Converter}
  (hc : ∀ {S} t {v}, Inside S v → R.Keeps S (convert t v) Inside)
include hc

/-- An error of a conversion holds nothing, also when the member that it was for is named. -/
theorem Keeps.convertFor (c : ClassRef) (member : String) (t : HostType) {v : ScriptValue}
    (hv : Inside S v) : R.Keeps S (Act.convertFor convert c member t v) Inside :=
  .mapError _ (fun _ _ _ _ => .of_exposed_eq_nil rfl) (hc t hv)

/-- **A setter that script starts** is one of an open member. -/
theorem Keeps.assignMember {c : ClassRef} {receiver : Option ObjectRef} {m : Member}
    {onInstance : Bool} (hm : .opened c onInstance m ∈ S) {v : ScriptValue} (hv : Inside S v) :
    R.Keeps S (Act.assignMember convert R.via c receiver m v) fun _ _ => True := by
  cases m with
  | method x => exact .fails rfl
  | property p =>
    simp only [Act.assignMember]
    split
    · exact .fails rfl
    · cases p.setter with
      | none => exact .fails rfl
      | some s =>
        -- The setter of a member that is open may be started, and the binding admits it.
        refine (convertFor hc c _ _ hv).bind fun hS h hh => ?_
        refine (note (e := .setter R.via c _ h) ⟨rfl, _, hS hm⟩).andThen fun hS' _ => ?_
        exact runSetter _ _ _ (hh.mono hS') s
  | field f =>
    simp only [Act.assignMember]
    cases f.setter with
    | none => exact .fails rfl
    | some s =>
      refine (needReceiver _ _ _).bind fun hS o _ => ?_
      refine (convertFor hc c _ _ (hv.mono hS)).bind fun hS' h hh => ?_
      refine (note (e := .setter R.via c _ h) ⟨rfl, _, hS' (hS hm)⟩).andThen fun hS'' _ => ?_
      exact runSetter _ _ _ (hh.mono hS'') s

/-- Assigning to whatever a key finds: only what the binding admits is found. -/
theorem Keeps.assignKey (c : ClassRef) (receiver : Option ObjectRef) (k : MemberKey)
    {v : ScriptValue} (hv : Inside S v) :
    R.Keeps S (Act.assignKey convert R.via c receiver k v) fun _ _ => True := by
  refine (resolve c k receiver.isSome).bind fun hS ms hms => ?_
  split
  · exact assignMember hc (hms _ (List.mem_singleton_self _)) (hv.mono hS)
  · exact .fails rfl

/-- Assigning the entries of a table one after another. -/
theorem Keeps.assignEntries (c : ClassRef) (o : ObjectRef) {entries : List (String × ScriptValue)}
    (hentries : Inside S entries) :
    R.Keeps S (Act.assignEntries convert R.via c o entries) fun _ _ => True := by
  induction entries generalizing S with
  | nil => exact .done
  | cons p rest ih =>
    have hvalue : Inside S p.2 := hentries.head
    refine (mapError _ (fun _ _ _ _ => ?_) (assignKey hc c (some o) (.name p.1) hvalue)).andThen ?_
    · exact .of_exposed_eq_nil rfl
    · exact fun hS _ => ih (hentries.tail.mono hS)

end Converter

/-! ### To host -/

/-- **A fresh instance**: its open members give what the constructor's slots give. -/
theorem Keeps.construct (c : ClassRef) :
    R.Keeps S (Act.construct c) fun S' o => .target (.object o) ∈ S' := by
  intro S₁ hS w hw
  unfold Act.construct
  rw [outcome_bind_ok (outcome_look _ w)]
  cases hs : (w.cls c).constructor with
  | none => exact ⟨S₁, subset_rfl, hw, .of_exposed_eq_nil rfl⟩
  | some slots =>
    have hnoted := hw.note (e := .constructor c) trivial
    have hclean : R.Clean S₁ { w with journal := .constructor c :: w.journal } c true slots :=
      hw.constructors c slots hs
    exact ⟨_, Set.subset_insert _ _, hnoted.pushObject c hclean, Set.mem_insert _ _⟩

/-- **An instance with given slots** gives these, and what its class makes it give. -/
theorem Keeps.instantiate (c : ClassRef) {ps : List (String × HostValue)} (hps : Inside S ps) :
    R.Keeps S (Act.instantiate c (.slots (Slots.ofList ps)))
      fun S' o => .target (.object o) ∈ S' := by
  refine seen.andThen fun {S'} hS expected => ?_
  split
  · intro S₁ hS₁ w hw
    have hread := Slots.inside_read_ofList (hps.mono (hS.trans hS₁))
    exact ⟨_, Set.subset_insert _ _, hw.pushObject c ((hw.classes c).ofSlots hread),
      Set.mem_insert _ _⟩
  · exact .fails rfl

/-- The error of a conversion holds nothing. -/
theorem Keeps.mismatch (v : ScriptValue) (t : HostType) {Q : Set Item → α → Prop} :
    R.Keeps S (Act.mismatch v t : Act ConversionError α) Q :=
  .failWith fun _ => .of_exposed_eq_nil rfl

/-- Converting the items of a list one after another. -/
theorem Keeps.convertItems {convert : ScriptValue → Act ConversionError HostValue}
    {target element : HostType}
    (hc : ∀ {S} {v}, Inside S v → R.Keeps S (convert v) Inside)
    {vs : List ScriptValue} (hvs : Inside S vs) (i : Nat) :
    R.Keeps S (Act.convertItems convert target element vs i) Inside := by
  induction vs generalizing S i with
  | nil => exact .give .nil
  | cons v vs ih =>
    refine (mapError _ (fun _ _ _ _ => .of_exposed_eq_nil rfl) (hc hvs.head)).bind fun hS h hh => ?_
    exact (ih (hvs.tail.mono hS) (i + 1)).bind fun hS' hs hhs => .give (.cons (hh.mono hS') hhs)

section Builder

variable {build : Builder}
  (hb : ∀ {S} c t, .table t ∈ S → R.Keeps S (build c t) Inside)
include hb

/-- An object is one that script has a proxy of, or a fresh one. -/
theorem Keeps.convertObject (c : ClassRef) {v : ScriptValue} (hv : Inside S v) :
    R.Keeps S (Act.convertObject build c v) Inside := by
  cases v with
  | userdata u =>
    refine Keeps.bind (P := fun S' t? => ∀ t, t? = some t → .target t ∈ S') ?_ ?_
    · exact .look fun hS w hw t ht => hw.proxyTarget (hS (Inside.userdata_iff.mp hv)) ht
    · intro S' _ t? ht
      rcases t? with _ | ⟨c | o⟩
      · exact mismatch _ _
      · exact mismatch _ _
      -- The proxy is inside, so its target is inside as well.
      · dsimp only
        split
        · exact .give (Inside.object_iff.mpr (ht _ rfl))
        · exact .fails rfl
  | table t => exact hb c t (Inside.table_iff.mp hv)
  | _ => exact mismatch _ _

omit hb in
/-- nil converts without a look at anything but the type. -/
theorem Keeps.convertWith_nil (t : HostType) : R.Keeps S (Act.convertWith build t .nil) Inside := by
  unfold Act.convertWith
  split
  · exact .give (.of_exposed_eq_nil rfl)
  · exact .fails rfl

omit hb in
/-- A number as an integer of some type exposes nothing. -/
theorem Keeps.fitted {t : IntType} {r : Except ConversionError HostValue}
    (h : ∀ x, r = .ok x → x.HasType (.integer t)) : R.Keeps S (Act.ofExcept r) Inside := by
  refine .ofExcept fun _ => ?_
  cases r with
  | ok x => cases h x rfl <;> exact .of_exposed_eq_nil rfl
  | error e => exact .of_exposed_eq_nil rfl

/-- **Conversion by type**, by recursion on the type: only arrays and nullable types convert further
values, and what passes through unconverted script had before. -/
theorem Keeps.convertWith (t : HostType) {v : ScriptValue} (hv : Inside S v) :
    R.Keeps S (Act.convertWith build t v) Inside := by
  -- For every type nil comes first: it is decided before the type is looked at.
  induction t generalizing S v with
  | nullable inner ih =>
    cases v with
    | nil => exact convertWith_nil _
    | _ => unfold Act.convertWith; exact ih hv
  | array element ih =>
    cases v with
    | nil => exact convertWith_nil _
    | table t =>
      unfold Act.convertWith
      refine Keeps.bind (P := Inside) ?_ fun _ vs hvs => ?_
      · exact .look fun hS w hw => Table.inside_sequence (hw.table (hS (Inside.table_iff.mp hv)))
      · exact (convertItems ih hvs 1).bind fun _ hs hhs => .give (Inside.array_iff.mpr hhs)
    | _ => unfold Act.convertWith; exact mismatch _ _
  | object c =>
    cases v with
    | nil => exact convertWith_nil _
    | _ => unfold Act.convertWith; exact convertObject hb c hv
  | any =>
    cases v with
    | nil => exact convertWith_nil _
    | _ => unfold Act.convertWith; exact .look fun hS w hw => hw.naturalValue (hv.mono hS)
  | integer t =>
    cases v with
    | nil => exact convertWith_nil _
    | integer _ => unfold Act.convertWith; exact fitted fun x hx => IntType.hasType_of_fit hx
    | number _ => unfold Act.convertWith; exact fitted fun x hx => IntType.hasType_of_fitFloat hx
    | _ => unfold Act.convertWith; exact mismatch _ _
  | single =>
    cases v with
    | nil => exact convertWith_nil _
    | _ =>
      unfold Act.convertWith
      split
      · split
        · exact .give (.of_exposed_eq_nil rfl)
        · exact .fails rfl
      · exact mismatch _ _
  | double =>
    cases v with
    | nil => exact convertWith_nil _
    | _ =>
      unfold Act.convertWith
      split
      · exact .give (.of_exposed_eq_nil rfl)
      · exact mismatch _ _
  | void =>
    cases v with
    | nil => exact convertWith_nil _
    | _ => unfold Act.convertWith; exact .give (.of_exposed_eq_nil rfl)
  | bool =>
    cases v with
    | nil => exact convertWith_nil _
    | boolean x => unfold Act.convertWith; exact .give (.of_exposed_eq_nil rfl)
    | _ => unfold Act.convertWith; exact mismatch _ _
  | string =>
    cases v with
    | nil => exact convertWith_nil _
    | string s => unfold Act.convertWith; exact .give (.of_exposed_eq_nil rfl)
    | _ => unfold Act.convertWith; exact mismatch _ _
  | table =>
    cases v with
    | nil => exact convertWith_nil _
    | table t => unfold Act.convertWith; exact .give (Inside.script_iff.mpr hv)
    | _ => unfold Act.convertWith; exact mismatch _ _
  | function =>
    cases v with
    | nil => exact convertWith_nil _
    | function f => unfold Act.convertWith; exact .give (Inside.script_iff.mpr hv)
    | _ => unfold Act.convertWith; exact mismatch _ _

end Builder

/-- An object is made of a table by assigning the entries to it. -/
theorem Keeps.buildObject {convert : Converter}
    (hc : ∀ {S} t {v}, Inside S v → R.Keeps S (convert t v) Inside) (c : ClassRef) {t : TableRef}
    (ht : .table t ∈ S) : R.Keeps S (Act.buildObject convert R.via c t) Inside := by
  refine (construct c).bind fun hS o ho => ?_
  refine Keeps.bind (P := Inside) (.look fun hS' w hw => hw.table (hS' (hS ht))) ?_
  intro S' hS' entries hentries
  split
  · exact .failWith fun _ => .of_exposed_eq_nil rfl
  · have hassign := assignEntries hc c o (Table.inside_stringEntries hentries)
    exact (hassign.holding (handles o)).andThen fun hS'' _ =>
      .give (Inside.object_iff.mpr (hS'' (hS' ho)))

/-- The same to any depth of nesting. -/
theorem Keeps.buildUpTo (n : Nat) (c : ClassRef) {t : TableRef} (ht : .table t ∈ S) :
    R.Keeps S (Act.buildUpTo R.via n c t) Inside := by
  induction n generalizing S c t with
  | zero => exact .fails rfl
  | succ n ih =>
    exact buildObject (fun t _ hv => convertWith (fun c _ ht => ih c ht) t hv) c ht

/-- **Conversion to host** under the binding. -/
theorem Keeps.toHost (t : HostType) {v : ScriptValue} (hv : Inside S v) :
    R.Keeps S (Act.toHost R.via t v) Inside :=
  seen.andThen fun hS n => convertWith (fun c _ ht => buildUpTo n c ht) t (hv.mono hS)

/-! ### Proxies -/

section Access

variable {p : Proxy} (hvia : p.via = R.via) (hp : ∀ t, p.target = some t → .target t ∈ S)

include hp in
/-- The target that a proxy names. -/
theorem Keeps.namedTarget :
    R.Keeps S (Act.namedTarget p) fun S' t => .target t ∈ S' := by
  unfold Act.namedTarget
  cases ht : p.target with
  | some t => exact .pure fun hS => hS (hp t ht)
  | none => exact .fails rfl

omit [Exposes ε] in
/-- What is reached is the target itself. -/
theorem Keeps.reachTarget {t : Target} (ht : .target t ∈ S) :
    R.Keeps S (Act.reachTarget t) fun S' t => .target t ∈ S' := by
  refine Keeps.bind (P := fun _ t? => ∀ t', t? = some t' → t = t')
    (.look fun _ w _ t' => World.reach?_eq_some) fun hS t? hsame => ?_
  cases t? with
  | some t' => exact .pure fun hS' => hS' (hS (hsame t' rfl ▸ ht))
  | none => exact .fails rfl

/-- A method that is open gives a function of the realm. -/
theorem Keeps.methodFunction {t : Target} (ht : .target t ∈ S) {m : Method}
    (hm : .opened t.cls t.isInstance (.method m) ∈ S) :
    R.Keeps S (Act.methodFunction R.via t m) Inside := by
  refine .of_confined fun hS w hw => ?_
  have hbody : R.methods m.body := ((hw.items _ (hS ht)).2 _ (hw.items _ (hS hm))).2 m rfl
  have hbound : R.Bound _ ⟨t.cls.name ++ "." ++ m.name, .host, .method R.via t m⟩ :=
    ⟨rfl, rfl, hbody, hS ht, hS hm⟩
  exact (newFunction hbound).bind fun _ f hf => .give (Inside.function_iff.mpr hf)

include hvia hp

/-- **Reading through a proxy of the binding**: the value of an open member, converted under the
same binding, or a function that is bound to it. -/
theorem Keeps.readProxy (key : ScriptValue) : R.Keeps S (Act.readProxy p key) Inside := by
  unfold Act.readProxy
  rw [hvia]
  refine (namedTarget hp).bind fun _ t ht => ?_
  refine (reachTarget ht).bind fun _ t ht => ?_
  split
  · exact .give .nilValue
  -- What is found under the key was opened by the binding.
  · next k _ =>
    refine (resolve t.cls k t.isInstance).bind fun hS ms hms => ?_
    split
    · exact methodFunction (hS ht) (hms _ (List.mem_singleton_self _))
    · refine (readMember (hS ht) (hms _ (List.mem_singleton_self _))).bind fun _ v? hv => ?_
      cases v? with
      | some v => exact toScript v (Inside.some_iff.mp hv)
      | none => exact .give .nilValue
    · exact .give .nilValue

/-- **Writing through a proxy of the binding.** -/
theorem Keeps.writeProxy (key : ScriptValue) {v : ScriptValue} (hv : Inside S v) :
    R.Keeps S (Act.writeProxy p key v) fun _ _ => True := by
  unfold Act.writeProxy
  rw [hvia]
  refine (namedTarget hp).bind fun hS t ht => ?_
  refine (reachTarget ht).bind fun hS' t _ => ?_
  split
  · exact .fails rfl
  · exact assignKey toHost _ _ _ (hv.mono (hS.trans hS'))

end Access

/-! ### Errors -/

/-- A failure becomes an error, which is raised in script with all that it carries. -/
theorem Keeps.toScriptError {e : HostFailure} (he : Inside S e) :
    R.Keeps S (Act.toScriptError e) Inside := by
  unfold Act.toScriptError
  split
  · exact .give he
  · -- The carrier is one more item, and the error exposes it.
    refine (newUserdata (x := .carrier e) he).bind fun _ u hu => .look fun hS _ _ => ?_
    exact Inside.userdata_iff.mpr (hS hu)

/-- Failures of the host are raised in script. -/
theorem Keeps.raising {m : Act HostFailure α} {Q : Set Item → α → Prop} (h : R.Keeps S m Q)
    (hQ : ∀ {S S'} a, S ⊆ S' → Q S a → Q S' a) : R.Keeps S (Act.raising m) Q := by
  refine Keeps.bind (attempt h) fun _ r hr => ?_
  cases r with
  | ok a => exact .pure fun hS => hQ a hS hr
  | error e => exact (toScriptError hr).bind fun _ s hs => .throw hs

/-- Errors of a script are caught by the host. -/
theorem Keeps.catching {m : Act ScriptError α} {Q : Set Item → α → Prop} (h : R.Keeps S m Q) :
    R.Keeps S (Act.catching m) Q :=
  .mapError _ (fun _ _ hw he => hw.unwrapError he) h

/-! ### Indexing -/

/-- The complaint about a value that has no keys holds nothing. -/
theorem Keeps.notIndexable (name : String) {Q : Set Item → α → Prop} :
    R.Keeps S (Act.notIndexable name : Act ScriptError α) Q :=
  .runtimeError _

/-- **Script's indexing** stays inside the realm. -/
theorem Keeps.index (inCoroutine : Bool) {target : ScriptValue} (htarget : Inside S target)
    (key : ScriptValue) : R.Keeps S (Act.index inCoroutine target key) Inside := by
  unfold Act.index
  cases target with
  | table t =>
    exact .look fun hS w hw => Table.inside_get (hw.table (hS (Inside.table_iff.mp htarget))) key
  | userdata u =>
    refine Keeps.bind (P := fun S' x => R.Tied S' x) ?_ fun _ x hx => ?_
    · exact .look fun hS w hw => hw.userdatum (hS (Inside.userdata_iff.mp htarget))
    cases x with
    | proxy p =>
      -- Proxies that are inside go through the binding.
      obtain ⟨hvia, htargets⟩ := hx
      refine raising ((guard inCoroutine _).bind fun hS _ _ => ?_) fun _ hS hin => hin.mono hS
      exact readProxy hvia (fun t ht => hS (htargets t ht)) key
    -- An error object has its texts only.
    | carrier e =>
      refine .give ?_
      split <;> exact .of_exposed_eq_nil rfl
    | «foreign» n t => exact notIndexable _
  | _ => exact notIndexable _

/-- **Script's assignment** stays inside the realm. -/
theorem Keeps.setIndex (inCoroutine : Bool) {target key value : ScriptValue}
    (htarget : Inside S target) (hkey : Inside S key) (hvalue : Inside S value) :
    R.Keeps S (Act.setIndex inCoroutine target key value) fun _ _ => True := by
  unfold Act.setIndex
  cases target with
  | table t => exact writeTable t (Inside.table_iff.mp htarget) hkey hvalue fun _ => .runtimeError _
  | userdata u =>
    refine Keeps.bind (P := fun S' x => R.Tied S' x) ?_ fun hS x hx => ?_
    · exact .look fun hS w hw => hw.userdatum (hS (Inside.userdata_iff.mp htarget))
    cases x with
    | proxy p =>
      -- What is assigned was inside before the proxy was looked at, so it still is.
      obtain ⟨hvia, htargets⟩ := hx
      refine raising ((guard inCoroutine _).bind fun hS' _ _ => ?_) fun _ _ _ => trivial
      exact writeProxy hvia (fun t ht => hS' (htargets t ht)) key (hvalue.mono (hS.trans hS'))
    | carrier e => exact notIndexable _
    | «foreign» n t => exact notIndexable _
  | _ => exact notIndexable _

end Realm

end ScriptHost
