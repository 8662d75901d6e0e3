import ScriptHost.Proofs.Act.Composed

/-!
# Crossing the boundary is composed

Conversions, access through proxies and the translation of errors are put together from the
primitive acts. Converting to host may make objects and run setters, and so may every access to a
member: these need to be outside a coroutine, or a license to reach host code directly.

Values that cross name known things on either side: a conversion to script finds proxies or makes
them, and a conversion to host finds objects through proxies or makes them.
-/

set_option autoImplicit false

namespace ScriptHost

/-- What a conversion to a type gives: an inhabitant that names known things. -/
def HostType.Gives (t : HostType) (K : Set Mention) (h : HostValue) : Prop :=
  h.HasType t ∧ Known K h

/-- More may be known of what a conversion gives. -/
theorem HostType.Gives.mono {t : HostType} {K K' : Set Mention} {h : HostValue}
    (hg : t.Gives K h) (hK : K ⊆ K') : t.Gives K' h :=
  ⟨hg.1, hg.2.mono hK⟩

/-- Inhabitants that name nothing. -/
theorem HostValue.HasType.gives {t : HostType} {K : Set Mention} {h : HostValue}
    (ht : h.HasType t) (hnone : Names.named h = []) : t.Gives K h :=
  ⟨ht, .of_named_eq_nil hnone⟩

/-- Integers name nothing. -/
theorem HostValue.HasType.gives_integer {t : IntType} {K : Set Mention} {h : HostValue}
    (ht : h.HasType (.integer t)) : (HostType.integer t).Gives K h :=
  ht.gives (by cases ht <;> rfl)

namespace Act

open World (Unseeing)

variable {l : License} {b : Bool} {K : Set Mention} {ε α : Type} [Names ε]

/-! ### To script -/

/-- A natural number becomes a number of some kind. -/
theorem known_ofUInt64 (u : UInt64) : Known K (ofUInt64 u) := by
  unfold ofUInt64
  split <;> exact .of_named_eq_nil rfl

mutual

/-- **Conversion to script is composed**: proxies are found or made. -/
theorem toScript_composed {K : Set Mention} (via : BindingRef) :
    ∀ v : HostValue, Known K v → Composed l b K (toScript via v : Act ε ScriptValue) Known
  | .null, _ | .bool _, _ | .int _, _ | .float _, _ | .string _, _ => by
    unfold toScript
    exact .pure _ (.of_named_eq_nil rfl)
  | .uint u, _ => by
    unfold toScript
    exact .pure _ (known_ofUInt64 u)
  | .script v, hv => by
    unfold toScript
    exact .pure _ hv
  | .array items, hv => by
    unfold toScript
    -- The table is made when all of its elements have been.
    refine (toScriptEach_composed via items _ (Known.array_iff.mp hv)).bind fun _ vs hvs => ?_
    have hmade := Composed.newTable (l := l) (b := b) (ε := ε) _ (Table.noNil_ofSequence vs)
      (Table.known_ofSequence hvs)
    exact hmade.andThen fun _ t => .pure _ (.of_named_eq_nil rfl)
  | .object o, hv => by
    unfold toScript
    exact (Composed.proxyFor via o hv).bind fun _ u hu => .pure _ hu
  | .cls c, _ => by
    unfold toScript
    exact (Composed.newProxy via (.type c) .none).bind fun _ u hu => .pure _ hu

/-- The elements are converted one after another, and each is held until the last one is done. -/
theorem toScriptEach_composed {K : Set Mention} (via : BindingRef) :
    ∀ (vs : List HostValue) (pending : List Handle), Known K vs →
      Composed l b K (toScriptEach via vs pending : Act ε (List ScriptValue)) Known
  | [], _, _ => by
    unfold toScriptEach
    exact .pure _ .nil
  | v :: vs, pending, hv => by
    unfold toScriptEach
    refine (Composed.holding _ (toScript_composed via v hv.head)).bind fun hK s hs => ?_
    refine (Composed.holding _ (toScriptEach_composed via vs _ (hv.tail.mono hK))).bind ?_
    exact fun hK' rest hrest => .pure _ (.cons (hs.mono hK') hrest)

end

/-- Arguments are converted from left to right. -/
theorem toScriptAll_composed (via : BindingRef) {vs : List HostValue} (hv : Known K vs) :
    Composed l b K (toScriptAll via vs : Act ε (List ScriptValue)) Known :=
  toScriptEach_composed via vs _ hv

/-! ### Members -/

/-- What an object holds is known. -/
theorem borrowed_composed (o : ObjectRef) (mutably : Bool) (expected : PayloadType) :
    Composed l b K (borrowed o mutably expected) Known := by
  unfold borrowed
  refine Composed.bind (P := Known) (.look _ (.inr fun w v h => h.object_eq o) ?_) ?_
  · exact fun _ w _ hk => hk.object o
  · intro K' _ ob hob
    split
    · exact .fails rfl
    · exact .pure _ hob

theorem readSlot_composed (o : ObjectRef) (slot : String) :
    Composed l b K (readSlot o slot) Known :=
  (borrowed_composed o false .slots).bind fun _ _ hob => .pure _ (Slots.known_read hob slot)

/-- A receiver that is needed is the one that is there. -/
theorem needReceiver_composed (c member : String) (receiver : Option ObjectRef) :
    Composed l b K (needReceiver c member receiver) fun _ o => receiver = some o := by
  cases receiver with
  | some o => exact .pure o rfl
  | none => exact .fails rfl

theorem runGetter_composed (c member : String) (receiver : Option ObjectRef) {g : Getter}
    (hg : Known K g) : Composed l b K (runGetter c member receiver g) Known := by
  cases g with
  | constant v => exact .pure _ hg
  | slot s =>
    exact (needReceiver_composed c member receiver).bind fun _ o _ => readSlot_composed o s

section Open

variable (open? : b = false ∨ l.direct = true)
include open?

/-- A setter writes a slot of the receiver, or refuses the value. -/
theorem runSetter_composed (c member : String) (receiver : Option ObjectRef) {v : HostValue}
    (hv : Known K v) (s : Setter) :
    Composed l b K (runSetter c member receiver v s) fun _ _ => True := by
  cases s with
  | slot s =>
    exact (needReceiver_composed c member receiver).bind fun hK o _ =>
      .writeSlot o s v open? (hv.mono hK)
  | refuse message =>
    exact (needReceiver_composed c member receiver).bind fun _ o _ =>
      (borrowed_composed o true .slots).andThen fun _ _ => .fails rfl

/-- What is read is known if the member is. -/
theorem readMember_composed (via : BindingRef) (c : ClassRef) (receiver : Option ObjectRef)
    {m : Member} (hm : Known K m) : Composed l b K (readMember via c receiver m) Known := by
  cases m with
  | method m => exact .pure _ .none
  | property p =>
    simp only [readMember]
    split
    -- A static member needs no receiver, and a property without a getter cannot be read.
    · exact .fails rfl
    · split
      · exact .fails rfl
      · next g hg =>
        have hgetter : Known K g := by
          refine Known.some_iff.mp ?_
          rw [← hg]
          exact hm
        refine (Composed.accessed (.getter via c _) rfl rfl trivial open?).andThen fun hK _ => ?_
        exact (runGetter_composed _ _ _ (hgetter.mono hK)).bind fun _ v hv =>
          .pure _ (Known.some_iff.mpr hv)
  | field f =>
    refine (needReceiver_composed _ _ _).bind fun _ o _ => ?_
    refine (Composed.accessed (.getter via c _) rfl rfl trivial open?).andThen fun _ _ => ?_
    exact (runGetter_composed (g := .slot f.slot) _ _ _ fun _ ho => nomatch ho).bind
      fun _ v hv => .pure _ (Known.some_iff.mpr hv)

variable {convert : Converter}
  (hc : ∀ {K} t {v}, Known K v → Composed l b K (convert t v) t.Gives)

omit open? in
include hc in
theorem convertFor_composed (c : ClassRef) (member : String) (t : HostType) {v : ScriptValue}
    (hv : Known K v) : Composed l b K (convertFor convert c member t v) t.Gives :=
  .mapError _ (.ofRest fun _ _ => rfl) (fun _ _ _ _ => .of_named_eq_nil rfl) (hc t hv)

include hc in
/-- A setter gets a value of the type of its member. -/
theorem assignMember_composed (via : BindingRef) (c : ClassRef) (receiver : Option ObjectRef)
    (m : Member) {v : ScriptValue} (hv : Known K v) :
    Composed l b K (assignMember convert via c receiver m v) fun _ _ => True := by
  cases m with
  | method m => exact .fails rfl
  | property p =>
    simp only [assignMember]
    split
    · exact .fails rfl
    · split
      · exact .fails rfl
      -- The value is converted before the setter is started, so a value that does not convert starts
      -- nothing.
      · refine (convertFor_composed hc c _ _ hv).bind fun _ h hh => ?_
        refine (Composed.accessed (.setter via c (.property p) h) rfl rfl hh.1 open?).andThen ?_
        exact fun hK _ => runSetter_composed open? _ _ _ (hh.2.mono hK) _
  | field f =>
    simp only [assignMember]
    split
    · exact .fails rfl
    · refine (needReceiver_composed _ _ _).bind fun hK o _ => ?_
      refine (convertFor_composed hc c _ _ (hv.mono hK)).bind fun _ h hh => ?_
      refine (Composed.accessed (.setter via c (.field f) h) rfl rfl hh.1 open?).andThen ?_
      exact fun hK _ => runSetter_composed open? _ _ _ (hh.2.mono hK) _

include hc in
/-- Writing by a key goes to the one member that the key denotes. -/
theorem assignKey_composed (via : BindingRef) (c : ClassRef) (receiver : Option ObjectRef)
    (k : MemberKey) {v : ScriptValue} (hv : Known K v) :
    Composed l b K (assignKey convert via c receiver k v) fun _ _ => True := by
  refine (Composed.seen fun w v h => h.resolve via c k _).andThen fun hK ms => ?_
  split
  · exact assignMember_composed open? hc via c receiver _ (hv.mono hK)
  · exact .fails rfl

/-- The slots that a class gives its instances are known with the class. -/
theorem construct_composed (c : ClassRef) :
    Composed l b K (construct c) fun K' o => o.cls = c ∧ Known K' o := by
  refine Composed.bind (P := Known) (.look _ (.inr fun w v h => h.constructor c) ?_) ?_
  · exact fun _ w _ hk o ho => hk.cls c o (List.mem_append_right _ ho)
  · intro K' _ s? hs
    cases s? with
    | some s =>
      exact (Composed.accessed (.constructor c) rfl rfl trivial open?).andThen fun hK _ =>
        .newObject c s ((Known.some_iff.mp hs).mono hK)
    | none => exact .fails rfl

/-! ### To host -/

omit open? in
theorem mismatch_composed (v : ScriptValue) (t : HostType) {Q : Set Mention → α → Prop} :
    Composed l b K (mismatch v t : Act ConversionError α) Q :=
  .failWith _ (fun w w' h => by rw [h.naturalType_eq]) fun _ => .of_named_eq_nil rfl

omit open? in
/-- The items of a sequence are converted in order, up to the first that does not convert. -/
theorem convertItems_composed {convert : ScriptValue → Act ConversionError HostValue}
    {target element : HostType}
    (hc : ∀ {K} {v}, Known K v → Composed l b K (convert v) element.Gives)
    {vs : List ScriptValue} (hvs : Known K vs) (i : Nat) :
    Composed l b K (convertItems convert target element vs i) fun K' hs =>
      ∀ h ∈ hs, element.Gives K' h := by
  induction vs generalizing K i with
  | nil => exact .pure [] (List.forall_mem_nil _)
  | cons v vs ih =>
    -- What is said of an element that does not convert depends on the world, and on what is shared
    -- only.
    refine (Composed.mapError _ ?_ ?_ (hc hvs.head)).bind fun hK h hh => ?_
    · intro w w' h
      funext e
      exact congrArg (ConversionError.arrayElement _ _ _ · _) (h.naturalType_eq v)
    · exact fun _ _ _ _ => .of_named_eq_nil rfl
    · exact (ih (hvs.tail.mono hK) (i + 1)).bind fun hK hs hhs =>
        .pure _ (List.forall_mem_cons.mpr ⟨hh.mono hK, hhs⟩)

variable {build : Builder} (hb : ∀ {K} c t, Composed l b K (build c t) (HostType.object c).Gives)

omit open? in
include hb in
/-- An object is of the very class that is asked for. -/
theorem convertObject_composed (c : ClassRef) (v : ScriptValue) :
    Composed l b K (convertObject build c v) (HostType.object c).Gives := by
  cases v with
  | userdata u =>
    refine Composed.bind (P := Known) (.look _ (.inr fun w w' h => h.proxyTarget?_eq u) ?_) ?_
    · intro K' _ w _ hk
      cases ht : w.proxyTarget? u with
      | none => exact .none
      | some t => exact Known.some_iff.mpr (hk.proxyTarget ht)
    · intro K' _ t? ht
      rcases t? with _ | ⟨⟨_⟩ | ⟨o⟩⟩
      · exact mismatch_composed _ _
      · exact mismatch_composed _ _
      -- Only an object of the very class is taken; the class is told by its reference.
      · dsimp only
        split
        · next hsame =>
          have ho : Known K' (HostValue.object o) := Known.some_iff.mp (Known.some_iff.mp ht)
          exact .pure _ ⟨.object hsame, ho⟩
        · exact .fails rfl
  | table t => exact hb c t
  | _ => exact mismatch_composed _ _

omit open? in
/-- nil converts without a look at anything but the type. -/
theorem convertWith_nil_composed (t : HostType) :
    Composed l b K (convertWith build t .nil) t.Gives := by
  unfold convertWith
  split
  · next hnull => exact .pure _ <| (HostValue.HasType.null hnull).gives rfl
  · exact .fails rfl

omit open? in
/-- Only what is promised of the values has to be shown, for the errors of a range check name nothing.
-/
theorem promised_fit {t : IntType} {r : Except ConversionError HostValue}
    (h : ∀ x, r = .ok x → x.HasType (.integer t)) : Promised (HostType.integer t).Gives K r := by
  cases r with
  | ok x => exact (h x rfl).gives_integer
  | error e => exact .of_named_eq_nil rfl

omit open? in
include hb in
/-- **What conversion gives inhabits the type**, by recursion on the type: only arrays and nullable
types convert further values. -/
theorem convertWith_composed (t : HostType) {v : ScriptValue} (hv : Known K v) :
    Composed l b K (convertWith build t v) t.Gives := by
  -- For every type nil comes first: it is decided before the type is looked at.
  induction t generalizing K v with
  | nullable inner ih =>
    cases v with
    | nil => exact convertWith_nil_composed _
    | _ => unfold convertWith; exact (ih hv).weaken fun _ _ hh => ⟨.nullable hh.1, hh.2⟩
  | array element ih =>
    cases v with
    | nil => exact convertWith_nil_composed _
    | table t =>
      unfold convertWith
      have hsequence : Unseeing fun w : World => (w.table t).sequence := fun w w' h =>
        congrArg Table.sequence (h.table_eq t)
      refine Composed.bind (P := Known) (.look _ (.inr hsequence) ?_) ?_
      · exact fun _ w _ hk => Table.known_sequence (hk.table t)
      intro K' hK vs hvs
      refine (convertItems_composed ih hvs 1).bind fun _ hs hhs => .pure _ ⟨?_, ?_⟩
      · exact .array fun h hh => (hhs h hh).1
      · exact Known.array_iff.mpr (Known.list_iff.mpr fun h hh => (hhs h hh).2)
    | _ => unfold convertWith; exact mismatch_composed _ _
  | object c =>
    cases v with
    | nil => exact convertWith_nil_composed _
    | _ => unfold convertWith; exact convertObject_composed hb c _
  | any =>
    cases v with
    | nil => exact convertWith_nil_composed _
    | _ =>
      unfold convertWith
      refine .look _ (.inr fun w w' h => h.naturalValue_eq _) fun hK w _ hk => ⟨.any _, ?_⟩
      exact hk.naturalValue (hv.mono hK)
  | integer t =>
    cases v with
    | nil => exact convertWith_nil_composed _
    | integer _ =>
      unfold convertWith
      exact .ofExcept (promised_fit fun h hfit => IntType.hasType_of_fit hfit)
    | number _ =>
      unfold convertWith
      exact .ofExcept (promised_fit fun h hfit => IntType.hasType_of_fitFloat hfit)
    | _ => unfold convertWith; exact mismatch_composed _ _
  | single =>
    cases v with
    | nil => exact convertWith_nil_composed _
    | _ =>
      unfold convertWith
      split
      · split
        · next hfits => exact .pure _ <| (Binary64.hasType_of_fitsSingle hfits).gives rfl
        · exact .fails rfl
      · exact mismatch_composed _ _
  | double =>
    cases v with
    | nil => exact convertWith_nil_composed _
    | _ =>
      unfold convertWith
      split
      · exact .pure _ <| (HostValue.HasType.double _).gives rfl
      · exact mismatch_composed _ _
  | void =>
    cases v with
    | nil => exact convertWith_nil_composed _
    | _ => unfold convertWith; exact .pure _ <| HostValue.HasType.void.gives rfl
  | bool =>
    cases v with
    | nil => exact convertWith_nil_composed _
    | boolean x => unfold convertWith; exact .pure _ <| (HostValue.HasType.bool x).gives rfl
    | _ => unfold convertWith; exact mismatch_composed _ _
  | string =>
    cases v with
    | nil => exact convertWith_nil_composed _
    | string s => unfold convertWith; exact .pure _ <| (HostValue.HasType.string s).gives rfl
    | _ => unfold convertWith; exact mismatch_composed _ _
  | table =>
    cases v with
    | nil => exact convertWith_nil_composed _
    | table t => unfold convertWith; exact .pure _ <| (HostValue.HasType.table t).gives rfl
    | _ => unfold convertWith; exact mismatch_composed _ _
  | function =>
    cases v with
    | nil => exact convertWith_nil_composed _
    | function f =>
      unfold convertWith
      exact .pure _ <| (HostValue.HasType.function f).gives rfl
    | _ => unfold convertWith; exact mismatch_composed _ _

include hc in
/-- Entries are written one after another. -/
theorem assignEntries_composed (via : BindingRef) (c : ClassRef) (o : ObjectRef)
    {entries : List (String × ScriptValue)} (hentries : Known K entries) :
    Composed l b K (assignEntries convert via c o entries) fun _ _ => True := by
  induction entries generalizing K with
  | nil => exact .give _
  | cons p rest ih =>
    have hvalue : Known K p.2 := hentries.head
    have hassign := assignKey_composed open? hc via c (some o) (.name p.1) hvalue
    refine (Composed.mapError _ (.ofRest fun _ _ => rfl) ?_ hassign).andThen ?_
    · exact fun _ _ _ _ => .of_named_eq_nil rfl
    · exact fun hK _ => ih (hentries.tail.mono hK)

include hc in
/-- A table becomes a new object, which its entries are then written to. -/
theorem buildObject_composed (via : BindingRef) (c : ClassRef) (t : TableRef) :
    Composed l b K (buildObject convert via c t) (HostType.object c).Gives := by
  refine (construct_composed open? c).bind fun _ o ho => ?_
  refine Composed.bind (P := Known) (.look _ (.inr fun w w' h => h.table_eq t) ?_) ?_
  · exact fun _ w _ hk => hk.table t
  intro K' hK entries hentries
  split
  · exact .failWith _ (fun w w' h => by rw [h.dumpScript_eq]) fun _ => .of_named_eq_nil rfl
  · have hsame : o.cls.same c = true := by simp [ho.1, ClassRef.same]
    have hstrings := Table.known_stringEntries hentries
    have hassign := assignEntries_composed open? hc via c o hstrings
    refine (Composed.holding (handles o) hassign).andThen fun hK' _ => .pure _ ?_
    exact ⟨.object hsame, ho.2.mono (hK.trans hK')⟩

/-- By induction on how deep tables may still stand in tables. When nothing is left, there is nothing
but an error. -/
theorem buildUpTo_composed (via : BindingRef) (n : Nat) (c : ClassRef) (t : TableRef) :
    Composed l b K (buildUpTo via n c t) (HostType.object c).Gives := by
  induction n generalizing K c t with
  | zero => exact .fails rfl
  | succ n ih => exact buildObject_composed open? (convertWith_composed ih) via c t

/-- **Conversion to host is composed**, and what it gives inhabits the type. -/
theorem toHost_composed (via : BindingRef) (t : HostType) {v : ScriptValue} (hv : Known K v) :
    Composed l b K (toHost via t v) t.Gives :=
  (Composed.seen fun _ _ h => h.size).andThen fun hK n =>
    convertWith_composed (buildUpTo_composed open? via n) t (hv.mono hK)

/-! ### Proxies -/

omit open? in
theorem namedTarget_composed {p : Proxy} (hp : Known K p.target) :
    Composed l b K (namedTarget p) Known := by
  unfold namedTarget
  split
  · next t ht =>
    rw [ht] at hp
    exact .pure _ (Known.some_iff.mp hp)
  · exact .fails rfl

omit open? in
/-- What is reached is the target itself. -/
theorem reachTarget_composed {t : Target} (ht : Known K t) :
    Composed l b K (reachTarget t) Known := by
  refine Composed.bind (P := fun _ t? => ∀ t', t? = some t' → t = t')
    (.look _ (.inr fun w w' h => h.reach?_eq t) ?_) ?_
  · exact fun _ w _ _ t' => World.reach?_eq_some
  · intro K' hK t? hsame
    split
    · next t' => exact hsame t' rfl ▸ .pure _ (ht.mono hK)
    · exact .fails rfl

/-- Reading what a lookup found, other than a single method. -/
def readOther (via : BindingRef) (t : Target) : List Member → Act HostFailure ScriptValue
  | [m] => do
    match ← readMember via t.cls t.receiver? m with
    | some v => toScript via v
    | none => pure .nil
  | _ => pure .nil

omit open? in
/-- Looking a member up and reading it, with the case of a single method apart. That case is the one in
which something is made. -/
theorem readLookedUp_eq (via : BindingRef) (t : Target) (k : MemberKey) :
    (do match ← look fun w => (w.binding via).resolve (w.cls t.cls) k t.isInstance with
        | [.method m] => methodFunction via t m
        | [m] => do
          match ← readMember via t.cls t.receiver? m with
          | some v => toScript via v
          | none => pure .nil
        | _ => pure .nil) =
      (look (fun w => (w.binding via).resolve (w.cls t.cls) k t.isInstance) >>=
        methodOr via t (readOther via t)) := by
  refine bind_congr fun ms => ?_
  -- Methods are found alone, or in overloads that are read as nothing.
  rcases ms with _ | ⟨m, _ | ⟨m', rest⟩⟩
  · rfl
  · cases m <;> rfl
  · cases m <;> rfl

/-- **Reading through a proxy is composed.** The body of a method that is read is one that the class
had stored. -/
theorem readProxy_composed {p : Proxy} (hp : Known K p.target) (key : ScriptValue) :
    Composed l b K (readProxy p key) Known := by
  have hnil {K} : Known K ScriptValue.nil := .of_named_eq_nil rfl
  refine (namedTarget_composed hp).bind fun _ t ht => ?_
  refine (reachTarget_composed ht).bind fun _ t ht => ?_
  split
  · exact .pure _ hnil
  · next k _ =>
    -- A single method becomes a function; what else is found is read at once.
    refine readLookedUp_eq p.via t k ▸ .lookUp p.via t k ht _ fun _ ms _ hms => ?_
    unfold readOther
    split
    · refine (readMember_composed open? _ _ _ hms.head).bind fun _ v? hv => ?_
      split
      · exact toScript_composed _ _ (Known.some_iff.mp hv)
      · exact .pure _ hnil
    · exact .pure _ hnil

/-- **Writing through a proxy is composed.** -/
theorem writeProxy_composed {p : Proxy} (hp : Known K p.target) (key : ScriptValue)
    {v : ScriptValue} (hv : Known K v) : Composed l b K (writeProxy p key v) fun _ _ => True := by
  refine (namedTarget_composed hp).bind fun hK t ht => ?_
  refine (reachTarget_composed ht).andThen fun hK' t => ?_
  split
  · exact .fails rfl
  · exact assignKey_composed open? (toHost_composed open? p.via) _ _ _ _ (hv.mono (hK.trans hK'))

end Open

/-! ### Errors -/

/-- A host failure goes into script as the script error that it carries, or inside a new userdata. -/
theorem toScriptError_composed {e : HostFailure} (he : Known K e) :
    Composed l b K (toScriptError e) Known := by
  unfold toScriptError
  split
  · exact .pure _ he
  · refine (Composed.newCarrier _ he).bind fun hK u hu => ?_
    exact .look _ (.inr (.ofRest fun _ _ => rfl)) fun hK _ _ _ => hu.mono hK

theorem unwrapError_unseeing : Unseeing unwrapError := .ofRest fun _ _ => rfl

/-- A host-side act is raised into script. What it gives is as before. -/
theorem raising_composed {m : Act HostFailure α} {Q : Set Mention → α → Prop}
    (h : Composed l b K m Q) : Composed l b K (raising m) Q := by
  refine Composed.bind (.attempt h) fun _ r hr => ?_
  cases r with
  | ok a => exact .pure a hr
  | error e => exact (toScriptError_composed hr).bind fun _ s hs => .throw s hs

/-- Whatever script raised, the host sees known things only. -/
theorem catching_composed {m : Act ScriptError α} {Q : Set Mention → α → Prop}
    (h : Composed l b K m Q) :
    Composed l b K (catching m) Q :=
  .mapError _ unwrapError_unseeing (fun _ _ hk he => hk.unwrapError he) h

/-! ### Indexing -/

theorem notIndexable_composed (name : String) {Q : Set Mention → α → Prop} :
    Composed l b K (notIndexable name : Act ScriptError α) Q :=
  .runtimeError _

variable {b' : Bool} (hb : l.Enters b b')
include hb

/-- Only the guard opens the way through a proxy. -/
theorem index_composed (target key : ScriptValue) :
    Composed l b K (index b' target key) Known := by
  unfold index
  cases target with
  | table t =>
    have hget : Unseeing fun w : World => (w.table t).get key := fun w w' h =>
      congrArg (Table.get · key) (h.table_eq t)
    exact .look _ (.inr hget) fun _ w _ hk => Table.known_get (hk.table t) key
  | userdata u =>
    refine Composed.bind (P := Known) (.look _ (.inr fun w w' h => h.userdatum_eq u) ?_) ?_
    · exact fun _ w _ hk => hk.userdatum u
    intro K' _ x hx
    cases x with
    | proxy p =>
      -- Reading through a proxy asks the guard of the running context first.
      refine raising_composed ((Composed.guard b' _ hb.eq_or_direct).bind fun hK _ hout => ?_)
      exact readProxy_composed (hb.open? hout) (hx.mono hK) key
    | carrier e =>
      refine .pure _ ?_
      split <;> exact .of_named_eq_nil rfl
    | foreign n t => exact notIndexable_composed _
  | _ => exact notIndexable_composed _

/-- Writing to a table or through a proxy. The guard stands before the proxy and not before the table.
-/
theorem setIndex_composed (target : ScriptValue) {key value : ScriptValue} (hkey : Known K key)
    (hvalue : Known K value) : Composed l b K (setIndex b' target key value) fun _ _ => True := by
  unfold setIndex
  cases target with
  | table t => exact .writeTable t key value _ hkey hvalue fun _ => .runtimeError _
  | userdata u =>
    refine Composed.bind (P := Known) (.look _ (.inr fun w w' h => h.userdatum_eq u) ?_) ?_
    · exact fun _ w _ hk => hk.userdatum u
    intro K' hK x hx
    cases x with
    | proxy p =>
      -- So does writing.
      refine raising_composed ((Composed.guard b' _ hb.eq_or_direct).bind fun hK' _ hout => ?_)
      exact writeProxy_composed (hb.open? hout) (hx.mono hK') key (hvalue.mono (hK.trans hK'))
    | carrier e => exact notIndexable_composed _
    | foreign n t => exact notIndexable_composed _
  | _ => exact notIndexable_composed _

end Act

end ScriptHost
