import ScriptHost.Proofs.Conversion.Started
import ScriptHost.Proofs.Resolution

/-!
# Reading and writing one member

Reading and writing through a proxy are two functions, which look up the key and go through the kinds
of members each on its own. They agree on what a key denotes: the members that it addresses, that the
configuration of the binding shows for the kind of target and that the policy permits
(`Config.denoted`). `World.Reading` and `World.Writing` say what becomes of a read and of a write for
every such list of members, and which code of the host is started on the way.

`World.Finds` is what both have in common: the proxy stands for something that can be reached, and
the lookup gives these members. Under it a read is `readChosen` and a write is `writeChosen`, and the
two results are read off from them case by case.
-/

set_option autoImplicit false

namespace ScriptHost

open Act

/-! ### What a key denotes -/

/-- The members of a class that a value denotes as a key: none if it is neither a string nor a number,
otherwise those that it addresses, that are shown for this kind of access and that are permitted. -/
def Config.denoted (cfg : Config) (policy : Policy) (c : HostClass) (onInstance : Bool)
    (key : ScriptValue) : List Member :=
  (MemberKey.ofValue? key).elim [] fun k =>
    c.members.filter fun m => k.addresses m && cfg.shows onInstance m && policy.permits c m

/-- A key as a failure names it. -/
def ScriptValue.keyText (key : ScriptValue) : String :=
  (MemberKey.ofValue? key).elim ("<" ++ key.kind.name ++ " key>") MemberKey.display

/-- Targets with a receiver are instances. -/
theorem Target.isInstance_eq (t : Target) : t.isInstance = t.receiver?.isSome := by
  cases t <;> rfl

/-- The proxy stands for a target that can be reached, and its binding finds these members under the
key there. -/
structure World.Finds (w : World) (p : Proxy) (t : Target) (key : ScriptValue)
    (S : List Member) : Prop where
  named : p.target = some t
  reached : w.reach? t = some t
  found : ((MemberKey.ofValue? key).elim [] fun k =>
    (w.binding p.via).resolve (w.cls t.cls) k t.isInstance) = S

/-- Fields are found on objects only. -/
structure World.Denotes (w : World) (p : Proxy) (t : Target) (key : ScriptValue)
    (S : List Member) : Prop extends w.Finds p t key S where
  fields : ∀ m ∈ S, m.isField = true → t.receiver?.isSome = true

namespace Binding

variable {cfg : Config} {b : Binding} {name : String} {ms : List Member} {ctor : Option Slots}
  {display : Option (List DisplayPart)} {c : HostClass}

/-- A binding with the flags of a configuration finds what is denoted. -/
theorem resolve_eq_denoted (h : HostClass.build name ms ctor display = .ok c) {onInstance : Bool}
    (hflags : b.visibility onInstance = (ofConfig cfg).visibility onInstance) (key : ScriptValue) :
    ((MemberKey.ofValue? key).elim [] fun k => b.resolve c k onInstance) =
      cfg.denoted b.policy c onInstance key := by
  obtain ⟨-, -, hms, -⟩ := HostClass.build_ok h
  -- What a value that is no key denotes is nothing, for the binding and for the configuration.
  cases hk : MemberKey.ofValue? key with
  | none => simp [Config.denoted, hk]
  | some k =>
    simp only [Config.denoted, hk, Option.elim_some, resolve, hflags, hms]
    cases hv : (ofConfig cfg).visibility onInstance with
    | none => simp [shows_of_no_visibility hv]
    | some v =>
      -- The index gives what a scan of all members gives, tested in another order.
      simp only [Visibility.resolve_eq_filter h, List.filter_filter, admits_eq_shows hv]
      refine List.filter_congr fun m _ => ?_
      ac_rfl

end Binding

/-- What a configured binding finds in a class that was built is what the key denotes. -/
theorem World.denotes_denoted {w : World} {p : Proxy} {t : Target} {cfg : Config} {policy : Policy}
    {cache : ProxyCache} {name : String} {ms : List Member} {ctor : Option Slots}
    {display : Option (List DisplayPart)} (hp : p.target = some t) (hreach : w.reach? t = some t)
    (hclass : HostClass.build name ms ctor display = .ok (w.cls t.cls))
    (hbinding : w.binding p.via = { Binding.ofConfig cfg with policy := policy, cache := cache })
    (key : ScriptValue) :
    w.Denotes p t key (cfg.denoted policy (w.cls t.cls) t.isInstance key) where
  named := hp
  reached := hreach
  found := by
    have hflags : (w.binding p.via).visibility t.isInstance =
        (Binding.ofConfig cfg).visibility t.isInstance := by
      rw [hbinding]
      rfl
    have hpolicy : (w.binding p.via).policy = policy := by rw [hbinding]
    rw [← hpolicy]
    exact Binding.resolve_eq_denoted hclass hflags key
  fields m hm hfield := by
    -- No field is static, and only static members are shown on a class.
    cases hk : MemberKey.ofValue? key with
    | none => simp [Config.denoted, hk] at hm
    | some k =>
      cases m with
      | field f =>
        simp only [Config.denoted, hk, Option.elim_some, List.mem_filter, Config.shows,
          Member.isStatic] at hm
        rw [← t.isInstance_eq]
        simp_all
      | _ => cases hfield

/-! ### The chosen member -/

namespace Act

/-- Reading, once the members are found. -/
def readChosen (via : BindingRef) (t : Target) : List Member → Act HostFailure ScriptValue
  | [.method m] => methodFunction via t m
  | [m] => do
    match ← readMember via t.cls t.receiver? m with
    | some v => toScript via v
    | none => pure .nil
  | _ => pure .nil

/-- Writing, once the members are found. -/
def writeChosen (via : BindingRef) (t : Target) (key v : ScriptValue) :
    List Member → Act HostFailure Unit
  | [m] => assignMember (toHost via) via t.cls t.receiver? m v
  | _ => throw (.binding (.memberNotFound t.cls.name key.keyText))

/-- Without exactly one member there is nothing to read. -/
theorem readChosen_of_ne {via : BindingRef} {t : Target} {S : List Member} (hS : ∀ m, S ≠ [m]) :
    readChosen via t S = pure .nil := by
  rcases S with _ | ⟨m, _ | ⟨m', rest⟩⟩
  · rfl
  · exact absurd rfl (hS m)
  · cases m <;> rfl

/-- A member that is no method is read through its getter. -/
theorem readChosen_of_not_method {via : BindingRef} {t : Target} {m : Member}
    (hm : m.isMethod = false) : readChosen via t [m] =
      (readMember via t.cls t.receiver? m >>= fun v? => v?.elim (pure .nil) (toScript via)) := by
  cases m with
  | method x => cases hm
  | _ =>
    simp only [readChosen]
    congr 1
    funext v?
    cases v? <;> rfl

/-- Without exactly one member there is nothing to write. -/
theorem writeChosen_of_ne {via : BindingRef} {t : Target} {key v : ScriptValue} {S : List Member}
    (hS : ∀ m, S ≠ [m]) : writeChosen via t key v S =
      throw (.binding (.memberNotFound t.cls.name key.keyText)) := by
  rcases S with _ | ⟨m, _ | ⟨m', rest⟩⟩
  · rfl
  · exact absurd rfl (hS m)
  · rfl

variable {w : World} {p : Proxy} {t : Target} {key : ScriptValue} {S : List Member}

/-- A proxy that was not disposed of names its target. -/
theorem outcome_namedTarget (hp : p.target = some t) :
    (namedTarget p).outcome w = (.ok t, w) := by
  unfold namedTarget
  rw [hp]
  rfl

/-- Where a target is reached, what is found under the key is read. -/
theorem outcome_readProxy (h : w.Finds p t key S) :
    (readProxy p key).outcome w = (readChosen p.via t S).outcome w := by
  unfold readProxy
  rw [outcome_bind_ok (outcome_namedTarget h.named),
    outcome_bind_ok (outcome_reachTarget_ok h.reached)]
  have hfound := h.found
  -- A value that is no key finds nothing.
  cases hk : MemberKey.ofValue? key with
  | none =>
    rw [hk] at hfound
    subst hfound
    rfl
  | some k =>
    rw [hk] at hfound
    subst hfound
    exact outcome_bind_ok (outcome_look _ w)

/-- And written. -/
theorem outcome_writeProxy (h : w.Finds p t key S) (v : ScriptValue) :
    (writeProxy p key v).outcome w = (writeChosen p.via t key v S).outcome w := by
  unfold writeProxy
  rw [outcome_bind_ok (outcome_namedTarget h.named),
    outcome_bind_ok (outcome_reachTarget_ok h.reached)]
  have hfound := h.found
  -- A value that is no key finds nothing, and is named by its kind.
  cases hk : MemberKey.ofValue? key with
  | none =>
    rw [hk] at hfound
    subst hfound
    simp only [writeChosen, ScriptValue.keyText, hk]
    rfl
  | some k =>
    rw [hk, t.isInstance_eq] at hfound
    subst hfound
    simp only [writeChosen, ScriptValue.keyText, hk]
    exact outcome_bind_ok (outcome_look _ w)

end Act

/-! ### Reading -/

/-- What becomes of a read of a key that denotes the members. -/
structure World.Reading (w : World) (p : Proxy) (t : Target) (key : ScriptValue)
    (S : List Member) : Prop where
  /-- No member or several ones: nil, and nothing has happened. -/
  absent : (∀ m, S ≠ [m]) → (readProxy p key).outcome w = (.ok .nil, w)
  /-- A method: a new function that runs it on the target, and nothing was started. -/
  method : ∀ m, S = [.method m] → (readProxy p key).outcome w =
    (.ok (.function w.functions.next), { w with
      functions := w.functions.push ⟨t.cls.name ++ "." ++ m.name, .host, .method p.via t m⟩ })
  /-- Nothing to read it with: a failure, and nothing has happened. -/
  unreadable : ∀ m, S = [m] → m.isMethod = false → m.getter? = none →
    (readProxy p key).outcome w = (.error (.binding (m.unreadable t.cls)), w)
  /-- A getter: its result goes into script, and nothing but the getter was started. -/
  getter : ∀ m g, S = [m] → m.getter? = some g →
    let e := Event.getter p.via t.cls m
    (readProxy p key).outcome w = (runGetter t.cls.name m.name t.receiver? g >>=
      fun v => toScript p.via v).outcome (w.noted e) ∧
    w.Starts [e] ((readProxy p key).outcome w).2

namespace World.Denotes

variable {w : World} {p : Proxy} {t : Target} {key : ScriptValue} {S : List Member}

/-- Reading through a getter starts the getter, and the conversion of its result starts nothing. -/
theorem read_getter {m : Member} {g : Getter} (h : w.Denotes p t key [m])
    (hg : m.getter? = some g) :
    let e := Event.getter p.via t.cls m
    (readProxy p key).outcome w = (runGetter t.cls.name m.name t.receiver? g >>=
      fun v => toScript p.via v).outcome (w.noted e) ∧
    w.Starts [e] ((readProxy p key).outcome w).2 := by
  intro e
  have hstarted : w.Starts [e] (w.noted e) := .noted w rfl
  -- The getter itself leaves the world as it finds it.
  have hsame := runGetter_same t.cls.name m.name t.receiver? g (w.noted e)
  rw [outcome_readProxy h.toFinds, readChosen_of_not_method (Member.isMethod_of_getter hg),
    readMember_of_getter hg (h.fields m List.mem_cons_self), bind_assoc,
    outcome_bind_ok (outcome_note_noted e w), bind_assoc]
  rcases hv : (runGetter t.cls.name m.name t.receiver? g).outcome (w.noted e) with ⟨f | v, w₁⟩
  · rw [hv] at hsame
    subst hsame
    rw [outcome_bind_error hv, outcome_bind_error hv]
    exact ⟨rfl, hstarted⟩
  · rw [hv] at hsame
    subst hsame
    rw [outcome_bind_ok hv, outcome_bind_ok hv]
    -- Conversion to script always gives a value.
    obtain ⟨s, w₂, hs, -⟩ := toScript_ok (ε := HostFailure) p.via v (w.noted e)
    have hgiven : ((pure (some v) : Act HostFailure _) >>= fun v? =>
        v?.elim (pure .nil) (toScript p.via)).outcome (w.noted e) = (.ok s, w₂) :=
      (outcome_bind_ok (outcome_pure _ _)).trans hs
    rw [hgiven, hs]
    exact ⟨rfl, hstarted.quiet (toScript_starts hs)⟩

/-- **Reading takes the one member that the key denotes, and no other.** -/
theorem reading (h : w.Denotes p t key S) : w.Reading p t key S where
  absent hS := by
    rw [outcome_readProxy h.toFinds, readChosen_of_ne hS]
    rfl
  method m hS := by
    subst hS
    rw [outcome_readProxy h.toFinds]
    rfl
  unreadable m hS hm hg := by
    subst hS
    rw [outcome_readProxy h.toFinds, readChosen_of_not_method hm, readMember_of_no_getter hm hg]
    rfl
  getter m g hS hg := by
    subst hS
    exact h.read_getter hg

end World.Denotes

/-! ### Writing -/

/-- What becomes of a write to a key that denotes the members. -/
structure World.Writing (w : World) (p : Proxy) (t : Target) (key v : ScriptValue)
    (S : List Member) : Prop where
  /-- No member or several ones: not found, and nothing has happened. -/
  absent : (∀ m, S ≠ [m]) → (writeProxy p key v).outcome w =
    (.error (.binding (.memberNotFound t.cls.name key.keyText)), w)
  /-- A member that accepts nothing: a failure, and nothing has happened. -/
  unwritable : ∀ m, S = [m] → m.accepts? = none →
    (writeProxy p key v).outcome w = (.error (.binding (m.unwritable t.cls)), w)
  /-- A value that does not convert: a failure, and at most new objects were filled. -/
  unconverted : ∀ m ty s e w₁, S = [m] → m.accepts? = some (ty, s) →
    (toHost p.via ty v).outcome w = (.error e, w₁) →
    (writeProxy p key v).outcome w =
      (.error (.binding (.incompatibleValue t.cls.name m.name ty.name v.kind)), w₁) ∧
    w.Fills w.objects.size w₁
  /-- A value that converts: new objects are filled at most, and then the setter runs, on the target
  and with what was converted; nothing else was started. -/
  setter : ∀ m ty s x w₁, S = [m] → m.accepts? = some (ty, s) →
    (toHost p.via ty v).outcome w = (.ok x, w₁) →
    let e := Event.setter p.via t.cls m x
    (writeProxy p key v).outcome w =
      (runSetter t.cls.name m.name t.receiver? x s).outcome (w₁.noted e) ∧
    w.Fills w.objects.size w₁ ∧ w₁.Starts [e] ((writeProxy p key v).outcome w).2

namespace World.Denotes

variable {w : World} {p : Proxy} {t : Target} {key : ScriptValue} {S : List Member}

/-- Where the one member accepts values, a write goes through its setter. -/
theorem write_accepts {m : Member} {ty : HostType} {s : Setter} (h : w.Denotes p t key [m])
    (ha : m.accepts? = some (ty, s)) (v : ScriptValue) : (writeProxy p key v).outcome w =
      (assignThrough (toHost p.via) p.via t.cls t.receiver? m v ty s).outcome w := by
  rw [outcome_writeProxy h.toFinds]
  exact congrArg (Act.outcome · w) (assignMember_of_accepts ha (h.fields m List.mem_cons_self))

/-- **Writing takes the one member that the key denotes, and no other.** -/
theorem writing (h : w.Denotes p t key S) (v : ScriptValue) : w.Writing p t key v S where
  absent hS := by
    rw [outcome_writeProxy h.toFinds, writeChosen_of_ne hS]
    rfl
  unwritable m hS ha := by
    subst hS
    rw [outcome_writeProxy h.toFinds]
    exact congrArg (Act.outcome · w) (assignMember_of_not_accepts ha)
  unconverted m ty s e w₁ hS ha hconv := by
    subst hS
    exact ⟨(h.write_accepts ha v).trans (outcome_assignThrough_error hconv), toHost_fills hconv⟩
  setter m ty s x w₁ hS ha hconv := by
    subst hS
    have hwrite := (h.write_accepts ha v).trans (outcome_assignThrough_ok hconv)
    have hstarted : w₁.Starts [.setter p.via t.cls m x] (w₁.noted (.setter p.via t.cls m x)) :=
      .noted w₁ rfl
    refine ⟨hwrite, toHost_fills hconv, ?_⟩
    rw [hwrite]
    exact hstarted.quiet (.of_journal_eq (runSetter_journal _ _ _ _ _ _))

end World.Denotes

/-- **Exactly one member.** The proxy stands for a class, or for an object that is alive; its class was
built, and its binding was configured. Then what a key denotes under that configuration and that
policy settles both what is read and what is written. -/
theorem one_member_rule {w : World} {p : Proxy} {t : Target} {cfg : Config} {policy : Policy}
    {cache : ProxyCache} {name : String} {ms : List Member} {ctor : Option Slots}
    {display : Option (List DisplayPart)} (hp : p.target = some t) (hreach : w.reach? t = some t)
    (hclass : HostClass.build name ms ctor display = .ok (w.cls t.cls))
    (hbinding : w.binding p.via = { Binding.ofConfig cfg with policy := policy, cache := cache })
    (key : ScriptValue) :
    let S := cfg.denoted policy (w.cls t.cls) t.isInstance key
    w.Reading p t key S ∧ ∀ v, w.Writing p t key v S := by
  intro S
  have h := World.denotes_denoted hp hreach hclass hbinding key
  exact ⟨h.reading, h.writing⟩

namespace OneMember

/-- A method of this name, with these parameters. -/
def light (params : List HostType) : Member := .method ⟨"Light", params, false, true, []⟩

/-- A label that can be read and set. -/
def label : Member :=
  .property ⟨"Label", .string, false, true, 0, some (.slot "label"), some (.slot "label")⟩

/-- A code that can be set and not be read. -/
def code : Member := .property ⟨"Code", .string, false, true, 0, none, some (.slot "code")⟩

/-- A property that is addressed by a number. -/
def indexed (name : String) : Member :=
  .property ⟨name, .any, false, true, 1, some (.slot name), none⟩

/-- Two methods of one name, two properties, and two that are indexed. -/
def stoveMembers : List Member :=
  [light [], light [.any], label, code, indexed "Row", indexed "Column"]

/-- The class that is built of these members. -/
def stove : HostClass where
  name := "Stove"
  holds := .slots
  members := stoveMembers
  index := ⟨[("Light", [0, 1]), ("Label", [2]), ("Code", [3]), ("Row", [4]), ("Column", [5])], [4, 5]⟩
  constructor := none
  display := none

/-- Methods with a parameter are denied. -/
def plain : Policy :=
  .custom fun _ m => match m with
    | .method ⟨_, [_], _, _, _⟩ => .deny
    | _ => .permit

/-- The one stove. -/
def target : Target := .object ⟨⟨0⟩, ⟨⟨0⟩, "Stove"⟩⟩

/-- A world with one stove, which is held, under this policy. -/
def kitchen : World :=
  { World.start .default fun r => r.index with
    classes := Store.empty.push stove
    objects := Store.empty.push ⟨target.cls, .slots [("label", .string "cold")], .free⟩
    bindings := Store.empty.push { Binding.ofConfig .default with policy := plain }
    held := [⟨.object, 0⟩] }

/-- A proxy of it. -/
def proxy : Proxy := ⟨some target, ⟨0⟩, "Stove"⟩

end OneMember

open OneMember in
/-- Of the two methods one is permitted, and it is read. There are two indexed properties, so that a
number denotes nothing. The code is written and not read, and the label both. -/
theorem one_member_rule_stove :
    (readProxy proxy (.string "Light")).outcome kitchen = (.ok (.function ⟨0⟩), { kitchen with
      functions := Store.empty.push
        ⟨"Stove.Light", .host, .method ⟨0⟩ target ⟨"Light", [], false, true, []⟩⟩ }) ∧
    (readProxy proxy (.integer 1)).outcome kitchen = (.ok .nil, kitchen) ∧
    (writeProxy proxy (.integer 1) .nil).outcome kitchen =
      (.error (.binding (.memberNotFound "Stove" "1")), kitchen) ∧
    (readProxy proxy (.string "Code")).outcome kitchen =
      (.error (.binding (.writeOnly "Stove" "Code")), kitchen) ∧
    kitchen.Starts [.getter ⟨0⟩ target.cls label]
      ((readProxy proxy (.string "Label")).outcome kitchen).2 ∧
    kitchen.Starts [.setter ⟨0⟩ target.cls label (.string "hot")]
      ((writeProxy proxy (.string "Label") (.string "hot")).outcome kitchen).2 := by
  have hreach : kitchen.reach? target = some target := by decide +kernel
  have hbuild : HostClass.build "Stove" stoveMembers none none = .ok (kitchen.cls target.cls) := rfl
  have hrule := @one_member_rule kitchen proxy target .default plain [] "Stove" stoveMembers none none
    rfl hreach hbuild rfl
  obtain ⟨hlight, -⟩ := hrule (.string "Light")
  obtain ⟨hnumber, hnumber'⟩ := hrule (.integer 1)
  obtain ⟨hcode, -⟩ := hrule (.string "Code")
  obtain ⟨hlabel, hlabel'⟩ := hrule (.string "Label")
  -- Two members: the number denotes none of them.
  have hseveral : ∀ m, Config.default.denoted plain (kitchen.cls target.cls) target.isInstance
      (.integer 1) ≠ [m] := by
    have hdenoted : Config.default.denoted plain (kitchen.cls target.cls) target.isInstance
        (.integer 1) = [indexed "Row", indexed "Column"] := rfl
    intro m
    rw [hdenoted]
    exact fun h => List.cons_ne_nil _ _ (List.cons.inj h).2
  refine ⟨hlight.method _ rfl, hnumber.absent hseveral, (hnumber' .nil).absent hseveral, ?_, ?_, ?_⟩
  · exact hcode.unreadable code rfl rfl rfl
  · exact (hlabel.getter label _ rfl rfl).2
  · exact ((hlabel' (.string "hot")).setter label .string _ (.string "hot") kitchen rfl rfl rfl).2.2

end ScriptHost
