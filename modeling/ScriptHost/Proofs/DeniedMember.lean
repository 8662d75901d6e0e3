import ScriptHost.Proofs.Hiding

/-!
# Denied members are as good as missing

A class under a policy, and the class built from the members that the policy permits: the same
operations give the same in both worlds, with the same errors, tracebacks and slots, and leave
worlds that differ in the class only (`denied_as_missing`).

What a denied member refers to has to be held by somebody else. A class keeps the constants of its
properties alive, those of denied ones too, and script can see whether an object lives:
`denied_constant_shows` is a session where this is all that tells a denied member from a missing
one.
-/

set_option autoImplicit false

namespace ScriptHost

namespace Hides

open World

variable {p : Policy} {c : Ref .cls} {info info' : HostClass} {w : World}

/-- One operation answers the same in both worlds. -/
theorem step (h : Hides p c info w) (hname : p.ByName) (hpruned : info.Pruned p info')
    (hw : w.Within .blind) {op : Op} (hop : op.within .blind true = true) :
    (w.withClass c info').step op = ((w.step op).1, (w.step op).2.withClass c info') := by
  have hstart : Hides p c info { w with log := [] } := h.of_eq rfl rfl rfl fun _ hx => hx
  have hwithin : ({ w with log := [] } : World).Within .blind :=
    ⟨hw.functions, hw.classes, hw.vars⟩
  -- A blind operation cannot tell the class from the pruned one.
  have hcomposed := Op.top_composed w.maxDepth ∅ hop
  have heff := (hcomposed.effects hwithin).1
  have hrun : (op.run (callWithin (w.withClass c info').maxDepth) .top).outcome
      { w.withClass c info' with log := [] } = _ :=
    hcomposed.withClass rfl hname hpruned hstart hwithin
  unfold World.step
  rw [hrun]
  rcases hout : (op.run (callWithin w.maxDepth) .top).outcome { w with log := [] } with
    ⟨f | r, w'⟩
  · -- A failure is told with a view of its values, which is a look like any other.
    rw [hout] at heff
    have halike := (hstart.effects heff rfl).alike hname hpruned
    simp only [halike.failureView_eq]
    rfl
  · cases r <;> rfl

/-- One operation keeps the class hidden. -/
theorem after_step (h : Hides p c info w) (hw : w.Within .blind) {op : Op}
    (hop : op.within .blind true = true) : Hides p c info (w.step op).2 := by
  have hstart : Hides p c info { w with log := [] } := h.of_eq rfl rfl rfl fun _ hx => hx
  exact hstart.effects (step_effects hw hop) rfl

/-- **A session answers the same** in both worlds. -/
theorem session (h : Hides p c info w) (hname : p.ByName) (hpruned : info.Pruned p info')
    (hw : w.Within .blind) {ops : List Op} (hops : Op.allWithin .blind true ops = true) :
    (w.withClass c info').runSession ops = w.runSession ops ∧
      (w.withClass c info').after ops = (w.after ops).withClass c info' := by
  induction ops generalizing w with
  | nil => exact ⟨rfl, rfl⟩
  | cons op rest ih =>
    simp only [Op.allWithin, Bool.and_eq_true] at hops
    obtain ⟨hop, hrest⟩ := hops
    obtain ⟨hentries, hafter⟩ := ih (h.after_step hw hop) (hw.step hop) hrest
    unfold World.runSession World.after
    rw [h.step hname hpruned hw hop]
    exact ⟨congrArg _ hentries, hafter⟩

end Hides

/-- **A denied member is as good as missing.** Take a class that was built, a policy that decides by
the name of the class and by the member, and the class built from the permitted members alone. In
every world that has the class under the policy, where what the denied members refer to is held
anyway, every session answers the same with either class: the same results, errors, messages and
tracebacks, and the same slots of objects afterwards. -/
theorem denied_as_missing {p : Policy} (hname : p.ByName) {name : String} {ms : List Member}
    {ctor : Option Slots} {display : Option (List DisplayPart)} {info : HostClass}
    (hbuild : HostClass.build name ms ctor display = .ok info) :
    ∃ info', HostClass.build name (ms.filter (p.permits info)) ctor display = .ok info' ∧
      ∀ (w : World) (c : Ref .cls), Hides p c info w → w.Within .blind →
        ∀ ops, Op.allWithin .blind true ops = true →
          (w.withClass c info').runSession ops = w.runSession ops ∧
            (w.withClass c info').after ops = (w.after ops).withClass c info' := by
  obtain ⟨info', hbuild'⟩ := HostClass.build_filter hbuild (p.permits info)
  refine ⟨info', hbuild', fun w c h hw ops hops => ?_⟩
  exact h.session hname (HostClass.pruned_of_build hbuild hbuild') hw hops

namespace DeniedMember

/-- Nothing named `Secret` is permitted. -/
def noSecrets : Config :=
  ⟨.rules (RuleSet.permitByDefault.add (.ofMember "Secret") .deny), true, false, 200⟩

/-- The rule names the member only, so it denies it in every class. -/
theorem denied_of_secret (c : HostClass) {m : Member} (hm : m.name = "Secret") :
    (Policy.ofSpec noSecrets.policy).permits c m = false := by
  unfold Policy.permits Policy.decide Policy.ofSpec noSecrets RuleSet.decide
  simp [RuleSet.add, RuleSet.permitByDefault, Rule.covers, hm, Decision.isPermit]

/-- A property that anybody may read. -/
def owner : Member := .property ⟨"Owner", .string, false, true, 0, some (.slot "Owner"), none⟩

/-- A property that is denied. -/
def secret : Member := .property ⟨"Secret", .string, false, true, 0, some (.slot "Secret"), none⟩

/-- The class with both. -/
def account : HostClass :=
  ⟨"Account", .slots, [owner, secret], ⟨[("Owner", [0]), ("Secret", [1])], []⟩, none, none⟩

/-- A world with an account in a variable, before script has seen it. -/
def accountWorld : World :=
  { World.start noSecrets fun r => r.index with
    objects := Store.empty.push
      ⟨⟨⟨0⟩, "Account"⟩, .slots [("Owner", .string "Ann"), ("Secret", .string "0000")], .free⟩
    classes := Store.empty.push account
    vars := [("account", .object ⟨⟨0⟩, ⟨⟨0⟩, "Account"⟩⟩)] }

/-- Script reads the owner, reads the secret and tries to write it. -/
def accountOps : Program :=
  let into (name : String) : Disposition := ⟨some name, some "failure", false, false⟩
  [.act (into "p") (.proxy (.wrap (some "account"))),
    .act (into "owner") (.call (.index (.var "p" 0) (.string "Owner"))),
    .act (into "secret") (.call (.index (.var "p" 0) (.string "Secret"))),
    .act (into "written") (.call (.setIndex (.var "p" 0) (.string "Secret") (.string "1111")))]

/-- It is the class that is built from the two members. -/
theorem account_built : HostClass.build "Account" [owner, secret] none none = .ok account := by
  rfl

/-- The denied member holds nothing that could be missed. -/
theorem hides_account : Hides (.ofSpec noSecrets.policy) ⟨0⟩ account accountWorld where
  stored := rfl
  policy b x hx := by
    rcases Store.get?_push_cases hx with ⟨-, rfl⟩ | hx
    · rfl
    · simp [Store.empty, Store.get?] at hx
  bridge := ⟨_, rfl⟩
  kept m hm _ h hh := by
    rcases List.mem_cons.mp hm with rfl | hm
    · cases hh
    · rw [List.mem_singleton.mp hm] at hh
      cases hh

/-- There are no bodies in the world, so all of them are blind. -/
theorem within_account : accountWorld.Within .blind where
  functions f fn hf := by simp [accountWorld, World.start, Store.empty, Store.get?] at hf
  classes c info hc m hm := by
    rcases Store.get?_push_cases hc with ⟨-, rfl⟩ | hc
    · rcases List.mem_cons.mp hm with rfl | hm
      · trivial
      · rw [List.mem_singleton.mp hm]
        trivial
    · simp [Store.empty, Store.get?] at hc
  vars q hq := by
    rw [List.mem_singleton.mp hq]
    trivial

end DeniedMember

open DeniedMember in
/-- An account whose secret is denied, and one that has none. -/
theorem denied_as_missing_account :
    HostClass.build "Account" [owner, secret] none none = .ok account ∧
    [owner, secret].filter ((Policy.ofSpec noSecrets.policy).permits account) = [owner] ∧
    ∃ info', HostClass.build "Account" [owner] none none = .ok info' ∧
      (accountWorld.withClass ⟨0⟩ info').runSession accountOps =
        accountWorld.runSession accountOps := by
  -- Only the one member is left.
  have hfilter : [owner, secret].filter ((Policy.ofSpec noSecrets.policy).permits account) =
      [owner] := by
    rfl
  have hname := Policy.byName_ofSpec noSecrets.policy
  obtain ⟨info', hbuild, hsame⟩ := denied_as_missing hname account_built
  rw [hfilter] at hbuild
  refine ⟨account_built, hfilter, info', hbuild, ?_⟩
  exact (hsame accountWorld ⟨0⟩ hides_account within_account accountOps (by decide)).1

/-! ### What a denied constant keeps alive -/

namespace DeniedMember

/-- The result is stored under a name. -/
def into (name : String) : Disposition := ⟨some name, none, false, false⟩

/-- The result is told. -/
def plainly : Disposition := ⟨none, none, false, false⟩

/-- A card lies in a box. Script has a proxy of the card when the host lets go of both, and asks for
its text. -/
def cardSession (declarations : List (Declaration Program)) : Program :=
  [.cls (into "Box") ⟨"Box", [.field "item" (.plain .any) "item" true none], none, none⟩,
    .act (into "box") (.cls (.instantiate "Box" [])),
    .cls (into "Card") ⟨"Card", declarations, none, none⟩,
    .act (into "card") (.cls (.instantiate "Card" [])),
    .act plainly (.cls (.setSlot (some "box") "item" (.var "card" 0))),
    .act (into "p") (.proxy (.wrap (some "card"))),
    .act plainly (.value (.drop "box")),
    .act plainly (.value (.drop "card")),
    .act plainly (.value (.display (.var "p" 0)))]

/-- A static property that is always the box. -/
def boxed : Declaration Program := .staticProperty "Secret" (.plain .any) (.var "box" 0)

/-- The text that the last operation answers. -/
def lastText (entries : List SessionEntry) : Option String :=
  entries.getLast?.bind fun e => match e.outcome with
    | .ok (.diagnostic t) => some t
    | _ => none

end DeniedMember

open DeniedMember in
/-- **A denied constant shows.** The only member of a class of cards is denied, and its constant is
the box. With it the card lives, without it the card was released. -/
theorem denied_constant_shows :
    (∀ c m, m.name = "Secret" → (Policy.ofSpec noSecrets.policy).permits c m = false) ∧
    lastText (runSession noSecrets (cardSession [boxed])) = some "[Card]" ∧
    lastText (runSession noSecrets (cardSession [])) = some "[released Card]" :=
  ⟨fun c _ hm => denied_of_secret c hm, by decide +kernel, by decide +kernel⟩

end ScriptHost
