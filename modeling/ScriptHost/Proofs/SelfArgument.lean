import ScriptHost.Proofs.Afterlife.Bound
import ScriptHost.Proofs.Dispatch
import ScriptHost.Proofs.Instants.Faithful
import ScriptHost.Proofs.OneMember

/-!
# The receiver as an argument

Script calls a method with a dot or with a colon. With a colon the proxy comes first among the
arguments, and it is dropped: that is the case where there is one argument more than the method takes
and the first one is a live proxy of the target of the method. `reachesTarget` decides whether it is,
inside the call, where more is held than outside. For a target that is alive the answer is the same
outside (`World.reachesTarget_extends`), and this is what makes the two forms of a call the same call.

`World.CallsMethod` says for one function that runs a method which of its arguments the method gets.
Main statement: `dot_and_colon`.
-/

set_option autoImplicit false

namespace ScriptHost

open Act

/-! ### What the first argument reaches -/

namespace World

variable {w w' : World} {x : Target}

/-- The target of a method is there to be found dead or alive. -/
def Made (w : World) (x : Target) : Prop := ∀ o, x = .object o → o.ref.handle ∈ w.things

/-- The target of a method that was read through a proxy was made. -/
theorem Faithful.made_of_code (hw : w.Faithful) {f : FunctionRef} {via : BindingRef} {m : Method}
    (hcode : (w.function f).code = .method via x m) : w.Made x := by
  rintro o rfl
  exact (hw.has_of_binds ⟨via, hcode⟩).made

/-- Only an object is the same as an object. -/
theorem same_object {s : Target} {o : ObjectRef} (h : s.same (.object o) = true) :
    ∃ a : ObjectRef, s = .object a ∧ a.ref = o.ref := by
  cases s with
  | type c => cases h
  | object a => exact ⟨a, rfl, same_iff.mp h⟩

/-- An argument reaches the target if it is a proxy that does. -/
theorem reachesTarget_iff {a : Option ScriptValue} : reachesTarget w x a = true ↔
    ∃ u s, a = some (.userdata u) ∧ w.proxyTarget? u = some s ∧ s.same x = true := by
  constructor
  · intro h
    unfold reachesTarget at h
    split at h
    · next u =>
      split at h
      · next s hs => exact ⟨u, s, rfl, hs, h⟩
      · cases h
    · cases h
  · rintro ⟨u, s, rfl, hs, hsame⟩
    simp only [reachesTarget, hs, hsame]

/-- A proxy of the same object as one that is alive finds it alive. -/
theorem proxyTarget?_of_same {u : UserdataRef} {p : Proxy} {s : Target} (hp : w.proxy? u = some p)
    (hs : p.target = some s) (hsame : s.same x = true) (hx : w.reach? x = some x) :
    w.proxyTarget? u = some s := by
  refine proxyTarget?_eq_some.mpr ⟨p, hp, hs, ?_⟩
  rintro a rfl
  cases x with
  | type c => cases hsame
  | object o =>
    have href : a.ref = o.ref := same_iff.mp hsame
    cases halive : w.alive o.ref.handle with
    | true => rw [href, halive]
    | false =>
      rw [reach?_eq_none halive] at hx
      cases hx

/-- Who reaches a target finds it alive. -/
theorem reach?_of_same {u : UserdataRef} {s : Target} (hs : w.proxyTarget? u = some s)
    (hsame : s.same x = true) : w.reach? x = some x := by
  cases x with
  | type c => rfl
  | object o =>
    obtain ⟨a, rfl, href⟩ := same_object hsame
    obtain ⟨p, -, -, halive⟩ := proxyTarget?_eq_some.mp hs
    exact reach?_object (href ▸ halive a rfl)

/-- What is reached stays within reach while more is held. -/
theorem reach?_extends (he : w.Extends w') (hmade : w.Made x) (hx : w.reach? x = some x) :
    w'.reach? x = some x := by
  cases x with
  | type c => rfl
  | object o =>
    cases halive : w.alive o.ref.handle with
    | true => exact reach?_object (he.alive (hmade o rfl) halive)
    | false =>
      rw [reach?_eq_none halive] at hx
      cases hx

/-- **Whether an argument reaches a target that is alive** does not depend on what else is held. -/
theorem reachesTarget_extends (he : w.Extends w') (hu : w'.userdata = w.userdata)
    (hmade : w.Made x) (hx : w.reach? x = some x) (a : Option ScriptValue) :
    reachesTarget w' x a = reachesTarget w x a := by
  have hproxy (u : UserdataRef) : w'.proxy? u = w.proxy? u := by
    unfold proxy? userdatum
    rw [hu]
  rw [Bool.eq_iff_iff, reachesTarget_iff, reachesTarget_iff]
  -- Both ways the proxy is the same one, and the target is alive.
  constructor
  · rintro ⟨u, s, ha, hs, hsame⟩
    obtain ⟨p, hp, ht, -⟩ := proxyTarget?_eq_some.mp hs
    exact ⟨u, s, ha, proxyTarget?_of_same (hproxy u ▸ hp) ht hsame hx, hsame⟩
  · rintro ⟨u, s, ha, hs, hsame⟩
    obtain ⟨p, hp, ht, -⟩ := proxyTarget?_eq_some.mp hs
    have hx' := reach?_extends he hmade hx
    exact ⟨u, s, ha, proxyTarget?_of_same ((hproxy u).trans hp) ht hsame hx', hsame⟩

end World

/-! ### Calls of methods -/

namespace Act

/-- The body of a method, once its arguments are converted. -/
def methodBody (run : Runner) (inCoroutine : Bool) (via : BindingRef) (x : Target) (m : Method)
    (hostArgs : List HostValue) : Act HostFailure (List HostValue) := do
  let receiver ← methodReceiver x m
  runHostBody run inCoroutine via receiver m.body hostArgs

/-- Runs a method on a target with just these arguments. -/
def runMethod (run : Runner) (inCoroutine : Bool) (via : BindingRef) (name : String) (x : Target)
    (m : Method) (args : List ScriptValue) : Act ScriptError (List ScriptValue) := do
  let x ← raising (reachTarget x)
  holding (handles x)
    (runHostCode inCoroutine via name m.params args (methodBody run inCoroutine via x m))

variable {w : World} {f : FunctionRef} {via : BindingRef} {x : Target} {m : Method} {b : Bool}
  {k : Nat} {args : List ScriptValue}

/-- The world in which the arguments of a call are looked at: its frame is there, and its target is
held. -/
def insideCall (w : World) (b : Bool) (f : FunctionRef) (x : Target) : World :=
  { w.entered b f with held := handles x ++ (w.entered b f).held }

/-- A call holds its target in addition. -/
theorem insideCall_extends (w : World) (b : Bool) (f : FunctionRef) (x : Target) :
    (w.entered b f).Extends (insideCall w b f x) :=
  World.extends_holding (w.entered b f) (handles x)

/-- A call runs the method without the proxy it was called on. -/
theorem outcome_callMethod (hcode : (w.function f).code = .method via x m) :
    (callWithin (k + 1) b f args).outcome w =
      (framed b f (runMethod (Op.runAll (callWithin k)) b via (w.function f).name x m
        (withoutSelf (insideCall w b f x) x m.params.length args))).outcome w := by
  have hcode' : ((w.entered b f).function f).code = .method via x m := hcode
  have hname : ((w.entered b f).function f).name = (w.function f).name := rfl
  have hcall : callWithin (k + 1) b f args =
      framed b f (invokeCode (Op.runAll (callWithin k)) b f args) := rfl
  rw [hcall, outcome_framed, outcome_framed, outcome_invokeCode, hcode', hname]
  unfold runMethod
  -- A target that is gone fails both before the arguments are looked at.
  cases hx : (w.entered b f).reach? x with
  | none =>
    have hgone := outcome_reachTarget_gone hx
    rw [outcome_raising_error hgone, outcome_raising_error hgone]
  | some x' =>
    obtain rfl := World.reach?_eq_some hx
    have hreached := outcome_raising_ok (outcome_reachTarget_ok hx)
    rw [outcome_bind_ok hreached, outcome_bind_ok hreached, outcome_holding, outcome_holding,
      ← insideCall]
    have hlook : (look fun w => withoutSelf w x m.params.length args :
        Act ScriptError (List ScriptValue)).outcome (insideCall w b f x) =
        (.ok (withoutSelf (insideCall w b f x) x m.params.length args), insideCall w b f x) :=
      outcome_look _ _
    rw [outcome_bind_ok hlook]
    rfl

/-- Inside its frame and with its target held, a method is host code. -/
theorem outcome_framed_runMethod {run : Runner} {name : String}
    (hx : (w.entered b f).reach? x = some x) :
    (framed b f (runMethod run b via name x m args)).outcome w =
      let out := (runHostCode b via name m.params args (methodBody run b via x m)).outcome
        (insideCall w b f x)
      (out.1, { out.2 with held := w.held }.left f) := by
  unfold runMethod
  rw [outcome_framed, outcome_bind_ok (outcome_raising_ok (outcome_reachTarget_ok hx)),
    outcome_holding, ← insideCall]
  rfl

/-- A method whose target is gone fails whatever its arguments are. -/
theorem outcome_framed_runMethod_gone {run : Runner} {name : String}
    (hx : (w.entered b f).reach? x = none) :
    (framed b f (runMethod run b via name x m args)).outcome w =
      (framed b f (raising (throw (.binding (.objectReleased x.cls.name))))).outcome w := by
  unfold runMethod
  rw [outcome_framed, outcome_framed, outcome_raising_error (outcome_reachTarget_gone hx)]

end Act

/-! ### Which arguments the method gets -/

/-- The function runs a method on a target. This is what its calls do with their arguments. -/
structure World.CallsMethod (w : World) (f : FunctionRef) (via : BindingRef) (x : Target)
    (m : Method) : Prop where
  /-- A live proxy of the same target in front of as many arguments as the method takes makes no
  difference, neither to what is given or raised nor to what happens. -/
  colon : ∀ k b u s xs, xs.length = m.params.length → w.proxyTarget? u = some s →
    s.same x = true →
    (callWithin k b f (.userdata u :: xs)).outcome w = (callWithin k b f xs).outcome w
  /-- In every other case all arguments are kept. -/
  kept : ∀ k b args,
    (args.length = m.params.length + 1 → reachesTarget (w.entered b f) x args.head? = false) →
    (callWithin (k + 1) b f args).outcome w = (framed b f
      (runMethod (Op.runAll (callWithin k)) b via (w.function f).name x m args)).outcome w
  /-- What the first argument is for the call, it was before, if the target is alive. -/
  judged : w.reach? x = some x →
    ∀ b a, reachesTarget (w.entered b f) x a = reachesTarget w x a
  /-- Arguments that are not too many are converted in their positions, a proxy of the target like
  any other value. -/
  placed : ∀ k args, w.reach? x = some x → args.length ≤ m.params.length →
    ∃ out, Dispatched via (w.function f).name m.params args
        (methodBody (Op.runAll (callWithin k)) false via x m) (insideCall w false f x) out ∧
      (callWithin (k + 1) false f args).outcome w = (out.1, { out.2 with held := w.held }.left f)
  /-- Any other surplus fails and starts nothing. -/
  surplus : ∀ k args, w.reach? x = some x → m.params.length < args.length →
    (args.length = m.params.length + 1 → reachesTarget w x args.head? = false) →
    (callWithin (k + 1) false f args).outcome w = (framed false f (raising (throw (.binding
      (.argumentCount (w.function f).name m.params.length args.length))))).outcome w ∧
    w.Starts [] ((callWithin (k + 1) false f args).outcome w).2

section Calls

variable {w : World} {f : FunctionRef} {via : BindingRef} {x : Target} {m : Method} {b : Bool}
  {k : Nat} {args : List ScriptValue}

/-- Where the first argument is not the receiver, all of them are for the method. -/
theorem withoutSelf_of_not {n : Nat}
    (h : args.length = n + 1 → reachesTarget w x args.head? = false) :
    withoutSelf w x n args = args :=
  if_neg fun hself => Bool.false_ne_true ((h hself.1).symm.trans hself.2)

/-- The receiver is dropped if there is one argument more than the method takes. -/
theorem withoutSelf_cons {n : Nat} {v : ScriptValue} (hlength : args.length = n)
    (h : reachesTarget w x (some v) = true) : withoutSelf w x n (v :: args) = args :=
  if_pos ⟨congrArg Nat.succ hlength, h⟩

/-- With the target alive, what the first argument is inside the call, it was outside. -/
theorem reachesTarget_insideCall (hmade : w.Made x) (hx : w.reach? x = some x)
    (a : Option ScriptValue) : reachesTarget (insideCall w b f x) x a = reachesTarget w x a :=
  World.reachesTarget_extends ((w.extends_entered b f).trans (insideCall_extends w b f x)) rfl
    hmade hx a

/-- Arguments among which there is no receiver are all for the method. -/
theorem outcome_callMethod_kept (hmade : w.Made x)
    (hcode : (w.function f).code = .method via x m)
    (h : args.length = m.params.length + 1 → reachesTarget (w.entered b f) x args.head? = false) :
    (callWithin (k + 1) b f args).outcome w = (framed b f
      (runMethod (Op.runAll (callWithin k)) b via (w.function f).name x m args)).outcome w := by
  rw [outcome_callMethod hcode]
  -- A target that is gone fails the call before its arguments are looked at.
  cases hx : (w.entered b f).reach? x with
  | none => rw [outcome_framed_runMethod_gone hx, outcome_framed_runMethod_gone hx]
  | some x' =>
    obtain rfl := World.reach?_eq_some hx
    have hmade' : (w.entered b f).Made x := hmade
    have hinside (a : Option ScriptValue) :
        reachesTarget (insideCall w b f x) x a = reachesTarget (w.entered b f) x a :=
      World.reachesTarget_extends (insideCall_extends w b f x) rfl hmade' hx a
    rw [withoutSelf_of_not fun hlength => (hinside _).trans (h hlength)]

/-- **A function that was read through a proxy** does this with its arguments. -/
theorem World.Faithful.callsMethod (hw : w.Faithful)
    (hcode : (w.function f).code = .method via x m) : w.CallsMethod f via x m := by
  have hmade : w.Made x := hw.made_of_code hcode
  have hentered {b : Bool} (hx : w.reach? x = some x) : (w.entered b f).reach? x = some x :=
    World.reach?_extends (w.extends_entered b f) hmade hx
  have hjudged (hx : w.reach? x = some x) (b : Bool) (a : Option ScriptValue) :
      reachesTarget (w.entered b f) x a = reachesTarget w x a :=
    World.reachesTarget_extends (w.extends_entered b f) rfl hmade hx a
  -- Outside of coroutines, without a receiver among the arguments.
  have hdispatched {k : Nat} {args : List ScriptValue} (hx : w.reach? x = some x)
      (h : args.length = m.params.length + 1 → reachesTarget w x args.head? = false) :
      ∃ out, Dispatched via (w.function f).name m.params args
          (methodBody (Op.runAll (callWithin k)) false via x m) (insideCall w false f x) out ∧
        (callWithin (k + 1) false f args).outcome w =
          (out.1, { out.2 with held := w.held }.left f) := by
    refine ⟨_, runHostCode_dispatched _ _ _ _ _ _, ?_⟩
    rw [outcome_callMethod_kept hmade hcode fun hlength => (hjudged hx _ _).trans (h hlength),
      outcome_framed_runMethod (hentered hx)]
  refine ⟨?_, fun k b args => outcome_callMethod_kept hmade hcode, hjudged, ?_, ?_⟩
  · intro k b u s xs hlength hs hsame
    cases k with
    | zero => rfl
    | succ k =>
      -- The proxy is dropped from one list, and the other one is too short to drop anything.
      have hx : w.reach? x = some x := World.reach?_of_same hs hsame
      have hself : reachesTarget (insideCall w b f x) x (some (.userdata u)) = true := by
        rw [reachesTarget_insideCall hmade hx]
        exact World.reachesTarget_iff.mpr ⟨u, s, rfl, hs, hsame⟩
      rw [outcome_callMethod hcode, outcome_callMethod hcode, withoutSelf_cons hlength hself,
        withoutSelf_of_not fun h => absurd (hlength.symm.trans h) (Nat.succ_ne_self _).symm]
  -- Arguments that are not too many have no receiver among them.
  · intro k args hx hcount
    exact hdispatched hx fun h => absurd (h ▸ hcount) (Nat.not_succ_le_self _)
  -- Too many arguments are refused by host code, inside the call.
  · intro k args hx hmore hself
    obtain ⟨out, hout, hcall⟩ := hdispatched (k := k) hx hself
    obtain ⟨hraised, hstarts⟩ := hout.surplus hmore
    -- What is raised is made inside the call, where other things are held; it is the same without.
    have hentering : w.Starts [] (insideCall w false f x) := ⟨[.called f false], rfl, rfl⟩
    have hleaving : out.2.Starts [] ({ out.2 with held := w.held }.left f) :=
      ⟨[.returned f], rfl, rfl⟩
    rw [hcall]
    refine ⟨?_, (hentering.quiet hstarts).quiet hleaving⟩
    rw [hraised, outcome_framed, outcome_raising_carried (outcome_throw _ _) rfl,
      outcome_raising_carried (outcome_throw _ _) rfl]
    rfl

end Calls

/-- **Dot and colon are the same call.** All worlds that sessions pass through are faithful. Reading a
key that denotes one method gives a function for it, which it stays whatever happens. In a faithful
world such a function drops an argument in one case only, and that is the case where it makes no
difference whether the argument is there. -/
theorem dot_and_colon :
    (∀ c layout ops, ∀ i ∈ (World.start c layout).instants ops, i.world.Faithful) ∧
    (∀ w p t key m, World.Finds w p t key [.method m] →
      ∃ f w', (readProxy p key).outcome w = (.ok (.function f), w') ∧
        ∀ l b w'', Effects l b w' w'' →
          w''.function f = ⟨t.cls.name ++ "." ++ m.name, .host, .method p.via t m⟩) ∧
    ∀ (w : World) f via x m, w.Faithful → (w.function f).code = .method via x m →
      w.CallsMethod f via x m := by
  refine ⟨fun c layout ops i hi => (World.faithful_instants c layout ops i hi).world, ?_,
    fun w f via x m hw hcode => hw.callsMethod hcode⟩
  intro w p t key m h
  refine ⟨_, _, outcome_readProxy h, fun l b w'' heff => ?_⟩
  -- The function that was made stays what it is.
  have hkept := heff.function_kept (Store.get?_push_self w.functions _)
  exact Option.getD_eq_iff.mpr (.inl hkept)

namespace SelfArgument

/-- The result is stored under a name. -/
def into (name : String) : Disposition := ⟨some name, none, false, true⟩

/-- The body gives back what it is given. -/
def echoBody : Program := [.giveHost ⟨none, none, false, false⟩ .allArgs]

/-- A lamp has two proxies, and its method is read through the first one. -/
def session : Program :=
  [.cls (into "Lamp") ⟨"Lamp", [.method "echo" [.plain .any] false echoBody], none, none⟩,
    .act (into "lamp") (.cls (.instantiate "Lamp" [])),
    .act (into "p") (.proxy (.wrap (some "lamp"))),
    .act (into "q") (.proxy (.create (.object (some "lamp")) none)),
    .act (into "echo") (.proxy (.read (.var "p" 0) (.string "echo")))]

/-- The world that the session leaves. -/
def room : World := (World.start .default fun r => r.index).after session

/-- The lamp. -/
def lamp : Target := .object ⟨⟨0⟩, ⟨⟨0⟩, "Lamp"⟩⟩

/-- A proxy of it. -/
def proxy : Proxy := ⟨some lamp, ⟨0⟩, "Lamp"⟩

/-- The method, as it was declared. -/
def echo : Method := ⟨"echo", [.any], false, true, echoBody⟩

/-- A call of the function that was read. -/
def call (args : List ScriptValue) : Except ScriptError (List ScriptValue) × World :=
  (callWithin 6 false ⟨0⟩ args).outcome room

/-- The lamp is there, the second proxy is of it, and a number is not. -/
theorem room_lamp : room.reach? lamp = some lamp ∧ room.proxyTarget? ⟨1⟩ = some lamp ∧
    reachesTarget room lamp (some (.integer 5)) = false := by
  decide +kernel

/-- The name finds the method, and the function that was read is of that one. -/
theorem room_echo :
    ((MemberKey.ofValue? (.string "echo")).elim [] fun k =>
      (room.binding proxy.via).resolve (room.cls lamp.cls) k lamp.isInstance) = [.method echo] ∧
    room.function ⟨0⟩ = ⟨"Lamp.echo", .host, .method ⟨0⟩ lamp echo⟩ :=
  ⟨rfl, rfl⟩

end SelfArgument

open SelfArgument in
/-- The method takes one argument. The second proxy of the lamp in front of one is dropped, and on its
own it is the argument; a number in front of one is one too many. -/
theorem dot_and_colon_lamp :
    (∃ f w', (readProxy proxy (.string "echo")).outcome room = (.ok (.function f), w') ∧
      (w'.function f).code = .method ⟨0⟩ lamp echo) ∧
    call [.userdata ⟨1⟩, .integer 5] = call [.integer 5] ∧
    (∃ out, Dispatched ⟨0⟩ "Lamp.echo" [.any] [.userdata ⟨1⟩]
      (methodBody (Op.runAll (callWithin 5)) false ⟨0⟩ lamp echo) (insideCall room false ⟨0⟩ lamp)
      out ∧ call [.userdata ⟨1⟩] = (out.1, { out.2 with held := room.held }.left ⟨0⟩)) ∧
    call [.integer 5, .integer 5] =
      (framed false ⟨0⟩ (raising (throw (.binding (.argumentCount "Lamp.echo" 1 2))))).outcome room ∧
    room.Starts [] (call [.integer 5, .integer 5]).2 := by
  obtain ⟨hfaithful, hread, hcalls⟩ := dot_and_colon
  have hlast := List.mem_of_getLast?
    (World.getLast?_instants session (World.start .default fun r => r.index))
  have hroom : room.Faithful := hfaithful .default (fun r => r.index) session _ hlast
  obtain ⟨hlamp, hproxy, hnumber⟩ := room_lamp
  obtain ⟨hfound, hfunction⟩ := room_echo
  obtain ⟨f, w', hf, hkept⟩ := hread room proxy lamp (.string "echo") echo ⟨rfl, hlamp, hfound⟩
  have hecho := hcalls room ⟨0⟩ ⟨0⟩ lamp echo hroom (congrArg Function.code hfunction)
  have hname : (room.function ⟨0⟩).name = "Lamp.echo" := congrArg Function.name hfunction
  refine ⟨⟨f, w', hf, congrArg Function.code (hkept .all false w' (.refl w'))⟩, ?_, ?_, ?_⟩
  · exact hecho.colon 6 false ⟨1⟩ lamp [.integer 5] rfl hproxy (by decide)
  · rw [← hname]
    exact hecho.placed 5 [.userdata ⟨1⟩] hlamp (Nat.le_refl _)
  · rw [← hname]
    exact hecho.surplus 5 [.integer 5, .integer 5] hlamp (by decide) fun _ => hnumber

end ScriptHost
