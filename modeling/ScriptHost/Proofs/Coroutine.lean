import ScriptHost.Proofs.Carrier

/-!
# The guard of coroutines

No code of the host is started and no slot is written between the start of a resumption and its end,
whatever calls and further resumptions lie in between. The journal tells: `Journal.running` lists
the coroutines that have been entered and not left, and `Journal.Guarded` says of every event that
it fits what was running when it happened. `Effects.guarded` is the step, one case for each way to
change a world; `coroutine_guard` puts the runs together with what an attempt inside a coroutine
gives to its caller.
-/

set_option autoImplicit false

namespace ScriptHost

/-! ### What the journal has to look like -/

namespace Journal

/-- The coroutines that were entered and not left, innermost first. -/
def running : List Event → List CoroutineRef
  | [] => []
  | .resumed c :: es => c :: running es
  | .finished _ :: es => (running es).tail
  | _ :: es => running es

end Journal

/-- What an event has to do with the coroutines that are running: calls know about them, host code
wants none, a refusal wants one, and the innermost is left first. -/
def Event.Fits (running : List CoroutineRef) : Event → Prop
  | .called _ inCoroutine => inCoroutine = !running.isEmpty
  | .refused _ => running ≠ []
  | .finished c => running.head? = some c
  | e => e.isHostCode = true → running = []

namespace Journal

/-- Every event fits the coroutines that were running when it happened. -/
def Guarded : List Event → Prop
  | [] => True
  | e :: es => e.Fits (running es) ∧ Guarded es

/-- Every event has the property together with what came before it. -/
def Each (P : Event → List Event → Prop) (j : List Event) : Prop :=
  ∀ later e earlier, j = later ++ e :: earlier → P e earlier

/-- Nothing is said of no events. -/
theorem each_nil (P : Event → List Event → Prop) : Each P [] := by
  intro later e earlier h
  cases later <;> cases h

/-- What is said of each event is said of the newest one and of those before it. -/
theorem each_cons {P : Event → List Event → Prop} {e : Event} {es : List Event} :
    Each P (e :: es) ↔ P e es ∧ Each P es := by
  refine ⟨fun h => ⟨h [] e es rfl, ?_⟩, ?_⟩
  · intro later e' earlier hes
    exact h (e :: later) e' earlier (by rw [hes, List.cons_append])
  · rintro ⟨he, hes⟩ later e' earlier h
    rcases later with _ | ⟨e'', later⟩
    · obtain ⟨rfl, rfl⟩ := List.cons.inj h
      exact he
    · exact hes later e' earlier (List.cons.inj h).2

/-- The journal is guarded exactly when every event fits the coroutines that were running when it
happened. -/
theorem guarded_iff {j : List Event} :
    Guarded j ↔ ∀ later e earlier, j = later ++ e :: earlier → e.Fits (running earlier) := by
  induction j with
  | nil => exact iff_of_true trivial (each_nil _)
  | cons e es ih =>
    rw [Guarded, ih]
    exact (each_cons (P := fun e es => e.Fits (running es))).symm

/-- Host code leaves the coroutines as they are. -/
theorem running_of_isHostCode {e : Event} (h : e.isHostCode = true) (es : List Event) :
    running (e :: es) = running es := by
  cases e <;> first | rfl | cases h

/-- Outside of all coroutines host code may be started. -/
theorem fits_of_isHostCode {e : Event} (h : e.isHostCode = true) : e.Fits [] := by
  cases e <;> first | exact fun _ => rfl | cases h

end Journal

namespace Event

/-- What may happen inside a coroutine: no code of the host, and calls that know where they are. -/
def Inside : Event → Prop
  | .called _ inCoroutine => inCoroutine = true
  | e => e.isHostCode = false

/-- What may happen inside, in terms of what it is. -/
theorem inside_iff {e : Event} :
    e.Inside ↔ e.isHostCode = false ∧ ∀ f b, e = .called f b → b = true := by
  cases e <;> simp [Inside, isHostCode]

/-- What happens in brackets may happen if the brackets may. -/
theorem inside_bracket {opening closing : Event} {new : List Event} (hopening : opening.Inside)
    (hclosing : closing.Inside) (h : ∀ e ∈ new, e.Inside) :
    ∀ e ∈ closing :: (new ++ [opening]), e.Inside := by
  intro e he
  rcases List.mem_cons.mp he with rfl | he
  · exact hclosing
  · rcases List.mem_append.mp he with he | he
    · exact h e he
    · rw [List.mem_singleton.mp he]
      exact hopening

end Event

open Act Journal

/-! ### Runs -/

namespace Effects

variable {b : Bool} {w w' : World}

/-- **Runs keep the journal guarded** and leave every coroutine that they enter. -/
theorem guarded (h : Effects .contextual b w w') (hb : b = !(running w.journal).isEmpty)
    (hg : Guarded w.journal) : Guarded w'.journal ∧ running w'.journal = running w.journal := by
  induction h with
  | trans _ _ ih ih' =>
    obtain ⟨hg₁, hr₁⟩ := ih hb hg
    obtain ⟨hg₂, hr₂⟩ := ih' (by rw [hr₁]; exact hb) hg₁
    exact ⟨hg₂, hr₂.trans hr₁⟩
  | hold _ _ ih | lent _ _ _ _ ih => exact ih hb hg
  | cached | wrapped => exact ⟨⟨nofun, hg⟩, rfl⟩
  | @started b w e he _ h =>
    -- The license leaves only one way to get here: the guard was asked outside every coroutine.
    have hout : b = false := h.resolve_right (by simp [License.contextual])
    have hempty : running w.journal = [] := by simpa [hout] using hb.symm
    refine ⟨⟨?_, hg⟩, running_of_isHostCode he _⟩
    rw [hempty]
    exact fits_of_isHostCode he
  | @refused b w name h =>
    have hin : b = true := h.resolve_right (by simp [License.contextual])
    refine ⟨⟨?_, hg⟩, rfl⟩
    intro hempty
    simp [hempty, hin] at hb
  | called f hb' _ ih =>
    obtain rfl := hb'.eq_or_direct.resolve_right (by simp [License.contextual])
    obtain ⟨hg', hr'⟩ := ih hb ⟨hb, hg⟩
    exact ⟨⟨nofun, hg'⟩, hr'⟩
  | resumed c _ _ ih =>
    -- The coroutine is on top of those that were running, and on top again when it is left.
    obtain ⟨hg', hr'⟩ := ih rfl ⟨nofun, hg⟩
    refine ⟨⟨?_, hg'⟩, ?_⟩
    · show (running _).head? = some c
      rw [hr']
      rfl
    · show (running _).tail = _
      rw [hr']
      rfl
  | _ => exact ⟨hg, rfl⟩

/-- Inside a coroutine the journal gets only what may happen there. -/
theorem journal_inside (h : Effects .contextual b w w') (hb : b = true) :
    ∃ new, w'.journal = new ++ w.journal ∧ ∀ e ∈ new, e.Inside := by
  induction h with
  | trans _ _ ih ih' =>
    obtain ⟨new, hj, hnew⟩ := ih hb
    obtain ⟨new', hj', hnew'⟩ := ih' hb
    refine ⟨new' ++ new, by rw [hj', hj, List.append_assoc], ?_⟩
    intro e he
    rcases List.mem_append.mp he with he | he
    · exact hnew' e he
    · exact hnew e he
  | hold _ _ ih | lent _ _ _ _ ih => exact ih hb
  | cached w via o u _ => exact ⟨[.wrapped via o u], rfl, List.forall_mem_singleton.mpr rfl⟩
  | wrapped w via o _ =>
    exact ⟨[.wrapped via o w.userdata.next], rfl, List.forall_mem_singleton.mpr rfl⟩
  | refused w name _ => exact ⟨[.refused name], rfl, List.forall_mem_singleton.mpr rfl⟩
  -- Host code is started under no license but one that is given outside.
  | started w e _ _ h => exact absurd h (by simp [hb, License.contextual])
  -- The license lets no call out of its context, so the call knows that it is in a coroutine.
  | @called b b' w w' f hb' _ ih =>
    obtain rfl := hb'.eq_or_direct.resolve_right (by simp [License.contextual])
    obtain ⟨new, hj, hnew⟩ := ih hb
    have hjournal : (w'.left f).journal =
        (.returned f :: (new ++ [.called f b'])) ++ w.journal := by
      simp [World.left, hj, World.entered]
    exact ⟨_, hjournal, Event.inside_bracket hb rfl hnew⟩
  -- A coroutine that is resumed is one inside another.
  | @resumed b w w' c _ _ ih =>
    obtain ⟨new, hj, hnew⟩ := ih rfl
    have hjournal : (w'.finishing c).journal =
        (.finished c :: (new ++ [.resumed c])) ++ w.journal := by
      simp [World.finishing, hj, World.resuming]
    exact ⟨_, hjournal, Event.inside_bracket rfl rfl hnew⟩
  | _ => exact ⟨[], rfl, List.forall_mem_nil _⟩

/-- Lending an object and taking it back leaves all payloads. -/
theorem payload_lend (w : World) (o : ObjectRef) (x : Borrow) (q : Ref .object) :
    ((w.objects.set o.ref { w.object o with borrow := x }).get? q).map Object.payload =
      (w.objects.get? q).map Object.payload := by
  rw [Store.get?_set]
  split
  · next h =>
    subst h
    cases hq : w.objects.get? o.ref with
    | none => rfl
    | some ob => simp [World.object, hq]
  · rfl

/-- **Inside a coroutine no payload changes.** -/
theorem payload_inside (h : Effects .contextual b w w') (hb : b = true) {o : Ref .object}
    {p : Payload} (ho : (w.objects.get? o).map Object.payload = some p) :
    (w'.objects.get? o).map Object.payload = some p := by
  induction h with
  | trans _ _ ih ih' => exact ih' hb (ih hb ho)
  | object w c q =>
    obtain ⟨ob, hob, hp⟩ := Option.map_eq_some_iff.mp ho
    exact Option.map_eq_some_iff.mpr ⟨ob, Store.get?_push_of_some _ hob, hp⟩
  -- A slot is written under the same license only.
  | written w _ _ _ h => exact absurd h (by simp [hb, License.contextual])
  -- A lent object has the payload that it had.
  | lent q _ _ _ ih =>
    rw [payload_lend]
    exact ih hb ((payload_lend _ q _ o).trans ho)
  | hold _ _ ih => exact ih hb ho
  | called _ hb' _ ih =>
    obtain rfl := hb'.eq_or_direct.resolve_right (by simp [License.contextual])
    exact ih hb ho
  | resumed _ _ _ ih => exact ih rfl ho
  | _ => exact ho

end Effects

/-! ### Resumptions -/

/-- The host was left alone: none of its code was started, every call knew that it was inside a
coroutine, and the objects that were there hold what they held. -/
structure World.HostUntouched (w w' : World) : Prop where
  journal : ∃ new, w'.journal = new ++ w.journal ∧
    ∀ e ∈ new, e.isHostCode = false ∧ ∀ f b, e = .called f b → b = true
  payload : ∀ o p, (w.objects.get? o).map Object.payload = some p →
    (w'.objects.get? o).map Object.payload = some p

/-- **A resumption leaves the host alone**, whether it fails or not. -/
theorem World.hostUntouched_resume {w : World} (hw : w.Within .contextual) (n : Nat)
    (c : CoroutineRef) (args : List ScriptValue) :
    w.HostUntouched ((resume (callWithin n) c args).outcome w).2 := by
  have hcomposed :=
    resume_composed (b := true) (callWithin_composed .contextual n) c (.univ args)
  have heff := (hcomposed.effects hw).1
  obtain ⟨new, hjournal, hnew⟩ := heff.journal_inside rfl
  refine ⟨⟨new, hjournal, ?_⟩, fun o p => heff.payload_inside rfl⟩
  intro e he
  exact Event.inside_iff.mp (hnew e he)

/-! ### Attempts -/

section Attempts

variable {w : World} (n : Nat) (args : List ScriptValue)

/-- A host function is refused by its name. -/
theorem raisesAs_hostFunction {f : FunctionRef} {via : BindingRef} {h : HostFunction}
    (hf : (w.function f).code = .host via h) :
    RaisesAs (callWithin (n + 1) true f args) w (.reentrancy h.name) := by
  refine .framed (.of_eq (outcome_invokeCode _ _ _ _ _) ?_)
  have hcode : ((w.entered true f).function f).code = .host via h := hf
  rw [hcode]
  exact (RaisesAs.guard _ _).bind

/-- A method is refused under the name of its function, if its object is still there. -/
theorem raisesAs_method {f : FunctionRef} {via : BindingRef} {t : Target} {m : Method}
    (hf : (w.function f).code = .method via t m) :
    RaisesAs (callWithin (n + 1) true f args) w
      (match (w.entered true f).reach? t with
        | some _ => .reentrancy (w.function f).name
        | none => .binding (.objectReleased t.cls.name)) := by
  refine .framed (.of_eq (outcome_invokeCode _ _ _ _ _) ?_)
  have hcode : ((w.entered true f).function f).code = .method via t m := hf
  have htarget := outcome_reachTarget t (w.entered true f)
  rw [hcode]
  -- The target is asked for before the guard.
  cases hr : (w.entered true f).reach? t with
  | none =>
    rw [hr] at htarget
    exact (RaisesAs.of_failure htarget nofun).bind
  | some t' =>
    rw [hr] at htarget
    refine .after (outcome_raising_ok htarget) (.holding (.after (outcome_look _ _) ?_))
    exact (RaisesAs.guard _ _).bind

variable {u : UserdataRef} {p : Proxy} (hu : w.userdatum u = .proxy p) (key : ScriptValue)
include hu

/-- Reading through a proxy is refused, whatever the key. -/
theorem raisesAs_index :
    RaisesAs (index true (.userdata u) key) w (.reentrancy (accessName p key)) := by
  refine .after (outcome_look _ _) ?_
  rw [hu]
  exact .of_failure (outcome_bind_error (outcome_guard true _ _)) nofun

/-- Writing through a proxy is refused, before the value is looked at. -/
theorem raisesAs_setIndex (value : ScriptValue) :
    RaisesAs (setIndex true (.userdata u) key value) w (.reentrancy (accessName p key)) := by
  refine .after (outcome_look _ _) ?_
  rw [hu]
  exact .of_failure (outcome_bind_error (outcome_guard true _ _)) nofun

/-- The method is looked up through the proxy first, and that is refused already. -/
theorem raisesAs_invoke (call : Caller) :
    RaisesAs (invoke call true (.userdata u) key args) w (.reentrancy (accessName p key)) := by
  have hu' : ({ w with held := handles key ++ handles args ++ w.held } : World).userdatum u =
      .proxy p := hu
  exact (RaisesAs.holding (raisesAs_index hu' key)).bind

end Attempts

/-- What a caller inside a coroutine gets, for each way to ask for code of the host: an error that
shows the refusal. A method whose object is gone says so first, and where no further call may be
nested the stack overflows before the function is looked at. -/
structure World.RefusesHostCode (w : World) : Prop where
  hostFunction : ∀ n f args via h, (w.function f).code = .host via h →
    RaisesAs (callWithin (n + 1) true f args) w (.reentrancy h.name)
  method : ∀ n f args via t m, (w.function f).code = .method via t m →
    RaisesAs (callWithin (n + 1) true f args) w
      (match (w.entered true f).reach? t with
        | some _ => .reentrancy (w.function f).name
        | none => .binding (.objectReleased t.cls.name))
  read : ∀ u p key, w.userdatum u = .proxy p →
    RaisesAs (index true (.userdata u) key) w (.reentrancy (accessName p key))
  write : ∀ u p key value, w.userdatum u = .proxy p →
    RaisesAs (setIndex true (.userdata u) key value) w (.reentrancy (accessName p key))
  invoke : ∀ call u p key args, w.userdatum u = .proxy p →
    RaisesAs (invoke call true (.userdata u) key args) w (.reentrancy (accessName p key))
  limit : ∀ f args, (callWithin 0 true f args).outcome w =
    (.error ⟨.string "stack overflow", some w.traceback⟩, w)

/-- Each of these ways comes to the guard, or fails before it. -/
theorem World.refusesHostCode (w : World) : w.RefusesHostCode where
  hostFunction n _ args _ _ hf := raisesAs_hostFunction n args hf
  method n _ args _ _ _ hf := raisesAs_method n args hf
  read _ _ key hu := raisesAs_index hu key
  write _ _ key value hu := raisesAs_setIndex hu key value
  invoke call _ _ key args hu := raisesAs_invoke args hu key call
  limit _ _ := rfl

/-- **The guard of coroutines.** In every session whose script bodies reach host code through their
context only, every event of the journal fits the coroutines that were running when it happened:
calls are inside a coroutine exactly when one is running, host code is started outside all of them
and is refused inside only, and every coroutine that was entered was left. A resumption at any depth
leaves the host alone, whoever asks for host code inside gets an error, and outside the guard lets
everything pass. -/
theorem coroutine_guard (c : Config) (layout : Ref .object → Nat) (ops : Program)
    (h : Op.allWithin .contextual true ops = true) :
    (let journal := ((World.start c layout).after ops).journal;
      running journal = [] ∧
        ∀ later e earlier, journal = later ++ e :: earlier → e.Fits (running earlier)) ∧
    (∀ w : World, w.Within .contextual → ∀ n co args,
      w.HostUntouched ((resume (callWithin n) co args).outcome w).2) ∧
    (∀ w : World, w.RefusesHostCode) ∧
    ∀ (w : World) name, (guard false name).outcome w = (.ok (), w) := by
  refine ⟨?_, fun w hw n co args => World.hostUntouched_resume hw n co args,
    World.refusesHostCode, fun w name => outcome_guard false name w⟩
  -- The invariant of sessions: between operations no coroutine is running.
  have hstep : ∀ (w : World) (op : Op), w.Within .contextual → op.within .contextual true = true →
      Guarded w.journal ∧ running w.journal = [] →
      Guarded (w.step op).2.journal ∧ running (w.step op).2.journal = [] := by
    rintro w op hw hop ⟨hg, hr⟩
    have hout : false = !(running w.journal).isEmpty := by rw [hr]; rfl
    obtain ⟨hg', hr'⟩ := (World.step_effects hw hop).guarded hout hg
    exact ⟨hg', hr'.trans hr⟩
  obtain ⟨-, hg, hr⟩ :=
    World.after_induction hstep h (World.Within.start c layout) ⟨trivial, rfl⟩
  exact ⟨hr, guarded_iff.mp hg⟩

/-- A host function is called inside a coroutine, where it is refused, and then outside. -/
def guardedSession : Program :=
  let quietly (store : Option String) : Disposition := ⟨store, some "failure", false, false⟩
  [.hostFunction (quietly none) "touch" [] .global [],
    .function (quietly (some "inner")) "inner" false false
      [.act (quietly none) (.call (.call (.global "touch") (.list [])))],
    .act (quietly (some "co")) (.call (.coroutine (.var "inner" 0))),
    .act (quietly none) (.call (.resume "co" (.list []))),
    .act (quietly none) (.call (.call (.global "touch") (.list [])))]

/-- In this session the first call was refused, and the second one was not. -/
theorem coroutine_guard_guardedSession :
    Op.allWithin .contextual true guardedSession = true ∧
    (let journal := ((World.start .default fun r => r.index).after guardedSession).journal;
      (journal.map Event.isHostCode =
          [false, true, false, false, false, false, false, false, false, false] ∧
        journal.any (fun | .refused name => name == "touch" | _ => false) = true) ∧
      running journal = [] ∧
        ∀ later e earlier, journal = later ++ e :: earlier → e.Fits (running earlier)) := by
  have hwithin : Op.allWithin .contextual true guardedSession = true := by decide
  have hguard := coroutine_guard .default (fun r => r.index) guardedSession hwithin
  exact ⟨hwithin, ⟨by decide +kernel, by decide +kernel⟩, hguard.1⟩

end ScriptHost
