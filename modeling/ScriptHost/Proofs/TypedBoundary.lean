import ScriptHost.Proofs.Act.Effects

/-!
# The typed boundary

Code of the host is only ever handed what it declared. `toHost_hasType` says that whatever a
conversion gives inhabits the type that was asked for. From there on types are carried along: the
arguments of a body are accepted one for each parameter (`runHostCode_congr`), and a setter gets a
converted value only.

Runs are told about in two ways. The journal of a session records every start with the values handed
over, and all of its events are typed (`Effects.typed`). And what a function of the host would do
with other arguments makes no difference to any call of it (`Code.MayRun`, `invokeCode_congr`): two
ways of running bodies that agree on arguments of the declared types are the same.
-/

set_option autoImplicit false

namespace ScriptHost

namespace Act

/-! ### Conversions -/

/-- **What a conversion gives inhabits the type.** -/
theorem toHost_hasType {w w' : World} {via : BindingRef} {t : HostType} {v : ScriptValue}
    {h : HostValue} (hconv : (toHost via t v).outcome w = (.ok h, w')) : h.HasType t := by
  have hcomposed : Composed .all true Set.univ (toHost via t v) t.Gives :=
    toHost_composed (.inr rfl) via t (.univ v)
  obtain ⟨K, -, hgiven⟩ := hcomposed.gives w.within_all hconv
  exact hgiven.1

/-! ### Calls -/

section Calls

variable {ε α β : Type} {w : World}

/-- Raising adds nothing that could tell two acts apart. -/
theorem outcome_raising_congr {m m' : Act HostFailure α} (h : m.outcome w = m'.outcome w) :
    (raising m).outcome w = (raising m').outcome w := by
  unfold raising
  rw [outcome_bind, outcome_bind, outcome_attempt, outcome_attempt, h]

/-- Holding adds nothing either. -/
theorem outcome_holding_congr {hs : List Handle} {m m' : Act ε α}
    (h : ∀ v, m.outcome v = m'.outcome v) : (holding hs m).outcome w = (holding hs m').outcome w := by
  rw [outcome_holding, outcome_holding, h]

/-- **A body gets as many arguments as there are parameters, each of its type**: what it does with
others makes no difference. -/
theorem runHostCode_congr {b : Bool} {via : BindingRef} {name : String} {params : List HostType}
    {args : List ScriptValue} {body body' : List HostValue → Act HostFailure (List HostValue)}
    (h : ∀ vs, List.Forall₂ HostValue.HasType vs params → ∀ v, (body vs).outcome v =
      (body' vs).outcome v) (w : World) :
    (runHostCode b via name params args body).outcome w =
      (runHostCode b via name params args body').outcome w := by
  -- The guard is the same, and what is accepted has the types of the parameters.
  refine outcome_bind_congr fun _ w₁ _ => outcome_bind_congr fun vs w₂ haccepted => ?_
  have hcomposed : Composed .all true Set.univ
      (raising (holding (handles args) (acceptArgs via name params args))) (GivesEach params) :=
    raising_composed (.holding _ (acceptArgs_composed (.inr rfl) via name params (.univ args)))
  obtain ⟨K, -, htyped, -⟩ := hcomposed.gives w₁.within_all haccepted
  have hrun : (raising (note (.body via name params vs) >>= fun _ => body vs)).outcome w₂ =
      (raising (note (.body via name params vs) >>= fun _ => body' vs)).outcome w₂ :=
    outcome_raising_congr (outcome_bind_congr fun _ w' _ => h vs htyped w')
  -- The results are converted alike.
  have hcases := outcome_bind (raising (note (.body via name params vs) >>= fun _ => body vs))
    (fun results => toScriptAll via results) w₂
  rw [hrun] at hcases
  exact hcases.trans (outcome_bind _ _ w₂).symm

end Calls

end Act

/-- What code may run for a call with the given arguments: a script body with the very arguments, a
body of the host with arguments of the types that its own declaration lists. -/
inductive Code.MayRun (args : List ScriptValue) : Code → Side → Program → Prop where
  | script (body : Program) : MayRun args (.script body) (.script args) body
  | host {via : BindingRef} {f : HostFunction} {vs : List HostValue}
      (h : List.Forall₂ HostValue.HasType vs f.params) :
      MayRun args (.host via f) (.host via none vs) f.body
  | method {via : BindingRef} {t : Target} {m : Method} {vs : List HostValue}
      (receiver : Option ObjectRef) (h : List.Forall₂ HostValue.HasType vs m.params) :
      MayRun args (.method via t m) (.host via receiver vs) m.body

namespace Act

/-- **A call runs nothing else**: two ways of running bodies that agree on what a function may run
give the same outcome for every call of it. -/
theorem invokeCode_congr {run run' : Runner} {b : Bool} {f : FunctionRef} {args : List ScriptValue}
    {w : World}
    (h : ∀ side p, (w.function f).code.MayRun args side p → run ⟨b, side⟩ p = run' ⟨b, side⟩ p) :
    (invokeCode run b f args).outcome w = (invokeCode run' b f args).outcome w := by
  rw [outcome_invokeCode, outcome_invokeCode]
  cases hcode : (w.function f).code with
  | script body =>
    rw [hcode] at h
    simp only [runScriptBody, h _ _ (.script body)]
  | host via hf =>
    rw [hcode] at h
    refine runHostCode_congr (fun vs hvs v => ?_) w
    simp only [runHostBody, h _ _ (.host hvs)]
  | method via t m =>
    rw [hcode] at h
    -- A method is reached and its arguments are accepted before its body can make a difference.
    refine outcome_bind_congr fun t' w₁ _ => outcome_holding_congr fun v => ?_
    refine outcome_bind_congr fun rest w₂ _ => runHostCode_congr (fun vs hvs v => ?_) w₂
    refine outcome_bind_congr fun receiver w₃ _ => ?_
    simp only [runHostBody, h _ _ (.method receiver hvs)]

end Act

/-! ### Sessions -/

/-- **Effects keep the journal typed.** -/
theorem Effects.typed {l : License} {b : Bool} {w w' : World} (h : Effects l b w w')
    (hw : ∀ e ∈ w.journal, e.Typed) : ∀ e ∈ w'.journal, e.Typed := by
  induction h with
  | trans _ _ ih ih' => exact ih' (ih hw)
  | hold _ _ ih | lent _ _ _ _ ih => exact ih hw
  | started w e _ ht _ => exact List.forall_mem_cons.mpr ⟨ht, hw⟩
  -- The other events hand over no values.
  | cached | wrapped | refused => exact List.forall_mem_cons.mpr ⟨trivial, hw⟩
  | called _ _ _ ih | resumed _ _ _ ih =>
    exact List.forall_mem_cons.mpr ⟨trivial, ih (List.forall_mem_cons.mpr ⟨trivial, hw⟩)⟩
  | _ => exact hw

/-- **The typed boundary.** Whatever a conversion gives inhabits the type that was asked for. In
every session, every body of a host function or a method is started with as many arguments as there
are parameters, each of the type of its parameter, and every setter with a value of the type of its
member. The parameters are those of the function that is called: no call of it depends on what its
body does with other arguments. -/
theorem typed_boundary :
    (∀ (w w' : World) via t v h, (Act.toHost via t v).outcome w = (.ok h, w') → h.HasType t) ∧
    (∀ (c : Config) layout (ops : Program), ∀ e ∈ ((World.start c layout).after ops).journal,
      e.Typed) ∧
    ∀ (run run' : Runner) b f args (w : World),
      (∀ side p, (w.function f).code.MayRun args side p → run ⟨b, side⟩ p = run' ⟨b, side⟩ p) →
      (Act.invokeCode run b f args).outcome w = (Act.invokeCode run' b f args).outcome w := by
  refine ⟨fun w w' via t v h => Act.toHost_hasType, fun c layout ops => ?_,
    fun run run' b f args w => Act.invokeCode_congr⟩
  have hstep : ∀ (w : World) (op : Op), w.Within .all → op.within .all true = true →
      (∀ e ∈ w.journal, e.Typed) → ∀ e ∈ (w.step op).2.journal, e.Typed :=
    fun w op hw hop htyped => (World.step_effects hw hop).typed htyped
  have hstart : ∀ e ∈ (World.start c layout).journal, e.Typed := fun e he => nomatch he
  exact (World.after_induction hstep (Op.allWithin_all true ops) (World.within_all _) hstart).2

/-- A host function that wants a small integer and perhaps a text. -/
def taking : HostFunction := ⟨"take", [.integer ⟨true, .w8⟩, .nullable .string], []⟩

/-- It is called with an integer only. -/
def typedSession : Program :=
  let quietly : Disposition := ⟨none, some "failure", false, false⟩
  [.hostFunction quietly "take" [.plain (.integer ⟨true, .w8⟩), .nullable (.plain .string)] .global
      [],
    .act quietly (.call (.call (.global "take") (.list [.integer 5])))]

/-- A way of running bodies that fails for a body without arguments. -/
def wantsArguments : Runner := fun s _ =>
  match s.side with
  | .host _ _ [] => throw (.failed (.host "no arguments"))
  | _ => pure none

/-- In this session the body is started with the integer and null, which are of the types that were
declared. The integer alone converts too, and no call of the function meets a body without
arguments. -/
theorem typed_boundary_typedSession :
    let w := World.start .default fun r => r.index
    (w.after typedSession).journal.any (fun
      | .body _ name _ [.int i, .null] => name == "take" && i == 5
      | _ => false) = true ∧
    (∀ e ∈ (w.after typedSession).journal, e.Typed) ∧
    (HostValue.int 5).HasType (.integer ⟨true, .w8⟩) ∧
    ∀ args, (Act.invokeCode wantsArguments false ⟨0⟩ args).outcome
        { w with functions := w.functions.push ⟨"take", .host, .host ⟨0⟩ taking⟩ } =
      (Act.invokeCode (fun _ _ => pure none) false ⟨0⟩ args).outcome
        { w with functions := w.functions.push ⟨"take", .host, .host ⟨0⟩ taking⟩ } := by
  obtain ⟨hconverted, hjournal, hcalls⟩ := typed_boundary
  refine ⟨by decide +kernel, hjournal .default _ typedSession, ?_, fun args => ?_⟩
  · exact hconverted (.start .default fun r => r.index) _ ⟨0⟩ _ (.integer 5) _ rfl
  · refine hcalls _ _ _ _ args _ fun side p hrun => ?_
    have hcode : Code.MayRun args (.host ⟨0⟩ taking) side p := hrun
    cases hcode with
    -- A body of the function has two arguments, so it is not the one that fails.
    | host hvs =>
      cases hvs with
      | cons _ _ => rfl

end ScriptHost
