import ScriptHost.Proofs.Carrier
import ScriptHost.Proofs.Conversion.Started

/-!
# Dispatch of host calls

A call of host code outside of coroutines counts its arguments, converts them from left to right,
starts the body once with what they convert to, and converts what the body gives. `Converts` is the
conversion of some arguments, one after another, where each value is held while the rest is
converted, and `Delivers` the same for results. Either all arguments convert or there is a first one
that does not (`converts_or_fails`), and which it is settles the rest.

`Dispatched` describes the outcome of a call in terms of both, for an arbitrary body. Main statements:
`runHostCode_dispatched` for host code of every kind, and `host_function_dispatch` for the functions
that a bridge makes.
-/

set_option autoImplicit false

namespace ScriptHost

open Act

/-! ### Arguments in their positions -/

/-- Every parameter type with its argument, nil where there is none. -/
def positions : List HostType → List ScriptValue → List (HostType × ScriptValue)
  | [], _ => []
  | t :: ts, args => (t, args.headD .nil) :: positions ts args.tail

/-- There is a position for each parameter. -/
theorem length_positions (ts : List HostType) (args : List ScriptValue) :
    (positions ts args).length = ts.length := by
  induction ts generalizing args with
  | nil => rfl
  | cons t ts ih => exact congrArg Nat.succ (ih args.tail)

/-! ### Conversion from left to right -/

/-- Arguments that convert, one after another, to these values. Every value is held from then on. -/
inductive Converts (via : BindingRef) :
    World → List (HostType × ScriptValue) → List HostValue → World → Prop where
  | nil (w : World) : Converts via w [] [] w
  | cons {w w₁ w₂ : World} {t : HostType} {v : ScriptValue} {x : HostValue}
      {rest : List (HostType × ScriptValue)} {xs : List HostValue}
      (hv : (toHost via t v).outcome w = (.ok x, w₁))
      (hrest : Converts via { w₁ with held := handles x ++ w₁.held } rest xs w₂) :
      Converts via w ((t, v) :: rest) (x :: xs) w₂

section Converts

variable {via : BindingRef} {w w' : World} {ps : List (HostType × ScriptValue)}
  {xs : List HostValue}

/-- **Either all arguments convert, or a first one does not.** -/
theorem converts_or_fails (via : BindingRef) (w : World) (ps : List (HostType × ScriptValue)) :
    (∃ xs w', Converts via w ps xs w') ∨
      ∃ pre t v post xs w₁ e w₂, ps = pre ++ (t, v) :: post ∧ Converts via w pre xs w₁ ∧
        (toHost via t v).outcome w₁ = (.error e, w₂) := by
  induction ps generalizing w with
  | nil => exact .inl ⟨[], w, .nil w⟩
  | cons p rest ih =>
    obtain ⟨t, v⟩ := p
    rcases hv : (toHost via t v).outcome w with ⟨e | x, w₁⟩
    -- The first position fails, with nothing before it.
    · exact .inr ⟨[], t, v, rest, [], w, e, w₁, rfl, .nil w, hv⟩
    -- It does not, so it is one of the positions before the one that fails, or all of them convert.
    · rcases ih { w₁ with held := handles x ++ w₁.held } with hall | hfails
      · obtain ⟨xs, w', hrest⟩ := hall
        exact .inl ⟨x :: xs, w', .cons hv hrest⟩
      · obtain ⟨pre, t', v', post, xs, w₂, e, w₃, rfl, hpre, hv'⟩ := hfails
        exact .inr ⟨(t, v) :: pre, t', v', post, x :: xs, w₂, e, w₃, rfl, .cons hv hpre, hv'⟩

/-- As many values come of it as there are positions. -/
theorem Converts.length_eq (h : Converts via w ps xs w') : xs.length = ps.length := by
  induction h with
  | nil => rfl
  | cons _ _ ih => exact congrArg Nat.succ ih

/-- Conversions fill new objects only. -/
theorem Converts.fills (h : Converts via w ps xs w') {n : Nat} (hn : n ≤ w.objects.size) :
    w.Fills n { w' with held := w.held } := by
  induction h with
  | nil => exact .refl _
  | @cons w w₁ w₂ t v x rest xs hv hrest ih =>
    have hfirst := toHost_fills hv
    have hothers := (ih (Nat.le_trans hn hfirst.size_le)).held w.held
    -- What the first conversion left holds what the world held before.
    have hsame : ({ w₁ with held := w.held } : World) = w₁ := by rw [← toHost_held hv]
    exact (hfirst.mono hn).trans (hsame ▸ hothers)

/-- Up to the first argument that does not convert only constructors and setters are started. -/
theorem Converts.starts_until {t : HostType} {v : ScriptValue} {e : ConversionError} {w₂ : World}
    (h : Converts via w ps xs w') (hv : (toHost via t v).outcome w' = (.error e, w₂)) :
    ∃ es, w.Starts es w₂ ∧ ∀ e ∈ es, e.isFilling = true := by
  obtain ⟨es, hes, hfilling⟩ := (h.fills (Nat.le_refl _)).starts
  obtain ⟨es', hes', hfilling'⟩ := (toHost_fills hv).starts
  refine ⟨es' ++ es, World.Starts.trans hes hes', fun e he => ?_⟩
  exact (List.mem_append.mp he).elim (hfilling' e) (hfilling e)

/-- Arguments that convert are accepted. -/
theorem Converts.outcome_acceptEach {ts : List HostType} {args : List ScriptValue}
    (h : Converts via w (positions ts args) xs w') :
    (acceptEach via ts args).outcome w = (.ok xs, { w' with held := w.held }) := by
  induction ts generalizing args w xs with
  | nil =>
    cases h
    rfl
  | cons t ts ih =>
    cases h with
    | @cons _ w₁ _ _ _ x _ xs hv hrest =>
      -- The position is converted in the same world, and only the error would be put in other words.
      have hfirst : (converting (toHost via t (args.headD .nil))).outcome w = (.ok x, w₁) := by
        unfold converting
        rw [outcome_mapError, hv]
      have hothers : (holding (handles x) (acceptEach via ts args.tail)).outcome w₁ =
          (.ok xs, { w' with held := w₁.held }) := by
        rw [outcome_holding, ih hrest]
      unfold acceptEach
      rw [outcome_bind_ok hfirst, outcome_bind_ok hothers, toHost_held hv]
      rfl

/-- The first argument that does not convert is the failure, whatever comes after it. -/
theorem Converts.outcome_acceptEach_error {ts : List HostType} {args : List ScriptValue}
    {pre post : List (HostType × ScriptValue)} {t : HostType} {v : ScriptValue}
    {e : ConversionError} {w₁ w₂ : World} (hpos : positions ts args = pre ++ (t, v) :: post)
    (hpre : Converts via w pre xs w₁) (hv : (toHost via t v).outcome w₁ = (.error e, w₂)) :
    (acceptEach via ts args).outcome w = (.error (.conversion e), { w₂ with held := w.held }) := by
  -- Along what converted before; the types and arguments are used up with it.
  induction hpre generalizing ts args with
  | nil w =>
    cases ts with
    | nil => cases hpos
    | cons t' ts =>
      obtain ⟨hfirst, -⟩ := List.cons.inj hpos
      obtain ⟨rfl, rfl⟩ := Prod.mk.inj hfirst
      have hfails : (converting (toHost via t' (args.headD .nil))).outcome w =
          (.error (.conversion e), w₂) := by
        unfold converting
        rw [outcome_mapError, hv]
      unfold acceptEach
      rw [outcome_bind_error hfails, ← toHost_held hv]
  | @cons w w₀ w₁ t₀ v₀ x rest xs hv₀ hrest ih =>
    cases ts with
    | nil => cases hpos
    | cons t' ts =>
      obtain ⟨hfirst, hothers⟩ := List.cons.inj hpos
      obtain ⟨rfl, rfl⟩ := Prod.mk.inj hfirst
      have hdone : (converting (toHost via t' (args.headD .nil))).outcome w = (.ok x, w₀) := by
        unfold converting
        rw [outcome_mapError, hv₀]
      have hfails : (holding (handles x) (acceptEach via ts args.tail)).outcome w₀ =
          (.error (.conversion e), { w₂ with held := w₀.held }) := by
        rw [outcome_holding, ih hothers hv]
      unfold acceptEach
      rw [outcome_bind_ok hdone, outcome_bind_error hfails, toHost_held hv₀]

end Converts

/-! ### Results -/

/-- Results that go into script, one after another. What is still to be converted is held, and what
has been converted is held from then on. -/
inductive Delivers (via : BindingRef) :
    World → List HostValue → List ScriptValue → World → Prop where
  | nil (w : World) : Delivers via w [] [] w
  | cons {w w₁ w₂ : World} {x : HostValue} {v : ScriptValue} {xs : List HostValue}
      {vs : List ScriptValue}
      (hx : (toScript via x : Act ScriptError ScriptValue).outcome
        { w with held := HostValue.heldAll (x :: xs) ++ w.held } = (.ok v, w₁))
      (hrest : Delivers via { w₁ with held := handles v ++ w.held } xs vs w₂) :
      Delivers via w (x :: xs) (v :: vs) w₂

section Delivers

variable {via : BindingRef} {w w' : World} {xs : List HostValue} {vs : List ScriptValue}

/-- As many results are delivered as there are. -/
theorem Delivers.length_eq (h : Delivers via w xs vs w') : vs.length = xs.length := by
  induction h with
  | nil => rfl
  | cons _ _ ih => exact congrArg Nat.succ ih

/-- **All results are delivered**, and to convert them starts nothing. -/
theorem delivers (via : BindingRef) (w : World) (xs : List HostValue) :
    ∃ vs w', Delivers via w xs vs w' ∧ w.Starts [] w' ∧
      (toScriptAll via xs : Act ScriptError _).outcome w = (.ok vs, { w' with held := w.held }) := by
  induction xs generalizing w with
  | nil => exact ⟨[], w, .nil w, .refl w, rfl⟩
  | cons x xs ih =>
    obtain ⟨v, w₁, hx, -⟩ := toScript_ok (ε := ScriptError) via x
      { w with held := HostValue.heldAll (x :: xs) ++ w.held }
    obtain ⟨vs, w₂, hvs, hstarts, hout⟩ := ih { w₁ with held := handles v ++ w.held }
    have hfirst := toScript_starts hx
    refine ⟨v :: vs, w₂, .cons hx hvs, World.Starts.quiet hfirst hstarts, ?_⟩
    -- What is pending begins with what this result holds.
    have hpending : (HostValue.heldAll (x :: xs)).drop (HostValue.held x).length =
        HostValue.heldAll xs := List.drop_left
    have hone : (holding (HostValue.heldAll (x :: xs)) (toScript via x) : Act ScriptError _).outcome w
        = (.ok v, { w₁ with held := w.held }) := by
      rw [outcome_holding, hx]
    have hothers : (holding (handles v) (toScriptEach via xs (HostValue.heldAll xs)) :
        Act ScriptError _).outcome { w₁ with held := w.held } =
        (.ok vs, { w₂ with held := w.held }) := by
      unfold toScriptAll at hout
      rw [outcome_holding, hout]
    unfold toScriptAll toScriptEach
    rw [outcome_bind_ok hone, hpending, outcome_bind_ok hothers]
    rfl

end Delivers

/-! ### The call -/

/-- The outcome of a call of host code in a world, outside of coroutines. -/
structure Dispatched (via : BindingRef) (name : String) (params : List HostType)
    (args : List ScriptValue) (body : List HostValue → Act HostFailure (List HostValue))
    (w : World) (out : Except ScriptError (List ScriptValue) × World) : Prop where
  /-- Too many arguments: how many were expected and given is raised, and nothing was started. -/
  surplus : params.length < args.length →
    out = (raising (throw (.binding (.argumentCount name params.length args.length)))).outcome w ∧
    w.Starts [] out.2
  /-- Otherwise all arguments convert, or a first one does not. -/
  settled : args.length ≤ params.length →
    let w₀ : World := { w with held := handles args ++ w.held }
    (∃ xs w₁, Converts via w₀ (positions params args) xs w₁) ∨
      ∃ pre t v post xs w₁ e w₂, positions params args = pre ++ (t, v) :: post ∧
        Converts via w₀ pre xs w₁ ∧ (toHost via t v).outcome w₁ = (.error e, w₂)
  /-- The first argument that does not convert: its failure is raised, and nothing was started but
  constructors and setters, by the conversions. -/
  unconverted : args.length ≤ params.length → ∀ pre t v post xs w₁ e w₂,
    positions params args = pre ++ (t, v) :: post →
    Converts via { w with held := handles args ++ w.held } pre xs w₁ →
    (toHost via t v).outcome w₁ = (.error e, w₂) →
    out = (raising (throw (.conversion e))).outcome { w₂ with held := w.held } ∧
    ∃ es, w.Starts es out.2 ∧ ∀ e ∈ es, e.isFilling = true
  /-- All arguments convert: the body is started once, with one value for each parameter, where
  conversions have filled new objects only. If it fails, its failure is raised; what it gives is
  delivered otherwise, one value for each. Neither starts anything more. -/
  answered : args.length ≤ params.length → ∀ xs w₁,
    Converts via { w with held := handles args ++ w.held } (positions params args) xs w₁ →
    let w₂ : World := { w₁ with held := w.held }
    let run := (body xs).outcome (w₂.noted (.body via name params xs))
    xs.length = params.length ∧ w.Fills w.objects.size w₂ ∧
    (∀ e w₃, run = (.error e, w₃) →
      out = (raising (throw e)).outcome w₃ ∧ w₃.Starts [] out.2) ∧
    ∀ ys w₃, run = (.ok ys, w₃) → ∃ vs w₄, Delivers via w₃ ys vs w₄ ∧
      out = (.ok vs, { w₄ with held := w₃.held }) ∧ vs.length = ys.length ∧ w₃.Starts [] out.2

namespace Act

variable {α β : Type}

/-- What a failure becomes on the script side is the same wherever it comes from. -/
theorem outcome_raising_error {m : Act HostFailure α} {f : α → Act ScriptError β} {e : HostFailure}
    {w w' : World} (h : m.outcome w = (.error e, w')) :
    (raising m >>= f).outcome w = (raising (throw e : Act HostFailure β)).outcome w' := by
  have hthrow {γ : Type} : (throw e : Act HostFailure γ).outcome w' = (.error e, w') := rfl
  cases hs : e.isScript with
  -- A failure that is no script error is wrapped the same way in both.
  | false =>
    rw [outcome_raising_carried hthrow hs]
    exact outcome_bind_error (outcome_raising_carried h hs)
  -- A script error goes on as it is.
  | true =>
    cases e with
    | script x =>
      rw [outcome_raising_script hthrow]
      exact outcome_bind_error (outcome_raising_script h)
    | _ => cases hs

/-- Raising a failure starts nothing. -/
theorem raising_throw_starts (e : HostFailure) (w : World) :
    w.Starts [] ((raising (throw e : Act HostFailure α)).outcome w).2 := by
  have hthrow : (throw e : Act HostFailure α).outcome w = (.error e, w) := rfl
  cases hs : e.isScript with
  | false =>
    rw [outcome_raising_carried hthrow hs]
    exact .of_journal_eq rfl
  | true =>
    cases e with
    | script x =>
      rw [outcome_raising_script hthrow]
      exact .refl w
    | _ => cases hs

end Act

section Dispatch

variable {via : BindingRef} {name : String} {params : List HostType} {args : List ScriptValue}
  {body : List HostValue → Act HostFailure (List HostValue)} {w : World}

/-- Outside of coroutines the guard lets everything pass. -/
theorem outcome_runHostCode (w : World) :
    (runHostCode false via name params args body).outcome w = (do
      let xs ← raising (holding (handles args) (acceptArgs via name params args))
      let ys ← raising do
        note (.body via name params xs)
        body xs
      toScriptAll via ys).outcome w := by
  have hguard : (raising (guard false name)).outcome w = (.ok (), w) := rfl
  unfold runHostCode
  rw [outcome_bind_ok hguard]

/-- Arguments that are not accepted are all there is to the call. -/
theorem outcome_runHostCode_rejected {e : HostFailure} {w₁ : World}
    (h : (acceptArgs via name params args).outcome { w with held := handles args ++ w.held } =
      (.error e, w₁)) :
    (runHostCode false via name params args body).outcome w =
      (raising (throw e)).outcome { w₁ with held := w.held } := by
  have hheld : (holding (handles args) (acceptArgs via name params args)).outcome w =
      (.error e, { w₁ with held := w.held }) := by
    rw [outcome_holding, h]
  rw [outcome_runHostCode]
  exact outcome_raising_error hheld

/-- With arguments that are accepted the body runs. -/
theorem outcome_runHostCode_accepted {xs : List HostValue} {w₁ : World}
    (h : (acceptArgs via name params args).outcome { w with held := handles args ++ w.held } =
      (.ok xs, w₁)) :
    (runHostCode false via name params args body).outcome w = (do
      let ys ← raising do
        note (.body via name params xs)
        body xs
      toScriptAll via ys).outcome { w₁ with held := w.held } := by
  have hheld : (holding (handles args) (acceptArgs via name params args)).outcome w =
      (.ok xs, { w₁ with held := w.held }) := by
    rw [outcome_holding, h]
  rw [outcome_runHostCode, outcome_bind_ok (outcome_raising_ok hheld)]

/-- **Host code is dispatched**, whatever its body does. -/
theorem runHostCode_dispatched (via : BindingRef) (name : String) (params : List HostType)
    (args : List ScriptValue) (body : List HostValue → Act HostFailure (List HostValue))
    (w : World) :
    Dispatched via name params args body w
      ((runHostCode false via name params args body).outcome w) where
  surplus hmore := by
    -- More arguments than parameters are rejected before anything is converted.
    have hrejected : (acceptArgs via name params args).outcome
        { w with held := handles args ++ w.held } =
        (.error (.binding (.argumentCount name params.length args.length)),
          { w with held := handles args ++ w.held }) := by
      unfold acceptArgs
      rw [if_pos hmore]
      rfl
    rw [outcome_runHostCode_rejected hrejected]
    exact ⟨rfl, raising_throw_starts _ w⟩
  settled _ := converts_or_fails via _ _
  unconverted hcount pre t v post xs w₁ e w₂ hpos hpre hv := by
    -- A position that fails is told as it is, and what was converted before it may have started
    -- constructors and setters.
    have hrejected : (acceptArgs via name params args).outcome
        { w with held := handles args ++ w.held } =
        (.error (.conversion e), { w₂ with held := handles args ++ w.held }) := by
      unfold acceptArgs
      rw [if_neg (Nat.not_lt.mpr hcount), Converts.outcome_acceptEach_error hpos hpre hv]
    rw [outcome_runHostCode_rejected hrejected]
    obtain ⟨es, hes, hfilling⟩ := hpre.starts_until hv
    exact ⟨rfl, es, World.Starts.quiet hes (raising_throw_starts _ _), hfilling⟩
  answered hcount xs w₁ hxs := by
    intro w₂ run
    -- Otherwise the body gets one value for each parameter, and its results are delivered.
    have haccepted : (acceptArgs via name params args).outcome
        { w with held := handles args ++ w.held } =
        (.ok xs, { w₁ with held := handles args ++ w.held }) := by
      unfold acceptArgs
      rw [if_neg (Nat.not_lt.mpr hcount), hxs.outcome_acceptEach]
    have hlength : xs.length = params.length := hxs.length_eq.trans (length_positions params args)
    have hfills : w.Fills w.objects.size w₂ := (hxs.fills (Nat.le_refl _)).held w.held
    refine ⟨hlength, hfills, fun e w₃ hrun => ?_, fun ys w₃ hrun => ?_⟩
    · have hbody : (do note (.body via name params xs); body xs).outcome w₂ = (.error e, w₃) := hrun
      rw [outcome_runHostCode_accepted haccepted, outcome_raising_error hbody]
      exact ⟨rfl, raising_throw_starts e w₃⟩
    · have hbody : (do note (.body via name params xs); body xs).outcome w₂ = (.ok ys, w₃) := hrun
      obtain ⟨vs, w₄, hdelivers, hstarts, hout⟩ := delivers via w₃ ys
      rw [outcome_runHostCode_accepted haccepted, outcome_bind_ok (outcome_raising_ok hbody), hout]
      exact ⟨vs, w₄, hdelivers, rfl, hdelivers.length_eq, hstarts⟩

end Dispatch

/-- **Host calls are dispatched.** Outside of coroutines the arguments are counted, converted from left
to right with nil for the missing ones, and handed to the body, which is started once where all of
them convert and not at all otherwise; what it gives is converted value by value. This holds of host
code with any body, and a call of a function that was made from a host function runs just that inside
its frame. -/
theorem host_function_dispatch :
    (∀ via name params args body w, Dispatched via name params args body w
      ((runHostCode false via name params args body).outcome w)) ∧
    ∀ (w : World) f via (h : HostFunction) args k, (w.function f).code = .host via h →
      let body := runHostBody (Op.runAll (callWithin k)) false via none h.body
      ∃ out, Dispatched via h.name h.params args body (w.entered false f) out ∧
        (callWithin (k + 1) false f args).outcome w = (out.1, out.2.left f) := by
  refine ⟨runHostCode_dispatched, fun w f via h args k hcode => ?_⟩
  intro body
  refine ⟨_, runHostCode_dispatched via h.name h.params args body (w.entered false f), ?_⟩
  have hcode' : ((w.entered false f).function f).code = .host via h := hcode
  unfold callWithin
  rw [outcome_framed, outcome_invokeCode, hcode']

namespace Dispatch

/-- Gives its two arguments back. -/
def pair : HostFunction := ⟨"pair", [.string, .bool], [.giveHost ⟨none, none, false, true⟩ .allArgs]⟩

/-- A world with this function. -/
def office : World :=
  { World.start .default fun r => r.index with
    functions := Store.empty.push ⟨"pair", .host, .host ⟨0⟩ pair⟩ }

/-- What the call comes to. -/
def call (args : List ScriptValue) : Except ScriptError (List ScriptValue) × World :=
  (callWithin 6 false ⟨0⟩ args).outcome office

/-- What a failure is raised as where the call begins. -/
def raised (e : HostFailure) : Except ScriptError (List ScriptValue) :=
  ((raising (throw e)).outcome (office.entered false ⟨0⟩)).1

end Dispatch

open Dispatch in
/-- Three arguments are one too many, one is not enough because the second parameter takes no nil, and
two come back as they are. -/
theorem host_function_dispatch_pair :
    (call [.nil, .nil, .nil]).1 = raised (.binding (.argumentCount "pair" 2 3)) ∧
    (call [.string "a"]).1 = raised (.conversion (.nilToNonNullable "bool")) ∧
    (call [.string "a", .boolean true]).1 = .ok [.string "a", .boolean true] := by
  have hcalls (args : List ScriptValue) :=
    host_function_dispatch.2 office ⟨0⟩ ⟨0⟩ pair args 5 rfl
  refine ⟨?_, ?_, ?_⟩
  · obtain ⟨out, hout, hcall⟩ := hcalls [.nil, .nil, .nil]
    have hsurplus := (hout.surplus (by decide)).1
    rw [call, hcall, hsurplus]
    rfl
  · obtain ⟨out, hout, hcall⟩ := hcalls [.string "a"]
    have hfirst : Converts ⟨0⟩ (office.entered false ⟨0⟩) [(.string, .string "a")] [.string "a"]
      (office.entered false ⟨0⟩) := .cons rfl (.nil _)
    have hunconverted := (hout.unconverted (by decide) [(.string, .string "a")] .bool .nil [] _ _
      (.nilToNonNullable "bool") _ rfl hfirst rfl).1
    rw [call, hcall, hunconverted]
    rfl
  · obtain ⟨out, hout, hcall⟩ := hcalls [.string "a", .boolean true]
    have hboth : Converts ⟨0⟩ (office.entered false ⟨0⟩)
        [(.string, .string "a"), (.bool, .boolean true)] [.string "a", .bool true]
        (office.entered false ⟨0⟩) := .cons rfl (.cons rfl (.nil _))
    obtain ⟨-, -, -, hgiven⟩ := hout.answered (by decide) _ _ hboth
    obtain ⟨vs, w₄, hdelivers, hanswer, -, -⟩ := hgiven [.string "a", .bool true] _ rfl
    rw [call, hcall, hanswer]
    -- Each result is delivered as the script value that it is.
    obtain _ | ⟨hx, _ | ⟨hy, ⟨⟩⟩⟩ := hdelivers
    unfold toScript at hx hy
    cases hx
    cases hy
    rfl

end ScriptHost
