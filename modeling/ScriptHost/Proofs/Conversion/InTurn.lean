import ScriptHost.Proofs.Conversion.Stable
import ScriptHost.Proofs.Conversion.Started

/-!
# Elements in turn

A table becomes an array by converting the values of its sequence part in turn, up to the first one that
does not convert. `InTurn` says of some values that they convert one after another, each in the world that
the last one left; either all of them do or there is a first one that does not (`inTurn_or_stops`).

`ArrayAnswer` is how a conversion to an array comes out: with all elements in their order, or with the
place, the kind and the natural type of the first that does not convert. `toHost_arrayAnswer` says that it
comes out like that and nothing else has a say in it.
-/

set_option autoImplicit false

namespace ScriptHost

namespace Act

variable {via : BindingRef} {element : HostType} {w w₁ w₂ w' : World} {vs pre post : List ScriptValue}
  {v : ScriptValue} {x : HostValue} {xs : List HostValue} {e : ConversionError}

/-- **Values that convert in turn**, each in the world that the last one left. -/
inductive InTurn (via : BindingRef) (element : HostType) :
    World → List ScriptValue → List HostValue → World → Prop
  | nil (w : World) : InTurn via element w [] [] w
  | cons {w w₁ w₂ : World} {v : ScriptValue} {x : HostValue} {vs : List ScriptValue}
      {xs : List HostValue} (hv : (toHost via element v).outcome w = (.ok x, w₁))
      (hrest : InTurn via element w₁ vs xs w₂) : InTurn via element w (v :: vs) (x :: xs) w₂

/-- **Either all values convert in turn, or a first one does not.** -/
theorem inTurn_or_stops (via : BindingRef) (element : HostType) (w : World) (vs : List ScriptValue) :
    (∃ xs w', InTurn via element w vs xs w') ∨
      ∃ pre v post xs w₁ e w₂, vs = pre ++ v :: post ∧ InTurn via element w pre xs w₁ ∧
        (toHost via element v).outcome w₁ = (.error e, w₂) := by
  induction vs generalizing w with
  | nil => exact .inl ⟨[], w, .nil w⟩
  | cons v vs ih =>
    rcases hv : (toHost via element v).outcome w with ⟨e | x, w₁⟩
    · exact .inr ⟨[], v, vs, [], w, e, w₁, rfl, .nil w, hv⟩
    · rcases ih w₁ with ⟨xs, w', hall⟩ | ⟨pre, v', post, xs, w₂, e, w₃, rfl, hpre, hv'⟩
      · exact .inl ⟨x :: xs, w', .cons hv hall⟩
      · exact .inr ⟨v :: pre, v', post, x :: xs, w₂, e, w₃, rfl, .cons hv hpre, hv'⟩

/-- Conversions define no classes. -/
theorem toHost_classes (hv : (toHost via element v).outcome w = (.ok x, w')) :
    w'.classes = w.classes := by
  rw [(toHost_fills hv).rest]

/-- The conversion of elements, when objects can nest as many classes deep as there are. -/
def elementsFrom (via : BindingRef) (element : HostType) (n : Nat) (vs : List ScriptValue) (i : Nat) :
    Act ConversionError (List HostValue) :=
  convertItems (convertWith (buildUpTo via n) element) (.array element) element vs i

/-- An array is converted by converting the items of the sequence one after another, from the first one
on. -/
theorem outcome_toHost_array (via : BindingRef) (element : HostType) (r : TableRef) (w : World) :
    (toHost via (.array element) (.table r)).outcome w =
      (elementsFrom via element w.classes.size (w.table r).sequence 1 >>= fun xs =>
        pure (.array xs)).outcome w := by
  rw [outcome_toHost]
  unfold convertWith
  exact outcome_bind_ok (outcome_look _ w)

/-- Elements that convert in turn are given in this order. -/
theorem InTurn.outcome_elements (h : InTurn via element w vs xs w') (i : Nat) :
    (elementsFrom via element w.classes.size vs i).outcome w = (.ok xs, w') := by
  induction h generalizing i with
  | nil => rfl
  | @cons w w₁ w₂ v x vs xs hv _ ih =>
    -- The bound on the depth is that of the first world, which has the same classes.
    have hrest := ih (i + 1)
    rw [toHost_classes hv] at hrest
    rw [outcome_toHost] at hv
    unfold elementsFrom convertItems
    rw [outcome_bind, outcome_mapError, hv]
    dsimp only
    exact outcome_bind_ok hrest

/-- **The first element that does not convert is told**, whatever comes later. -/
theorem InTurn.outcome_elements_error (h : InTurn via element w pre xs w₁)
    (hv : (toHost via element v).outcome w₁ = (.error e, w₂)) (post : List ScriptValue) (i : Nat) :
    (elementsFrom via element w.classes.size (pre ++ v :: post) i).outcome w =
      (.error (.arrayElement (HostType.array element).name (i + pre.length) v.kind (w₂.naturalType v)
        element.name), w₂) := by
  -- The items before it are converted one by one, and each one moves the count on.
  induction h generalizing i with
  | nil w =>
    rw [outcome_toHost] at hv
    unfold elementsFrom
    rw [List.nil_append]
    unfold convertItems
    rw [outcome_bind, outcome_mapError, hv]
    rfl
  | @cons w w₁ w₂ v' x vs xs hfirst _ ih =>
    have hrest := ih hv (i + 1)
    rw [toHost_classes hfirst] at hrest
    rw [outcome_toHost] at hfirst
    unfold elementsFrom
    rw [List.cons_append]
    unfold convertItems
    rw [outcome_bind, outcome_mapError, hfirst]
    dsimp only
    refine (outcome_bind_error hrest).trans ?_
    rw [List.length_cons, Nat.add_assoc, Nat.add_comm 1]

/-! ### How it comes out -/

/-- **How some values become an array**: as their conversions in order, or not at all because of the first
one that does not convert. -/
inductive ArrayAnswer (via : BindingRef) (element : HostType) (w : World) (vs : List ScriptValue) :
    Except ConversionError HostValue × World → Prop
  | all {xs : List HostValue} {w' : World} (h : InTurn via element w vs xs w') :
    ArrayAnswer via element w vs (.ok (.array xs), w')
  | stops {pre post : List ScriptValue} {v : ScriptValue} {xs : List HostValue} {w₁ w₂ : World}
      {e : ConversionError} (hvs : vs = pre ++ v :: post) (hpre : InTurn via element w pre xs w₁)
      (hv : (toHost via element v).outcome w₁ = (.error e, w₂)) :
    ArrayAnswer via element w vs (.error (.arrayElement (HostType.array element).name (pre.length + 1)
      v.kind (w₂.naturalType v) element.name), w₂)

/-- **A table becomes an array by converting its sequence part in turn.** -/
theorem toHost_arrayAnswer (via : BindingRef) (element : HostType) (r : TableRef) (w : World) :
    ArrayAnswer via element w (w.table r).sequence
      ((toHost via (.array element) (.table r)).outcome w) := by
  rw [outcome_toHost_array]
  rcases inTurn_or_stops via element w (w.table r).sequence with
    ⟨xs, w', hall⟩ | ⟨pre, v, post, xs, w₁, e, w₂, hvs, hpre, hv⟩
  · rw [outcome_bind_ok (hall.outcome_elements 1)]
    exact .all hall
  · rw [hvs, outcome_bind_error (hpre.outcome_elements_error hv post 1), Nat.add_comm 1]
    exact .stops rfl hpre hv

/-- **Nothing but the sequence part counts**: two tables with one sequence part become the same. -/
theorem toHost_array_congr {r s : TableRef} (h : (w.table r).sequence = (w.table s).sequence) :
    (toHost via (.array element) (.table r)).outcome w =
      (toHost via (.array element) (.table s)).outcome w := by
  rw [outcome_toHost_array, outcome_toHost_array, h]

end Act

end ScriptHost
