import ScriptHost.Proofs.Act.Effects
import ScriptHost.Proofs.Confinement.Program

/-!
# Access stays in one binding

What script can get at in a world is an inductive notion: `R.Reaches w held i` begins with the
globals, the variables and the values that script holds, and follows tables, functions, coroutines,
proxies and the members that the binding opens. `R.Encloses w held` says that all of it belongs to
the realm: every proxy and every host function among it is bound to the one binding, and what a
function was read from was permitted.

The least closed set is the one that is reached, so an enclosed world is confined, and in a confined
world nothing but the confining set is reached (`Encloses.confined`, `Confined.mem_of_reaches`).
Between the two lies the invariant, `Confined.after`, which follows from what one operation does.

Main statement: `access_stays_in_binding`.
-/

set_option autoImplicit false

namespace ScriptHost

namespace Realm

variable {R : Realm} {S : Set Item} {w : World} {held : List ScriptValue}

/-! ### What the binding lets script at -/

/-- **Admitted and permitted**: a member of the class that the visibility flags of the binding admit
and its policy permits. -/
def Permits (R : Realm) (w : World) (c : ClassRef) (onInstance : Bool) (m : Member) : Prop :=
  ∃ v, R.settings.visibility onInstance = some v ∧ m ∈ (w.cls c).members ∧
    v.admits m.isStatic m.isPublic = true ∧ R.settings.policy.permits (w.cls c) m = true

/-- What a key finds under the binding is admitted and permitted. -/
theorem Opens.permits {c : ClassRef} {onInstance : Bool} {m : Member}
    (h : R.Opens w c onInstance m) : R.Permits w c onInstance m := by
  obtain ⟨k, hk⟩ := h
  have hmember := Binding.mem_members_of_resolve hk
  unfold Binding.resolve at hk
  split at hk
  · cases hk
  · next v hv =>
    obtain ⟨hresolved, hpolicy⟩ := List.mem_filter.mp hk
    obtain ⟨-, hadmits⟩ := List.mem_filter.mp hresolved
    exact ⟨v, hv, hmember, hadmits, hpolicy⟩

/-- The function is script's own or bound to the binding, and a method of a permitted member. -/
def Callable (R : Realm) (w : World) (f : FunctionRef) : Prop :=
  match (w.function f).code with
  | .script _ => True
  | .host via _ => via = R.via
  | .method via t m => via = R.via ∧ R.Permits w t.cls t.isInstance (.method m)

/-- **What happened is bound to the binding**: no getter, no setter and no body was started but of a
permitted member or of a host function of the realm, and no object became a proxy elsewhere. -/
def Licenses (R : Realm) (w : World) : Event → Prop
  | .getter via c m | .setter via c m _ => via = R.via ∧ ∃ onInstance, R.Permits w c onInstance m
  | .body via name params _ => via = R.via ∧
    ((∃ h, R.functions h ∧ name = h.name ∧ params = h.params) ∨
      ∃ c onInstance m, R.Permits w c onInstance (.method m) ∧ name = c.name ++ "." ++ m.name ∧
        params = m.params)
  | .wrapped via _ _ => via = R.via
  | .called f _ => R.Callable w f
  | _ => True

/-! ### What script reaches -/

/-- **Reachability for script**: from the globals, from what bodies read from variables and from the
values that script holds, at any depth, through whatever the binding opens. -/
inductive Reaches (R : Realm) (w : World) (held : List ScriptValue) : Item → Prop where
  | globals : Reaches R w held (.table w.globals)
  | var {name : String} {s : Stored} {i : Item} (hs : (name, s) ∈ w.vars) (hi : i ∈ exposed s) :
    Reaches R w held i
  | held {i : Item} (hi : i ∈ exposed held) : Reaches R w held i
  /-- What a fresh instance gives, with the slots of the constructor or without any. -/
  | fresh {c : ClassRef} {slots : Slots} {m : Member} {v : HostValue} {i : Item}
    (hslots : slots = [] ∨ (w.cls c).constructor = some slots) (hm : R.Opens w c true m)
    (hv : m.given? slots = some v) (hi : i ∈ exposed v) : Reaches R w held i
  | entry {t : TableRef} {i : Item} (ht : Reaches R w held (.table t))
    (hi : i ∈ exposed (w.table t)) : Reaches R w held i
  | receiver {f : FunctionRef} {via : BindingRef} {t : Target} {m : Method}
    (hf : Reaches R w held (.function f)) (hcode : (w.function f).code = .method via t m) :
    Reaches R w held (.target t)
  | body {c : CoroutineRef} (hc : Reaches R w held (.coroutine c)) :
    Reaches R w held (.function (w.coroutine c).function)
  | target {u : UserdataRef} {p : Proxy} {t : Target} (hu : Reaches R w held (.userdata u))
    (hp : w.userdatum u = .proxy p) (ht : p.target = some t) : Reaches R w held (.target t)
  | carried {u : UserdataRef} {e : HostFailure} {i : Item} (hu : Reaches R w held (.userdata u))
    (he : w.userdatum u = .carrier e) (hi : i ∈ exposed e) : Reaches R w held i
  /-- A getter or a field of what a proxy stands for. -/
  | member {t : Target} {m : Member} {v : HostValue} {i : Item} (ht : Reaches R w held (.target t))
    (hm : R.Opens w t.cls t.isInstance m) (hv : m.given? (w.slotsOf t) = some v)
    (hi : i ∈ exposed v) : Reaches R w held i

/-- All that script reaches. -/
def reached (R : Realm) (w : World) (held : List ScriptValue) : Set Item :=
  {i | R.Reaches w held i}

/-- A variable that is read gives what is reached. -/
theorem inside_of_var? {name : String} {s : Stored} (h : w.var? name = some s) :
    Inside (R.reached w held) s := by
  obtain ⟨p, hp, rfl⟩ := Option.map_eq_some_iff.mp h
  exact fun i hi => .var (List.mem_of_find?_eq_some hp) hi

/-- **A confining set is closed**, so it contains all that is reached. -/
theorem Confined.mem_of_reaches (h : R.Confined S w) (hheld : Inside S held) {i : Item}
    (hi : R.Reaches w held i) : i ∈ S := by
  -- On how it is reached: the roots are inside, and each edge is a clause of confinement.
  induction hi with
  | globals => exact h.globals
  | var hs hi => exact h.vars _ hs _ hi
  | held hi => exact hheld _ hi
  | @fresh c slots m v i hslots hm hv hi =>
    have hclean : R.Clean S w c true slots := by
      rcases hslots with rfl | hslots
      · exact h.classes c
      · exact h.constructors c slots hslots
    exact (hclean m hm).1 v hv i hi
  | entry _ hi ih => exact h.table ih _ hi
  | receiver _ hcode ih =>
    obtain ⟨-, -, -, ht, -⟩ := (h.function ih).method hcode
    exact ht
  | body _ ih => exact h.coroutine ih
  | target _ hp ht ih =>
    have htied := h.userdatum ih
    rw [hp] at htied
    exact htied.2 _ ht
  | carried _ he hi ih =>
    have htied := h.userdatum ih
    rw [he] at htied
    exact htied _ hi
  | member _ hm hv hi ih => exact h.given ih hm hv _ hi

/-- The item is there. -/
def Present (R : Realm) (w : World) : Item → Prop
  | .table t => (w.tables.get? t).isSome = true
  | .function f => (w.functions.get? f).isSome = true
  | .userdata u => (w.userdata.get? u).isSome = true
  | .coroutine c => (w.coroutines.get? c).isSome = true
  | .target t => ∀ o, t = .object o → w.Has (.object o)
  | .opened c onInstance m => R.Opens w c onInstance m

/-- The function belongs to the realm: it is script's own, a host function that is bound to the
binding, or a method that was read under it. -/
def Owns (R : Realm) (w : World) (f : Function) : Prop :=
  match f.code with
  | .script body => Op.allLocal false body = true
  | .host via h => via = R.via ∧ R.functions h
  | .method via t m => via = R.via ∧ f.name = t.cls.name ++ "." ++ m.name ∧
    R.Opens w t.cls t.isInstance (.method m)

/-- **Every proxy that script reaches is of the binding.** -/
def OneBinding (R : Realm) (w : World) (held : List ScriptValue) : Prop :=
  ∀ u p, R.Reaches w held (.userdata u) → w.userdatum u = .proxy p → p.via = R.via

/-- Confined script has proxies of the binding only. -/
theorem Confined.oneBinding (h : R.Confined S w) (hheld : Inside S held) :
    R.OneBinding w held := by
  intro u p hu hp
  have htied := h.userdatum (h.mem_of_reaches hheld hu)
  rw [hp] at htied
  exact htied.1

/-- **What script starts with is bound to the binding**, and getters lead nowhere else. -/
structure Encloses (R : Realm) (w : World) (held : List ScriptValue) : Prop where
  /-- The binding has its policy and its visibility, and the proxies that it has made. -/
  binding : ∃ b, w.bindings.get? R.via = some b ∧ b = { R.settings with cache := b.cache } ∧
    ∀ e ∈ b.cache, R.HasProxy w e.2
  /-- The methods that the binding opens are those of the realm. -/
  methods : ∀ c onInstance m, R.Opens w c onInstance (.method m) → R.methods m.body
  /-- Nothing that is reached is missing. -/
  present : ∀ i, R.Reaches w held i → R.Present w i
  /-- Host functions and methods that script starts with are bound to the binding. -/
  functions : ∀ f, R.Reaches w held (.function f) → R.Owns w (w.function f)
  /-- So are the proxies. -/
  proxies : R.OneBinding w held
  /-- The history begins here. -/
  journal : w.journal = R.before

/-- What is reached, and the knowledge of what is open. -/
def known (R : Realm) (w : World) (held : List ScriptValue) : Set Item :=
  R.reached w held ∪ {i | ∃ c onInstance m, i = .opened c onInstance m ∧ R.Opens w c onInstance m}

/-- Slots are clean if what open members give of them is reached. -/
theorem Encloses.clean (h : R.Encloses w held) {c : ClassRef} {onInstance : Bool} {slots : Slots}
    (hgiven : ∀ m v i, R.Opens w c onInstance m → m.given? slots = some v → i ∈ exposed v →
      R.Reaches w held i) : R.Clean (R.known w held) w c onInstance slots := by
  intro m hm
  refine ⟨fun v hv i hi => .inl (hgiven m v i hm hv hi), ?_⟩
  rintro x rfl
  exact h.methods c onInstance x hm

/-- A function that is reached is bound in the way that confinement asks for. A method leads on to its
receiver and to the member it is, and both are known. -/
theorem Encloses.bound (h : R.Encloses w held) {f : FunctionRef}
    (hf : R.Reaches w held (.function f)) : R.Bound (R.known w held) (w.function f) := by
  have howns := h.functions f hf
  unfold Owns at howns
  unfold Bound
  cases hcode : (w.function f).code with
  | script body | host via hf =>
    rw [hcode] at howns
    exact howns
  | method via t m =>
    rw [hcode] at howns
    obtain ⟨hvia, hname, hopens⟩ := howns
    have hbody := h.methods _ _ m hopens
    exact ⟨hvia, hname, hbody, .inl (.receiver hf hcode), .inr ⟨_, _, _, rfl, hopens⟩⟩

/-- A userdata that is reached leads to what is reached: a proxy to its target, a carrier to what it
carries. -/
theorem Encloses.tied (h : R.Encloses w held) {u : UserdataRef}
    (hu : R.Reaches w held (.userdata u)) : R.Tied (R.known w held) (w.userdatum u) := by
  cases hdatum : w.userdatum u with
  | «foreign» => trivial
  | proxy p => exact ⟨h.proxies u p hu hdatum, fun t ht => .inl (.target hu hdatum ht)⟩
  | carrier e => exact fun i he => .inl (.carried hu hdatum he)

/-- **What is reached confines script.** -/
theorem Encloses.confined (h : R.Encloses w held) : R.Confined (R.known w held) w where
  binding := h.binding
  items := by
    rintro i (hi | ⟨c, onInstance, m, rfl, hm⟩)
    · -- The item is there, and what it leads to is reached by one more edge.
      have hpresent := h.present i hi
      cases i with
      | table t =>
        obtain ⟨x, hx⟩ := Option.isSome_iff_exists.mp hpresent
        have htable : w.table t = x := by rw [World.table, hx, Option.getD_some]
        exact ⟨x, hx, fun i hxi => .inl (.entry hi (htable ▸ hxi))⟩
      | function f =>
        obtain ⟨x, hx⟩ := Option.isSome_iff_exists.mp hpresent
        have hfunction : w.function f = x := by rw [World.function, hx, Option.getD_some]
        exact ⟨x, hx, hfunction ▸ h.bound hi⟩
      | userdata u =>
        obtain ⟨x, hx⟩ := Option.isSome_iff_exists.mp hpresent
        have huserdatum : w.userdatum u = x := by rw [World.userdatum, hx, Option.getD_some]
        exact ⟨x, hx, huserdatum ▸ h.tied hi⟩
      -- A coroutine leads to its function.
      | coroutine c =>
        obtain ⟨x, hx⟩ := Option.isSome_iff_exists.mp hpresent
        have hcoroutine : w.coroutine c = x := by rw [World.coroutine, hx, Option.getD_some]
        exact ⟨x, hx, .inl (hcoroutine ▸ .body hi)⟩
      | target t => exact ⟨hpresent, h.clean fun m v i hm hv hiv => .member hi hm hv hiv⟩
      | opened c onInstance m => exact hpresent
    · exact hm
  classes c := h.clean fun m v i hm hv hi => .fresh (.inl rfl) hm hv hi
  constructors c slots hslots := h.clean fun m v i hm hv hi => .fresh (.inr hslots) hm hv hi
  globals := .inl .globals
  vars p hp i hi := .inl (.var hp hi)
  journal := h.journal ▸ .start

/-- A world that is confined before anything happened is enclosed, if the methods are as the realm
says. -/
theorem Confined.encloses (h : R.Confined S w) (hheld : Inside S held)
    (hjournal : w.journal = R.before)
    (hmethods : ∀ c onInstance m, R.Opens w c onInstance (.method m) → R.methods m.body) :
    R.Encloses w held where
  binding := h.binding
  methods := hmethods
  present i hi := by
    have hfine := h.items i (h.mem_of_reaches hheld hi)
    cases i with
    -- The reference leads somewhere because confinement says what is there.
    | table t | function f | userdata u | coroutine c =>
      obtain ⟨x, hx, -⟩ := hfine
      exact Option.isSome_iff_exists.mpr ⟨x, hx⟩
    | target t => exact hfine.1
    | opened c onInstance m => exact hfine
  functions f hf := by
    have hbound := h.function (h.mem_of_reaches hheld hf)
    unfold Owns
    cases hcode : (w.function f).code with
    | script body => exact hbound.script hcode
    | host via hf => exact hbound.host hcode
    | method via t m =>
      obtain ⟨hvia, hname, -, -, hm⟩ := hbound.method hcode
      exact ⟨hvia, hname, h.items _ hm⟩
  proxies := h.oneBinding hheld
  journal := hjournal

/-! ### Runs -/

/-- **What the host may do between the operations of script**: it keeps script inside, as long as
calls do. -/
def Allows (R : Realm) (op : Op) : Prop :=
  ∀ n, (callWithin n).Keeps R → ∀ S : Set Item, R.Keeps S (op.run (callWithin n) .top) Inside

/-- **One operation** of script, or of the host where it may, leaves script inside. -/
theorem Confined.step (h : R.Confined S w) (hR : R.Honest) {op : Op}
    (hop : op.isLocal false = true ∨ R.Allows op) :
    ∃ S', S ⊆ S' ∧ R.Confined S' (w.step op).2 := by
  have hcall : (callWithin w.maxDepth).Keeps R := callWithin_keeps hR w.maxDepth
  have hkeeps : R.Keeps S (op.run (callWithin w.maxDepth) .top) Inside := by
    rcases hop with hlocal | hallows
    · exact Op.run_keeps hcall (s := .top) trivial op hlocal
    · exact hallows w.maxDepth hcall S
  -- Nothing is asked of the log, which every operation of a session begins anew.
  have hcleared : R.Confined S { w with log := [] } := { h with }
  obtain ⟨S', hS, hconfined, -⟩ := hkeeps S subset_rfl _ hcleared
  rw [World.step_snd]
  exact ⟨S', hS, hconfined⟩

/-- **A run** leaves script inside, by induction on its operations. -/
theorem Confined.after (h : R.Confined S w) (hR : R.Honest) {ops : Program}
    (hops : ∀ op ∈ ops, op.isLocal false = true ∨ R.Allows op) :
    ∃ S', S ⊆ S' ∧ R.Confined S' (w.after ops) := by
  induction ops generalizing S w with
  | nil => exact ⟨S, subset_rfl, h⟩
  | cons op rest ih =>
    obtain ⟨hop, hrest⟩ := List.forall_mem_cons.mp hops
    obtain ⟨S₁, hS₁, hstep⟩ := h.step hR hop
    obtain ⟨S₂, hS₂, hafter⟩ := ih hstep hrest
    exact ⟨S₂, hS₁.trans hS₂, hafter⟩

/-! ### What confinement says -/

/-- A function that script has is of the realm. -/
theorem Confined.callable (h : R.Confined S w) {f : FunctionRef} (hf : .function f ∈ S) :
    R.Callable w f := by
  have hbound := h.function hf
  unfold Callable
  cases hcode : (w.function f).code with
  | script body => trivial
  | host via hf => exact (hbound.host hcode).1
  | method via t m =>
    obtain ⟨hvia, -, -, -, hm⟩ := hbound.method hcode
    have hopens : R.Opens w t.cls t.isInstance (.method m) := h.items _ hm
    exact ⟨hvia, hopens.permits⟩

/-- **What script may do is licensed**: an open member is admitted and permitted. -/
theorem Confined.licenses (h : R.Confined S w) {e : Event} (he : R.Admits S e) :
    R.Licenses w e := by
  -- A member is an item only while it is open, and what is open is permitted.
  have hpermits {c onInstance m} (hm : .opened c onInstance m ∈ S) :
      R.Permits w c onInstance m := by
    have hopens : R.Opens w c onInstance m := h.items _ hm
    exact hopens.permits
  cases e with
  | getter via c m | setter via c m v =>
    obtain ⟨hvia, onInstance, hm⟩ := he
    exact ⟨hvia, onInstance, hpermits hm⟩
  | body via name params args =>
    obtain ⟨hvia, hfunction | ⟨c, onInstance, m, hm, hname, hparams⟩⟩ := he
    · exact ⟨hvia, .inl hfunction⟩
    · exact ⟨hvia, .inr ⟨c, onInstance, m, hpermits hm, hname, hparams⟩⟩
  | wrapped via o u => exact he
  | called f inCoroutine => exact h.callable he
  | _ => trivial

/-- Whatever script gets from the act in this world, or is raised into it: through that, and through
what it holds, it reaches proxies of the binding only. -/
def LeavesBound {α : Type} (R : Realm) (held : List ScriptValue) (w : World) (m : Act ScriptError α)
    (values : α → List ScriptValue) : Prop :=
  match m.outcome w with
  | (.ok a, w') => R.OneBinding w' (values a ++ held)
  | (.error e, w') => R.OneBinding w' (e.value :: held)

/-- An act that keeps script inside leaves proxies of one binding, whether it succeeds or raises. -/
theorem Keeps.leavesBound {α : Type} [Exposes α] {m : Act ScriptError α}
    (h : R.Keeps S m Inside) (hw : R.Confined S w) (hheld : Inside S held)
    {values : α → List ScriptValue} (hvalues : ∀ S' a, Inside S' a → Inside S' (values a)) :
    R.LeavesBound held w m values := by
  obtain ⟨S', hS, hconfined, hgranted⟩ := h S subset_rfl w hw
  unfold LeavesBound
  generalize m.outcome w = outcome at hconfined hgranted ⊢
  rcases outcome with ⟨e | a, w'⟩
  · have he : Inside S' e.value := hgranted
    exact hconfined.oneBinding (.cons he (hheld.mono hS))
  · exact hconfined.oneBinding (.append (hvalues S' a hgranted) (hheld.mono hS))

/-- The history since script began, event by event. -/
theorem Accounted.each {j : List Event} (h : R.Accounted S j) :
    ∃ new, j = new ++ R.before ∧ ∀ later e earlier, new = later ++ e :: earlier →
      R.own (earlier ++ R.before) e ∨ R.Admits S e := by
  -- The event in question is the newest one, or one of the history before it.
  have hcons {new : List Event} {x : Event} (hx : R.own (new ++ R.before) x ∨ R.Admits S x)
      (hnew : ∀ later e earlier, new = later ++ e :: earlier →
        R.own (earlier ++ R.before) e ∨ R.Admits S e) :
      ∀ later e earlier, x :: new = later ++ e :: earlier →
        R.own (earlier ++ R.before) e ∨ R.Admits S e := by
    intro later e earlier heq
    cases later with
    | nil =>
      obtain ⟨rfl, rfl⟩ := List.cons.inj heq
      exact hx
    | cons y later => exact hnew later e earlier (List.cons.inj heq).2
  induction h with
  | start => exact ⟨[], rfl, fun later e earlier heq => by simp at heq⟩
  | @own j x _ hx ih =>
    obtain ⟨new, rfl, hnew⟩ := ih
    exact ⟨x :: new, rfl, hcons (.inl hx) hnew⟩
  | @admitted j x _ hx ih =>
    obtain ⟨new, rfl, hnew⟩ := ih
    exact ⟨x :: new, rfl, hcons (.inr hx) hnew⟩

end Realm

/-- **Access stays inside one binding.** Take a binding and host code behind it that introduces
nothing foreign, and a world in which all that script reaches belongs to this realm. However script
goes on, every proxy that it reaches is of the binding, and every function that it reaches is its
own or bound to the binding. What it reads then, at whatever it reaches, and what its calls give or
raise, leads to proxies of the binding only. Whatever started since, other than by the host's own
doing, did so under the binding: getters, setters and bodies are those of members that the
visibility flags admit and the policy permits, and of the host functions of the realm. -/
theorem access_stays_in_binding {R : Realm} (hR : R.Honest) {w : World} {held : List ScriptValue}
    (hw : R.Encloses w held) {ops : Program}
    (hops : ∀ op ∈ ops, op.isLocal false = true ∨ R.Allows op) :
    R.OneBinding (w.after ops) held ∧
    (∀ f, R.Reaches (w.after ops) held (.function f) → R.Callable (w.after ops) f) ∧
    (∀ inCoroutine target key, Inside (R.reached (w.after ops) held) target →
      R.LeavesBound held (w.after ops) (Act.index inCoroutine target key) fun v => [v]) ∧
    (∀ n inCoroutine f args, R.Reaches (w.after ops) held (.function f) →
      Inside (R.reached (w.after ops) held) args →
      R.LeavesBound held (w.after ops) (callWithin n inCoroutine f args) id) ∧
    ∃ new, (w.after ops).journal = new ++ w.journal ∧
      ∀ later e earlier, new = later ++ e :: earlier →
        R.own (earlier ++ w.journal) e ∨ R.Licenses (w.after ops) e := by
  obtain ⟨S, hS, hafter⟩ := hw.confined.after hR hops
  -- All that is reached in the end is inside, so what is said of `S` holds of it.
  have hheld : Inside S held := fun i hi => hS (.inl (.held hi))
  have hreached : R.reached (w.after ops) held ⊆ S := fun _ hi => hafter.mem_of_reaches hheld hi
  refine ⟨hafter.oneBinding hheld, fun f hf => hafter.callable (hreached hf), ?_, ?_, ?_⟩
  · intro inCoroutine target key htarget
    have hindex := Realm.Keeps.index (R := R) inCoroutine (htarget.mono hreached) key
    exact hindex.leavesBound hafter hheld fun _ _ hv => .cons hv .nil
  · intro n inCoroutine f args hf hargs
    have hcall : (callWithin n).Keeps R := callWithin_keeps hR n
    have hkeeps := hcall inCoroutine f args (hreached hf) (hargs.mono hreached)
    exact hkeeps.leavesBound hafter hheld fun _ _ hvs => hvs
  · obtain ⟨new, hnew, heach⟩ := hafter.journal.each
    rw [hw.journal]
    refine ⟨new, hnew, fun later e earlier heq => ?_⟩
    exact (heach later e earlier heq).imp_right hafter.licenses

/-! ### A graph of objects behind a policy -/

namespace AccessGraph

/-- Nothing named `Secret` is permitted. -/
def restricted : Config :=
  ⟨.rules (RuleSet.permitByDefault.add (.ofMember "Secret") .deny), true, false, 200⟩

/-- The class of the graph. -/
def nodeClass : ClassRef := ⟨⟨0⟩, "Node"⟩

/-- The object that script starts from. -/
def first : ObjectRef := ⟨⟨0⟩, nodeClass⟩

/-- The object that it leads to. -/
def second : ObjectRef := ⟨⟨1⟩, nodeClass⟩

/-- Leads on to another object. -/
def next : Member := .field ⟨"Next", .any, true, "next", none⟩

/-- Gives an array of the receiver and of an object that the host has in a variable. -/
def aroundBody : Program :=
  [.giveHost ⟨none, none, false, false⟩ (.list [.array (.list [.receiver, .var "second" 0])])]

/-- The method that gives the array. -/
def around : Method := ⟨"Around", [], false, true, aroundBody⟩

/-- A property that the policy denies. -/
def secret : Member := .property ⟨"Secret", .any, false, true, 0, some (.slot "secret"), none⟩

/-- The class with these members. -/
def node : HostClass :=
  ⟨"Node", .slots, [next, .method around, secret],
    ⟨[("Next", [0]), ("Around", [1]), ("Secret", [2])], []⟩, none, none⟩

/-- Two objects that lead to each other. The secret of the first one is a proxy of another binding,
under which everything is permitted. -/
def graphWorld : World :=
  { World.start restricted fun r => r.index with
    userdata := (Store.empty.push (.proxy ⟨some (.object first), ⟨0⟩, "Node"⟩)).push
      (.proxy ⟨some (.object first), ⟨1⟩, "Node"⟩)
    objects := (Store.empty.push ⟨nodeClass,
        .slots [("next", .object second), ("secret", .script (.userdata ⟨1⟩))], .free⟩).push
      ⟨nodeClass, .slots [("next", .object first)], .free⟩
    classes := Store.empty.push node
    bindings := (Store.empty.push (.ofConfig restricted)).push (.ofConfig .default)
    vars := [("first", .script (.userdata ⟨0⟩)), ("second", .object second)] }

/-- The restricted binding, with nothing behind it but the method. -/
def graphRealm : Realm :=
  ⟨⟨0⟩, .ofConfig restricted, fun _ => False, fun body => body = aroundBody, fun _ _ => False, []⟩

/-- Script goes from the first object to the second one, calls the method there, takes an object out
of the array, goes on to the first object again and asks for its secret. -/
def browse : Program :=
  let into (name : String) : Disposition := ⟨some name, some "failure", false, false⟩
  [.act (into "next") (.call (.index (.var "first" 0) (.string "Next"))),
    .act (into "around") (.call (.invoke (.var "next" 0) (.string "Around")
      (.list [.var "next" 0]))),
    .act (into "found") (.table (.get (.var "around" 0) (.integer 1))),
    .act (into "back") (.call (.index (.var "found" 0) (.string "Next"))),
    .act (into "secret") (.call (.index (.var "back" 0) (.string "Secret")))]

/-- The body of the method takes what it needs from its receiver and from variables. -/
theorem honest_graph : graphRealm.Honest := by
  refine Realm.honest_of_local fun body hbody => ?_
  rcases hbody with rfl | ⟨h, hfalse, -⟩
  · rfl
  · exact hfalse.elim

/-- The secret is denied, so the other two members are all that is open. -/
theorem open_graph {c : ClassRef} {onInstance : Bool} {m : Member}
    (h : graphRealm.Opens graphWorld c onInstance m) : m = next ∨ m = .method around := by
  obtain ⟨-, -, hm, -, hpolicy⟩ := h.permits
  cases hc : graphWorld.classes.get? c.ref with
  | none =>
    rw [World.cls, hc] at hm
    cases hm
  | some x =>
    -- There is one class only.
    have hx : x = node := by
      rcases Store.get?_push_cases hc with ⟨-, rfl⟩ | hnone
      · rfl
      · simp [Store.empty, Store.get?] at hnone
    rw [World.cls, hc, Option.getD_some, hx] at hm hpolicy
    rcases List.mem_cons.mp hm with rfl | hm
    · exact .inl rfl
    · rcases List.mem_cons.mp hm with rfl | hm
      · exact .inr rfl
      · obtain rfl := List.mem_singleton.mp hm
        -- What is left is the secret.
        have hdenied : graphRealm.settings.policy.permits node secret = false := by decide +kernel
        rw [hdenied] at hpolicy
        cases hpolicy

/-- What confines script in this world: all but the proxy of the other binding. -/
def confines : Set Item :=
  {.table ⟨0⟩, .userdata ⟨0⟩, .target (.object first), .target (.object second)}

/-- Open members read the slot of the next object, and nothing else. -/
theorem clean_graph (c : ClassRef) (onInstance : Bool) {slots : Slots}
    (hnext : Inside confines (slots.read "next")) :
    graphRealm.Clean confines graphWorld c onInstance slots := by
  intro m hm
  rcases open_graph hm with rfl | rfl
  · exact ⟨fun v hv => Option.some.inj hv ▸ hnext, nofun⟩
  · refine ⟨nofun, fun x hx => ?_⟩
    obtain rfl := Member.method.inj hx
    rfl

/-- The proxy of the other binding is in a slot that no open member reads, so nothing leads to it. -/
theorem confined_graph : graphRealm.Confined confines graphWorld where
  binding := ⟨.ofConfig restricted, rfl, rfl, nofun⟩
  items := by
    have hfirst : Inside confines (HostValue.object first) :=
      Inside.object_iff.mpr (by simp [confines])
    have hsecond : Inside confines (HostValue.object second) :=
      Inside.object_iff.mpr (by simp [confines])
    rintro i (rfl | rfl | rfl | rfl)
    -- The table of globals is empty, and the proxy leads to the first object.
    · exact ⟨.empty, rfl, Table.inside_empty⟩
    · refine ⟨.proxy ⟨some (.object first), ⟨0⟩, "Node"⟩, rfl, rfl, fun t ht => ?_⟩
      exact Option.some.inj ht ▸ Inside.object_iff.mp hfirst
    -- The two objects lead to each other.
    · refine ⟨?_, clean_graph _ _ hsecond⟩
      rintro o ⟨⟩
      exact ⟨_, rfl, rfl⟩
    · refine ⟨?_, clean_graph _ _ hfirst⟩
      rintro o ⟨⟩
      exact ⟨_, rfl, rfl⟩
  classes c := clean_graph c true (.of_exposed_eq_nil rfl)
  constructors c slots hc := by
    cases hget : graphWorld.classes.get? c.ref with
    | none =>
      rw [World.cls, hget] at hc
      cases hc
    | some x =>
      rcases Store.get?_push_cases hget with ⟨-, rfl⟩ | hnone
      · rw [World.cls, hget] at hc
        cases hc
      · simp [Store.empty, Store.get?] at hnone
  globals := .inl rfl
  vars p hp := by
    rcases List.mem_cons.mp hp with rfl | hp
    · exact Inside.userdata_iff.mpr (by simp [confines])
    · obtain rfl := List.mem_singleton.mp hp
      exact Inside.objectRef_iff.mpr (by simp [confines])
  journal := .start

/-- So what script reaches belongs to the realm. -/
theorem encloses_graph : graphRealm.Encloses graphWorld [] := by
  refine confined_graph.encloses .nil rfl fun c onInstance m hm => ?_
  rcases open_graph hm with h | h
  · cases h
  · exact congrArg Method.body (Member.method.inj h)

/-- The proxy in a variable. -/
def proxyIn (w : World) (name : String) : Option Proxy :=
  match w.var? name with
  | some (.script (.userdata u)) => w.proxy? u
  | _ => none

end AccessGraph

open AccessGraph in
/-- Several steps on, script is back at the first object, whose proxy is of the restricted binding,
and gets nil for the secret. A body was started on the way, and of the other binding nothing. -/
theorem access_stays_in_binding_graph :
    let w := graphWorld.after browse
    graphRealm.Honest ∧ graphRealm.Encloses graphWorld [] ∧
    (∀ op ∈ browse, op.isLocal false = true) ∧
    ((proxyIn w "found").any fun p => p.target == some (.object second) && p.via == ⟨0⟩) = true ∧
    ((proxyIn w "back").any fun p => p.target == some (.object first) && p.via == ⟨0⟩) = true ∧
    ((w.var? "secret").any fun s => (s.asScript 0).isNil) = true ∧
    (w.journal.any fun
      | .body via name _ _ => via == ⟨0⟩ && name == "Node.Around"
      | _ => false) = true ∧
    graphRealm.OneBinding w [] ∧
    (∀ s key, w.var? "back" = some s →
      graphRealm.LeavesBound [] w (Act.index false (s.asScript 0) key) fun v => [v]) ∧
    ∀ e ∈ w.journal, graphRealm.Licenses w e := by
  have hlocal : ∀ op ∈ browse, op.isLocal false = true := by decide
  obtain ⟨hproxies, -, hreads, -, new, hnew, heach⟩ :=
    access_stays_in_binding honest_graph encloses_graph fun op hop => .inl (hlocal op hop)
  refine ⟨honest_graph, encloses_graph, hlocal, by decide +kernel, by decide +kernel,
    by decide +kernel, by decide +kernel, hproxies, fun s key hs => hreads false _ key ?_,
    fun e he => ?_⟩
  · exact (Realm.inside_of_var? hs).asScript 0
  have hjournal : (graphWorld.after browse).journal = new := hnew.trans (List.append_nil new)
  obtain ⟨later, earlier, hsplit⟩ := List.append_of_mem (hjournal ▸ he)
  -- In this realm the host does nothing of its own accord.
  exact (heach later e earlier hsplit).resolve_left id

end ScriptHost
