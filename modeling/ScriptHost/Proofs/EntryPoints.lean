import ScriptHost.Proofs.Coroutine

/-!
# Entry points of the host

The guard reads the state of the context that it is asked in, and the entry points of the host make
a new context outside every coroutine. Used inside a coroutine, they begin a call to which the guard
lets host code through while the coroutine is running.

What holds of every run is that there is no other way. `Journal.ongoing` lists the calls and
resumptions that have begun and are not over, and `Journal.inside` is the state that the innermost
of them gave to its code. A body is only started where that state is outside (`Effects.sound`), so
below a body that is started while a coroutine is running there is a call that left the state of the
code around it (`Journal.Escapes.of_resumptions`). Without a license to use the entry points inside
script bodies there is no such call.

The journal tells which coroutines are running: `World.Tracks`, kept by `Effects.tracks`.
-/

set_option autoImplicit false

namespace ScriptHost

/-- A call or a resumption that is going on. -/
inductive Ongoing where
  | call (f : FunctionRef) (inCoroutine : Bool)
  | resumption (c : CoroutineRef)

namespace Journal

/-- The calls and resumptions that have begun and are not over, innermost first. -/
def ongoing : List Event → List Ongoing
  | [] => []
  | .called f b :: es => .call f b :: ongoing es
  | .resumed c :: es => .resumption c :: ongoing es
  | .returned _ :: es | .finished _ :: es => (ongoing es).tail
  | _ :: es => ongoing es

/-- The state that the innermost of them gave to its code. A coroutine runs inside, a call knows
where it is, and elsewhere code runs outside every coroutine. -/
def inside : List Ongoing → Bool
  | .call _ b :: _ => b
  | .resumption _ :: _ => true
  | [] => false

/-- The coroutines that are running, innermost first. -/
def resumptions : List Ongoing → List CoroutineRef
  | .resumption c :: rest => c :: resumptions rest
  | .call _ _ :: rest => resumptions rest
  | [] => []

/-- Among what is going on is a call that was begun outside every coroutine by code inside one, and
since then there were only calls outside. -/
def Escapes (stack : List Ongoing) : Prop :=
  ∃ calls f rest, stack = calls ++ .call f false :: rest ∧ inside rest = true ∧
    ∀ x ∈ calls, ∃ g, x = .call g false

/-- Every call was begun as the license allows it where it was begun. -/
def Nested (l : License) : List Ongoing → Prop
  | .call _ b :: rest => l.Enters (inside rest) b ∧ Nested l rest
  | .resumption _ :: rest => Nested l rest
  | [] => True

/-- **Code outside every coroutine that runs below a coroutine has escaped it.** -/
theorem Escapes.of_resumptions {stack : List Ongoing} (hout : inside stack = false)
    (hrunning : resumptions stack ≠ []) : Escapes stack := by
  -- From the innermost call outwards, as far as calls are outside.
  induction stack with
  | nil => exact absurd rfl hrunning
  | cons x rest ih =>
    cases x with
    | resumption c => cases hout
    | call f b =>
      obtain rfl : b = false := hout
      cases hrest : inside rest with
      | true => exact ⟨[], f, rest, rfl, hrest, List.forall_mem_nil _⟩
      | false =>
        obtain ⟨calls, g, rest', rfl, hinside, hcalls⟩ := ih hrest hrunning
        refine ⟨.call f false :: calls, g, rest', rfl, hinside, ?_⟩
        exact List.forall_mem_cons.mpr ⟨⟨f, rfl⟩, hcalls⟩

/-- Only a license to use the entry points of the host lets a call escape. -/
theorem Escapes.direct {l : License} {stack : List Ongoing} (h : Escapes stack)
    (hn : Nested l stack) : l.direct = true := by
  obtain ⟨calls, f, rest, rfl, hinside, hcalls⟩ := h
  induction calls with
  | nil =>
    obtain ⟨heq | ⟨-, hl⟩, -⟩ := hn
    · rw [hinside] at heq
      cases heq
    · exact hl
  | cons x calls ih =>
    obtain ⟨hx, hrest⟩ := List.forall_mem_cons.mp hcalls
    obtain ⟨g, rfl⟩ := hx
    exact ih hn.2 hrest

/-- What is going on was begun as the license allows, and where a body is started the code around it
is outside every coroutine. -/
def Sound (l : License) (j : List Event) : Prop :=
  Nested l (ongoing j) ∧ Each (fun e earlier => e.isBody = true →
    inside (ongoing earlier) = false ∧ Nested l (ongoing earlier)) j

/-- Nothing has happened yet. -/
theorem sound_nil (l : License) : Sound l [] := ⟨trivial, each_nil _⟩

/-- Events other than bodies have only to keep what is going on nested. -/
theorem Sound.cons {l : License} {j : List Event} {e : Event} (h : Sound l j)
    (hbody : e.isBody = false) (hn : Nested l (ongoing (e :: j))) : Sound l (e :: j) := by
  refine ⟨hn, each_cons.mpr ⟨fun he => ?_, h.2⟩⟩
  rw [hbody] at he
  cases he

/-- Host code neither begins nor ends a call. -/
theorem ongoing_of_isHostCode {e : Event} (h : e.isHostCode = true) (es : List Event) :
    ongoing (e :: es) = ongoing es := by
  cases e <;> first | rfl | cases h

end Journal

open Act Journal

/-! ### Runs -/

namespace Effects

variable {l : License} {b : Bool} {w w' : World}

/-- Runs end what they begin. -/
theorem ongoing_eq (h : Effects l b w w') : ongoing w'.journal = ongoing w.journal := by
  induction h with
  | trans _ _ ih ih' => exact ih'.trans ih
  | hold _ _ ih | lent _ _ _ _ ih => exact ih
  | started w e he _ _ => exact ongoing_of_isHostCode he w.journal
  | called _ _ _ ih | resumed _ _ _ ih => exact congrArg List.tail ih
  | _ => rfl

/-- **Runs keep the journal sound.** -/
theorem sound (h : Effects l b w w') (hb : b = inside (ongoing w.journal))
    (hs : Sound l w.journal) : Sound l w'.journal := by
  induction h with
  | trans h _ ih ih' => exact ih' (by rw [h.ongoing_eq]; exact hb) (ih hb hs)
  | hold _ _ ih | lent _ _ _ _ ih => exact ih hb hs
  | cached | wrapped | refused => exact hs.cons rfl hs.1
  | @started b w e he _ h =>
    have hongoing := ongoing_of_isHostCode he w.journal
    -- Either the code around it is outside every coroutine, or it is no body but a constructor, a
    -- getter or a setter.
    rcases h with rfl | ⟨-, hbody⟩
    · exact ⟨by rw [hongoing]; exact hs.1, each_cons.mpr ⟨fun _ => ⟨hb.symm, hs.1⟩, hs.2⟩⟩
    · exact hs.cons hbody (by rw [hongoing]; exact hs.1)
  -- A call is on top of what is going on while its body runs, and gone when it has returned.
  | @called b b' w w' f henters h ih =>
    have hentered : Sound l (w.entered b' f).journal :=
      hs.cons rfl ⟨by rw [← hb]; exact henters, hs.1⟩
    have hleft : ongoing (.returned f :: w'.journal) = ongoing w.journal :=
      congrArg List.tail h.ongoing_eq
    exact (ih rfl hentered).cons rfl (by rw [hleft]; exact hs.1)
  -- A resumption likewise.
  | @resumed b w w' c _ h ih =>
    have hresuming : Sound l (w.resuming c).journal := hs.cons rfl hs.1
    have hfinishing : ongoing (.finished c :: w'.journal) = ongoing w.journal :=
      congrArg List.tail h.ongoing_eq
    exact (ih rfl hresuming).cons rfl (by rw [hfinishing]; exact hs.1)
  | _ => exact hs

end Effects

/-! ### The coroutines that are running -/

/-- A coroutine is running while the journal says so. -/
def World.Tracks (w : World) : Prop :=
  ∀ c, (w.coroutine c).status = .running ↔ c ∈ resumptions (ongoing w.journal)

namespace World

variable {w : World} {c d : CoroutineRef}

/-- Other coroutines are as they were. -/
theorem coroutine_set_ne (x : Coroutine) (hne : d ≠ c) :
    ({ w with coroutines := w.coroutines.set c x } : World).coroutine d = w.coroutine d := by
  unfold coroutine
  rw [Store.get?_set_ne _ _ hne]

/-- A coroutine that is not dead is one that was made, so it can be changed. -/
theorem coroutine_set_self (x : Coroutine) (h : (w.coroutine c).status ≠ .dead) :
    ({ w with coroutines := w.coroutines.set c x } : World).coroutine c = x := by
  unfold coroutine at h ⊢
  cases hc : w.coroutines.get? c with
  | none =>
    rw [hc] at h
    exact absurd rfl h
  | some y =>
    rw [Store.get?_set, if_pos rfl, hc]
    rfl

/-- A coroutine that is made is read as it was made, and the others as they were. -/
theorem coroutine_push (x : Coroutine) (c : CoroutineRef) :
    ({ w with coroutines := w.coroutines.push x } : World).coroutine c =
      if c = w.coroutines.next then x else w.coroutine c := by
  unfold coroutine
  split
  · next heq =>
    rw [heq, Store.get?_push_self]
    rfl
  · next hne =>
    have hindex : c.index ≠ w.coroutines.items.size := fun h => hne (by cases c; exact congrArg _ h)
    have hsame : (w.coroutines.push x).get? c = w.coroutines.get? c := by
      simp only [Store.get?, Store.push, Array.getElem?_push, if_neg hindex]
    rw [hsame]

/-- A coroutine that is still to be made reads as dead. -/
theorem status_next : (w.coroutine w.coroutines.next).status = .dead := by
  simp [coroutine, Store.get?, Store.next]

end World

namespace Effects

variable {l : License} {b : Bool} {w w' : World}

/-- **Runs keep the journal true of the coroutines.** Only resumptions change it, each of a coroutine
that was not running and is dead afterwards. -/
theorem tracks (h : Effects l b w w') (ht : w.Tracks) : w'.Tracks := by
  induction h with
  | trans _ _ ih ih' => exact ih' (ih ht)
  | hold _ _ ih | lent _ _ _ _ ih => exact ih ht
  | started w e he _ _ =>
    intro c
    rw [ongoing_of_isHostCode he w.journal]
    exact ht c
  | coroutine w f =>
    intro c
    rw [World.coroutine_push]
    split
    · next heq =>
      have hnot : ¬ c ∈ resumptions (ongoing w.journal) := by
        rw [← ht c, heq, World.status_next]
        decide
      exact iff_of_false (fun h => by cases h) hnot
    · exact ht c
  | @called b b' w w' f _ h ih =>
    have hcalled : (w'.left f).Tracks := by
      intro c
      have htail : resumptions (ongoing (.returned f :: w'.journal)) =
          resumptions (ongoing w'.journal) := by
        simp only [ongoing, h.ongoing_eq, World.entered, List.tail_cons, resumptions]
      show _ ↔ c ∈ resumptions (ongoing (.returned f :: w'.journal))
      rw [htail]
      exact ih ht c
    exact hcalled
  | @resumed b w w' c hsuspended h ih =>
    -- The coroutine is not among those that were running: it was suspended.
    have hnot : ¬ c ∈ resumptions (ongoing w.journal) := by
      rw [← ht c, hsuspended]
      decide
    have hrunning : resumptions (ongoing w'.journal) = c :: resumptions (ongoing w.journal) := by
      rw [h.ongoing_eq]
      rfl
    have hresuming : (w.resuming c).Tracks := by
      intro d
      by_cases hd : d = c
      · subst hd
        have hstatus : ((w.resuming d).coroutine d).status = .running :=
          congrArg Coroutine.status (World.coroutine_set_self _ (by rw [hsuspended]; decide))
        exact iff_of_true hstatus List.mem_cons_self
      · have hsame : (w.resuming c).coroutine d = w.coroutine d := World.coroutine_set_ne _ hd
        rw [hsame, ht d]
        exact (List.mem_cons.trans (or_iff_right hd)).symm
    have hlast := ih hresuming
    intro d
    have hjournal : resumptions (ongoing (w'.finishing c).journal) =
        resumptions (ongoing w.journal) := by
      show resumptions (ongoing w'.journal).tail = _
      rw [h.ongoing_eq]
      rfl
    rw [hjournal]
    by_cases hd : d = c
    · subst hd
      have halive : (w'.coroutine d).status ≠ .dead := by
        rw [(hlast d).mpr (by rw [hrunning]; exact List.mem_cons_self)]
        decide
      have hstatus : ((w'.finishing d).coroutine d).status = .dead :=
        congrArg Coroutine.status (World.coroutine_set_self _ halive)
      exact iff_of_false (by rw [hstatus]; decide) hnot
    · have hsame : (w'.finishing c).coroutine d = w'.coroutine d := World.coroutine_set_ne _ hd
      rw [hsame, hlast d, hrunning]
      exact List.mem_cons.trans (or_iff_right hd)
  | _ => exact ht

end Effects

/-! ### Uses of a context -/

namespace World

/-- The journal of the world is sound and true of its coroutines. -/
structure Accounted (l : License) (w : World) : Prop where
  sound : Sound l w.journal
  tracks : w.Tracks

/-- A session begins with nothing going on. -/
theorem accounted_start (l : License) (c : Config) (layout : Ref .object → Nat) :
    (start c layout).Accounted l where
  sound := sound_nil l
  tracks co := by
    have hdead : ((start c layout).coroutine co).status = .dead := by
      simp [start, coroutine, Store.empty, Store.get?]
    rw [hdead]
    exact iff_of_false (by decide) List.not_mem_nil

/-- Whatever is made of composed acts leaves an accounted world accounted. -/
theorem Accounted.outcome {l : License} {w : World} {ε α : Type} [Names ε] {m : Act ε α}
    {Q : Set Mention → α → Prop} (h : w.Accounted l) (hw : w.Within l)
    (hm : Composed l (inside (ongoing w.journal)) Set.univ m Q) : (m.outcome w).2.Accounted l := by
  have heff := (hm.effects hw).1
  exact ⟨heff.sound rfl h.sound, heff.tracks h.tracks⟩

/-- What can be done with a context of the given state leaves the world accounted: the running
context is in the state of the code around it, a new one is outside every coroutine. -/
structure AllowsContext (l : License) (w : World) (b : Bool) : Prop where
  call : ∀ n f args, ((callWithin n b f args).outcome w).2.Accounted l
  callValue : ∀ n v args, ((apply (callWithin n) b v args).outcome w).2.Accounted l
  invoke : ∀ n t k args, ((invoke (callWithin n) b t k args).outcome w).2.Accounted l
  index : ∀ t k, ((index b t k).outcome w).2.Accounted l
  setIndex : ∀ t k v, ((setIndex b t k v).outcome w).2.Accounted l
  resume : ∀ n c args, ((resume (callWithin n) c args).outcome w).2.Accounted l
  hostCall : ∀ n via f args, ((hostCall (callWithin n) b via f args).outcome w).2.Accounted l

/-- Each of these is composed of the operations, whatever the context is, if the license lets one enter
it. -/
theorem Accounted.allowsContext {l : License} {w : World} {b : Bool} (h : w.Accounted l)
    (hw : w.Within l) (hb : l.Enters (inside (ongoing w.journal)) b) : w.AllowsContext l b where
  call n f args := h.outcome hw (callWithin_composed l n _ b f args hb (.univ args))
  callValue n v args := h.outcome hw (apply_composed (callWithin_composed l n) hb v (.univ args))
  invoke n t k args :=
    h.outcome hw (invoke_composed (callWithin_composed l n) hb t k (.univ args))
  index t k := h.outcome hw (index_composed hb t k)
  setIndex t k v := h.outcome hw (setIndex_composed hb t (.univ k) (.univ v))
  resume n c args := h.outcome hw (resume_composed (callWithin_composed l n) c (.univ args))
  hostCall n via f args :=
    h.outcome hw (hostCall_composed (callWithin_composed l n) hb via f (.univ args))

end World

/-! ### Sessions -/

/-- **Bodies below entry points.** In every session, a body is only started where the code around it
is outside every coroutine. So while a coroutine is running a body is started only below a call
that is going on and that was begun outside by code inside a coroutine, with no resumption since;
and only a license to use the entry points of the host in script bodies allows such a call. The
journal is true of the coroutines in the end, when none is running, and after every use of a
context, be it the running one or one that an entry point has made. -/
theorem body_below_entry_point (l : License) (c : Config) (layout : Ref .object → Nat)
    (ops : Program) (h : Op.allWithin l true ops = true) :
    (let w := (World.start c layout).after ops;
      (∀ later e earlier, w.journal = later ++ e :: earlier → e.isBody = true →
        inside (ongoing earlier) = false ∧
          (resumptions (ongoing earlier) ≠ [] → l.direct = true ∧ Escapes (ongoing earlier))) ∧
      ∀ co, (w.coroutine co).status ≠ .running) ∧
    ∀ w : World, w.Accounted l → w.Within l → ∀ b, l.Enters (inside (ongoing w.journal)) b →
      w.AllowsContext l b := by
  refine ⟨?_, fun w hw hwithin b hb => hw.allowsContext hwithin hb⟩
  have hstep : ∀ (w : World) (op : Op), w.Within l → op.within l true = true →
      w.Accounted l ∧ ongoing w.journal = [] →
      (w.step op).2.Accounted l ∧ ongoing (w.step op).2.journal = [] := by
    rintro w op hw hop ⟨⟨hs, ht⟩, ho⟩
    have heff := World.step_effects hw hop
    -- Between operations nothing is going on, so each of them begins outside.
    have hout : false = inside (ongoing w.journal) := by rw [ho]; rfl
    exact ⟨⟨heff.sound hout hs, heff.tracks ht⟩, heff.ongoing_eq.trans ho⟩
  obtain ⟨-, ⟨hs, ht⟩, ho⟩ := World.after_induction hstep h (World.Within.start c layout)
    ⟨World.accounted_start l c layout, rfl⟩
  refine ⟨fun later e earlier hj he => ?_, fun co hco => ?_⟩
  -- A body was started outside, so if a coroutine ran around it the call had escaped.
  · obtain ⟨hout, hn⟩ := hs.2 later e earlier hj he
    refine ⟨hout, fun hrunning => ?_⟩
    have hescapes := Escapes.of_resumptions hout hrunning
    exact ⟨hescapes.direct hn, hescapes⟩
  -- A running coroutine would be among what is going on.
  · have hmem := (ht co).mp hco
    rw [ho] at hmem
    cases hmem

/-- A coroutine calls a host function through the bridge. The function tells how the coroutine is
doing. -/
def escapingSession : Program :=
  let quietly (store : Option String) : Disposition := ⟨store, some "failure", false, true⟩
  [.hostFunction (quietly none) "touch" [] .global
      [.act ⟨none, none, true, false⟩ (.call (.coroutineStatus "co"))],
    .function (quietly (some "inner")) "inner" false false
      [.act (quietly none) (.call (.bridgeCallGlobal "touch" (.list [])))],
    .act (quietly (some "co")) (.call (.coroutine (.var "inner" 0))),
    .act (quietly none) (.call (.resume "co" (.list [])))]

/-- In this session a body is started while a coroutine is running, so it is below a call that has
escaped. -/
theorem body_below_entry_point_escapingSession :
    Op.allWithin .all true escapingSession = true ∧
    let w := (World.start .default fun r => r.index).after escapingSession
    w.journal.tails.any (fun
      | e :: earlier => e.isBody && !(resumptions (ongoing earlier)).isEmpty
      | [] => false) = true ∧
    ∀ later e earlier, w.journal = later ++ e :: earlier → e.isBody = true →
      inside (ongoing earlier) = false ∧ (resumptions (ongoing earlier) ≠ [] →
        License.all.direct = true ∧ Escapes (ongoing earlier)) := by
  have hwithin := Op.allWithin_all true escapingSession
  have hbelow := body_below_entry_point .all .default (fun r => r.index) escapingSession hwithin
  exact ⟨hwithin, by decide +kernel, hbelow.1.1⟩

/-- **The guard is escaped**: in this session the body of a host function is started while a
coroutine has the status running, as the body itself has logged. -/
theorem body_started_while_running :
    let w := (World.start .default fun r => r.index).after escapingSession
    w.journal.tails.any (fun
      | e :: earlier => e.isBody && !(resumptions (ongoing earlier)).isEmpty
      | [] => false) = true ∧
    w.log.any (fun
      | .coroutine .running _ _ => true
      | _ => false) = true :=
  ⟨by decide +kernel, by decide +kernel⟩

end ScriptHost
