import ScriptHost.Session

/-!
# Worlds that look alike

Two worlds are alike when they differ in their classes only and when these show no difference: the
same things are alive, classes apart, and every class resolves the same members, holds, makes and
displays the same. What operations look at, apart from the declarations themselves, cannot tell such
worlds apart: `Unseeing` says so of one look, and there is one lemma for each thing that is looked
at.
-/

set_option autoImplicit false

namespace ScriptHost

namespace World

/-- Worlds that show the same, unless one looks at the declarations of classes. -/
structure Alike (w v : World) : Prop where
  rest : v = { w with classes := v.classes }
  size : v.classes.size = w.classes.size
  /-- Also when more is held from outside. -/
  alive : ∀ hs h, h.kind ≠ .cls → ({ v with held := hs ++ v.held } : World).alive h =
    ({ w with held := hs ++ w.held } : World).alive h
  resolve : ∀ b c k i, (v.binding b).resolve (v.cls c) k i = (w.binding b).resolve (w.cls c) k i
  payloads : ∀ c, (v.cls c).holds = (w.cls c).holds
  constructor : ∀ c, (v.cls c).constructor = (w.cls c).constructor
  display : ∀ c, (v.cls c).display = (w.cls c).display

/-- A look that cannot tell worlds apart which are alike. -/
def Unseeing {α : Type} (f : World → α) : Prop := ∀ w v : World, w.Alike v → f v = f w

/-- A look at anything but classes and liveness. -/
theorem Unseeing.ofRest {α : Type} {f : World → α}
    (h : ∀ (w : World) (cs : Store .cls HostClass), f { w with classes := cs } = f w) :
    Unseeing f := by
  intro w v hv
  rw [hv.rest]
  exact h w v.classes

namespace Alike

variable {w v : World} (h : w.Alike v)
include h

/-- More may be held in both. -/
theorem keep (hs : List Handle) :
    ({ w with held := hs ++ w.held } : World).Alike { v with held := hs ++ v.held } where
  rest := by rw [h.rest]
  size := h.size
  alive := fun hs' x hk => by
    simpa [List.append_assoc] using h.alive (hs' ++ hs) x hk
  resolve := h.resolve
  payloads := h.payloads
  constructor := h.constructor
  display := h.display

/-- What is alive is asked of the kinds of handles that all alike worlds agree on. -/
theorem alive_object (o : Ref .object) : v.alive o.handle = w.alive o.handle :=
  h.alive [] o.handle nofun

theorem alive_userdata (u : UserdataRef) : v.alive u.handle = w.alive u.handle :=
  h.alive [] u.handle nofun

theorem table_eq (t : TableRef) : v.table t = w.table t := by rw [h.rest]; rfl

theorem function_eq (f : FunctionRef) : v.function f = w.function f := by rw [h.rest]; rfl

theorem userdatum_eq (u : UserdataRef) : v.userdatum u = w.userdatum u := by rw [h.rest]; rfl

theorem object_eq (o : ObjectRef) : v.object o = w.object o := by rw [h.rest]; rfl

theorem binding_eq (b : BindingRef) : v.binding b = w.binding b := by rw [h.rest]; rfl

theorem layout_eq : v.layout = w.layout := by rw [h.rest]

theorem proxy?_eq (u : UserdataRef) : v.proxy? u = w.proxy? u := by
  unfold proxy?
  rw [h.userdatum_eq]

/-! ### Liveness -/

/-- A target is reached in one of them if it is in the other. -/
theorem reach?_eq (t : Target) : v.reach? t = w.reach? t := by
  cases t with
  | type c => rfl
  | object o => simp only [reach?, h.alive_object]

theorem targetOf?_eq (p : Proxy) : v.targetOf? p = w.targetOf? p := by
  unfold targetOf?
  cases p.target with
  | none => rfl
  | some t => exact h.reach?_eq t

/-- What a userdata stands for is looked up in parts that they share. -/
theorem proxyTarget?_eq (u : UserdataRef) : v.proxyTarget? u = w.proxyTarget? u := by
  unfold proxyTarget?
  rw [h.proxy?_eq]
  cases w.proxy? u with
  | none => rfl
  | some p => exact h.targetOf?_eq p

theorem isReleased_eq (p : Proxy) : v.isReleased p = w.isReleased p := by
  unfold isReleased
  rw [h.targetOf?_eq]

/-- The cache is keyed by addresses, which they share, and its proxies are alive in both. -/
theorem cachedProxy?_eq (b : BindingRef) (o : ObjectRef) :
    v.cachedProxy? b o = w.cachedProxy? b o := by
  unfold cachedProxy?
  rw [h.binding_eq, h.layout_eq]
  cases ProxyCache.find? (w.binding b).cache (w.layout o.ref) with
  | none => rfl
  | some u => simp only [h.alive_userdata, h.proxyTarget?_eq]

theorem liveCount_eq (b : BindingRef) : v.liveCount b = w.liveCount b := by
  unfold liveCount
  simp only [h.binding_eq, h.alive_userdata]

/-- Hints tell of userdata by their targets. -/
theorem naturalType_eq (x : ScriptValue) : v.naturalType x = w.naturalType x := by
  cases x <;> simp only [naturalType, h.proxyTarget?_eq]

theorem naturalValue_eq (x : ScriptValue) : v.naturalValue x = w.naturalValue x := by
  cases x <;> simp only [naturalValue, h.proxyTarget?_eq]

theorem userdataEquals?_eq (x y : UserdataRef) :
    v.userdataEquals? x y = w.userdataEquals? x y := by
  unfold userdataEquals?
  simp only [h.userdatum_eq, h.targetOf?_eq]

/-- Equality in script asks for targets, and they are the same. -/
theorem equals_eq (x y : ScriptValue) : v.equals x y = w.equals x y := by
  unfold World.equals
  simp only [h.userdataEquals?_eq]

/-! ### Display -/

theorem readableSlots?_eq (o : ObjectRef) : v.readableSlots? o = w.readableSlots? o := by
  unfold readableSlots?
  rw [h.object_eq]

theorem classDisplay?_eq (o : ObjectRef) : v.classDisplay? o = w.classDisplay? o := by
  unfold classDisplay?
  rw [h.display, h.readableSlots?_eq]

theorem proxyDisplay_eq (p : Proxy) : v.proxyDisplay p = w.proxyDisplay p := by
  unfold proxyDisplay
  simp only [h.targetOf?_eq, h.classDisplay?_eq]

theorem userdataDisplay_eq (u : UserdataRef) : v.userdataDisplay u = w.userdataDisplay u := by
  unfold userdataDisplay
  simp only [h.userdatum_eq, h.proxyDisplay_eq]

theorem display_eq (x : ScriptValue) : v.display x = w.display x := by
  cases x <;> simp only [World.display, h.userdataDisplay_eq]

/-! ### Views -/

theorem specialOf_eq (u : UserdataRef) : v.specialOf u = w.specialOf u := by
  unfold specialOf
  simp only [h.userdatum_eq, h.targetOf?_eq]

theorem leafView_eq (x : ScriptValue) : v.leafView x = w.leafView x := by
  cases x <;>
    simp only [leafView, h.function_eq, h.userdatum_eq, h.userdataDisplay_eq, h.specialOf_eq]

theorem keyBefore_eq (x y : ScriptValue) : v.keyBefore x y = w.keyBefore x y := by
  unfold keyBefore
  simp only [h.function_eq, h.userdatum_eq]

theorem sortedPairs_eq (t : Table) : v.sortedPairs t = w.sortedPairs t := by
  unfold sortedPairs
  simp only [h.keyBefore_eq]

/-- Tables are walked through with the same number of steps. -/
theorem walkWithin_eq (n : Nat) : ∀ x, v.walkWithin n x = w.walkWithin n x := by
  -- On how many tables may be entered within each other.
  induction n with
  | zero =>
    intro x
    simp only [walkWithin, h.leafView_eq]
  | succ n ih =>
    intro x
    cases x <;> simp only [walkWithin, h.leafView_eq, h.table_eq, h.sortedPairs_eq, ih]

theorem walk_eq : v.walk = w.walk := by
  funext x
  have hsize : v.tables.size = w.tables.size := by rw [h.rest]
  unfold walk
  rw [hsize, h.walkWithin_eq]

/-- A value shows what it shows, tables and userdata in it included. -/
theorem view_eq (x : ScriptValue) : v.view x = w.view x := by
  unfold view
  rw [h.walk_eq]

theorem views_eq (xs : List ScriptValue) : v.views xs = w.views xs := by
  unfold views
  rw [h.walk_eq]

omit h

mutual

/-- Host values show the script values inside them. -/
theorem innerView_eq (h : w.Alike v) : ∀ x : HostValue, v.innerView x = w.innerView x
  | .array items => by simp only [innerView, innerViews_eq h items]
  | .script x => by simp only [innerView, h.view_eq]
  | .null | .bool _ | .int _ | .uint _ | .float _ | .string _ | .object _ | .cls _ => by
    simp only [innerView]

theorem innerViews_eq (h : w.Alike v) : ∀ xs : List HostValue, v.innerViews xs = w.innerViews xs
  | [] => by simp only [innerViews]
  | x :: xs => by simp only [innerViews, innerView_eq h x, innerViews_eq h xs]

end

include h

theorem slotsView_eq (o : ObjectRef) : v.slotsView o = w.slotsView o := by
  unfold slotsView
  simp only [h.readableSlots?_eq, h.innerView_eq]

omit h

mutual

/-- A host object shows its slots, and these are shared. -/
theorem hostView_eq (h : w.Alike v) : ∀ x : HostValue, v.hostView x = w.hostView x
  | .array items => by simp only [hostView, hostViews_eq h items]
  | .object o => by simp only [hostView, h.slotsView_eq]
  | .null | .bool _ | .int _ | .uint _ | .float _ | .string _ | .cls _ | .script _ => by
    simp only [hostView, h.innerView_eq]

theorem hostViews_eq (h : w.Alike v) : ∀ xs : List HostValue, v.hostViews xs = w.hostViews xs
  | [] => by simp only [hostViews]
  | x :: xs => by simp only [hostViews, hostView_eq h x, hostViews_eq h xs]

end

include h

theorem raisedView_eq (e : ScriptError) : v.raisedView e = w.raisedView e := by
  unfold raisedView
  rw [h.view_eq]

theorem failedView_eq (e : HostFailure) : v.failedView e = w.failedView e := by
  have hview : v.view = w.view := funext h.view_eq
  unfold failedView
  rw [hview]

/-- Failures show their values. -/
theorem failureView_eq (f : Failure) : v.failureView f = w.failureView f := by
  have hk := h.keep (handles f)
  cases f with
  | raised e => exact hk.raisedView_eq e
  | failed e => exact hk.failedView_eq e

/-! ### Dumps -/

/-- A dump names functions and userdata, and looks at no class. -/
theorem dumpScript_eq (x : ScriptValue) : v.dumpScript x = w.dumpScript x := by
  cases x <;> simp only [dumpScript, h.function_eq, h.userdatum_eq]

omit h

mutual

theorem dumpHost_eq (h : w.Alike v) : ∀ x : HostValue, v.dumpHost x = w.dumpHost x
  | .array items => by simp only [dumpHost, dumpHosts_eq h items]
  | .script x => by simp only [dumpHost, h.dumpScript_eq]
  | .null | .bool _ | .int _ | .uint _ | .float _ | .string _ | .cls _ => by
    simp only [dumpHost]
  | .object _ => by simp only [dumpHost, dumpObject]

theorem dumpHosts_eq (h : w.Alike v) : ∀ xs : List HostValue, v.dumpHosts xs = w.dumpHosts xs
  | [] => by simp only [dumpHosts]
  | x :: xs => by simp only [dumpHosts, dumpHost_eq h x, dumpHosts_eq h xs]

end

include h

theorem dumpProxy_eq (p : Proxy) : v.dumpProxy p = w.dumpProxy p := by
  unfold dumpProxy
  rw [h.isReleased_eq]

/-! ### Reports -/

/-- An answer is made of what is shown. -/
theorem answer_eq (r : Reply) : r.answer v = r.answer w := by
  cases r with
  | told a => rfl
  | host x => simp only [Reply.answer, h.hostView_eq]
  | slots o => simp only [Reply.answer, h.slotsView_eq]

theorem hostReport_eq (x : HostValue) : v.hostReport x = w.hostReport x := by
  unfold hostReport
  rw [h.hostView_eq]

theorem valueReport_eq (x : ScriptValue) : valueReport v x = valueReport w x := by
  unfold valueReport
  rw [h.view_eq, h.naturalType_eq]

end Alike

end World

end ScriptHost
