import ScriptHost.Handle

/-!
# Stores

A store holds all things of one kind that were ever made. It only grows: a handle that was given out
reads back as long as the run lasts, and what is made later has a different handle.

Main statements: `get?_push_self`, `get?_push_of_lt`, `get?_set_self` and `get?_set_ne` say what
reading gives after making and after changing; `get?_push_cases` and `get?_set` put the cases
together.
-/

set_option autoImplicit false

namespace ScriptHost

/-- All things of kind `k` ever made. -/
structure Store (k : Kind) (α : Type) where
  items : Array α

namespace Store

variable {k : Kind} {α : Type}

def empty : Store k α := ⟨#[]⟩

def size (s : Store k α) : Nat := s.items.size

/-- Reading through a handle. -/
def get? (s : Store k α) (r : Ref k) : Option α := s.items[r.index]?

/-- The handle of the next thing to be made. -/
def next (s : Store k α) : Ref k := ⟨s.items.size⟩

/-- The store with one more thing, under the handle `next`. -/
def push (s : Store k α) (a : α) : Store k α := ⟨s.items.push a⟩

/-- The store with one thing changed. -/
def set (s : Store k α) (r : Ref k) (a : α) : Store k α := ⟨s.items.setIfInBounds r.index a⟩

/-- All handles given out. -/
def refs (s : Store k α) : List (Ref k) := (List.range s.items.size).map Ref.mk

/-- What was put last is found under the reference that was next. -/
theorem get?_push_self (s : Store k α) (a : α) : (s.push a).get? s.next = some a := by
  simp [get?, push, next]

theorem get?_push_of_lt (s : Store k α) (a : α) {r : Ref k} (h : r.index < s.size) :
    (s.push a).get? r = s.get? r := by
  simp only [get?, push, size] at *
  rw [Array.getElem?_push_lt h, Array.getElem?_eq_getElem h]

/-- What is read after one more thing was made is new or was there before. -/
theorem get?_push_cases {s : Store k α} {a x : α} {r : Ref k} (h : (s.push a).get? r = some x) :
    r = s.next ∧ x = a ∨ s.get? r = some x := by
  simp only [get?, push, next, Array.getElem?_push] at h ⊢
  split at h
  · next hr => exact .inl ⟨by cases r; simp_all, (Option.some.inj h).symm⟩
  · exact .inr h

/-- What could be read before can be read after one more thing was made. -/
theorem get?_push_of_some {s : Store k α} {x : α} {r : Ref k} (a : α) (h : s.get? r = some x) :
    (s.push a).get? r = some x := by
  have hr : r.index < s.size := (Array.getElem?_eq_some_iff.mp h).1
  rw [get?_push_of_lt s a hr, h]

/-- What was put into a place that exists is found there. -/
theorem get?_set_self (s : Store k α) (a : α) {r : Ref k} (h : r.index < s.size) :
    (s.set r a).get? r = some a := by
  simp only [get?, set, size] at *
  simp [h]

theorem get?_set_ne (s : Store k α) (a : α) {r q : Ref k} (h : q ≠ r) :
    (s.set r a).get? q = s.get? q := by
  have hi : r.index ≠ q.index := fun e => h (by cases q; cases r; simp_all)
  simp [get?, set, hi]

/-- Reading after a change, whichever thing is read. -/
theorem get?_set (s : Store k α) (r q : Ref k) (a : α) :
    (s.set r a).get? q = if q = r then (s.get? q).map fun _ => a else s.get? q := by
  split
  · next h =>
    subst h
    by_cases hq : q.index < s.size
    · rw [get?_set_self s a hq, get?, Array.getElem?_eq_getElem hq, Option.map_some]
    · have hn : s.items.size ≤ q.index := Nat.le_of_not_lt hq
      simp [get?, set, hn]
  · next h => exact get?_set_ne s a h

/-- What is read after a change is what was written or was there before. -/
theorem get?_set_cases {s : Store k α} {r q : Ref k} {a x : α} (h : (s.set r a).get? q = some x) :
    x = a ∨ s.get? q = some x := by
  rw [get?_set] at h
  split at h
  · obtain ⟨-, -, rfl⟩ := Option.map_eq_some_iff.mp h
    exact .inl rfl
  · exact .inr h

/-- The handle of the next thing reads as nothing yet. -/
theorem get?_next (s : Store k α) : s.get? s.next = none := by
  simp [get?, next]

/-- Changing one thing and making another can be done in either order. -/
theorem set_push {s : Store k α} {r : Ref k} {x : α} (b a : α) (h : s.get? r = some x) :
    (s.push b).set r a = (s.set r a).push b := by
  have hlt : r.index < s.items.size := (Array.getElem?_eq_some_iff.mp h).1
  have hlt' : r.index < (s.items.push b).size := by
    rw [Array.size_push]
    exact Nat.lt_succ_of_lt hlt
  simp only [push, set, Array.setIfInBounds, dif_pos hlt, dif_pos hlt', Array.set_push]

/-- Of two changes of one thing the second counts. -/
theorem set_set (s : Store k α) (r : Ref k) (a b : α) : (s.set r a).set r b = s.set r b :=
  congrArg Store.mk (Array.setIfInBounds_setIfInBounds a)

theorem next_set (s : Store k α) (r : Ref k) (a : α) : (s.set r a).next = s.next := by
  simp [next, set]

/-- The handles given out are those that can be read. -/
theorem mem_refs {s : Store k α} {r : Ref k} : r ∈ s.refs ↔ ∃ x, s.get? r = some x := by
  simp only [refs, get?, List.mem_map, List.mem_range]
  constructor
  · rintro ⟨i, hi, rfl⟩
    exact ⟨s.items[i], Array.getElem?_eq_getElem hi⟩
  · rintro ⟨x, hx⟩
    exact ⟨r.index, (Array.getElem?_eq_some_iff.mp hx).1, rfl⟩

@[simp] theorem size_push (s : Store k α) (a : α) : (s.push a).size = s.size + 1 := by
  simp [size, push]

@[simp] theorem size_set (s : Store k α) (r : Ref k) (a : α) : (s.set r a).size = s.size := by
  simp [size, set]

end Store

end ScriptHost
