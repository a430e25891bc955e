import Mathlib.Data.List.Basic

/-!
# Lib — heaps of objects

A heap maps the address of an object to the object, and a free address to nothing.  Addresses are
never handed out twice, so that an address left behind in a pointer is seen to be free.
-/

/-- An address. -/
abbrev Ref := ℕ

/-- Objects by address. -/
abbrev Heap (α : Type) : Type := Ref → Option α

namespace Heap

variable {α : Type}

def empty : Heap α := fun _ => none

/-- Store an object at an address. -/
def set (h : Heap α) (r : Ref) (a : α) : Heap α := fun x => if x = r then some a else h x

/-- Free an address. -/
def del (h : Heap α) (r : Ref) : Heap α := fun x => if x = r then none else h x

@[simp] theorem set_same (h : Heap α) (r : Ref) (a : α) : h.set r a r = some a := by
  simp [set]

theorem set_other {h : Heap α} {r x : Ref} {a : α} (e : x ≠ r) : h.set r a x = h x := by
  simp [set, e]

theorem set_apply (h : Heap α) (r x : Ref) (a : α) :
    h.set r a x = if x = r then some a else h x := rfl

theorem del_other {h : Heap α} {r x : Ref} (e : x ≠ r) : h.del r x = h x := by
  simp [del, e]

theorem del_apply (h : Heap α) (r x : Ref) : h.del r x = if x = r then none else h x := rfl

@[simp] theorem set_set (h : Heap α) (r : Ref) (a b : α) : (h.set r a).set r b = h.set r b := by
  funext x
  simp only [set_apply]
  split <;> rfl

theorem set_eq_self {h : Heap α} {r : Ref} {a : α} (e : h r = some a) : h.set r a = h := by
  funext x
  rw [set_apply]
  split
  · subst_vars; exact e.symm
  · rfl

/-- What a free leaves was there before. -/
theorem of_del {h : Heap α} {r x : Ref} {a : α} (e : h.del r x = some a) : h x = some a := by
  rw [del_apply] at e
  split at e
  · cases e
  · exact e

theorem del_none {h : Heap α} {r x : Ref} (e : h x = none) : h.del r x = none := by
  rw [del_apply, e, ite_self]

@[simp] theorem del_set (h : Heap α) (r : Ref) (a : α) : (h.set r a).del r = h.del r := by
  funext x
  simp only [del_apply, set_apply]
  split <;> rfl

/-- What holds of every object and of a new one holds of every object after it is stored. -/
theorem forall_set {P : α → Prop} {h : Heap α} {r : Ref} {a : α}
    (hh : ∀ x b, h x = some b → P b) (ha : P a) : ∀ x b, h.set r a x = some b → P b := by
  intro x b hx
  rw [set_apply] at hx
  split at hx
  · cases hx
    exact ha
  · exact hh x b hx

end Heap
