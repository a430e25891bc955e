import Mathlib.Data.List.Basic

/-!
# Lib — association lists

What is found in a list of pairs, after the entries of a key were changed or removed.  Nothing here names a
program.
-/

namespace Assoc

variable {α β : Type} [BEq α] [LawfulBEq α] [DecidableEq α]

/-- Change the values of a key. -/
def change (k : α) (f : β → β) (l : List (α × β)) : List (α × β) :=
  l.map fun e => if e.1 = k then (e.1, f e.2) else e

/-- Remove the entries of a key. -/
def remove (k : α) (l : List (α × β)) : List (α × β) := l.filter (·.1 ≠ k)

theorem lookup_change (k k' : α) (f : β → β) (l : List (α × β)) :
    (change k f l).lookup k' = if k' = k then (l.lookup k').map f else l.lookup k' := by
  induction l with
  | nil => simp [change]
  | cons e l ih =>
      have hcons : change k f (e :: l) = (if e.1 = k then (e.1, f e.2) else e) :: change k f l := rfl
      rw [hcons, List.lookup_cons, List.lookup_cons, ih]
      have hkey : (if e.1 = k then (e.1, f e.2) else e).1 = e.1 := by split <;> rfl
      rw [hkey]
      by_cases hk : k' = e.1
      · subst hk
        by_cases he : e.1 = k <;> simp [he]
      · rw [beq_eq_false_iff_ne.mpr hk]

theorem lookup_remove (k k' : α) (l : List (α × β)) :
    (remove k l).lookup k' = if k' = k then none else l.lookup k' := by
  induction l with
  | nil => simp [remove]
  | cons e l ih =>
      rw [remove, List.filter_cons, List.lookup_cons]
      by_cases he : e.1 = k
      · rw [if_neg (by simp [he]), ← remove, ih]
        by_cases hk : k' = k
        · rw [if_pos hk, if_pos hk]
        · rw [if_neg hk, if_neg hk, beq_eq_false_iff_ne.mpr fun h => hk (h.trans he)]
      · rw [if_pos (by simp [he]), List.lookup_cons, ← remove, ih]
        by_cases hk : k' = e.1
        · subst hk
          simp [he]
        · rw [beq_eq_false_iff_ne.mpr hk]

/-- A new value behind the others, in the place of the old one. -/
theorem lookup_remove_snoc (k k' : α) (v : β) (l : List (α × β)) :
    (remove k l ++ [(k, v)]).lookup k' = if k' = k then some v else l.lookup k' := by
  rw [List.lookup_append, lookup_remove]
  by_cases hk : k' = k
  · simp [hk]
  · simp [hk, List.lookup_cons, beq_eq_false_iff_ne.mpr hk]

end Assoc
