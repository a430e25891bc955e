import Mathlib.Data.List.Basic
import Mathlib.Data.List.Infix

/-!
# Lib — reading items off a stream

A stream arrives in pieces.  A `Reader` takes one item from the front of what is there, or waits
for more; what arrives later does not change an item it has taken.

`items` are the items of a stream that is there as a whole.  `Takes s bs r` says that `bs` was taken
and `r` is left, whenever the pieces of `s` arrived: `Takes.arrive` and `Takes.trans` are the two
steps of a run, and `Takes.items_eq` says that the pieces do not matter.  Nothing here names a
program.
-/

/-- Takes an item from the front of a list, or waits. -/
structure Reader (α β : Type*) where
  next : List α → Option (β × List α)
  /-- an item is made of something -/
  shorter : ∀ {s b r}, next s = some (b, r) → r.length < s.length
  /-- an item is not changed by what comes after it -/
  stable : ∀ {s b r} (t : List α), next s = some (b, r) → next (s ++ t) = some (b, r ++ t)

namespace Reader

variable {α β : Type*} (R : Reader α β)

/-- The items of a stream. -/
def items (s : List α) : List β :=
  match _h : R.next s with
  | none => []
  | some (b, r) => b :: items r
termination_by s.length
decreasing_by exact R.shorter _h

variable {R} {s r t : List α} {b : β} {bs : List β}

theorem items_none (h : R.next s = none) : R.items s = [] := by
  rw [items]
  split
  · rfl
  · next h' => rw [h] at h'; cases h'

theorem items_some (h : R.next s = some (b, r)) : R.items s = b :: R.items r := by
  rw [items]
  split
  · next h' => rw [h] at h'; cases h'
  · next h' =>
    rw [h] at h'
    cases h'
    rfl

variable (R) in
/-- From `s`, the items `bs` were taken and `r` is left. -/
inductive Takes : List α → List β → List α → Prop where
  | refl (s : List α) : Takes s [] s
  | next {s s' r : List α} {b : β} {bs : List β} :
      R.next s = some (b, s') → Takes s' bs r → Takes s (b :: bs) r

namespace Takes

/-- More arrives. -/
theorem arrive (h : R.Takes s bs r) (t : List α) : R.Takes (s ++ t) bs (r ++ t) := by
  induction h with
  | refl s => exact .refl _
  | next hn _ ih => exact .next (R.stable t hn) ih

theorem trans {bs' : List β} (h : R.Takes s bs r) (h' : R.Takes r bs' t) :
    R.Takes s (bs ++ bs') t := by
  induction h with
  | refl s => exact h'
  | next hn _ ih => exact .next hn (ih h')

theorem eq_of_nil (h : R.Takes s [] r) : s = r := by
  cases h
  rfl

/-- What was taken is how the items of the stream begin, however it arrived. -/
theorem items_eq (h : R.Takes s bs r) : R.items s = bs ++ R.items r := by
  induction h with
  | refl s => rfl
  | next hn _ ih => rw [items_some hn, ih, List.cons_append]

/-- When the reader waits, everything was taken. -/
theorem items_of_none (h : R.Takes s bs r) (hr : R.next r = none) : R.items s = bs := by
  rw [h.items_eq, items_none hr, List.append_nil]

end Takes

end Reader
