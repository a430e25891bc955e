import Ctrlproxy.Lib.Outcome

/-!
# Lib — strings in arrays of cells

An array has a fixed number of cells.  It holds a string as C does: the elements in the first cells,
and a terminator behind the last.  A cell is `some a`, or `none` for the terminator.

Every access names its cell, and one outside of the array is a fault (`Access`).  The rules say what an
access does to an array that is written as what is in front of the cell, the cell, and what is behind it;
`Filled` and `Holds` are the arrays that a string has been put into.  Nothing here names a program.
-/

open Outcome

/-- An access to memory that is not there: outside of an array, or through `NULL`. -/
inductive Access where
  | read
  | write
  deriving DecidableEq, Repr

/-- An array of cells. -/
abbrev Cells (α : Type) := List (Option α)

namespace Cells

variable {α : Type}

/-- Read a cell. -/
def load (cells : Cells α) (i : ℕ) : Except Access (Option α) :=
  match cells[i]? with
  | some v => .ok v
  | none => .error .read

/-- Write a cell. -/
def store (cells : Cells α) (i : ℕ) (v : Option α) : Except Access (Cells α) :=
  if i < cells.length then .ok (cells.set i v) else .error .write

/-- Write one cell behind the other. -/
def storeAll (cells : Cells α) (i : ℕ) : List (Option α) → Except Access (Cells α)
  | [] => .ok cells
  | v :: vs => do
      let cells ← store cells i v
      storeAll cells (i + 1) vs

/-- The string in the first cells: what is in front of the first terminator. -/
def text : Cells α → Except Access (List α)
  | [] => .error .read
  | none :: _ => .ok []
  | some a :: cells => (text cells).map (a :: ·)

/-- The first cell from `i` on at which a loop over the cells stops. -/
def seek (cells : Cells α) (stop : Option α → Bool) (i : ℕ) : Except Access ℕ :=
  match (cells.drop i).findIdx? stop with
  | some k => .ok (i + k)
  | none => .error .read

/-- The string a pointer to a cell leads to. -/
def textAt (cells : Cells α) (i : ℕ) : Except Access (List α) := text (cells.drop i)

/-- `strncat`: no more than `n` elements of a string behind the string in the array, and a terminator. -/
def strncat (cells : Cells α) (t : List α) (n : ℕ) : Except Access (Cells α) := do
  let s ← text cells
  storeAll cells s.length ((t.take n).map some ++ [none])

/-- The first cells have the elements of a string. -/
def Filled (cells : Cells α) (s : List α) : Prop := ∃ rest, cells = s.map some ++ rest

/-- The array holds a string. -/
def Holds (cells : Cells α) (s : List α) : Prop := ∃ rest, cells = s.map some ++ none :: rest

/-! ### One cell -/

section
variable {cells : Cells α} {s t : List α}

theorem load_append (pre : Cells α) (v : Option α) (post : Cells α) :
    load (pre ++ v :: post) pre.length = .ok v := by
  simp [load]

theorem store_append (pre : Cells α) (v w : Option α) (post : Cells α) :
    store (pre ++ v :: post) pre.length w = .ok (pre ++ w :: post) := by
  simp [store]

/-- A cell that was written is written again. -/
theorem store_again {cells' : Cells α} {i : ℕ} {v : Option α} (h : store cells i v = .ok cells')
    (w : Option α) : store cells' i w = store cells i w := by
  unfold store at h ⊢
  split at h
  · next hi =>
    cases h
    rw [List.length_set, if_pos hi, if_pos hi, List.set_set]
  · cases h

/-! ### Several cells -/

/-- Cells that are there are overwritten, and the others stay. -/
theorem storeAll_append (pre old post vs : Cells α) (h : old.length = vs.length) :
    storeAll (pre ++ old ++ post) pre.length vs = .ok (pre ++ vs ++ post) := by
  induction vs generalizing pre old with
  | nil =>
      obtain rfl := List.length_eq_zero_iff.mp h
      rfl
  | cons v vs ih =>
      cases old with
      | nil => cases h
      | cons o old =>
          have hnext := ih (pre ++ [v]) old (by simpa using h)
          rw [storeAll, List.append_assoc, List.cons_append, store_append, ok_bind]
          simpa using hnext

theorem storeAll_eq {vs : Cells α} {i : ℕ} (h : i + vs.length ≤ cells.length) :
    storeAll cells i vs = .ok (cells.take i ++ vs ++ cells.drop (i + vs.length)) := by
  have hsplit : cells = cells.take i ++ (cells.drop i).take vs.length ++ cells.drop (i + vs.length) := by
    rw [← List.drop_drop, List.append_assoc, List.take_append_drop, List.take_append_drop]
  have hlen : (cells.take i).length = i := by
    rw [List.length_take]
    omega
  have hrun := storeAll_append (cells.take i) ((cells.drop i).take vs.length)
    (cells.drop (i + vs.length)) vs (by simp; omega)
  rwa [← hsplit, hlen] at hrun

/-- A write that does not fit leaves the array. -/
theorem storeAll_error {vs : Cells α} {i : ℕ} (hi : i ≤ cells.length)
    (h : cells.length < i + vs.length) : storeAll cells i vs = .error .write := by
  induction vs generalizing cells i with
  | nil => simp at h; omega
  | cons v vs ih =>
      rw [storeAll, store]
      split
      · next hlt =>
        rw [ok_bind]
        exact ih (by rw [List.length_set]; omega) (by simp at h ⊢; omega)
      · rfl

/-! ### Strings -/

theorem Holds.text_eq (h : Holds cells s) : text cells = .ok s := by
  obtain ⟨rest, rfl⟩ := h
  induction s with
  | nil => rfl
  | cons a s ih =>
      rw [List.map_cons, List.cons_append, text, ih]
      rfl

/-- A string that ends in an array is the same in a longer one. -/
theorem text_append {s : List α} (h : text cells = .ok s) (post : Cells α) :
    text (cells ++ post) = .ok s := by
  induction cells generalizing s with
  | nil => cases h
  | cons v cells ih =>
      cases v with
      | none => exact h
      | some a =>
          obtain ⟨s, hs, rfl⟩ := map_eq_ok h
          rw [List.cons_append, text, ih hs]
          rfl

theorem textAt_append {i : ℕ} {s : List α} (h : textAt cells i = .ok s) (post : Cells α) :
    textAt (cells ++ post) i = .ok s := by
  rw [textAt, List.drop_append]
  exact text_append h _

/-- A string behind other cells. -/
theorem textAt_eq (pre : Cells α) (s : List α) (post : Cells α) :
    textAt (pre ++ (s.map some ++ none :: post)) pre.length = .ok s := by
  rw [textAt, List.drop_left]
  exact Holds.text_eq ⟨post, rfl⟩

/-- A loop stops behind the cells it passes. -/
theorem seek_append {stop : Option α → Bool} (pre mid : Cells α) {v : Option α} (post : Cells α)
    (hmid : ∀ u ∈ mid, stop u = false) (hv : stop v = true) :
    seek (pre ++ (mid ++ v :: post)) stop pre.length = .ok (pre.length + mid.length) := by
  have hfind : (mid ++ v :: post).findIdx? stop = some mid.length := by
    induction mid with
    | nil => simp [List.findIdx?_cons, hv]
    | cons u mid ih =>
        rw [List.cons_append, List.findIdx?_cons, hmid u List.mem_cons_self,
          ih fun w hw => hmid w (List.mem_cons_of_mem _ hw)]
        simp
  rw [seek, List.drop_left, hfind]

theorem Holds.length_lt (h : Holds cells s) : s.length < cells.length := by
  obtain ⟨rest, rfl⟩ := h
  simp

theorem Filled.nil (cells : Cells α) : Filled cells [] := ⟨cells, rfl⟩

/-- One more element behind a string. -/
theorem Filled.store (h : Filled cells s) (a : α) (hlt : s.length < cells.length) :
    ∃ cells', cells.store s.length (some a) = .ok cells' ∧ cells'.length = cells.length ∧
      Filled cells' (s ++ [a]) := by
  obtain ⟨rest, rfl⟩ := h
  cases rest with
  | nil => simp at hlt
  | cons v rest =>
      have hstore := store_append (s.map some) v (some a) rest
      rw [List.length_map] at hstore
      exact ⟨_, hstore, by simp, rest, by simp⟩

/-- The terminator behind a string. -/
theorem Filled.terminate (h : Filled cells s) (hlt : s.length < cells.length) :
    ∃ cells', cells.store s.length none = .ok cells' ∧ cells'.length = cells.length ∧ Holds cells' s := by
  obtain ⟨rest, rfl⟩ := h
  cases rest with
  | nil => simp at hlt
  | cons v rest =>
      have hstore := store_append (s.map some) v none rest
      rw [List.length_map] at hstore
      exact ⟨_, hstore, by simp, rest, rfl⟩

theorem Holds.filled (h : Holds cells s) : Filled cells s := by
  obtain ⟨rest, rfl⟩ := h
  exact ⟨none :: rest, rfl⟩

/-- `strncat` appends what it may, if that fits with its terminator. -/
theorem Holds.strncat (h : Holds cells s) {n : ℕ} (hlt : s.length + (t.take n).length < cells.length) :
    ∃ cells', cells.strncat t n = .ok cells' ∧ cells'.length = cells.length ∧
      Holds cells' (s ++ t.take n) := by
  have hfit : s.length + ((t.take n).map some ++ [none]).length ≤ cells.length := by
    simp at hlt ⊢
    omega
  have htake : cells.take s.length = s.map some := by
    obtain ⟨rest, rfl⟩ := h
    simp
  have hrun := storeAll_eq hfit
  rw [htake] at hrun
  refine ⟨_, by rw [Cells.strncat, h.text_eq, ok_bind, hrun], ?_, ?_⟩
  · simp at hfit ⊢
    omega
  · exact ⟨cells.drop (s.length + ((t.take n).map some ++ [none]).length), by simp⟩

/-- Otherwise it writes behind the array. -/
theorem Holds.strncat_error (h : Holds cells s) {n : ℕ}
    (hle : cells.length ≤ s.length + (t.take n).length) : cells.strncat t n = .error .write := by
  rw [Cells.strncat, h.text_eq, ok_bind]
  refine storeAll_error (Nat.le_of_lt h.length_lt) ?_
  simp at hle ⊢
  omega

end

end Cells
