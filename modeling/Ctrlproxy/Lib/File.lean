import Mathlib.Algebra.GroupWithZero.Nat
import Mathlib.Data.List.Basic
import Mathlib.Data.List.Flatten

/-!
# Lib — files

A file is its contents and a position.  Writing replaces what is at the position, so a file that is
only ever appended to has to be brought back to its end after each read.

A file of records of one length, and a number as a record of octets with the least one first, are
read back by `drop` and `take`.  Nothing here names a program.
-/

/-- An open file. -/
structure File (α : Type) where
  data : List α
  pos : ℕ
  deriving DecidableEq

namespace File

variable {α : Type}

def empty : File α := ⟨[], 0⟩

/-- Write at the position, over what is there. -/
def write (f : File α) (xs : List α) : File α :=
  ⟨f.data.take f.pos ++ xs ++ f.data.drop (f.pos + xs.length), f.pos + xs.length⟩

/-- Go to a position. -/
def seek (f : File α) (p : ℕ) : File α := { f with pos := p }

/-- Go to the end. -/
def seekEnd (f : File α) : File α := { f with pos := f.data.length }

/-- What is left to read. -/
def rest (f : File α) : List α := f.data.drop f.pos

/-- Read up to `n` elements. -/
def read (f : File α) (n : ℕ) : List α × File α :=
  (f.rest.take n, { f with pos := f.pos + (f.rest.take n).length })

/-- The position is where the next element of an append-only file goes. -/
def AtEnd (f : File α) : Prop := f.pos = f.data.length

@[simp] theorem seek_data (f : File α) (p : ℕ) : (f.seek p).data = f.data := rfl

@[simp] theorem seek_pos (f : File α) (p : ℕ) : (f.seek p).pos = p := rfl

/-- At the end, to write is to append. -/
theorem AtEnd.write_data {f : File α} (h : f.AtEnd) (xs : List α) :
    (f.write xs).data = f.data ++ xs := by
  have hp : f.pos = f.data.length := h
  simp [File.write, hp]

theorem AtEnd.write {f : File α} (h : f.AtEnd) (xs : List α) : (f.write xs).AtEnd := by
  rw [AtEnd, h.write_data, List.length_append, ← h]
  rfl

/-- A file that was only read is as it was once it is brought back to its end. -/
theorem AtEnd.seekEnd_eq {f g : File α} (h : f.AtEnd) (hd : g.data = f.data) : g.seekEnd = f := by
  obtain ⟨d, p⟩ := f
  obtain rfl : p = d.length := h
  rw [seekEnd, hd]

/-- Reading what is at hand. -/
theorem read_append {f : File α} {xs ys : List α} (h : f.rest = xs ++ ys) :
    f.read xs.length = (xs, { f with pos := f.pos + xs.length }) := by
  simp [read, h]

theorem rest_advance {f : File α} {xs ys : List α} (h : f.rest = xs ++ ys) :
    ({ f with pos := f.pos + xs.length } : File α).rest = ys := by
  rw [rest, ← List.drop_drop]
  exact (congrArg (List.drop xs.length) h).trans List.drop_left

/-- To write twice is to write both at once. -/
theorem write_write {f : File α} (h : f.pos ≤ f.data.length) (xs ys : List α) :
    (f.write xs).write ys = f.write (xs ++ ys) := by
  have hlen : (f.data.take f.pos ++ xs).length = f.pos + xs.length := by
    rw [List.length_append, List.length_take, Nat.min_eq_left h]
  simp only [File.write]
  rw [List.take_left' hlen, List.length_append, ← Nat.add_assoc, ← List.drop_drop (i := ys.length),
    List.drop_left' hlen, List.drop_drop, ← List.append_assoc (f.data.take f.pos)]

theorem write_pos_le {f : File α} (h : f.pos ≤ f.data.length) (xs : List α) :
    (f.write xs).pos ≤ (f.write xs).data.length := by
  simp only [File.write, List.length_append, List.length_take, Nat.min_eq_left h]
  exact Nat.le_add_right _ _

/-- Writes one after the other are one write. -/
theorem foldl_write {f : File α} (h : f.pos ≤ f.data.length) (ls : List (List α)) :
    ls.foldl File.write f = f.write ls.flatten := by
  induction ls generalizing f with
  | nil => simp [File.write]
  | cons l ls ih =>
      rw [List.foldl_cons, ih (write_pos_le h l), write_write h]
      rfl

end File

/-! ### Records of one length -/

/-- The records from the `i`-th on begin where the `i` before them end. -/
theorem drop_flatMap_of_length {α β : Type} {enc : α → List β} {k : ℕ} {l : List α}
    (h : ∀ a ∈ l, (enc a).length = k) (i : ℕ) :
    (l.flatMap enc).drop (i * k) = (l.drop i).flatMap enc := by
  induction l generalizing i with
  | nil => simp
  | cons a l ih =>
      cases i with
      | zero => simp
      | succ i =>
          have ha : (enc a).length = k := h a List.mem_cons_self
          have hl := ih (fun b hb => h b (List.mem_cons_of_mem _ hb)) i
          rw [List.flatMap_cons, Nat.succ_mul, Nat.add_comm, ← List.drop_drop, ← ha,
            List.drop_left, ha, hl]
          rfl

theorem length_flatMap_of_length {α β : Type} {enc : α → List β} {k : ℕ} {l : List α}
    (h : ∀ a ∈ l, (enc a).length = k) : (l.flatMap enc).length = l.length * k := by
  induction l with
  | nil => simp
  | cons a l ih =>
      rw [List.flatMap_cons, List.length_append, h a List.mem_cons_self,
        ih fun b hb => h b (List.mem_cons_of_mem _ hb), List.length_cons, Nat.succ_mul]
      omega

/-- The records from the `i`-th on begin where the `i` before them end. -/
theorem drop_flatMap {α β : Type} (enc : α → List β) (l : List α) (i : ℕ) :
    (l.flatMap enc).drop ((l.take i).flatMap enc).length = (l.drop i).flatMap enc := by
  conv_lhs => rw [← List.take_append_drop i l, List.flatMap_append]
  rw [List.take_append_drop, List.drop_left]

/-! ### Numbers in octets -/

abbrev Octet := Fin 256

instance neZero_octet : NeZero 256 := ⟨by decide⟩

/-- The `k` low octets of a number, the least one first. -/
def toOctets : ℕ → ℕ → List Octet
  | 0, _ => []
  | k + 1, v => Fin.ofNat 256 v :: toOctets k (v / 256)

/-- The number that octets stand for. -/
def ofOctets : List Octet → ℕ
  | [] => 0
  | b :: bs => b.val + 256 * ofOctets bs

@[simp] theorem length_toOctets (k v : ℕ) : (toOctets k v).length = k := by
  induction k generalizing v with
  | zero => rfl
  | succ k ih => simp [toOctets, ih]

theorem ofOctets_toOctets (k v : ℕ) : ofOctets (toOctets k v) = v % 256 ^ k := by
  induction k generalizing v with
  | zero => simp [toOctets, ofOctets, Nat.mod_one]
  | succ k ih =>
      rw [toOctets, ofOctets, ih, Nat.pow_succ', Nat.mod_mul]
      rfl
