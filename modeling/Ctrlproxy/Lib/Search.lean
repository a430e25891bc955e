import Ctrlproxy.Lib.Outcome

/-!
# Lib — searches in an array without a terminator

An array is searched for a pattern from a position on.  A read behind its end is a fault, which the caller
names; `search` reads no further than it has to, and `strchr` goes on until it finds.  `find` says where
the first occurrence is, and the rules say that the searches answer it (`searchLen_eq`, `strchr_eq`).
Nothing here names a program.
-/

open Outcome

namespace Search

variable {α ε : Type}

/-! ### Reads -/

/-- Read an element. -/
def readAt (past : ε) (data : List α) (i : ℕ) : Except ε α :=
  match data[i]? with
  | some a => .ok a
  | none => .error past

theorem readAt_eq {past : ε} {data t : List α} {a : α} {p : ℕ} (h : data.drop p = a :: t) :
    readAt past data p = .ok a := by
  have hp : data[p]? = some a := by
    rw [← List.head?_drop, h]
    rfl
  rw [readAt, hp]

theorem drop_succ {data t : List α} {a : α} {p : ℕ} (h : data.drop p = a :: t) : data.drop (p + 1) = t := by
  rw [← List.tail_drop, h]
  rfl

theorem drop_append {data s t : List α} {p : ℕ} (h : data.drop p = s ++ t) :
    data.drop (p + s.length) = t := by
  rw [← List.drop_drop, h, List.drop_left]

/-! ### Definitions -/

variable [DecidableEq α]

/-- Whether a pattern is at a position: the comparison stops at the first difference. -/
def matchesAt (past : ε) (data : List α) : List α → ℕ → Except ε Bool
  | [], _ => .ok true
  | c :: pattern, p => do
      if (← readAt past data p) = c then matchesAt past data pattern (p + 1) else pure false

/-- The first of `n` positions from `p` on where a pattern is. -/
def search (past : ε) (data pattern : List α) : ℕ → ℕ → Except ε (Option ℕ)
  | 0, _ => .ok none
  | n + 1, p => do
      if ← matchesAt past data pattern p then pure (some p) else search past data pattern n (p + 1)

/-- The first place of a pattern in the `len` elements from `p` on. -/
def searchLen (past : ε) (data : List α) (p len : ℕ) (pattern : List α) : Except ε (Option ℕ) :=
  if len < pattern.length then .ok none else search past data pattern (len - pattern.length + 1) p

/-- The first place of an element from `p` on, in no more than `n` steps. -/
def strchr (past : ε) (data : List α) (c : α) : ℕ → ℕ → Except ε ℕ
  | 0, _ => .error past
  | n + 1, p => do
      if (← readAt past data p) = c then pure p else strchr past data c n (p + 1)

/-- Where a pattern occurs first. -/
def find (pattern : List α) : List α → Option ℕ
  | [] => if pattern = [] then some 0 else none
  | a :: s => if pattern <+: a :: s then some 0 else (find pattern s).map (· + 1)

section
variable {past : ε} {data pattern s t u v : List α} {a c : α} {k n p : ℕ}

/-! ### First occurrences -/

theorem find_prefix (h : pattern <+: s) : find pattern s = some 0 := by
  cases s with
  | nil => rw [find, if_pos (List.prefix_nil.mp h)]
  | cons a s => rw [find, if_pos h]

/-- What begins with another element than the pattern is passed. -/
theorem find_skip (hu : c ∉ u) (v : List α) :
    find (c :: pattern) (u ++ v) = (find (c :: pattern) v).map (u.length + ·) := by
  induction u with
  | nil => simp
  | cons a u ih =>
      rw [List.mem_cons, not_or] at hu
      rw [List.cons_append, find, if_neg fun h => hu.1 (List.cons_prefix_cons.mp h).1, ih hu.2,
        Option.map_map]
      refine congrArg (Option.map · _) (funext fun k => ?_)
      simp only [Function.comp_apply, List.length_cons]
      omega

/-- What does not have the first element of the pattern does not have the pattern. -/
theorem find_absent (hs : c ∉ s) : find (c :: pattern) s = none := by
  rw [← List.append_nil s, find_skip hs, find, if_neg (List.cons_ne_nil c pattern)]
  rfl

theorem find_some (h : find pattern s = some k) : pattern <+: s.drop k := by
  induction s generalizing k with
  | nil =>
      rw [find] at h
      split_ifs at h with hp
      rw [hp]
      exact List.nil_prefix
  | cons a s ih =>
      rw [find] at h
      split_ifs at h with hp
      · cases h
        exact hp
      · obtain ⟨k, hk, rfl⟩ := Option.map_eq_some_iff.mp h
        exact ih hk

theorem find_short (h : s.length < pattern.length) : find pattern s = none := by
  cases hf : find pattern s with
  | none => rfl
  | some k =>
      have hle := (find_some hf).length_le
      rw [List.length_drop] at hle
      omega

/-! ### Searches -/

/-- A comparison inside of the array. -/
theorem matchesAt_eq (h : p + pattern.length ≤ data.length) :
    matchesAt past data pattern p = .ok (decide (pattern <+: data.drop p)) := by
  induction pattern generalizing p with
  | nil => simp [matchesAt]
  | cons c pattern ih =>
      rw [List.length_cons] at h
      obtain ⟨a, t, ht⟩ := List.exists_cons_of_length_pos (l := data.drop p) (by
        rw [List.length_drop]
        omega)
      rw [matchesAt, readAt_eq ht, ok_bind, ih (by omega), ht, drop_succ ht]
      by_cases hc : a = c
      · simp [hc]
      · simp [hc, Ne.symm hc]

theorem search_eq (hne : pattern ≠ []) (h : p + n + pattern.length = data.length + 1) :
    search past data pattern n p = .ok ((find pattern (data.drop p)).map (p + ·)) := by
  have hpos := List.length_pos_of_ne_nil hne
  induction n generalizing p with
  | zero =>
      rw [search, find_short]
      · rfl
      · rw [List.length_drop]
        omega
  | succ n ih =>
      obtain ⟨a, t, ht⟩ := List.exists_cons_of_length_pos (l := data.drop p) (by
        rw [List.length_drop]
        omega)
      rw [search, matchesAt_eq (by omega), ok_bind, ht, find]
      by_cases hp : pattern <+: a :: t
      · simp [hp]
      · have hnext := ih (p := p + 1) (by omega)
        rw [drop_succ ht] at hnext
        rw [decide_eq_false hp, if_neg Bool.false_ne_true, hnext, if_neg hp, Option.map_map]
        refine congrArg (fun f => Except.ok (Option.map f _)) (funext fun k => ?_)
        simp only [Function.comp_apply]
        omega

/-- A search of the rest of an array answers the first occurrence. -/
theorem searchLen_eq (hne : pattern ≠ []) (hp : p ≤ data.length) :
    searchLen past data p (data.length - p) pattern =
      .ok ((find pattern (data.drop p)).map (p + ·)) := by
  rw [searchLen]
  split_ifs with hlen
  · rw [find_short (by rwa [List.length_drop])]
    rfl
  · exact search_eq hne (by omega)

theorem strchr_eq (h : data.drop p = u ++ c :: v) (hu : c ∉ u) (hn : u.length < n) :
    strchr past data c n p = .ok (p + u.length) := by
  induction u generalizing n p with
  | nil =>
      cases n with
      | zero => exact absurd hn (Nat.not_lt_zero _)
      | succ n =>
          rw [strchr, readAt_eq h, ok_bind, if_pos rfl]
          rfl
  | cons a u ih =>
      rw [List.mem_cons, not_or] at hu
      cases n with
      | zero => exact absurd hn (Nat.not_lt_zero _)
      | succ n =>
          rw [strchr, readAt_eq h, ok_bind, if_neg (Ne.symm hu.1),
            ih (drop_succ h) hu.2 (Nat.lt_of_succ_lt_succ hn), List.length_cons]
          congr 1
          omega

end

end Search
