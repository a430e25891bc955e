import Mathlib.Data.Nat.Digits.Defs
import Mathlib.Data.Nat.Digits.Lemmas
import Ctrlproxy.Base.Str

/-!
# Base — decimal numbers are read back

What `%d` and `%ld` print, `strtol` reads back, in base 10 and in base 0: the digits of a positive
number do not begin with a zero.
-/

namespace Ctrlproxy

/-! ### Digits -/

theorem decimalAux_eq {f n : ℕ} (hf : n < f) (hn : 0 < n) (acc : Str) :
    decimalAux f n acc = (Nat.digits 10 n).reverse.map digit ++ acc := by
  induction f generalizing n acc with
  | zero => omega
  | succ f ih =>
      rw [decimalAux]
      split
      · next h =>
        rw [Nat.digits_of_lt 10 n hn.ne' h]
        rfl
      · next h =>
        have hq : 0 < n / 10 := Nat.div_pos (not_lt.mp h) (by decide)
        rw [ih (by omega) hq, Nat.digits_def' (by decide) hn]
        simp

theorem decimal_pos {n : ℕ} (hn : 0 < n) : decimal n = (Nat.digits 10 n).reverse.map digit := by
  rw [decimal, decimalAux_eq (Nat.lt_succ_self n) hn, List.append_nil]

theorem decimal_zero : decimal 0 = [chr '0'] := by decide

theorem digit_digit? {d : ℕ} (hd : d < 10) : (digit d).digit? = some d := by
  have : d % 10 = d := Nat.mod_eq_of_lt hd
  simp only [Byte.digit?, digit, this]
  rw [if_pos (by omega)]
  simp

/-- The value of a string of digits. -/
theorem digitsVal_digits {l : List ℕ} (hl : ∀ d ∈ l, d < 10) (v : ℕ) :
    digitsVal 10 v (l.map digit) = (l.foldl (fun v d => v * 10 + d) v, []) := by
  induction l generalizing v with
  | nil => rfl
  | cons d l ih =>
      have hd := hl d List.mem_cons_self
      rw [List.map_cons, digitsVal, digit_digit? hd, List.foldl_cons]
      simp only [hd, if_true]
      exact ih (fun d hd => hl d (List.mem_cons_of_mem _ hd)) _

theorem foldl_digits (n : ℕ) :
    (Nat.digits 10 n).reverse.foldl (fun v d => v * 10 + d) 0 = n := by
  rw [List.foldl_reverse]
  conv_rhs => rw [← Nat.ofDigits_digits 10 n, Nat.ofDigits_eq_foldr]
  congr 1
  funext d v
  simp only [Nat.cast_id]
  ring

theorem digitsVal_decimal (n : ℕ) : digitsVal 10 0 (decimal n) = (n, []) := by
  rcases Nat.eq_zero_or_pos n with rfl | hn
  · decide
  · rw [decimal_pos hn, digitsVal_digits, foldl_digits]
    intro d hd
    exact Nat.digits_lt_base (by decide) (List.mem_reverse.mp hd)

/-- The first digit of a positive number. -/
theorem decimal_head {n : ℕ} (hn : 0 < n) :
    ∃ d s, decimal n = digit d :: s ∧ 0 < d ∧ d < 10 := by
  have hne : Nat.digits 10 n ≠ [] := Nat.digits_ne_nil_iff_ne_zero.mpr hn.ne'
  have hlast := Nat.getLast_digit_ne_zero 10 hn.ne'
  rw [decimal_pos hn]
  obtain ⟨l, d, hld⟩ : ∃ l d, Nat.digits 10 n = l ++ [d] :=
    ⟨_, _, (List.dropLast_append_getLast hne).symm⟩
  have hd : d ≠ 0 := by simpa [hld] using hlast
  refine ⟨d, l.reverse.map digit, by simp [hld], Nat.pos_of_ne_zero hd, ?_⟩
  exact Nat.digits_lt_base (by decide) (hld ▸ List.mem_append_right _ (List.mem_singleton_self d))

theorem length_decimal_le {n k : ℕ} (hk : 0 < k) (hn : n < 10 ^ k) : (decimal n).length ≤ k := by
  rcases Nat.eq_zero_or_pos n with rfl | hpos
  · rw [decimal_zero]
    exact hk
  · rw [decimal_pos hpos, List.length_map, List.length_reverse]
    exact (Nat.digits_length_le_iff (by decide) n).mpr hn

/-- Digits are printed with digits only. -/
theorem mem_decimal {n : ℕ} {b : Byte} (hb : b ∈ decimal n) : 48 ≤ b.1 ∧ b.1 ≤ 57 := by
  have hdigit : ∀ d, 48 ≤ (digit d).1 ∧ (digit d).1 ≤ 57 := by
    intro d
    simp only [digit]
    omega
  rcases Nat.eq_zero_or_pos n with rfl | hpos
  · rw [decimal_zero] at hb
    cases List.mem_singleton.mp hb
    decide
  · rw [decimal_pos hpos] at hb
    obtain ⟨d, -, rfl⟩ := List.mem_map.mp hb
    exact hdigit d

/-! ### Numbers -/

/-- A printed number begins with a digit. -/
theorem decimal_cons (n : ℕ) :
    ∃ d s, decimal n = digit d :: s ∧ d < 10 ∧ (0 < n → 0 < d) := by
  rcases Nat.eq_zero_or_pos n with rfl | hn
  · exact ⟨0, [], by decide, by decide, fun h => absurd h (by decide)⟩
  · obtain ⟨d, s, h, hd, hlt⟩ := decimal_head hn
    exact ⟨d, s, h, hlt, fun _ => hd⟩

theorem digit_not_space (d : ℕ) : (digit d).isSpace = false := by
  simp only [Byte.isSpace, digit]
  have : ¬(48 + d % 10 ≤ 13) := by omega
  have h32 : 48 + d % 10 ≠ 32 := by omega
  simp [this, h32]

theorem digit_ne_chr {d : ℕ} {b : Byte} (hb : b.1 < 48) : digit d ≠ b := by
  rintro rfl
  simp only [digit] at hb
  omega

theorem dropWhile_space_decimal (n : ℕ) : (decimal n).dropWhile Byte.isSpace = decimal n := by
  obtain ⟨d, s, h, -, -⟩ := decimal_cons n
  rw [h, List.dropWhile_cons_of_neg (by simp [digit_not_space])]

theorem strtolSign_decimal (n : ℕ) : strtolSign (decimal n) = (false, decimal n) := by
  obtain ⟨d, s, h, -, -⟩ := decimal_cons n
  rw [h, strtolSign, if_neg (digit_ne_chr (by decide)), if_neg (digit_ne_chr (by decide))]

theorem startsDigit_decimal (n : ℕ) : startsDigit 10 (decimal n) = true := by
  obtain ⟨d, s, h, hd, -⟩ := decimal_cons n
  rw [h, startsDigit, digit_digit? hd]
  simpa using hd

theorem strtol_decimal (n : ℕ) : strtol (decimal n) 10 = (clampLong n, []) := by
  simp only [strtol, dropWhile_space_decimal, strtolSign_decimal]
  have hb : strtolBase 10 (decimal n) = (10, decimal n) := by
    unfold strtolBase
    split <;> simp_all
  simp [hb, startsDigit_decimal, digitsVal_decimal]

theorem atoi_decimal {n : ℕ} (hn : n < 2 ^ 31) : atoi (decimal n) = n := by
  rw [atoi, atol, strtol_decimal]
  have h₁ : ¬((n : ℤ) < -2 ^ 63) := by omega
  have h₂ : ¬(2 ^ 63 ≤ (n : ℤ)) := by omega
  simp only [clampLong, h₁, h₂, dite_false, toInt]
  exact Int.bmod_eq_of_le (by omega) (by omega)

/-- In base 0 a positive number announces no base. -/
theorem strtolBase_decimal {n : ℕ} (hn : 0 < n) : strtolBase 0 (decimal n) = (10, decimal n) := by
  obtain ⟨d, s, h, hd, hpos⟩ := decimal_cons n
  have hne : digit d ≠ chr '0' := by
    intro e
    have h' : 48 + d % 10 = 48 := congrArg Subtype.val e
    have := hpos hn
    omega
  rw [h]
  cases s with
  | nil => simp [strtolBase, hne]
  | cons x s => simp [strtolBase, hne]

theorem strtol_decimalInt (v : Long) : (strtol (decimalInt v.1) 0).1 = v := by
  obtain ⟨v, hv⟩ := v
  rcases lt_trichotomy v 0 with h | rfl | h
  · -- the sign comes first
    have hpos : 0 < v.natAbs := Int.natAbs_pos.mpr h.ne
    have hsp : (chr '-' :: decimal v.natAbs).dropWhile Byte.isSpace =
        chr '-' :: decimal v.natAbs := by
      rw [List.dropWhile_cons_of_neg (by decide)]
    have hs : strtolSign (chr '-' :: decimal v.natAbs) = (true, decimal v.natAbs) := rfl
    simp only [strtol, decimalInt, if_pos h, hsp, hs, strtolBase_decimal hpos,
      startsDigit_decimal, digitsVal_decimal, if_true]
    have hneg : -(v.natAbs : ℤ) = v := by omega
    rw [hneg]
    simp only [clampLong, not_lt.mpr hv.1, not_le.mpr hv.2, dite_false]
  · have h0 : (strtol (decimalInt 0) 0).1.1 = 0 := by decide
    exact Subtype.ext h0
  · have hpos : 0 < v.natAbs := Int.natAbs_pos.mpr h.ne'
    simp only [strtol, decimalInt, if_neg (not_lt.mpr h.le), dropWhile_space_decimal,
      strtolSign_decimal, strtolBase_decimal hpos, startsDigit_decimal, digitsVal_decimal,
      if_true]
    have habs : (v.natAbs : ℤ) = v := by omega
    simp only [Bool.false_eq_true, if_false, habs]
    simp only [clampLong, not_lt.mpr hv.1, not_le.mpr hv.2, dite_false]

/-- An `int` is read back. -/
theorem atoi_decimalInt {v : ℤ} (h : -2 ^ 31 ≤ v ∧ v < 2 ^ 31) : atoi (decimalInt v) = v := by
  rw [decimalInt]
  split
  · next hneg =>
    have hsp : (chr '-' :: decimal v.natAbs).dropWhile Byte.isSpace = chr '-' :: decimal v.natAbs := by
      rw [List.dropWhile_cons_of_neg (by decide)]
    have hs : strtolSign (chr '-' :: decimal v.natAbs) = (true, decimal v.natAbs) := rfl
    have hb : strtolBase 10 (decimal v.natAbs) = (10, decimal v.natAbs) := by
      unfold strtolBase
      split <;> simp_all
    have hval : -(v.natAbs : ℤ) = v := by omega
    have h₁ : ¬(v < -2 ^ 63) := by omega
    have h₂ : ¬(2 ^ 63 ≤ v) := by omega
    simp only [atoi, atol, strtol, hsp, hs, hb, startsDigit_decimal, digitsVal_decimal, if_true, hval,
      clampLong, h₁, h₂, dite_false, toInt]
    exact Int.bmod_eq_of_le (by omega) (by omega)
  · next hpos =>
    have hval : (v.natAbs : ℤ) = v := by omega
    rw [atoi_decimal (by omega), hval]

theorem atoi_range (s : Str) : -2 ^ 31 ≤ atoi s ∧ atoi s < 2 ^ 31 := by
  have hle := Int.le_bmod (x := (atol s).1) (m := 2 ^ 32) (by decide)
  have hlt := Int.bmod_lt (x := (atol s).1) (m := 2 ^ 32) (by decide)
  rw [atoi, toInt]
  omega

/-- A printed number has digits and a sign in it. -/
theorem mem_decimalInt {v : ℤ} {b : Byte} (h : b ∈ decimalInt v) : b.1 = 45 ∨ 48 ≤ b.1 ∧ b.1 ≤ 57 := by
  rw [decimalInt] at h
  split at h
  · rcases List.mem_cons.mp h with rfl | h
    · exact .inl rfl
    · exact .inr (mem_decimal h)
  · exact .inr (mem_decimal h)

theorem length_decimalInt_le (v : Long) : (decimalInt v.1).length ≤ 20 := by
  have hlt : v.1.natAbs < 10 ^ 19 := by
    have := v.2
    have h : v.1.natAbs ≤ 2 ^ 63 := by omega
    omega
  have := length_decimal_le (by decide) hlt
  rw [decimalInt]
  split
  · rw [List.length_cons]
    omega
  · omega

end Ctrlproxy
