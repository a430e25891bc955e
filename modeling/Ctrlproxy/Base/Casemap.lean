import Ctrlproxy.Base.Isupport

/-!
# Base — comparison is equality up to case

`irccmp` compares two strings character by character and steps over a pair that differs only in
case.  It is zero exactly on strings that one fold of every character makes equal
(`irccmpStr_eq_zero_iff`), so "the same nick" is an equivalence.
-/

namespace Ctrlproxy

/-- The last upper-case character of a mapping. -/
def Casemapping.last : Casemapping → ℕ
  | .unknown | .rfc1459 => 94
  | .strictRfc1459 => 93
  | .ascii => 90

theorem Casemapping.last_le (m : Casemapping) : m.last ≤ 94 := by
  cases m <;> decide

/-- The lower case of a character. -/
def Casemapping.foldByte (m : Casemapping) (b : Byte) : Byte :=
  if h : 65 ≤ b.1 ∧ b.1 ≤ m.last then ⟨b.1 + 32, by have := m.last_le; omega⟩ else b

/-- The lower case of a string. -/
def Casemapping.fold (m : Casemapping) (s : Str) : Str := s.map m.foldByte

/-- The condition under which `str_cmphelper` steps over two different characters. -/
theorem step_over_iff (m : Casemapping) {a b : Byte} (hab : a ≠ b) :
    (let l := if a.char > b.char then b.char else a.char
     let h := if a.char > b.char then a.char else b.char
     ¬(h < 97 ∨ h > m.last + 32 ∨ l < 65 ∨ l > m.last) ∧ h - 97 = l - 65) ↔
      m.foldByte a = m.foldByte b := by
  obtain ⟨a, ha⟩ := a
  obtain ⟨b, hb⟩ := b
  have hne : a ≠ b := fun e => hab (Subtype.ext e)
  have hl := m.last_le
  simp only [Casemapping.foldByte, Byte.char]
  constructor
  · rintro ⟨h₁, h₂⟩
    apply Subtype.ext
    split_ifs at h₁ h₂ ⊢ <;> simp only at * <;> omega
  · intro h
    have h' := congrArg Subtype.val h
    split_ifs at h' ⊢ <;> simp only at * <;> omega

section
variable {sh sl eh el : ℤ} {len : Option ℕ}

@[simp] theorem strCmphelper_nil : strCmphelper sh sl eh el len [] [] = 0 := rfl

@[simp] theorem strCmphelper_nil_cons (y : Byte) (b : Str) :
    strCmphelper sh sl eh el len [] (y :: b) = 0 - y.char := rfl

@[simp] theorem strCmphelper_cons_nil (x : Byte) (a : Str) :
    strCmphelper sh sl eh el len (x :: a) [] = x.char - 0 := rfl

theorem strCmphelper_bound (x y : Byte) (a b : Str) :
    strCmphelper sh sl eh el (some 0) (x :: a) (y :: b) = x.char - y.char :=
  if_pos rfl

end

/-- Before the bound is reached, a character of each string is compared up to case. -/
theorem strCmphelper_cons (m : Casemapping) {len : Option ℕ} (hlen : len ≠ some 0) (x y : Byte) (a b : Str) :
    strCmphelper 97 65 (m.last + 32) m.last len (x :: a) (y :: b) = 0 ↔
      m.foldByte x = m.foldByte y ∧
        strCmphelper 97 65 (m.last + 32) m.last (len.map Nat.pred) a b = 0 := by
  have step : strCmphelper 97 65 (m.last + 32) m.last len (x :: a) (y :: b) = _ := if_neg hlen
  rw [step]
  by_cases hxy : x = y
  · subst hxy
    rw [if_pos rfl]
    exact (and_iff_right rfl).symm
  · have hne : x.char - y.char ≠ 0 := fun e => hxy (Byte.char_inj.mp (by omega))
    have hstep := step_over_iff m hxy
    rw [if_neg hxy]
    generalize (if x.char > y.char then y.char else x.char) = lo at hstep ⊢
    generalize (if x.char > y.char then x.char else y.char) = hi at hstep ⊢
    by_cases h₁ : hi < 97 ∨ hi > m.last + 32 ∨ lo < 65 ∨ lo > m.last
    · simp only [if_pos h₁]
      exact iff_of_false hne fun h => (hstep.mpr h.1).1 h₁
    · by_cases h₂ : hi - 97 = lo - 65
      · simp only [if_neg h₁, if_neg (not_not.mpr h₂)]
        exact ⟨fun h => ⟨hstep.mp ⟨h₁, h₂⟩, h⟩, fun h => h.2⟩
      · simp only [if_neg h₁, if_pos h₂]
        exact iff_of_false hne fun h => h₂ (hstep.mpr h.1).2

theorem strCmphelper_eq_zero_iff (m : Casemapping) (a b : Str) :
    strCmphelper 97 65 (m.last + 32) m.last none a b = 0 ↔ m.fold a = m.fold b := by
  induction a generalizing b with
  | nil =>
      cases b with
      | nil => simp
      | cons y b => simpa [Casemapping.fold] using y.char_ne_zero
  | cons x a ih =>
      cases b with
      | nil => simpa [Casemapping.fold] using x.char_ne_zero
      | cons y b =>
          rw [strCmphelper_cons m (by simp), Option.map_none, ih]
          simp [Casemapping.fold]

/-- A bounded comparison goes on to the character behind the bound, and that one has to be the
same. -/
theorem strCmphelper_bound_eq_zero_iff (m : Casemapping) (len : ℕ) (a b : Str) :
    strCmphelper 97 65 (m.last + 32) m.last (some len) a b = 0 ↔
      m.fold (a.take len) = m.fold (b.take len) ∧ a[len]? = b[len]? := by
  induction a generalizing b len with
  | nil =>
      cases b with
      | nil => simp
      | cons y b => cases len <;> simpa [Casemapping.fold] using y.char_ne_zero
  | cons x a ih =>
      cases b with
      | nil => cases len <;> simpa [Casemapping.fold] using x.char_ne_zero
      | cons y b =>
          cases len with
          | zero =>
              have hchar : x.char - y.char = 0 ↔ x = y := by rw [sub_eq_zero, Byte.char_inj]
              simp [strCmphelper_bound, hchar]
          | succ len =>
              have hbound : some (len + 1) ≠ some 0 := by simp
              rw [strCmphelper_cons m hbound, Option.map_some, Nat.pred_succ, ih]
              simp [Casemapping.fold, and_assoc]

/-- `irccmp` is zero exactly on strings equal up to case. -/
theorem irccmpStr_eq_zero_iff (m : Casemapping) (a b : Str) :
    irccmpStr m a b = 0 ↔ m.fold a = m.fold b := by
  cases m with
  | unknown => exact strCmphelper_eq_zero_iff .unknown a b
  | rfc1459 => exact strCmphelper_eq_zero_iff .rfc1459 a b
  | ascii => exact strCmphelper_eq_zero_iff .ascii a b
  | strictRfc1459 => exact strCmphelper_eq_zero_iff .strictRfc1459 a b

/-! ### The mappings -/

/-- The upper-case characters of a mapping with their lower case: the letters, and where they are
taken for letters, the brackets, the backslash and the caret. -/
def Casemapping.table : Casemapping → List (Byte × Byte)
  | .unknown | .rfc1459 =>
      (str "ABCDEFGHIJKLMNOPQRSTUVWXYZ[\\]^").zip (str "abcdefghijklmnopqrstuvwxyz\x7b|\x7d~")
  | .strictRfc1459 =>
      (str "ABCDEFGHIJKLMNOPQRSTUVWXYZ[\\]").zip (str "abcdefghijklmnopqrstuvwxyz\x7b|\x7d")
  | .ascii => (str "ABCDEFGHIJKLMNOPQRSTUVWXYZ").zip (str "abcdefghijklmnopqrstuvwxyz")

/-- A string with its characters replaced by the table. -/
def Casemapping.translate (m : Casemapping) (s : Str) : Str :=
  s.map fun b => (m.table.lookup b).getD b

theorem Casemapping.table_upper (m : Casemapping) :
    m.table.map (fun e => e.1.1) = List.range' 65 (m.last - 64) := by
  cases m <;> decide

theorem Casemapping.table_lower (m : Casemapping) : ∀ e ∈ m.table, m.foldByte e.1 = e.2 := by
  cases m <;> decide

theorem Casemapping.foldByte_eq_lookup (m : Casemapping) (b : Byte) :
    m.foldByte b = (m.table.lookup b).getD b := by
  cases h : m.table.lookup b with
  | some c =>
    obtain ⟨pre, post, e, -⟩ := List.lookup_eq_some_iff.mp h
    exact m.table_lower (b, c) (e ▸ by simp)
  | none =>
    refine dif_neg fun hb => ?_
    have hmem : b.1 ∈ m.table.map (fun e => e.1.1) := by
      rw [m.table_upper, List.mem_range'_1]
      omega
    obtain ⟨e, he, heb⟩ := List.mem_map.mp hmem
    exact absurd (Subtype.ext heb).symm (by simpa using List.lookup_eq_none_iff.mp h e he)

theorem Casemapping.fold_eq_translate (m : Casemapping) (s : Str) : m.fold s = m.translate s :=
  List.map_congr_left fun b _ => m.foldByte_eq_lookup b

/-- A mapping whose last upper-case character comes earlier tells more strings apart. -/
theorem Casemapping.fold_eq_of_last_le {m m' : Casemapping} (h : m.last ≤ m'.last) {a b : Str}
    (hab : m.fold a = m.fold b) : m'.fold a = m'.fold b := by
  have hbyte : ∀ x, m'.foldByte (m.foldByte x) = m'.foldByte x := by
    rintro ⟨x, hx⟩
    have hl := m'.last_le
    by_cases hup : 65 ≤ x ∧ x ≤ m.last
    · have hup' : 65 ≤ x ∧ x ≤ m'.last := ⟨hup.1, hup.2.trans h⟩
      have hlow : ¬(65 ≤ x + 32 ∧ x + 32 ≤ m'.last) := by omega
      simp only [foldByte, dif_pos hup, dif_pos hup', dif_neg hlow]
    · simp only [foldByte, dif_neg hup]
  have hfold : ∀ s, m'.fold (m.fold s) = m'.fold s := by
    intro s
    simp only [fold, List.map_map]
    exact List.map_congr_left fun x _ => hbyte x
  rw [← hfold a, hab, hfold b]

/-- **`irccmp` decides equality up to case** under the table of the mapping.  So it is zero on an
equivalence, and one that grows from `ascii` over `strict-rfc1459` to `rfc1459`. -/
theorem irccmp_decides_case :
    (∀ n a b, ∃ v, irccmp n (some a) (some b) = .ok v ∧
      (v = 0 ↔ (casemapOf n).translate a = (casemapOf n).translate b)) ∧
    (∀ n, Equivalence fun a b => irccmp n (some a) (some b) = .ok 0) ∧
    ∀ (n : NetworkInfo) (a b : Str),
      (irccmp (some { n with casemapping := .ascii }) (some a) (some b) = .ok 0 →
        irccmp (some { n with casemapping := .strictRfc1459 }) (some a) (some b) = .ok 0) ∧
      (irccmp (some { n with casemapping := .strictRfc1459 }) (some a) (some b) = .ok 0 →
        irccmp (some { n with casemapping := .rfc1459 }) (some a) (some b) = .ok 0) := by
  have hzero : ∀ n a b, irccmp n (some a) (some b) = .ok 0 ↔
      (casemapOf n).fold a = (casemapOf n).fold b := by
    intro n a b
    rw [← irccmpStr_eq_zero_iff]
    simp [irccmp]
  refine ⟨fun n a b => ⟨_, rfl, ?_⟩, fun n => ?_, fun n a b => ⟨?_, ?_⟩⟩
  · rw [irccmpStr_eq_zero_iff, Casemapping.fold_eq_translate, Casemapping.fold_eq_translate]
  · simp only [hzero]
    exact ⟨fun _ => rfl, fun h => h.symm, fun h h' => h.trans h'⟩
  · have narrow : Casemapping.ascii.last ≤ Casemapping.strictRfc1459.last := by decide
    rw [hzero, hzero]
    exact Casemapping.fold_eq_of_last_le narrow
  · have narrow : Casemapping.strictRfc1459.last ≤ Casemapping.rfc1459.last := by decide
    rw [hzero, hzero]
    exact Casemapping.fold_eq_of_last_le narrow

/-! ### Bounded comparison -/

def strAsciincmp (a b : Str) (n : ℕ) : ℤ := strCmphelper 97 65 122 90 (some n) a b

def strStrictrfc1459ncmp (a b : Str) (n : ℕ) : ℤ := strCmphelper 97 65 125 93 (some n) a b

def strRfc1459ncmp (a b : Str) (n : ℕ) : ℤ := strCmphelper 97 65 126 94 (some n) a b

/-- `ircncmp`. -/
def ircncmp (n : Option NetworkInfo) (a b : Option Str) (len : ℕ) : Except Fault ℤ :=
  match a, b with
  | some a, some b => .ok (match casemapOf n with
      | .unknown | .rfc1459 => strRfc1459ncmp a b len
      | .ascii => strAsciincmp a b len
      | .strictRfc1459 => strStrictrfc1459ncmp a b len)
  | _, _ => .error .assertion

theorem ircncmp_eq_zero_iff (n : Option NetworkInfo) (a b : Str) (len : ℕ) :
    ircncmp n (some a) (some b) len = .ok 0 ↔
      (casemapOf n).fold (a.take len) = (casemapOf n).fold (b.take len) ∧ a[len]? = b[len]? := by
  rw [← strCmphelper_bound_eq_zero_iff]
  cases h : casemapOf n <;> simp only [ircncmp, h, Except.ok.injEq] <;> rfl

/-- **A bounded comparison decides equality up to case of what is in front of the bound** exactly
when that is not all that is equal: the characters right behind it are compared too, and as they
are. -/
theorem ircncmp_decides_iff (n : Option NetworkInfo) (a b : Str) (len : ℕ) :
    (ircncmp n (some a) (some b) len = .ok 0 ↔
      (casemapOf n).translate (a.take len) = (casemapOf n).translate (b.take len)) ↔
    ((casemapOf n).translate (a.take len) = (casemapOf n).translate (b.take len) →
      a[len]? = b[len]?) := by
  rw [ircncmp_eq_zero_iff, Casemapping.fold_eq_translate, Casemapping.fold_eq_translate]
  tauto

/-- A command with an argument is not found to begin with the command. -/
theorem bound_compares_further : ¬ ∀ (n : Option NetworkInfo) (a b : Str) (len : ℕ),
    ircncmp n (some a) (some b) len = .ok 0 ↔
      (casemapOf n).translate (a.take len) = (casemapOf n).translate (b.take len) := by
  intro h
  have hzero : ircncmp none (some (str "IDENTIFY x")) (some (str "IDENTIFY ")) 9 = .ok 0 :=
    (h none _ _ _).mpr (by decide)
  exact absurd hzero (by decide)

end Ctrlproxy
