import Ctrlproxy.Lib.Outcome
import Mathlib.Data.List.Nodup

/-!
# Lib — tables that are read both ways

A table is a list of pairs, searched from its front.  When no two rows have the same key, a search by the
key finds the row (`find?_key`); when this is so for both columns, what one search answers the other one
takes back (`TwoWay`).  A table whose columns are two lists of one length has them as its keys (`TwoWay.zip`).

The first row is also the answer of a loop that ends early (`findSomeM?_find?`).  Nothing here names a
program.
-/

namespace Columns

variable {α β γ κ ε : Type}

/-- No two rows agree in a column. -/
structure TwoWay (t : List (α × β)) : Prop where
  fst : (t.map Prod.fst).Nodup
  snd : (t.map Prod.snd).Nodup

/-- A search by a key that no two rows have in common finds the row of the key. -/
theorem find?_key [DecidableEq κ] {key : γ → κ} {t : List γ} (h : (t.map key).Nodup) {k : κ} {e : γ} :
    (t.find? fun x => key x = k) = some e ↔ e ∈ t ∧ key e = k := by
  constructor
  · intro hfind
    exact ⟨List.mem_of_find?_eq_some hfind, by simpa using List.find?_some hfind⟩
  · rintro ⟨he, rfl⟩
    induction t with
    | nil => cases he
    | cons x t ih =>
        obtain ⟨hx, ht⟩ := List.nodup_cons.mp h
        rcases List.mem_cons.mp he with rfl | he
        · exact List.find?_cons_of_pos (decide_eq_true rfl)
        · have hne : key x ≠ key e := fun hk => hx (hk ▸ List.mem_map_of_mem he)
          rw [List.find?_cons_of_neg (by simpa using hne)]
          exact ih ht he

/-- The columns of a table are what it is searched by. -/
theorem find?_key_none [DecidableEq κ] {key : γ → κ} {t : List γ} {k : κ} :
    (t.find? fun x => key x = k) = none ↔ k ∉ t.map key := by
  simp [List.find?_eq_none, List.mem_map]

/-- What a search by a key answers is read off the row of the key. -/
theorem find?_value [DecidableEq κ] {key : γ → κ} {value : γ → β} {t : List γ} (h : (t.map key).Nodup)
    {k : κ} {b : β} : (t.find? fun x => key x = k).map value = some b ↔
      ∃ e ∈ t, key e = k ∧ value e = b := by
  rw [Option.map_eq_some_iff]
  constructor
  · rintro ⟨e, hfind, hb⟩
    obtain ⟨he, hk⟩ := (find?_key h).mp hfind
    exact ⟨e, he, hk, hb⟩
  · rintro ⟨e, he, hk, hb⟩
    exact ⟨e, (find?_key h).mpr ⟨he, hk⟩, hb⟩

/-- Each search takes the answer of the other one back. -/
theorem TwoWay.inverse [DecidableEq α] [DecidableEq β] {t : List (α × β)} (h : TwoWay t) {a : α} {b : β} :
    (t.find? fun e => e.1 = a).map Prod.snd = some b ↔
      (t.find? fun e => e.2 = b).map Prod.fst = some a := by
  rw [find?_value h.fst, find?_value h.snd]
  constructor
  · rintro ⟨e, he, ha, hb⟩
    exact ⟨e, he, hb, ha⟩
  · rintro ⟨e, he, hb, ha⟩
    exact ⟨e, he, ha, hb⟩

/-- A key that some row has is found. -/
theorem exists_row [DecidableEq κ] {key : γ → κ} {t : List γ} {k : κ} (hk : k ∈ t.map key) :
    ∃ e ∈ t, (t.find? fun x => key x = k) = some e := by
  cases hfind : t.find? fun x => key x = k with
  | none => exact absurd hk (find?_key_none.mp hfind)
  | some e => exact ⟨e, List.mem_of_find?_eq_some hfind, rfl⟩

theorem TwoWay.zip {as : List α} {bs : List β} (ha : as.Nodup) (hb : bs.Nodup)
    (hlen : as.length = bs.length) : TwoWay (as.zip bs) where
  fst := by rwa [List.map_fst_zip (Nat.le_of_eq hlen)]
  snd := by rwa [List.map_snd_zip (Nat.le_of_eq hlen.symm)]

/-- The first row that is wanted by its second value: no row before it is. -/
theorem find?_zip_iff {as : List α} {bs : List β} {wanted : β → Bool} {a : α} :
    ((as.zip bs).find? fun e => wanted e.2).map Prod.fst = some a ↔
      ∃ i : ℕ, ∃ b, as[i]? = some a ∧ bs[i]? = some b ∧ wanted b = true ∧
        ∀ j < i, ∀ b', bs[j]? = some b' → wanted b' = false := by
  rw [Option.map_eq_some_iff]
  constructor
  · rintro ⟨e, hfind, rfl⟩
    obtain ⟨hw, i, hi, rfl, hbefore⟩ := List.find?_eq_some_iff_getElem.mp hfind
    rw [List.length_zip, Nat.lt_min] at hi
    rw [List.getElem_zip] at hw ⊢
    refine ⟨i, _, List.getElem?_eq_getElem hi.1, List.getElem?_eq_getElem hi.2, hw, ?_⟩
    intro j hj b' hb'
    obtain ⟨-, rfl⟩ := List.getElem?_eq_some_iff.mp hb'
    simpa using hbefore j hj
  · rintro ⟨i, b, ha, hb, hw, hbefore⟩
    obtain ⟨hi, rfl⟩ := List.getElem?_eq_some_iff.mp ha
    obtain ⟨hi', rfl⟩ := List.getElem?_eq_some_iff.mp hb
    refine ⟨(as[i], bs[i]), List.find?_eq_some_iff_getElem.mpr ⟨hw, i, ?_, List.getElem_zip, ?_⟩, rfl⟩
    · rw [List.length_zip, Nat.lt_min]
      exact ⟨hi, hi'⟩
    · intro j hj
      have hj' : j < bs.length := Nat.lt_trans hj hi'
      simpa using hbefore j hj _ (List.getElem?_eq_getElem hj')

/-- A loop that ends with the first row that is wanted. -/
theorem findSomeM?_find? {f : γ → Bool} {g : γ → β} (t : List γ) :
    t.findSomeM? (fun e => (.ok (if f e then some (g e) else none) : Except ε (Option β))) =
      .ok ((t.find? f).map g) := by
  induction t with
  | nil => rfl
  | cons e t ih =>
      rw [List.findSomeM?_cons, List.find?_cons]
      cases f e with
      | true => rfl
      | false => exact ih

/-- A loop that no row ends. -/
theorem findSomeM?_none (t : List γ) :
    t.findSomeM? (fun _ => (.ok none : Except ε (Option β))) = .ok none := by
  induction t with
  | nil => rfl
  | cons e t ih => exact ih

end Columns
