import Mathlib.Data.List.Forall2
import Mathlib.Data.List.Find

/-!
# Lib — lists that correspond element by element

What `List.Forall₂` says about single elements, and its relations at the elements of the lists.
-/

variable {α β : Type} {R R' : α → β → Prop} {l : List α} {l' : List β}

theorem forall₂_snoc {a : α} {b : β} (h : List.Forall₂ R l l') (hab : R a b) :
    List.Forall₂ R (l ++ [a]) (l' ++ [b]) :=
  List.rel_append h (.cons hab .nil)

/-- An element has its counterpart, under two correspondences of the same lists. -/
theorem forall₂_both (h : List.Forall₂ R l l') (h' : List.Forall₂ R' l l') {a : α} (ha : a ∈ l) :
    ∃ b ∈ l', R a b ∧ R' a b := by
  induction h with
  | nil => cases ha
  | cons hab _ ih =>
      cases h' with
      | cons hab' h' =>
          cases ha with
          | head => exact ⟨_, List.mem_cons_self, hab, hab'⟩
          | tail _ ha =>
              obtain ⟨b, hb, hR⟩ := ih h' ha
              exact ⟨b, List.mem_cons_of_mem _ hb, hR⟩

theorem forall₂_left (h : List.Forall₂ R l l') {a : α} (ha : a ∈ l) : ∃ b ∈ l', R a b := by
  obtain ⟨b, hb, hR, -⟩ := forall₂_both h h ha
  exact ⟨b, hb, hR⟩

theorem forall₂_right (h : List.Forall₂ R l l') {b : β} (hb : b ∈ l') : ∃ a ∈ l, R a b :=
  forall₂_left h.flip hb

theorem forall₂_imp_mem (h : List.Forall₂ R l l') (hR : ∀ a ∈ l, ∀ b ∈ l', R a b → R' a b) :
    List.Forall₂ R' l l' := by
  obtain ⟨hlen, hz⟩ := List.forall₂_iff_zip.mp h
  exact List.forall₂_iff_zip.mpr ⟨hlen, fun hab =>
    hR _ (List.of_mem_zip hab).1 _ (List.of_mem_zip hab).2 (hz hab)⟩

/-- Two tests cut a list at the same place when the first element that passes one of them passes
both. -/
theorem cut_congr {p q : α → Bool}
    (h : ∀ a, l.find? (fun a => p a || q a) = some a → p a = true ∧ q a = true) :
    l.takeWhile (!p ·) = l.takeWhile (!q ·) ∧ l.dropWhile (!p ·) = l.dropWhile (!q ·) := by
  induction l with
  | nil => exact ⟨rfl, rfl⟩
  | cons a l ih =>
      rw [List.find?_cons] at h
      cases hpq : p a || q a with
      | true =>
          rw [hpq] at h
          obtain ⟨hp, hq⟩ := h a rfl
          simp [hp, hq]
      | false =>
          rw [hpq] at h
          obtain ⟨htake, hdrop⟩ := ih h
          obtain ⟨hp, hq⟩ := Bool.or_eq_false_iff.mp hpq
          simp [hp, hq, htake, hdrop]
