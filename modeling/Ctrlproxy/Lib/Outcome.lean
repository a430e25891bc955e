import Mathlib.Data.List.Basic
import Mathlib.Logic.Relation

/-!
# Lib — outcomes of computations that may fail

A computation that returns a value or stops with a fault is an `Except ε α`.  Two judgements on
such computations carry every proof about them:

* `Ensures x Q E`: if `x` returns, its value satisfies `Q`; if it stops, its fault satisfies `E`.
  `E := fun _ => True` is partial correctness, `E := fun _ => False` is total correctness.
* `Follows x y R`: whenever `x` returns `a`, `y` returns some `b` with `R a b`.

Both have a rule for `bind` and one for a left fold, whose step lemma is the loop's invariant.
Nothing here names a program.
-/

namespace Outcome

variable {ε α β γ δ : Type}

/-! ### The monad, evaluated -/

@[simp] theorem ok_bind (a : α) (f : α → Except ε β) : (Except.ok a >>= f) = f a := rfl

@[simp] theorem error_bind (e : ε) (f : α → Except ε β) :
    ((Except.error e : Except ε α) >>= f) = .error e := rfl

@[simp] theorem pure_eq_ok (a : α) : (pure a : Except ε α) = .ok a := rfl

/-- A computation that returned went through its first part. -/
theorem bind_eq_ok {x : Except ε α} {f : α → Except ε β} {b : β} (h : (x >>= f) = .ok b) :
    ∃ a, x = .ok a ∧ f a = .ok b := by
  cases x with
  | ok a => exact ⟨a, rfl, h⟩
  | error e => cases h

/-- A computation whose value is known in part returned. -/
theorem map_eq_ok {x : Except ε α} {f : α → β} {b : β} (h : x.map f = .ok b) :
    ∃ a, x = .ok a ∧ f a = b := by
  cases x with
  | ok a => exact ⟨a, rfl, Except.ok.inj h⟩
  | error e => cases h

/-! ### One computation -/

/-- What a computation guarantees of its value, or of its fault. -/
def Ensures (x : Except ε α) (Q : α → Prop) (E : ε → Prop) : Prop :=
  match x with
  | .ok a => Q a
  | .error e => E e

@[simp] theorem ensures_ok {a : α} {Q : α → Prop} {E : ε → Prop} :
    Ensures (.ok a) Q E ↔ Q a := Iff.rfl

@[simp] theorem ensures_pure {a : α} {Q : α → Prop} {E : ε → Prop} :
    Ensures (pure a : Except ε α) Q E ↔ Q a := Iff.rfl

@[simp] theorem ensures_error {e : ε} {Q : α → Prop} {E : ε → Prop} :
    Ensures (.error e : Except ε α) Q E ↔ E e := Iff.rfl

theorem Ensures.bind {x : Except ε α} {f : α → Except ε β} {Q : α → Prop} {Q' : β → Prop}
    {E : ε → Prop} (hx : Ensures x Q E) (hf : ∀ a, Q a → Ensures (f a) Q' E) :
    Ensures (x >>= f) Q' E := by
  cases x with
  | ok a => exact hf a hx
  | error e => exact hx

theorem Ensures.mono {x : Except ε α} {Q Q' : α → Prop} {E E' : ε → Prop} (hx : Ensures x Q E)
    (hQ : ∀ a, Q a → Q' a) (hE : ∀ e, E e → E' e) : Ensures x Q' E' := by
  cases x with
  | ok a => exact hQ a hx
  | error e => exact hE e hx

theorem Ensures.imp {x : Except ε α} {Q Q' : α → Prop} {E : ε → Prop} (hx : Ensures x Q E)
    (hQ : ∀ a, Q a → Q' a) : Ensures x Q' E :=
  hx.mono hQ fun _ h => h

theorem Ensures.and {x : Except ε α} {Q Q' : α → Prop} {E E' : ε → Prop} (h : Ensures x Q E)
    (h' : Ensures x Q' E') : Ensures x (fun a => Q a ∧ Q' a) (fun e => E e ∧ E' e) := by
  cases x with
  | ok a => exact ⟨h, h'⟩
  | error e => exact ⟨h, h'⟩

/-- A guarantee knows the computation it is about. -/
theorem Ensures.with_eq {x : Except ε α} {Q : α → Prop} {E : ε → Prop} (hx : Ensures x Q E) :
    Ensures x (fun a => x = .ok a ∧ Q a) E := by
  cases x with
  | ok a => exact ⟨rfl, hx⟩
  | error e => exact hx

/-- A guarantee, read at a computation that returned. -/
theorem Ensures.of_ok {x : Except ε α} {Q : α → Prop} {E : ε → Prop} {a : α}
    (hx : Ensures x Q E) (h : x = .ok a) : Q a := by
  subst h; exact hx

/-- A total guarantee is a returned value. -/
theorem Ensures.exists_ok {x : Except ε α} {Q : α → Prop}
    (hx : Ensures x Q (fun _ => False)) : ∃ a, x = .ok a ∧ Q a := by
  cases x with
  | ok a => exact ⟨a, rfl, hx⟩
  | error e => exact hx.elim

/-- Total correctness: the computation returns a value that satisfies `Q`. -/
abbrev Total (x : Except ε α) (Q : α → Prop) : Prop := Ensures x Q (fun _ => False)

theorem ensures_of_eq_ok {x : Except ε α} {Q : α → Prop} {E : ε → Prop} {a : α}
    (h : x = .ok a) (hQ : Q a) : Ensures x Q E := by
  subst h; exact hQ

/-- The loop rule: an invariant kept by the body holds after the fold. -/
theorem Ensures.foldlM {f : β → α → Except ε β} {I : β → Prop} {E : ε → Prop} {l : List α}
    (hf : ∀ b, ∀ a ∈ l, I b → Ensures (f b a) I E) {b : β} (hb : I b) :
    Ensures (l.foldlM f b) I E := by
  induction l generalizing b with
  | nil => exact hb
  | cons a l ih =>
      rw [List.foldlM_cons]
      refine Ensures.bind (hf b a List.mem_cons_self hb) fun b' hb' => ?_
      exact ih (fun b a ha => hf b a (List.mem_cons_of_mem _ ha)) hb'

/-- Every step of a left fold is taken where the condition holds. -/
def Along (f : β → α → Except ε β) (P : β → α → Prop) : β → List α → Prop
  | _, [] => True
  | b, a :: l => P b a ∧ ∀ b', f b a = .ok b' → Along f P b' l

theorem Along.of_forall {f : β → α → Except ε β} {P : β → α → Prop} (h : ∀ b a, P b a) (b : β)
    (l : List α) : Along f P b l := by
  induction l generalizing b with
  | nil => trivial
  | cons a l ih => exact ⟨h b a, fun b' _ => ih b'⟩

/-- The loop rule for steps that are taken under a condition. -/
theorem Ensures.foldlM_along {f : β → α → Except ε β} {P : β → α → Prop} {I : β → Prop} {E : ε → Prop}
    {l : List α} (hf : ∀ b a, I b → P b a → Ensures (f b a) I E) {b : β} (hb : I b)
    (h : Along f P b l) : Ensures (l.foldlM f b) I E := by
  induction l generalizing b with
  | nil => exact hb
  | cons a l ih =>
      obtain ⟨ha, hrest⟩ := h
      rw [List.foldlM_cons]
      exact (hf b a hb ha).with_eq.bind fun b' hb' => ih hb'.2 (hrest b' hb'.1)

/-! ### Two computations -/

/-- Whenever `x` returns, `y` returns a related value. -/
def Follows (x : Except ε α) (y : Except δ β) (R : α → β → Prop) : Prop :=
  ∀ a, x = .ok a → ∃ b, y = .ok b ∧ R a b

theorem follows_ok {a : α} {b : β} {R : α → β → Prop} (h : R a b) :
    Follows (.ok a : Except ε α) (.ok b : Except δ β) R := by
  intro a' e
  cases e
  exact ⟨b, rfl, h⟩

theorem follows_error {e : ε} {y : Except δ β} {R : α → β → Prop} :
    Follows (.error e : Except ε α) y R := by
  intro a h; cases h

theorem Follows.bind {α' β' : Type} {x : Except ε α} {y : Except δ β} {R : α → β → Prop}
    {f : α → Except ε α'} {g : β → Except δ β'} {R' : α' → β' → Prop} (h : Follows x y R)
    (hfg : ∀ a b, R a b → Follows (f a) (g b) R') : Follows (x >>= f) (y >>= g) R' := by
  intro c hc
  cases x with
  | error e => cases hc
  | ok a =>
      obtain ⟨b, rfl, hR⟩ := h a rfl
      exact hfg a b hR c hc

/-! ### Searching a list -/

/-- The first element a test accepts; the search stops where the test does. -/
def findFirst (p : α → Except ε Bool) : List α → Except ε (Option α)
  | [] => .ok none
  | a :: l => do
      let b ← p a
      if b then pure (some a) else findFirst p l

/-- A search whose test always answers is the search of the list. -/
theorem findFirst_eq_find? {p : α → Except ε Bool} {q : α → Bool} {l : List α}
    (h : ∀ a ∈ l, p a = .ok (q a)) : findFirst p l = .ok (l.find? q) := by
  induction l with
  | nil => rfl
  | cons a l ih =>
      rw [findFirst, h a List.mem_cons_self, List.find?_cons]
      cases hq : q a with
      | true => rfl
      | false => exact ih fun b hb => h b (List.mem_cons_of_mem _ hb)

/-- The one element a test accepts is found. -/
theorem findFirst_unique {p : α → Except ε Bool} {q : α → Bool} {l : List α} {a : α}
    (h : ∀ b ∈ l, p b = .ok (q b)) (ha : a ∈ l) (hq : q a = true) (hu : ∀ b ∈ l, q b = true → b = a) :
    findFirst p l = .ok (some a) := by
  rw [findFirst_eq_find? h]
  cases hf : l.find? q with
  | none => exact absurd hq (List.find?_eq_none.mp hf a ha)
  | some b => rw [hu b (List.mem_of_find?_eq_some hf) (List.find?_some hf)]

/-- Two tests that answer alike on the list find the same. -/
theorem findFirst_congr {p q : α → Except ε Bool} {l : List α} (h : ∀ a ∈ l, p a = q a) :
    findFirst p l = findFirst q l := by
  induction l with
  | nil => rfl
  | cons a l ih =>
      rw [findFirst, findFirst, h a List.mem_cons_self, ih fun b hb => h b (List.mem_cons_of_mem _ hb)]

/-- What a search found is an element the test accepted. -/
theorem findFirst_some {p : α → Except ε Bool} {l : List α} {a : α}
    (h : findFirst p l = .ok (some a)) : a ∈ l ∧ p a = .ok true := by
  induction l with
  | nil => cases h
  | cons b l ih =>
      rw [findFirst] at h
      cases hb : p b with
      | error e => rw [hb] at h; cases h
      | ok t =>
          rw [hb] at h
          cases t with
          | true => cases h; exact ⟨List.mem_cons_self, hb⟩
          | false => exact ⟨List.mem_cons_of_mem _ (ih h).1, (ih h).2⟩

/-- A search that found nothing tested every element. -/
theorem findFirst_none {p : α → Except ε Bool} {l : List α}
    (h : findFirst p l = .ok none) : ∀ a ∈ l, p a = .ok false := by
  induction l with
  | nil => intro a ha; cases ha
  | cons b l ih =>
      rw [findFirst] at h
      cases hb : p b with
      | error e => rw [hb] at h; cases h
      | ok t =>
          rw [hb] at h
          cases t with
          | true => cases h
          | false =>
              intro a ha
              rcases List.mem_cons.mp ha with rfl | ha
              · exact hb
              · exact ih h a ha

/-- A search finds an element, when its test stops with a fault only as `E` says. -/
theorem findFirst_ensures {p : α → Except ε Bool} {E : ε → Prop} {l : List α}
    (h : ∀ a ∈ l, Ensures (p a) (fun _ => True) E) :
    Ensures (findFirst p l) (fun r => ∀ a ∈ r, a ∈ l ∧ p a = .ok true) E := by
  cases hf : findFirst p l with
  | ok r =>
      rintro a rfl
      exact findFirst_some hf
  | error e =>
      induction l with
      | nil => cases hf
      | cons b l ih =>
          rw [findFirst] at hf
          have hb := h b List.mem_cons_self
          cases hp : p b with
          | error e' =>
              rw [hp] at hf hb
              cases hf
              exact hb
          | ok t =>
              rw [hp] at hf
              cases t with
              | true => cases hf
              | false => exact ih (fun a ha => h a (List.mem_cons_of_mem _ ha)) hf

/-- Searches of two lists that correspond element by element find corresponding elements. -/
theorem Follows.findFirst {p : α → Except ε Bool} {q : β → Except δ Bool} {R : α → β → Prop}
    {l : List α} {l' : List β} (hl : List.Forall₂ R l l')
    (hpq : ∀ a b, a ∈ l → R a b → Follows (p a) (q b) Eq) :
    Follows (findFirst p l) (findFirst q l') (Option.Rel R) := by
  induction hl with
  | nil => exact follows_ok .none
  | cons hab hl ih =>
      rename_i a b l l'
      refine Follows.bind (hpq a b List.mem_cons_self hab) ?_
      rintro t _ rfl
      cases t with
      | true => exact follows_ok (.some hab)
      | false => exact ih fun a b ha => hpq a b (List.mem_cons_of_mem _ ha)

/-! ### Runs -/

/-- The states reached from `s₀` by steps that meet a condition on the state before them. -/
inductive Reach {σ : Type} {ι : Type*} (step : σ → ι → Except ε σ) (ok : σ → ι → Prop) (s₀ : σ) :
    σ → Prop where
  | refl : Reach step ok s₀ s₀
  | step {s s' : σ} {i : ι} : Reach step ok s₀ s → ok s i → step s i = .ok s' →
      Reach step ok s₀ s'

/-- The invariant rule: what the start has and every admitted step keeps, every run keeps. -/
theorem Reach.invariant {σ : Type} {ι : Type*} {step : σ → ι → Except ε σ} {ok : σ → ι → Prop} {s₀ s : σ}
    {I : σ → Prop} (h : Reach step ok s₀ s) (h₀ : I s₀)
    (hstep : ∀ s i, I s → ok s i → Ensures (step s i) I (fun _ => True)) : I s := by
  induction h with
  | refl => exact h₀
  | step _ hok hs ih => exact (hstep _ _ ih hok).of_ok hs

/-- One run behind another. -/
theorem Reach.trans {σ : Type} {ι : Type*} {step : σ → ι → Except ε σ} {ok : σ → ι → Prop} {s₀ s s' : σ}
    (h : Reach step ok s₀ s) (h' : Reach step ok s s') : Reach step ok s₀ s' := by
  induction h' with
  | refl => exact h
  | step _ hok hs ih => exact .step ih hok hs

/-- The state after a list of inputs, if every step is admitted and returns. -/
def admittedRun {σ : Type} {ι : Type*} (step : σ → ι → Except ε σ) (ok : σ → ι → Prop)
    [∀ s i, Decidable (ok s i)] (s : σ) : List ι → Option σ
  | [] => some s
  | i :: is =>
      if ok s i then (step s i).toOption.bind fun s' => admittedRun step ok s' is else none

/-- A run that was computed is a run. -/
theorem Reach.of_admittedRun {σ : Type} {ι : Type*} {step : σ → ι → Except ε σ} {ok : σ → ι → Prop}
    [∀ s i, Decidable (ok s i)] {s₀ s s' : σ} {is : List ι} (h₀ : Reach step ok s₀ s)
    (h : admittedRun step ok s is = some s') : Reach step ok s₀ s' := by
  induction is generalizing s with
  | nil =>
      cases h
      exact h₀
  | cons i is ih =>
      rw [admittedRun] at h
      split at h
      · next hok =>
        obtain ⟨t, ht, hrest⟩ := Option.bind_eq_some_iff.mp h
        cases hs : step s i with
        | error e => rw [hs] at ht; cases ht
        | ok t' =>
            rw [hs] at ht
            cases ht
            exact ih (h₀.step hok hs) hrest
      · cases h

theorem Reach.weaken {σ : Type} {ι : Type*} {step : σ → ι → Except ε σ} {ok ok' : σ → ι → Prop} {s₀ s : σ}
    (h : Reach step ok s₀ s) (hok : ∀ s i, ok s i → ok' s i) : Reach step ok' s₀ s := by
  induction h with
  | refl => exact .refl
  | step _ h hs ih => exact .step ih (hok _ _ h) hs

end Outcome
