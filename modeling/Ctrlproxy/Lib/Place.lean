import Mathlib.Data.List.Basic
import Mathlib.Data.List.Find

/-!
# Lib — places in a state

A place of a state is what is read there and written there; a state may have no such place.  There are the
fields of a record (`Place.field`), the same field of the first element that a list has with a mark
(`Place.first`), and the places inside a field (`Place.inside`).  What is written is read back, which is a
field of the structure, and `Place.Apart` says that a write at one place is not seen at another.
Nothing here names a program.
-/

variable {S T α β γ : Type}

/-- A place, with values of type `α`. -/
structure Place (S α : Type) where
  read : S → Option α
  write : α → S → Option S
  read_write : ∀ {a : α} {s s' : S}, write a s = some s' → read s' = some a

namespace Place

/-! ### Lists -/

/-- Change the first element that has the mark, if there is one. -/
def updateFirst (mark : β → Bool) (f : β → β) : List β → Option (List β)
  | [] => none
  | b :: bs => if mark b then some (f b :: bs) else (updateFirst mark f bs).map (b :: ·)

theorem find?_updateFirst {mark : β → Bool} {f : β → β} (hf : ∀ b, mark (f b) = mark b) {bs bs' : List β}
    (h : updateFirst mark f bs = some bs') :
    ∃ b, bs.find? mark = some b ∧ bs'.find? mark = some (f b) := by
  induction bs generalizing bs' with
  | nil => cases h
  | cons b bs ih =>
      rw [updateFirst] at h
      split at h
      · next hb =>
        cases h
        exact ⟨b, List.find?_cons_of_pos hb, List.find?_cons_of_pos ((hf b).trans hb)⟩
      · next hb =>
        obtain ⟨bs₁, h₁, rfl⟩ := Option.map_eq_some_iff.mp h
        rw [List.find?_cons_of_neg hb, List.find?_cons_of_neg hb]
        exact ih h₁

/-! ### Places -/

/-- A field of a record. -/
def field (get : S → α) (set : α → S → S) (h : ∀ a s, get (set a s) = a) : Place S α where
  read s := some (get s)
  write a s := some (set a s)
  read_write := by
    rintro a s _ ⟨⟩
    exact congrArg some (h a s)

/-- A field of the first element of a list that has a mark, which a write does not change. -/
def first (mark : β → Bool) (get : β → α) (set : α → β → β) (h : ∀ a b, get (set a b) = a)
    (hmark : ∀ a b, mark (set a b) = mark b) : Place (List β) α where
  read bs := (bs.find? mark).map get
  write a bs := updateFirst mark (set a) bs
  read_write := by
    intro a bs bs' hw
    obtain ⟨b, -, hb⟩ := find?_updateFirst (hmark a) hw
    rw [hb, Option.map_some, h]

/-- A place inside a field. -/
def inside (get : S → T) (set : T → S → S) (h : ∀ t s, get (set t s) = t) (p : Place T α) :
    Place S α where
  read s := p.read (get s)
  write a s := (p.write a (get s)).map fun t => set t s
  read_write := by
    intro a s s' hw
    obtain ⟨t, ht, rfl⟩ := Option.map_eq_some_iff.mp hw
    rw [h]
    exact p.read_write ht

/-! ### Apart -/

/-- What is written at `q` is not seen at `p`. -/
def Apart (p : Place S α) (q : Place S β) : Prop :=
  ∀ b s s', q.write b s = some s' → p.read s' = p.read s

theorem apart_first {mark : β → Bool} {get : β → α} {set : α → β → β} {get' : β → γ} {set' : γ → β → β}
    (h : ∀ a b, get (set a b) = a) (hmark : ∀ a b, mark (set a b) = mark b)
    (h' : ∀ a b, get' (set' a b) = a) (hmark' : ∀ a b, mark (set' a b) = mark b)
    (hget : ∀ c b, get (set' c b) = get b) :
    Apart (first mark get set h hmark) (first mark get' set' h' hmark') := by
  intro c bs bs' hw
  obtain ⟨b, hb, hb'⟩ := find?_updateFirst (hmark' c) hw
  simp only [first, hb, hb', Option.map_some, hget]

theorem apart_inside {get : S → T} {set : T → S → S} (h : ∀ t s, get (set t s) = t) {p : Place T α}
    {q : Place T β} (hpq : Apart p q) : Apart (inside get set h p) (inside get set h q) := by
  intro b s s' hw
  obtain ⟨t, ht, rfl⟩ := Option.map_eq_some_iff.mp hw
  simp only [inside, h]
  exact hpq b _ t ht

/-- A place whose reading no change of a field is seen in, is apart from the places inside it. -/
theorem apart_of_field {p : Place S α} {get : S → T} {set : T → S → S} (h : ∀ t s, get (set t s) = t)
    {q : Place T β} (hp : ∀ t s, p.read (set t s) = p.read s) : Apart p (inside get set h q) := by
  intro b s s' hw
  obtain ⟨t, -, rfl⟩ := Option.map_eq_some_iff.mp hw
  exact hp t s

end Place
