import Ctrlproxy.State.Membership

/-!
# State — the mode tables

The mode tables have 255 slots and are indexed by a character, so `0xFF` is the one character
without a slot.  `ModeSafe` (`State/Steps.lean`) says of a line that it brings no such character to
a table; here: along lines that satisfy it no access leaves a table, and every mode set there is
stays within what `mode2string` prints.
-/

namespace Ctrlproxy
open Outcome

/-- The printed form of a mode set has exactly the characters that are set. -/
def Represented (m : Modes) : Prop :=
  ∀ i : Fin MAXMODES,
    m i = true ↔ ∃ w, mode2string m = some (chr '+' :: w) ∧ ∃ b ∈ w, b.1 = i.1

theorem mem_mode2stringBody {m : Modes} {b : Byte} :
    b ∈ mode2stringBody m ↔ ∃ i : Fin MAXMODES, m i = true ∧ i.1 = b.1 := by
  unfold mode2stringBody
  rw [List.mem_filterMap]
  constructor
  · rintro ⟨i, -, hi⟩
    split at hi
    · rename_i h
      cases hi
      exact ⟨i, h.1, rfl⟩
    · cases hi
  · rintro ⟨i, hm, hi⟩
    have hpos : 0 < i.1 := hi ▸ b.2.1
    refine ⟨i, List.mem_finRange i, ?_⟩
    rw [dif_pos ⟨hm, hpos⟩]
    exact congrArg some (Subtype.ext hi)

/-- The characters come in order, each once. -/
theorem mode2stringBody_sorted (m : Modes) :
    (mode2stringBody m).Pairwise fun a b => a.1 < b.1 := by
  unfold mode2stringBody
  refine (List.pairwise_lt_finRange MAXMODES).filterMap _ fun i j hij b hb b' hb' => ?_
  split at hb
  · split at hb'
    · cases hb
      cases hb'
      exact hij
    · cases hb'
  · cases hb

/-- A mode set without the terminator is printed in full. -/
theorem represented_of_nul {m : Modes} (h : m ⟨0, by decide⟩ = false) : Represented m := by
  intro i
  have key : m i = true ↔ ∃ b ∈ mode2stringBody m, b.1 = i.1 := by
    constructor
    · intro hm
      have hpos : 0 < i.1 := by
        rcases Nat.eq_zero_or_pos i.1 with e | e
        · rw [show i = ⟨0, by decide⟩ from Fin.ext e, h] at hm
          cases hm
        · exact e
      have hlt : i.1 < 256 := Nat.lt_succ_of_lt i.2
      exact ⟨⟨i.1, hpos, hlt⟩, mem_mode2stringBody.mpr ⟨i, hm, rfl⟩, rfl⟩
    · rintro ⟨b, hb, e⟩
      obtain ⟨j, hj, e'⟩ := mem_mode2stringBody.mp hb
      rw [← Fin.ext (e'.trans e)]
      exact hj
  rw [key]
  unfold mode2string
  rw [h]
  simp only [Bool.false_eq_true, if_false]
  cases hw : mode2stringBody m with
  | nil => simp
  | cons c w =>
      constructor
      · exact fun hb => ⟨c :: w, rfl, hb⟩
      · rintro ⟨_, e, hb⟩
        cases e
        exact hb

/-! ### Every mode set of a state -/

/-- No mode set of a state has the terminator. -/
structure NulFree (s : NetworkState) : Prop where
  nick : ∀ r n, s.nickHeap r = some n → n.modes ⟨0, by decide⟩ = false
  chan : ∀ r c, s.chanHeap r = some c → c.modes ⟨0, by decide⟩ = false
  memb : ∀ r m, s.membHeap r = some m → m.modes ⟨0, by decide⟩ = false

theorem KeepsNul.nul {m m' : Modes} (h : KeepsNul m m') (hm : m ⟨0, by decide⟩ = false) :
    m' ⟨0, by decide⟩ = false := by
  cases e : m' ⟨0, by decide⟩ with
  | false => rfl
  | true => rw [h e] at hm; cases hm

section
variable {s s' : NetworkState}

theorem networkNickSetNick_modes (n : NetworkNick) (a : Str) :
    (networkNickSetNick n a).modes = n.modes := by
  unfold networkNickSetNick
  split <;> rfl

theorem networkNickSetHostmask_modes (n : NetworkNick) (a : Str) :
    (networkNickSetHostmask n a).modes = n.modes := by
  unfold networkNickSetHostmask
  split <;> rfl

theorem NameEdit.modes_eq {n n' : NetworkNick} (e : NameEdit n n') : n'.modes = n.modes := by
  cases e with
  | data => rfl
  | nick => exact networkNickSetNick_modes _ _
  | hostmask => exact networkNickSetHostmask_modes _ _

theorem AttrEdit.keepsNul {n n' : NetworkNick} (e : AttrEdit n n') :
    KeepsNul n.modes n'.modes := by
  cases e with
  | query => exact KeepsNul.refl _
  | who => exact KeepsNul.refl _
  | modes h => exact h

theorem Trim.nulFree (e : Trim s s') (h : NulFree s) : NulFree s' := by
  cases e with
  | query hr =>
      have hn := h.nick _ _ hr
      exact ⟨Heap.forall_set h.nick hn, h.chan, h.memb⟩
  | unlink _ _ hm hch hgn =>
      have hn := h.nick _ _ hgn
      have hc := h.chan _ _ hch
      exact ⟨Heap.forall_set h.nick hn, Heap.forall_set h.chan hc, fun r m hr =>
        h.memb r m (Heap.of_del hr)⟩
  | dropNick _ _ _ => exact ⟨fun r n hr => h.nick r n (Heap.of_del hr), h.chan, h.memb⟩
  | dropChan _ _ _ => exact ⟨h.nick, fun r c hr => h.chan r c (Heap.of_del hr), h.memb⟩

theorem Quiet.nulFree (e : Quiet s s') (h : NulFree s) : NulFree s' := by
  cases e with
  | trim t => exact t.nulFree h
  | nick hr he => exact ⟨Heap.forall_set h.nick (he.keepsNul.nul (h.nick _ _ hr)), h.chan, h.memb⟩
  | chan hr _ _ _ hm => exact ⟨h.nick, Heap.forall_set h.chan (hm.nul (h.chan _ _ hr)), h.memb⟩
  | memb hr _ _ hm => exact ⟨h.nick, h.chan, Heap.forall_set h.memb (hm.nul (h.memb _ _ hr))⟩
  | addChan name => exact ⟨h.nick, Heap.forall_set h.chan rfl, h.memb⟩
  | away b => exact ⟨h.nick, h.chan, h.memb⟩

theorem Edit.nulFree (e : Edit s s') (h : NulFree s) : NulFree s' := by
  cases e with
  | quiet q => exact q.nulFree h
  | name hr he =>
      have hm := h.nick _ _ hr
      rw [← he.modes_eq] at hm
      exact ⟨Heap.forall_set h.nick hm, h.chan, h.memb⟩
  | addNick name => exact ⟨Heap.forall_set h.nick rfl, h.chan, h.memb⟩
  | addMemb _ _ hch hgn hm =>
      have hn := h.nick _ _ hgn
      have hc := h.chan _ _ hch
      exact ⟨Heap.forall_set h.nick hn, Heap.forall_set h.chan hc, Heap.forall_set h.memb (hm.nul rfl)⟩

theorem Step.nulFree {l : IrcLine} (e : Step s l s') (h : NulFree s) : NulFree s' := by
  cases e with
  | edits e => exact e.keeps Edit.nulFree h
  | rename _ _ hn =>
      have hm := h.nick _ _ hn
      exact ⟨Heap.forall_set h.nick hm, h.chan, h.memb⟩
  | info i _ => exact ⟨h.nick, h.chan, h.memb⟩

end

theorem networkStateInit_nulFree (nick username hostname : Str) :
    NulFree (networkStateInit nick username hostname) where
  nick := Heap.forall_set (fun _ _ e => by cases e) rfl
  chan := fun _ _ e => by cases e
  memb := fun _ _ e => by cases e

/-! ### Runs -/

/-- Every mode set of the state is printed in full: those of the known nicks, of the channels and
of their members. -/
structure ModesRepresented (s : NetworkState) : Prop where
  nicks : ∀ g, g = meRef ∨ g ∈ s.nicks → ∀ n, s.nickHeap g = some n → Represented n.modes
  channels : ∀ c ∈ s.channels, ∀ ch, s.chanHeap c = some ch → Represented ch.modes
  members : ∀ c ∈ s.channels, ∀ ch, s.chanHeap c = some ch → ∀ m ∈ ch.nicks,
    ∀ cn, s.membHeap m = some cn → Represented cn.modes

/-- The property of the mode tables: a line is handled without leaving them, and every mode set is
printed in full. -/
def ModeTables (ok : NetworkState → IrcLine → Prop) (s : NetworkState) : Prop :=
  (∀ i : Input, ok s i.2 → stateStep s i ≠ .error .modeIndex) ∧ ModesRepresented s

/-- **No access leaves a mode table, and mode sets print in full**, in every state reached by
lines that bring no character `0xFF` to a table. -/
theorem reachable_modeTables {nick username hostname : Str} {s : NetworkState}
    (h : Reach stateStep (fun s i => ModeSafe s i.2)
      (networkStateInit nick username hostname) s) : ModeTables ModeSafe s := by
  have inv : Graph s ∧ NulFree s := by
    refine h.invariant (I := fun s => Graph s ∧ NulFree s)
      ⟨networkStateInit_graph _ _ _, networkStateInit_nulFree _ _ _⟩ ?_
    rintro s i ⟨hg, hn⟩ -
    exact (stateStep_step hg i).mono (fun _ hs => ⟨hs.graph hg, hs.nulFree hn⟩) fun _ _ => trivial
  obtain ⟨hg, hn⟩ := inv
  refine ⟨fun i hsafe he => ?_, ?_, ?_, ?_⟩
  · have := stateStep_step hg i
    rw [he] at this
    exact this hsafe rfl
  · exact fun g _ n hgn => represented_of_nul (hn.nick g n hgn)
  · exact fun c _ ch hch => represented_of_nul (hn.chan c ch hch)
  · exact fun _ _ _ _ m _ cn hcn => represented_of_nul (hn.memb m cn hcn)

theorem reachable_modeTables_voice : ∃ s,
    Reach stateStep (fun s i => ModeSafe s i.2)
      (networkStateInit (str "me") (str "user") (str "host")) s ∧
    (s.nickHeap meRef).map (fun n => n.modes ⟨119, by decide⟩) = some true ∧
    ModeTables ModeSafe s := by
  let s₀ := networkStateInit (str "me") (str "user") (str "host")
  let i := inputOf ":srv 221 +w-x+i"
  have run : (stateStep s₀ i).map (fun s =>
      (s.nickHeap meRef).map fun n => n.modes ⟨119, by decide⟩) = .ok (some true) := by
    decide +kernel
  obtain ⟨s, hs, hm⟩ := map_eq_ok run
  have hk : commandOf i.2 = some .umodeis := by decide +kernel
  have harg : i.2.args[1]? = some (str "+w-x+i") := by decide +kernel
  have hsafe : ModeSafe s₀ i.2 := by
    refine ⟨?_, ?_, ?_, fun _ w hw hFF => ?_, ?_⟩
    · rw [hk]
      exact fun e => by cases e
    · rw [hk]
      exact fun e => by cases e
    · rw [hk]
      exact fun e => by cases e
    · rw [harg] at hw
      cases hw
      exact absurd hFF.2 (by decide +kernel)
    · rw [hk]
      exact fun e => by cases e
  have hr : Reach stateStep (fun s i => ModeSafe s i.2) s₀ s := .step .refl hsafe hs
  exact ⟨s, hr, hm, reachable_modeTables hr⟩

/-- A user MODE line with the character `0xFF` writes behind the table of the user's modes. -/
theorem modeTables_left_by_user_mode : ¬ ∀ (nick username hostname : Str) (s : NetworkState),
    Reach stateStep (fun _ _ => True) (networkStateInit nick username hostname) s →
      ModeTables (fun _ _ => True) s := by
  intro claim
  let s₀ := networkStateInit (str "me") (str "user") (str "host")
  let i : Input := (long0, { origin := some (str "srv"), hasEndcolon := .withoutColon,
                             args := [str "MODE", str "me", [chr '+', byteFF]] })
  have fault : (stateStep s₀ i).map (fun _ => ()) = .error .modeIndex := by decide +kernel
  have holds := (claim _ _ _ s₀ .refl).1 i trivial
  cases hs : stateStep s₀ i with
  | ok s =>
      rw [hs] at fault
      cases fault
  | error e =>
      rw [hs] at fault
      cases fault
      exact holds hs

end Ctrlproxy
