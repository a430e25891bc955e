import Ctrlproxy.Base.Decimal
import Ctrlproxy.Base.Print
import Ctrlproxy.Linestack.Marshal
import Ctrlproxy.State.ModeString

/-!
# Linestack — what is written is read back

`Carries f d x` says of a marshaller that it writes the value `d` as the text `x`, after any text,
and reads `d` from `x`, before any text and into any place.  Every value the marshaller of a state
is made of has such a text, as long as its strings have no line end in them.
-/

namespace Ctrlproxy
open Outcome

/-! ### Lines -/

/-- A string without a line terminator. -/
def Plain (s : Str) : Prop := NoEol s ∧ ¬paragraphSeparator <:+: s

instance (s : Str) : Decidable (Plain s) := inferInstanceAs (Decidable (_ ∧ _))

/-- `g_io_channel_read_line` returns what stands before the next newline, if nothing in it ends a
line. -/
def ReadsLines (read : LineReader) : Prop :=
  ∀ x rest, Plain x → read (x ++ chr '\n' :: rest) = (x, [chr '\n'])

/-- Plain characters of the names of fields. -/
def Ascii (s : Str) : Prop := ∀ b ∈ s, b.1 < 128 ∧ b ≠ chr '\r' ∧ b ≠ chr '\n'

instance (s : Str) : Decidable (Ascii s) := inferInstanceAs (Decidable (∀ _ ∈ _, _))

theorem plain_nil : Plain [] := ⟨word_nil.noEol, by decide⟩

theorem Ascii.append {s t : Str} (hs : Ascii s) (ht : Ascii t) : Ascii (s ++ t) := by
  intro b hb
  rcases List.mem_append.mp hb with hb | hb
  · exact hs b hb
  · exact ht b hb

theorem Ascii.take {s : Str} (h : Ascii s) (n : ℕ) : Ascii (s.take n) :=
  fun b hb => h b (List.mem_of_mem_take hb)

theorem ascii_tabs (level : ℕ) : Ascii (List.replicate level (chr '\t')) := by
  intro b hb
  rw [List.eq_of_mem_replicate hb]
  decide

theorem ascii_decimal (n : ℕ) : Ascii (decimal n) := by
  intro b hb
  have h := mem_decimal hb
  refine ⟨by omega, ?_, ?_⟩ <;> rintro rfl <;> revert h <;> decide

/-- Plain text stays plain behind the name of a field. -/
theorem Ascii.plain_append {s t : Str} (hs : Ascii s) (ht : Plain t) : Plain (s ++ t) := by
  induction s with
  | nil => exact ht
  | cons b s ih =>
      have hb := hs b List.mem_cons_self
      have h := ih fun c hc => hs c (List.mem_cons_of_mem _ hc)
      refine ⟨?_, fun hps => ?_⟩
      · intro c hc
        rcases List.mem_cons.mp hc with rfl | hc
        · exact hb.2
        · exact h.1 c hc
      · rcases List.infix_cons_iff.mp hps with hps | hps
        · -- the separator does not begin with a character below 128
          have he := (List.cons_prefix_cons.mp hps).1
          have := hb.1
          rw [← he] at this
          revert this
          decide
        · exact h.2 hps

theorem Ascii.plain {s : Str} (h : Ascii s) : Plain s := by
  simpa using h.plain_append plain_nil

/-- What stands behind the name of a field. -/
def valueText : Option Str → Str
  | none => []
  | some v => str ": " ++ v

/-- The line of a field, without its end. -/
def lineText (level : ℕ) (name : Str) (value : Option Str) : Str :=
  List.replicate level (chr '\t') ++ name ++ valueText value

/-- A value whose line is read back: its name and its text have no line end. -/
structure Writable (name : Str) (value : Option Str) : Prop where
  name : Ascii name
  value : ∀ v ∈ value, Plain v

theorem Ascii.writable {name : Str} (h : Ascii name) : Writable name none := by
  refine ⟨h, ?_⟩
  intro v hv
  cases hv

theorem Writable.plain {name : Str} {value : Option Str} (h : Writable name value) (level : ℕ) :
    Plain (lineText level name value) := by
  refine ((ascii_tabs level).append h.name).plain_append ?_
  cases value with
  | none => exact plain_nil
  | some v => exact Ascii.plain_append (by decide) (h.value v rfl)

theorem marshallSet_ok {name : Str} {value : Option Str} (h : Writable name value) (t : Str)
    (level : ℕ) :
    marshallSet t level name value = .ok (t ++ (lineText level name value ++ [chr '\n'])) := by
  unfold marshallSet
  rw [if_neg]
  · cases value <;> rfl
  · rintro (hn | ⟨v, hv, hn⟩)
    · exact (h.name _ hn).2.2 rfl
    · exact ((h.value v hv).1 _ hn).2 rfl

theorem marshallGet_ok {read : LineReader} (hread : ReadsLines read) {name : Str}
    {value : Option Str} (h : Writable name value) (level : ℕ) (rest : Str) :
    marshallGet read (lineText level name value ++ [chr '\n'] ++ rest) level name =
      .ok (some value, rest) := by
  have hne : lineText level name value ++ [chr '\n'] ++ rest ≠ [] := by simp
  have hr : read (lineText level name value ++ [chr '\n'] ++ rest) =
      (lineText level name value, [chr '\n']) := by
    rw [List.append_assoc]
    exact hread _ rest (h.plain level)
  have hdrop : (lineText level name value ++ [chr '\n'] ++ rest).drop
      ((lineText level name value).length + [chr '\n'].length) = rest := by
    rw [← List.length_append, List.drop_left]
  rw [marshallGet, if_neg hne, hr]
  simp only [hdrop]
  rw [if_pos (by rw [lineText]; exact List.prefix_append _ _)]
  have hv : (lineText level name value).drop (List.replicate level (chr '\t') ++ name).length =
      valueText value := by
    rw [lineText, List.drop_left]
  rw [hv]
  cases value with
  | none => rfl
  | some v => rfl

/-! ### Marshallers -/

/-- A marshaller writes a value as a text and reads the value from it. -/
structure Carries {D : Type} (f : MarshallMode → Marshall D) (d : D) (x : Str) : Prop where
  push : ∀ t, f .push t d = .ok (true, t ++ x, d)
  pull : ∀ rest v, f .pull (x ++ rest) v = .ok (true, rest, d)

section
variable {read : LineReader} {name : Str} {level : ℕ}

/-- The text of a field. -/
def fieldText (level : ℕ) (name : Str) (value : Option Str) : Str :=
  lineText level name value ++ [chr '\n']

theorem marshallStruct_push (hn : Ascii name) (t : Str) :
    marshallStruct read .push level name t = .ok (true, t ++ fieldText level name none) := by
  rw [marshallStruct, marshallSet_ok hn.writable]
  rfl

theorem marshallStruct_pull (hread : ReadsLines read) (hn : Ascii name) (rest : Str) :
    marshallStruct read .pull level name (fieldText level name none ++ rest) = .ok (true, rest) := by
  rw [marshallStruct, fieldText, marshallGet_ok hread hn.writable]
  rfl

theorem marshallVia_carries {D : Type} {print : D → Option Str}
    {parse : Option Str → D → Except Fault (Bool × D)} (hread : ReadsLines read) {d : D}
    (hw : Writable name (print d)) (hparse : ∀ v, parse (print d) v = .ok (true, d)) :
    Carries (marshallVia read print parse name level) d (fieldText level name (print d)) where
  push := by
    intro t
    rw [marshallVia, marshallSet_ok hw]
    rfl
  pull := by
    intro rest v
    simp only [marshallVia, fieldText, marshallGet_ok hread hw, ok_bind, hparse]
    rfl

theorem marshallString_carries (hread : ReadsLines read) {d : Option Str} (hw : Writable name d) :
    Carries (marshallString read name level) d (fieldText level name d) :=
  marshallVia_carries hread hw fun _ => rfl

theorem marshallBool_carries (hread : ReadsLines read) (hn : Ascii name) (b : Bool) :
    Carries (marshallBool read name level) b (fieldText level name (some (printBool b))) := by
  refine marshallVia_carries hread ⟨hn, ?_⟩ ?_
  · rintro v ⟨⟩
    cases b <;> decide
  · intro v
    cases b <;> rfl

theorem marshallChar_carries (hread : ReadsLines read) (hn : Ascii name) {c : Option Byte}
    (hc : Plain c.toList) :
    Carries (marshallChar read name level) c (fieldText level name (some c.toList)) := by
  refine marshallVia_carries hread ⟨hn, ?_⟩ ?_
  · rintro v ⟨⟩
    exact hc
  · intro v
    cases c <;> rfl

/-- A length is read back. -/
theorem marshallInt_carries (hread : ReadsLines read) (hn : Ascii name) {n : ℕ} (hlt : n < 10 ^ 7) :
    Carries (marshallInt read name level) (n : ℤ) (fieldText level name (some (decimal n))) := by
  have hd : decimalInt (n : ℤ) = decimal n := by
    rw [decimalInt, if_neg (by omega)]
    rfl
  have hs : gSnprintf 10 (decimalInt (n : ℤ)) = decimal n := by
    have := length_decimal_le (by decide) hlt
    rw [hd, gSnprintf, List.take_of_length_le (by omega)]
  have h : Carries (marshallInt read name level) (n : ℤ)
      (fieldText level name (some (gSnprintf 10 (decimalInt (n : ℤ))))) := by
    refine marshallVia_carries hread ⟨hn, ?_⟩ fun v => ?_
    · rw [hs]
      rintro v ⟨⟩
      exact (ascii_decimal n).plain
    · have hlt' : n < 2 ^ 31 := by omega
      simp only [hs, nonNull, ok_bind, atoi_decimal hlt']
      rfl
  rwa [hs] at h

/-- A time is read back. -/
theorem marshallTime_carries (hread : ReadsLines read) (hn : Ascii name) (v : Long) :
    Carries (marshallTime read name level) v (fieldText level name (some (decimalInt v.1))) := by
  have hs : gSnprintf 30 (decimalInt v.1) = decimalInt v.1 := by
    have := length_decimalInt_le v
    rw [gSnprintf, List.take_of_length_le (by omega)]
  have hascii : Ascii (decimalInt v.1) := by
    rw [decimalInt]
    split
    · exact Ascii.append (s := [chr '-']) (by decide) (ascii_decimal _)
    · exact ascii_decimal _
  have h : Carries (marshallTime read name level) v
      (fieldText level name (some (gSnprintf 30 (decimalInt v.1)))) := by
    refine marshallVia_carries hread ⟨hn, ?_⟩ fun w => ?_
    · rw [hs]
      rintro w ⟨⟩
      exact hascii.plain
    · simp only [hs, nonNull, ok_bind, strtol_decimalInt]
      rfl
  rwa [hs] at h

/-! ### Mode sets -/

/-- A mode set that a string of modes stands for. -/
structure ModesWritable (m : Modes) : Prop where
  chars : ∀ i, m i = true → i.1 ≠ 0 ∧ i.1 ≠ (chr '+').1 ∧ i.1 ≠ (chr '-').1
  plain : ∀ w ∈ mode2string m, Plain w

theorem marshallModes_carries (hread : ReadsLines read) (hn : Ascii name) {m : Modes}
    (hm : ModesWritable m) :
    Carries (marshallModes read name level) m (fieldText level name (mode2string m)) := by
  refine marshallVia_carries hread ⟨hn, hm.plain⟩ ?_
  intro v
  rw [string2mode_mode2string hm.chars]
  rfl

end

/-! ### Nicks -/

/-- A nick whose fields can be written. -/
structure NickWritable (n : NetworkNick) : Prop where
  modes : ModesWritable n.modes
  named : n.nick ≠ none
  nick : ∀ v ∈ n.nick, Plain v
  fullname : ∀ v ∈ n.fullname, Plain v
  username : ∀ v ∈ n.username, Plain v
  hostname : ∀ v ∈ n.hostname, Plain v
  hostmask : ∀ v ∈ n.hostmask, Plain v
  server : ∀ v ∈ n.server, Plain v

/-- The text of a nick. -/
def nickText (level : ℕ) (name : Str) (n : NetworkNick) : Str :=
  fieldText level name none ++
  (fieldText (level + 1) (str "query") (some (printBool n.query)) ++
  (fieldText (level + 1) (str "modes") (mode2string n.modes) ++
  (fieldText (level + 1) (str "nick") n.nick ++
  (fieldText (level + 1) (str "fullname") n.fullname ++
  (fieldText (level + 1) (str "username") n.username ++
  (fieldText (level + 1) (str "hostname") n.hostname ++
  (fieldText (level + 1) (str "hostmask") n.hostmask ++
  fieldText (level + 1) (str "server") n.server)))))))

section
variable {read : LineReader} {name : Str} {level : ℕ} {n : NetworkNick}

/-- **A nick is read back**, but for the fields that are not written. -/
theorem marshallNetworkNick_carries (hread : ReadsLines read) (hname : Ascii name)
    (h : NickWritable n) :
    (∀ t, marshallNetworkNick read name level .push t n =
      .ok (true, t ++ nickText level name n, n)) ∧
    ∀ rest v, marshallNetworkNick read name level .pull (nickText level name n ++ rest) v =
      .ok (true, rest, { n with hops := v.hops, channelNicks := [] }) := by
  have query : Carries (marshallBool read (str "query") (level + 1)) n.query _ :=
    marshallBool_carries hread (by decide) n.query
  have modes : Carries (marshallModes read (str "modes") (level + 1)) n.modes _ :=
    marshallModes_carries hread (by decide) h.modes
  have nick : Carries (marshallString read (str "nick") (level + 1)) n.nick _ :=
    marshallString_carries hread ⟨by decide, h.nick⟩
  have fullname : Carries (marshallString read (str "fullname") (level + 1)) n.fullname _ :=
    marshallString_carries hread ⟨by decide, h.fullname⟩
  have username : Carries (marshallString read (str "username") (level + 1)) n.username _ :=
    marshallString_carries hread ⟨by decide, h.username⟩
  have hostname : Carries (marshallString read (str "hostname") (level + 1)) n.hostname _ :=
    marshallString_carries hread ⟨by decide, h.hostname⟩
  have hostmask : Carries (marshallString read (str "hostmask") (level + 1)) n.hostmask _ :=
    marshallString_carries hread ⟨by decide, h.hostmask⟩
  have server : Carries (marshallString read (str "server") (level + 1)) n.server _ :=
    marshallString_carries hread ⟨by decide, h.server⟩
  constructor
  · intro t
    simp only [marshallNetworkNick, nickText, marshallStruct_push hname, ok_bind, query.push,
      modes.push, nick.push, if_neg h.named, fullname.push, username.push, hostname.push,
      hostmask.push, server.push, List.append_assoc]
    rfl
  · intro rest v
    simp only [marshallNetworkNick, nickText, List.append_assoc,
      marshallStruct_pull hread hname, ok_bind, query.pull, modes.pull, nick.pull,
      if_neg h.named, fullname.pull, username.pull, hostname.pull, hostmask.pull, server.pull]
    rfl

end

/-! ### Lists -/

/-- The texts of the elements of a list, the first of them the `i`-th. -/
def texts {D : Type} (x : ℕ → D → Str) : ℕ → List D → Str
  | _, [] => []
  | i, d :: l => x i d ++ texts x (i + 1) l

section
variable {D : Type} {read : LineReader} {name : Str} {level : ℕ}
  {f : Str → ℕ → MarshallMode → MarshallIn D} {x : ℕ → D → Str}

theorem pushElements_ok {nst : NetworkState} {l : List D}
    (hf : ∀ d ∈ l, ∀ i t, ∃ d', f (indexName 20 i) (level + 1) .push nst t d =
      .ok (true, nst, t ++ x i d, d')) (i : ℕ) (t : Str) :
    pushElements f level i l nst t = .ok (true, nst, t ++ texts x i l) := by
  induction l generalizing i t with
  | nil => simp [pushElements, texts]
  | cons d l ih =>
      obtain ⟨d', hd⟩ := hf d List.mem_cons_self i t
      simp only [pushElements, hd, ok_bind, if_true, texts]
      rw [ih fun c hc => hf c (List.mem_cons_of_mem _ hc), List.append_assoc]

/-- The loop that reads a list: what holds after `i` elements were read and is kept by reading the
next holds when all are read. -/
theorem pullElements_ok {l : List D} {v : D} (I : ℕ → NetworkState → List D → Prop)
    (hf : ∀ i d nst acc rest, l[i]? = some d → I i nst acc → ∃ nst' d',
      f (indexName 20 i) (level + 1) .pull nst (x i d ++ rest) v = .ok (true, nst', rest, d') ∧
      I (i + 1) nst' (acc ++ [d'])) (rest : Str) (k i : ℕ) (hk : i + k = l.length)
    {nst : NetworkState} {acc : List D} (h : I i nst acc) :
    ∃ nst' acc', pullElements f level v i k acc nst (texts x i (l.drop i) ++ rest) =
      .ok (true, nst', rest, acc') ∧ I l.length nst' acc' := by
  induction k generalizing i nst acc with
  | zero =>
      have hi : i = l.length := by omega
      subst hi
      exact ⟨nst, acc, by simp [pullElements, texts], h⟩
  | succ k ih =>
      have hlt : i < l.length := by omega
      have hd : l[i]? = some l[i] := List.getElem?_eq_getElem hlt
      obtain ⟨nst', d', hpull, h'⟩ :=
        hf i l[i] nst acc (texts x (i + 1) (l.drop (i + 1)) ++ rest) hd h
      obtain ⟨nst'', acc', hrest, h''⟩ := ih (i + 1) (by omega) h'
      refine ⟨nst'', acc', ?_, h''⟩
      rw [List.drop_eq_getElem_cons hlt, texts, List.append_assoc, pullElements, hpull]
      exact hrest

/-- The text of a list. -/
def listText (x : ℕ → D → Str) (level : ℕ) (name : Str) (l : List D) : Str :=
  fieldText level name none ++
  (fieldText (level + 1) (str "count") (some (decimal l.length)) ++ texts x 0 l)

theorem marshallGList_push (hread : ReadsLines read) (hname : Ascii name) {nst : NetworkState}
    {l : List D} {v : D} (hlen : l.length < 10 ^ 7)
    (hf : ∀ d ∈ l, ∀ i t, ∃ d', f (indexName 20 i) (level + 1) .push nst t d =
      .ok (true, nst, t ++ x i d, d')) (t : Str) :
    marshallGList read v f name level .push nst t l =
      .ok (true, nst, t ++ listText x level name l, l) := by
  have count : Carries (marshallInt read (str "count") (level + 1)) (l.length : ℤ) _ :=
    marshallInt_carries hread (by decide) hlen
  simp only [marshallGList, marshallStruct_push hname, ok_bind, count.push, pushElements_ok hf,
    listText, List.append_assoc]
  rfl

theorem marshallGList_pull (hread : ReadsLines read) (hname : Ascii name) {l gl : List D} {v : D}
    (hlen : l.length < 10 ^ 7) (I : ℕ → NetworkState → List D → Prop)
    (hf : ∀ i d nst acc rest, l[i]? = some d → I i nst acc → ∃ nst' d',
      f (indexName 20 i) (level + 1) .pull nst (x i d ++ rest) v = .ok (true, nst', rest, d') ∧
      I (i + 1) nst' (acc ++ [d'])) {nst : NetworkState} (h : I 0 nst []) (rest : Str) :
    ∃ nst' l', marshallGList read v f name level .pull nst (listText x level name l ++ rest) gl =
      .ok (true, nst', rest, l') ∧ I l.length nst' l' := by
  have count : Carries (marshallInt read (str "count") (level + 1)) (l.length : ℤ) _ :=
    marshallInt_carries hread (by decide) hlen
  obtain ⟨nst', l', hpull, h'⟩ := pullElements_ok I hf rest l.length 0 (Nat.zero_add _) h
  refine ⟨nst', l', ?_, h'⟩
  simp only [marshallGList, listText, List.append_assoc, marshallStruct_pull hread hname, ok_bind,
    count.pull, Int.toNat_natCast]
  exact hpull

/-- A list of one element. -/
theorem marshallGList_pull_one (hread : ReadsLines read) (hname : Ascii name) {d d' v : D}
    {gl : List D} {nst nst' : NetworkState}
    (hf : ∀ rest, f (indexName 20 0) (level + 1) .pull nst (x 0 d ++ rest) v =
      .ok (true, nst', rest, d')) (rest : Str) :
    marshallGList read v f name level .pull nst (listText x level name [d] ++ rest) gl =
      .ok (true, nst', rest, [d']) := by
  have count : Carries (marshallInt read (str "count") (level + 1)) ((1 : ℕ) : ℤ) _ :=
    marshallInt_carries hread (by decide) (by decide)
  simp only [marshallGList, listText, List.append_assoc, marshallStruct_pull hread hname, ok_bind,
    List.length_singleton, count.pull, Int.toNat_natCast, pullElements, texts, List.nil_append,
    hf, if_true]

end

theorem ascii_indexName (size i : ℕ) : Ascii (indexName size i) := by
  refine Ascii.take ?_ _
  refine Ascii.append (s := [chr '[']) (by decide) ((ascii_decimal i).append (by decide))

/-! ### Masks -/

/-- A mask whose fields can be written. -/
structure EntryWritable (e : NicklistEntry) : Prop where
  hostmask : ∀ v ∈ e.hostmask, Plain v
  by' : ∀ v ∈ e.by', Plain v

/-- The text of a mask. -/
def entryText (level : ℕ) (name : Str) (e : NicklistEntry) : Str :=
  fieldText level name none ++
  (fieldText (level + 1) (str "time") (some (decimalInt e.timeSet.1)) ++
  (fieldText (level + 1) (str "hostmask") e.hostmask ++
  fieldText (level + 1) (str "by") e.by'))

section
variable {read : LineReader} {junk : Junk} {name : Str} {level : ℕ}

theorem marshallNicklistEntry_carries (hread : ReadsLines read) (hname : Ascii name)
    {e : NicklistEntry} (h : EntryWritable e) :
    Carries (marshallNicklistEntry read junk name level) e (entryText level name e) := by
  have time : Carries (marshallTime read (str "time") (level + 1)) e.timeSet _ :=
    marshallTime_carries hread (by decide) e.timeSet
  have hostmask : Carries (marshallString read (str "hostmask") (level + 1)) e.hostmask _ :=
    marshallString_carries hread ⟨by decide, h.hostmask⟩
  have by' : Carries (marshallString read (str "by") (level + 1)) e.by' _ :=
    marshallString_carries hread ⟨by decide, h.by'⟩
  constructor
  · intro t
    simp only [marshallNicklistEntry, entryText, marshallStruct_push hname, ok_bind, time.push,
      hostmask.push, by'.push, reduceCtorEq, if_false, List.append_assoc]
    rfl
  · intro rest v
    simp only [marshallNicklistEntry, entryText, List.append_assoc,
      marshallStruct_pull hread hname, ok_bind, if_true, time.pull, hostmask.pull, by'.pull]
    rfl

/-- The text of a list of masks. -/
def masksText (level : ℕ) (name : Str) (l : List NicklistEntry) : Str :=
  listText (fun i => entryText (level + 1) (indexName 20 i)) level name l

/-- A list of masks that can be written. -/
structure MasksWritable (l : List NicklistEntry) : Prop where
  length : l.length < 10 ^ 7
  entries : ∀ e ∈ l, EntryWritable e

theorem marshallMasks_push (hread : ReadsLines read) (hname : Ascii name) {l : List NicklistEntry}
    (h : MasksWritable l) (nst : NetworkState) (t : Str) :
    marshallMasks read junk name level .push nst t l =
      .ok (true, nst, t ++ masksText level name l, l) := by
  refine marshallGList_push hread hname h.length ?_ t
  intro e he i t
  have entry : Carries (marshallNicklistEntry read junk (indexName 20 i) (level + 1)) e _ :=
    marshallNicklistEntry_carries hread (ascii_indexName 20 i) (h.entries e he)
  refine ⟨e, ?_⟩
  simp only [Marshall.lift, entry.push, ok_bind]
  rfl

theorem marshallMasks_pull (hread : ReadsLines read) (hname : Ascii name) {l : List NicklistEntry}
    (h : MasksWritable l) (nst : NetworkState) (rest : Str) (gl : List NicklistEntry) :
    marshallMasks read junk name level .pull nst (masksText level name l ++ rest) gl =
      .ok (true, nst, rest, l) := by
  have key : ∃ nst' l', marshallMasks read junk name level .pull nst
      (masksText level name l ++ rest) gl = .ok (true, nst', rest, l') ∧
      nst' = nst ∧ l' = l.take l.length := by
    refine marshallGList_pull hread hname h.length (fun i nst' acc => nst' = nst ∧ acc = l.take i)
      ?_ ⟨rfl, rfl⟩ rest
    rintro i e nst' acc rest hi ⟨rfl, rfl⟩
    have entry : Carries (marshallNicklistEntry read junk (indexName 20 i) (level + 1)) e _ :=
      marshallNicklistEntry_carries hread (ascii_indexName 20 i)
        (h.entries e (List.mem_of_getElem? hi))
    refine ⟨nst', e, ?_, rfl, ?_⟩
    · simp only [Marshall.lift, entry.pull, ok_bind]
      rfl
    · rw [List.take_add_one, hi]
      rfl
  obtain ⟨nst', l', hpull, rfl, rfl⟩ := key
  rwa [List.take_length] at hpull

end

/-! ### Channels -/

theorem ascii_slotName {name : Str} (hn : Ascii name) (i : ℕ) : Ascii (slotName name i) := by
  refine Ascii.take ?_ _
  refine (hn.append ?_).append (by decide)
  exact Ascii.append (s := [chr '[']) (by decide) (ascii_decimal i)

/-- The text of the lists of masks and the options of some slots. -/
def slotsText (level : ℕ) (lists : ModeArray (List NicklistEntry))
    (options : ModeArray (Option Str)) : List (Fin MAXMODES) → Str
  | [] => []
  | i :: is =>
      masksText (level + 1) (slotName (str "mode_nicklist") i) (lists i) ++
      (fieldText (level + 1) (slotName (str "mode_option") i) (options i) ++
      slotsText level lists options is)

theorem ModeArray.set_self {α : Type} (a : ModeArray α) (i : Fin MAXMODES) :
    ModeArray.set a i (a i) = a := by
  funext j
  rw [ModeArray.set]
  split
  · subst_vars
    rfl
  · rfl

section
variable {read : LineReader} {junk : Junk} {level : ℕ} {lists : ModeArray (List NicklistEntry)}
  {options : ModeArray (Option Str)}

theorem marshallSlots_push (hread : ReadsLines read) (hl : ∀ i, MasksWritable (lists i))
    (ho : ∀ i, ∀ v ∈ options i, Plain v) (is : List (Fin MAXMODES)) (nst : NetworkState) (t : Str) :
    marshallSlots read junk level .push is nst t (lists, options) =
      .ok (true, nst, t ++ slotsText level lists options is, (lists, options)) := by
  induction is generalizing t with
  | nil => simp [marshallSlots, slotsText]
  | cons i is ih =>
      have option : Carries (marshallString read (slotName (str "mode_option") i) (level + 1))
          (options i) _ :=
        marshallString_carries hread ⟨ascii_slotName (by decide) i, ho i⟩
      have masks : ∀ nst t, marshallMasks read junk (slotName (str "mode_nicklist") i) (level + 1)
          .push nst t (lists i) = _ :=
        marshallMasks_push hread (ascii_slotName (by decide) i) (hl i)
      simp only [marshallSlots, masks, ok_bind, option.push, ModeArray.set_self, ih, slotsText, List.append_assoc]
      rfl

theorem marshallSlots_pull (hread : ReadsLines read) (hl : ∀ i, MasksWritable (lists i))
    (ho : ∀ i, ∀ v ∈ options i, Plain v) (is : List (Fin MAXMODES)) (nst : NetworkState)
    (rest : Str) (l₀ : ModeArray (List NicklistEntry)) (o₀ : ModeArray (Option Str)) :
    marshallSlots read junk level .pull is nst (slotsText level lists options is ++ rest)
      (l₀, o₀) = .ok (true, nst, rest, (fun j => if j ∈ is then lists j else l₀ j),
        fun j => if j ∈ is then options j else o₀ j) := by
  induction is generalizing l₀ o₀ with
  | nil => simp [marshallSlots, slotsText]
  | cons i is ih =>
      have option : Carries (marshallString read (slotName (str "mode_option") i) (level + 1))
          (options i) _ :=
        marshallString_carries hread ⟨ascii_slotName (by decide) i, ho i⟩
      have masks : ∀ nst rest l, marshallMasks read junk (slotName (str "mode_nicklist") i)
          (level + 1) .pull nst (_ ++ rest) l = _ :=
        marshallMasks_pull hread (ascii_slotName (by decide) i) (hl i)
      simp only [slotsText, List.append_assoc, marshallSlots, masks, ok_bind, option.pull, ih]
      have hset : ∀ {α : Type} (a a₀ : ModeArray α),
          (fun j => if j ∈ is then a j else ModeArray.set a₀ i (a i) j) =
            fun j => if j ∈ i :: is then a j else a₀ j := by
        intro α a a₀
        funext j
        simp only [ModeArray.set, List.mem_cons]
        by_cases hj : j ∈ is
        · simp [hj]
        · by_cases hji : j = i
          · subst hji
            simp
          · simp [hj, hji]
      rw [hset, hset]
      rfl

end

/-- A channel whose fields can be written. -/
structure ChannelWritable (c : ChannelState) : Prop where
  mode : Plain c.mode.toList
  modes : ModesWritable c.modes
  name : Plain c.name
  topic : ∀ v ∈ c.topic, Plain v
  topicSetBy : ∀ v ∈ c.topicSetBy, Plain v
  lists : ∀ i, MasksWritable (c.chanmodeNicklist i)
  options : ∀ i, ∀ v ∈ c.chanmodeOption i, Plain v

/-- The text of a channel but its members. -/
def channelFieldsText (level : ℕ) (c : ChannelState) : Str :=
  fieldText (level + 1) (str "mode") (some c.mode.toList) ++
  (fieldText (level + 1) (str "modes") (mode2string c.modes) ++
  (fieldText (level + 1) (str "namreply_started") (some (printBool c.namreplyStarted)) ++
  (fieldText (level + 1) (str "banlist_started") (some (printBool c.banlistStarted)) ++
  (fieldText (level + 1) (str "invitelist_started") (some (printBool c.invitelistStarted)) ++
  (fieldText (level + 1) (str "exceptlist_started") (some (printBool c.exceptlistStarted)) ++
  (fieldText (level + 1) (str "name") (some c.name) ++
  (fieldText (level + 1) (str "topic") c.topic ++
  (fieldText (level + 1) (str "topic_set_by") c.topicSetBy ++
  (fieldText (level + 1) (str "topic_set_time") (some (decimalInt c.topicSetTime.1)) ++
  slotsText level c.chanmodeNicklist c.chanmodeOption (List.finRange MAXMODES))))))))))

/-- The channel read in the place of `v`: the fields that are not written are those of `v`. -/
def readChannel (c v : ChannelState) : ChannelState :=
  { v with
    mode := c.mode
    modes := c.modes
    namreplyStarted := c.namreplyStarted
    banlistStarted := c.banlistStarted
    invitelistStarted := c.invitelistStarted
    exceptlistStarted := c.exceptlistStarted
    name := c.name
    topic := c.topic
    topicSetBy := c.topicSetBy
    topicSetTime := c.topicSetTime
    chanmodeNicklist := c.chanmodeNicklist
    chanmodeOption := c.chanmodeOption
    network := true }

section
variable {read : LineReader} {junk : Junk} {level : ℕ} {c : ChannelState}

/-- **The fields of a channel are read back**, but for those that are not written. -/
theorem marshallChannelFields_carries (hread : ReadsLines read) (h : ChannelWritable c) :
    (∀ nst t, marshallChannelFields read junk level .push nst t c =
      .ok (true, nst, t ++ channelFieldsText level c, { c with network := true })) ∧
    ∀ nst rest v, marshallChannelFields read junk level .pull nst
      (channelFieldsText level c ++ rest) v = .ok (true, nst, rest, readChannel c v) := by
  have mode : Carries (marshallChar read (str "mode") (level + 1)) c.mode _ :=
    marshallChar_carries hread (by decide) h.mode
  have modes : Carries (marshallModes read (str "modes") (level + 1)) c.modes _ :=
    marshallModes_carries hread (by decide) h.modes
  have namreply : Carries (marshallBool read (str "namreply_started") (level + 1))
      c.namreplyStarted _ := marshallBool_carries hread (by decide) _
  have banlist : Carries (marshallBool read (str "banlist_started") (level + 1))
      c.banlistStarted _ := marshallBool_carries hread (by decide) _
  have invitelist : Carries (marshallBool read (str "invitelist_started") (level + 1))
      c.invitelistStarted _ := marshallBool_carries hread (by decide) _
  have exceptlist : Carries (marshallBool read (str "exceptlist_started") (level + 1))
      c.exceptlistStarted _ := marshallBool_carries hread (by decide) _
  have name : Carries (marshallString read (str "name") (level + 1)) (some c.name) _ :=
    marshallString_carries hread ⟨by decide, by rintro v ⟨⟩; exact h.name⟩
  have topic : Carries (marshallString read (str "topic") (level + 1)) c.topic _ :=
    marshallString_carries hread ⟨by decide, h.topic⟩
  have setBy : Carries (marshallString read (str "topic_set_by") (level + 1)) c.topicSetBy _ :=
    marshallString_carries hread ⟨by decide, h.topicSetBy⟩
  have setTime : Carries (marshallTime read (str "topic_set_time") (level + 1)) c.topicSetTime _ :=
    marshallTime_carries hread (by decide) c.topicSetTime
  constructor
  · intro nst t
    simp only [marshallChannelFields, channelFieldsText, mode.push, ok_bind, modes.push,
      namreply.push, banlist.push, invitelist.push, exceptlist.push, name.push, nonNull,
      topic.push, setBy.push, setTime.push, marshallSlots_push hread h.lists h.options,
      List.append_assoc]
    rfl
  · intro nst rest v
    simp only [marshallChannelFields, channelFieldsText, List.append_assoc, mode.pull, ok_bind,
      modes.pull, namreply.pull, banlist.pull, invitelist.pull, exceptlist.pull, name.pull,
      nonNull, topic.pull, setBy.pull, setTime.pull, marshallSlots_pull hread h.lists h.options,
      List.mem_finRange, if_true]
    rfl

end

end Ctrlproxy
