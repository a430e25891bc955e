import Ctrlproxy.Base.Print
import Ctrlproxy.Lib.File
import Ctrlproxy.Proxy.Nickserv

/-!
# Config — key files

`keyfile_write_file` and `keyfile_read_file` of `src/keyfile.c`: a header, then an entry a line, its
strings between tabs.  The file is opened without being truncated, so what it held behind the end of
the new text stays, and is read (`keyfile_roundTrip`).

A channel is in UTF-8 unless it is told otherwise, and this one is not: it gives no line of a text that
is not in UTF-8 (`ReadsFileLines`).  Opening and writing succeed.
-/

namespace Ctrlproxy

/-! ### Lines of a file -/

/-- The octets of a string. -/
def octets (s : Str) : List Octet := s.map fun b => ⟨b.1, b.2.2⟩

/-- A string without a line end. -/
def OneLine (s : Str) : Prop := NoEol s ∧ ¬paragraphSeparator <:+: s

instance (s : Str) : Decidable (OneLine s) := inferInstanceAs (Decidable (_ ∧ _))

/-- A line and its end, in the file. -/
def fileLine (s : Str) : List Octet := octets (s ++ str "\n")

/-- The lines that `g_io_channel_read_line` gives of a file, one after the other until its status is
not normal, without their line ends. -/
abbrev FileLines := List Octet → List Str

/-- What `g_io_channel_read_line` does with a channel in UTF-8. -/
structure ReadsFileLines (lines : FileLines) (utf8 : Str → Prop) : Prop where
  nil : lines [] = []
  line : ∀ x rest, OneLine x → utf8 x → lines (fileLine x ++ rest) = x :: lines rest
  illegal : ∀ x rest, OneLine x → ¬utf8 x → lines (fileLine x ++ rest) = []

/-! ### Writing -/

/-- The line of an entry; `printf` prints `NULL` so. -/
def keyfileLine : KeyfileEntry → Str
  | .everywhere nick pass => nick ++ str "\t" ++ pass ++ str "\t" ++ str "*"
  | .on network nick pass => nick ++ str "\t" ++ pass.getD (str "(null)") ++ str "\t" ++ network

/-- `keyfile_write_file`: what the file holds afterwards, which was there before or not. -/
def keyfileWriteFile (nicks : List KeyfileEntry) (header : Str) (file : Option (List Octet)) :
    List Octet :=
  (nicks.foldl (fun f n => f.write (fileLine (keyfileLine n)))
    (File.write ⟨file.getD [], 0⟩ (octets header))).data

/-! ### Reading -/

/-- The entry of a line, if it has one. -/
def keyfileReadEntry (ret : Str) : Option KeyfileEntry :=
  match gStrsplitN ret (chr '\t') 3 with
  | nick :: pass :: network => match network with
      | [] => some (.everywhere nick pass)
      | network :: _ =>
          if network = str "*" then some (.everywhere nick pass)
          else some (.on network nick (some pass))
  | _ => none

/-- A line of `keyfile_read_file`. -/
def keyfileReadLine (commentchar : Byte) (ret : Str) : Option KeyfileEntry :=
  if ret.head? = some commentchar then none else keyfileReadEntry ret

/-- `keyfile_read_file` into an empty list. -/
def keyfileReadFile (lines : FileLines) (commentchar : Byte) (file : List Octet) :
    List KeyfileEntry :=
  (lines file).filterMap (keyfileReadLine commentchar)

/-! ### What is written -/

/-- Strings between tabs, on a line. -/
def Field (s : Str) : Prop := chr '\t' ∉ s ∧ OneLine s

instance (s : Str) : Decidable (Field s) := inferInstanceAs (Decidable (_ ∧ _))

/-- An entry that is told from its line. -/
def KeyfileEntry.Storable (commentchar : Byte) : KeyfileEntry → Prop
  | .everywhere nick pass => Field nick ∧ Field pass ∧ nick.head? ≠ some commentchar
  | .on network nick pass => Field nick ∧ (∃ p, pass = some p ∧ Field p) ∧ Field network ∧
      network ≠ str "*" ∧ nick.head? ≠ some commentchar

/-- A header of lines that are comments, or empty. -/
structure IsHeader (commentchar : Byte) (header : Str) (xs : List Str) : Prop where
  text : header = xs.flatMap (· ++ str "\n")
  line : ∀ x ∈ xs, OneLine x
  comment : ∀ x ∈ xs, x = [] ∨ x.head? = some commentchar

/-- The lines of the new text, and what the file holds behind it. -/
def keyfileText (nicks : List KeyfileEntry) (xs : List Str) : List Str := xs ++ nicks.map keyfileLine

def keyfileTail (nicks : List KeyfileEntry) (header : Str) (file : Option (List Octet)) : List Octet :=
  (file.getD []).drop (octets header ++ (nicks.map keyfileLine).flatMap fileLine).length

section
variable {lines : FileLines} {utf8 : Str → Prop} {c : Byte} {nicks : List KeyfileEntry} {header : Str}
  {xs : List Str} {file : Option (List Octet)} {e : KeyfileEntry} {s t : Str}

/-- Writing from the start on leaves what was behind the text. -/
theorem keyfileWriteFile_eq (h : IsHeader c header xs) : keyfileWriteFile nicks header file =
    (keyfileText nicks xs).flatMap fileLine ++ keyfileTail nicks header file := by
  have hhead : octets header = xs.flatMap fileLine := by
    rw [h.text, octets, List.map_flatMap]
    rfl
  have hstart : (⟨file.getD [], 0⟩ : File Octet).pos ≤ (file.getD []).length := Nat.zero_le _
  have hfold : nicks.foldl (fun f n => f.write (fileLine (keyfileLine n)))
      (File.write ⟨file.getD [], 0⟩ (octets header)) =
        ((nicks.map keyfileLine).map fileLine).foldl File.write
          (File.write ⟨file.getD [], 0⟩ (octets header)) := by
    rw [List.foldl_map, List.foldl_map]
  rw [keyfileWriteFile, hfold, File.foldl_write (File.write_pos_le hstart _), File.write_write hstart,
    keyfileText, keyfileTail, List.flatMap_append, ← hhead, List.flatMap_def]
  simp [File.write]

/-! ### What is read -/

/-- A file is read line by line, as long as they are in UTF-8. -/
theorem ReadsFileLines.text (h : ReadsFileLines lines utf8) (hxs : ∀ x ∈ xs, OneLine x) (rest : List Octet) :
    (∀ x ∈ xs, utf8 x) ∧ lines (xs.flatMap fileLine ++ rest) = xs ++ lines rest ∨
    ∃ ys y zs, xs = ys ++ y :: zs ∧ ¬utf8 y ∧ lines (xs.flatMap fileLine ++ rest) = ys := by
  induction xs with
  | nil => exact .inl ⟨nofun, rfl⟩
  | cons x xs ih =>
      have hx := hxs x List.mem_cons_self
      rw [List.flatMap_cons, List.append_assoc]
      by_cases hutf : utf8 x
      · rw [h.line x _ hx hutf]
        rcases ih fun y hy => hxs y (List.mem_cons_of_mem _ hy) with ⟨hall, hread⟩ | ⟨ys, y, zs, hsplit, hy, hread⟩
        · refine .inl ⟨fun y hy => ?_, by rw [hread]; rfl⟩
          rcases List.mem_cons.mp hy with rfl | hy
          · exact hutf
          · exact hall y hy
        · exact .inr ⟨x :: ys, y, zs, by rw [hsplit]; rfl, hy, by rw [hread]⟩
      · exact .inr ⟨[], x, xs, rfl, hutf, h.illegal x _ hx hutf⟩

/-- A separator without a tab is on one side of a tab. -/
theorem infix_of_infix_append {p a b : Str} {t : Byte} (ht : t ∉ p) (h : p <:+: a ++ t :: b) :
    p <:+: a ∨ p <:+: b := by
  obtain ⟨l, r, hlr⟩ := h
  rw [List.append_eq_append_iff] at hlr
  rcases hlr with ⟨a', ha, -⟩ | ⟨d, hd, hb⟩
  · exact .inl ⟨l, a', ha.symm⟩
  · cases d with
    | nil =>
        rw [List.append_nil] at hd
        exact .inl ⟨l, [], by rw [List.append_nil, hd]⟩
    | cons x d =>
        obtain ⟨rfl, rfl⟩ := List.cons.inj hb
        rw [List.append_eq_append_iff] at hd
        rcases hd with ⟨l', -, hp⟩ | ⟨l', hl, hp⟩
        · exact absurd (hp ▸ List.mem_append_right _ List.mem_cons_self) ht
        · cases l' with
          | nil =>
              rw [List.nil_append] at hp
              exact absurd (hp ▸ List.mem_cons_self) ht
          | cons y l' =>
              obtain ⟨-, rfl⟩ := List.cons.inj hp
              exact .inr ⟨l', r, rfl⟩

theorem OneLine.tab (hs : OneLine s) (ht : OneLine t) : OneLine (s ++ str "\t" ++ t) := by
  refine ⟨(hs.1.append (by decide)).append ht.1, fun h => ?_⟩
  rw [List.append_assoc] at h
  rcases infix_of_infix_append (by decide) h with h | h
  · exact hs.2 h
  · exact ht.2 h

/-! ### Entries -/

/-- Three strings between tabs are read as an entry. -/
theorem keyfileReadEntry_fields {nick pass network : Str} (hn : chr '\t' ∉ nick)
    (hp : chr '\t' ∉ pass) :
    keyfileReadEntry (nick ++ str "\t" ++ pass ++ str "\t" ++ network) =
      if network = str "*" then some (.everywhere nick pass)
      else some (.on network nick (some pass)) := by
  have htext : nick ++ str "\t" ++ pass ++ str "\t" ++ network =
      nick ++ chr '\t' :: (pass ++ chr '\t' :: network) := by
    simp [str]
  have hne : nick ++ chr '\t' :: (pass ++ chr '\t' :: network) ≠ [] := by simp
  rw [keyfileReadEntry, htext, gStrsplitN, if_neg hne, piecesN_append hn, piecesN_append hp, piecesN]

theorem KeyfileEntry.Storable.read (h : e.Storable c) : keyfileReadEntry (keyfileLine e) = some e := by
  cases e with
  | everywhere nick pass =>
      obtain ⟨hn, hp, -⟩ := h
      rw [keyfileLine, keyfileReadEntry_fields hn.1 hp.1, if_pos rfl]
  | on network nick pass =>
      obtain ⟨hn, ⟨p, rfl, hp⟩, -, hstar, -⟩ := h
      rw [keyfileLine, Option.getD_some, keyfileReadEntry_fields hn.1 hp.1, if_neg hstar]

theorem KeyfileEntry.Storable.oneLine (h : e.Storable c) : OneLine (keyfileLine e) := by
  have hstar : OneLine (str "*") := ⟨by decide, by decide⟩
  cases e with
  | everywhere nick pass =>
      obtain ⟨hn, hp, -⟩ := h
      exact (hn.2.tab hp.2).tab hstar
  | on network nick pass =>
      obtain ⟨hn, ⟨p, rfl, hp⟩, hw, -, -⟩ := h
      exact (hn.2.tab hp.2).tab hw.2

/-- A line begins with the comment character only if there is no nick in front of the first tab. -/
theorem KeyfileEntry.Storable.comment_iff (h : e.Storable c) :
    (keyfileLine e).head? = some c ↔ c = chr '\t' ∧ e.nick = [] := by
  obtain ⟨rest, hrest, hhead⟩ : ∃ rest, keyfileLine e = e.nick ++ chr '\t' :: rest ∧
      e.nick.head? ≠ some c := by
    cases e with
    | everywhere nick pass => exact ⟨pass ++ str "\t" ++ str "*", by simp [keyfileLine, KeyfileEntry.nick, str], h.2.2⟩
    | on network nick pass =>
        exact ⟨pass.getD (str "(null)") ++ str "\t" ++ network,
          by simp [keyfileLine, KeyfileEntry.nick, str], h.2.2.2.2⟩
  rw [hrest]
  cases hn : e.nick with
  | nil =>
      simp only [List.nil_append, List.head?_cons, Option.some.injEq, and_true]
      exact eq_comm
  | cons b nick =>
      rw [hn] at hhead
      exact ⟨fun hb => absurd hb hhead, fun hno => absurd hno.2 (List.cons_ne_nil b nick)⟩

/-- A line is an entry if it has a tab, and the nick is what is in front of the first. -/
theorem keyfileReadEntry_cases (ret : Str) :
    keyfileReadEntry ret = none ∧ chr '\t' ∉ ret ∨
    ∃ e t, keyfileReadEntry ret = some e ∧ ret = e.nick ++ chr '\t' :: t := by
  by_cases htab : chr '\t' ∈ ret
  · obtain ⟨nick, t, rfl, hn⟩ := List.eq_append_cons_of_mem htab
    right
    have hne : nick ++ chr '\t' :: t ≠ [] := by simp
    rw [keyfileReadEntry, gStrsplitN, if_neg hne, piecesN_append hn]
    cases hrest : piecesN (chr '\t') 2 t with
    | nil =>
        rw [piecesN] at hrest
        split at hrest <;> cases hrest
    | cons pass network =>
        cases network with
        | nil => exact ⟨.everywhere nick pass, t, rfl, rfl⟩
        | cons network others =>
            dsimp only
            split
            · exact ⟨.everywhere nick pass, t, rfl, rfl⟩
            · exact ⟨.on network nick (some pass), t, rfl, rfl⟩
  · left
    refine ⟨?_, htab⟩
    have hnone : ret.dropWhile (· ≠ chr '\t') = [] := dropWhile_ne_eq_nil.mpr htab
    rw [keyfileReadEntry, gStrsplitN]
    split
    · next nick pass network hsplit =>
      split at hsplit
      · cases hsplit
      · rw [piecesN, hnone] at hsplit
        cases hsplit
    · rfl

/-! ### The round trip -/

/-- The new text is in UTF-8, a tab does not make an entry a comment, and there is no entry behind the
new text; or there is nothing to lose. -/
def FileKept (lines : FileLines) (utf8 : Str → Prop) (c : Byte) (nicks : List KeyfileEntry) (header : Str)
    (xs : List Str) (file : Option (List Octet)) : Prop :=
  (∀ x ∈ keyfileText nicks xs, utf8 x) ∧ (c = chr '\t' → ∀ e ∈ nicks, e.nick ≠ []) ∧
      (∀ ret ∈ lines (keyfileTail nicks header file), ret.head? = some c ∨ chr '\t' ∉ ret) ∨
    nicks = [] ∧ ∃ x ∈ xs, ¬utf8 x

theorem keyfileReadLine_none (ret : Str) :
    keyfileReadLine c ret = none ↔ ret.head? = some c ∨ chr '\t' ∉ ret := by
  rw [keyfileReadLine]
  split
  · next h => exact ⟨fun _ => .inl h, fun _ => rfl⟩
  · next h =>
    rcases keyfileReadEntry_cases ret with ⟨hread, htab⟩ | ⟨e, t, hread, rfl⟩
    · exact ⟨fun _ => .inr htab, fun _ => hread⟩
    · rw [hread]
      exact ⟨nofun, fun h' => absurd (h'.resolve_left h) (by simp)⟩

theorem IsHeader.read (h : IsHeader c header xs) {ys : List Str} (hys : ys ⊆ xs) :
    ys.filterMap (keyfileReadLine c) = [] := by
  rw [List.filterMap_eq_nil_iff]
  intro x hx
  rw [keyfileReadLine_none]
  rcases h.comment x (hys hx) with rfl | hx
  · exact .inr (by simp)
  · exact .inl hx

/-- Where a tab begins a comment, no entry without a nick is read. -/
theorem keyfileReadLine_nick {ret : Str} (h : keyfileReadLine (chr '\t') ret = some e) :
    e.nick ≠ [] := by
  rw [keyfileReadLine] at h
  split at h
  · cases h
  · next hhead =>
    rcases keyfileReadEntry_cases ret with ⟨hnone, -⟩ | ⟨e', t, hsome, rfl⟩
    · rw [hnone] at h
      cases h
    · rw [hsome] at h
      cases h
      intro hempty
      rw [hempty] at hhead
      exact hhead rfl

/-- The lines of entries are read as them. -/
theorem filterMap_keyfileLine (hn : ∀ e ∈ nicks, e.Storable c)
    (hnick : c = chr '\t' → ∀ e ∈ nicks, e.nick ≠ []) :
    (nicks.map keyfileLine).filterMap (keyfileReadLine c) = nicks := by
  induction nicks with
  | nil => rfl
  | cons e nicks ih =>
      have he := hn e List.mem_cons_self
      have hhead : (keyfileLine e).head? ≠ some c := by
        rw [Ne, he.comment_iff]
        rintro ⟨htab, hempty⟩
        exact hnick htab e List.mem_cons_self hempty
      have hread : keyfileReadLine c (keyfileLine e) = some e := by
        rw [keyfileReadLine, if_neg hhead, he.read]
      rw [List.map_cons, List.filterMap_cons_some hread,
        ih (fun e' he' => hn e' (List.mem_cons_of_mem _ he'))
          fun htab e' he' => hnick htab e' (List.mem_cons_of_mem _ he')]

/-- What an unreadable line cuts off is missed, unless it is in the header and nothing is behind it. -/
theorem IsHeader.cut (h : IsHeader c header xs) {ys zs : List Str} {y : Str}
    (hsplit : keyfileText nicks xs = ys ++ y :: zs) :
    ys.filterMap (keyfileReadLine c) = nicks ↔ nicks = [] ∧ y ∈ xs := by
  rw [keyfileText, List.append_eq_append_iff] at hsplit
  rcases hsplit with ⟨as, rfl, hcut⟩ | ⟨bs, rfl, hcut⟩
  · rw [List.filterMap_append, h.read (List.Subset.refl _), List.nil_append]
    have hlen : (nicks.map keyfileLine).length = as.length + (zs.length + 1) := by
      rw [hcut, List.length_append, List.length_cons]
    rw [List.length_map] at hlen
    constructor
    · intro heq
      have hle : (as.filterMap (keyfileReadLine c)).length ≤ as.length := List.length_filterMap_le _ _
      rw [heq] at hle
      omega
    · rintro ⟨rfl, -⟩
      rw [List.length_nil] at hlen
      omega
  · rw [h.read (List.subset_append_left _ _)]
    constructor
    · rintro rfl
      rw [List.map_nil, List.append_nil] at hcut
      exact ⟨rfl, List.mem_append_right _ (hcut ▸ List.mem_cons_self)⟩
    · exact fun hnil => hnil.1.symm

/-- **A key file is read as it was written** exactly when the file had no entry behind the end of the
new text, header and entries are in UTF-8, and a tab is no comment in front of an empty nick. -/
theorem keyfile_roundTrip (hl : ReadsFileLines lines utf8) (hn : ∀ e ∈ nicks, e.Storable c)
    (hh : IsHeader c header xs) :
    keyfileReadFile lines c (keyfileWriteFile nicks header file) = nicks ↔
      FileKept lines utf8 c nicks header xs file := by
  have hone : ∀ x ∈ keyfileText nicks xs, OneLine x := by
    intro x hx
    rcases List.mem_append.mp hx with hx | hx
    · exact hh.line x hx
    · obtain ⟨e, he, rfl⟩ := List.mem_map.mp hx
      exact (hn e he).oneLine
  rw [keyfileReadFile, keyfileWriteFile_eq hh]
  rcases hl.text hone (keyfileTail nicks header file) with ⟨hall, hlines⟩ | ⟨ys, y, zs, hsplit, hy, hlines⟩
  · rw [hlines, keyfileText, List.filterMap_append, List.filterMap_append,
      hh.read (List.Subset.refl _), List.nil_append]
    have hkept : FileKept lines utf8 c nicks header xs file ↔ (c = chr '\t' → ∀ e ∈ nicks, e.nick ≠ []) ∧
        ∀ ret ∈ lines (keyfileTail nicks header file), ret.head? = some c ∨ chr '\t' ∉ ret := by
      constructor
      · rintro (⟨-, h⟩ | ⟨-, x, hx, hutf⟩)
        · exact h
        · exact absurd (hall x (List.mem_append_left _ hx)) hutf
      · exact fun h => .inl ⟨hall, h⟩
    rw [hkept]
    constructor
    · intro heq
      have hnick : c = chr '\t' → ∀ e ∈ nicks, e.nick ≠ [] := by
        rintro rfl e he
        rw [← heq, ← List.filterMap_append] at he
        obtain ⟨ret, -, hret⟩ := List.mem_filterMap.mp he
        exact keyfileReadLine_nick hret
      rw [filterMap_keyfileLine hn hnick] at heq
      refine ⟨hnick, fun ret hret => ?_⟩
      rw [← keyfileReadLine_none]
      exact List.filterMap_eq_nil_iff.mp (List.append_right_eq_self.mp heq) ret hret
    · rintro ⟨hnick, htail⟩
      rw [filterMap_keyfileLine hn hnick, List.append_right_eq_self, List.filterMap_eq_nil_iff]
      exact fun ret hret => (keyfileReadLine_none ret).mpr (htail ret hret)
  · rw [hlines, hh.cut hsplit]
    have hmem : y ∈ keyfileText nicks xs := by
      rw [hsplit]
      exact List.mem_append_right _ List.mem_cons_self
    constructor
    · exact fun ⟨hnil, hin⟩ => .inr ⟨hnil, y, hin, hy⟩
    · rintro (⟨hall, -⟩ | ⟨rfl, -⟩)
      · exact absurd (hall y hmem) hy
      · rw [keyfileText, List.map_nil, List.append_nil] at hmem
        exact ⟨rfl, hmem⟩

end

/-! ### A shorter list over a longer one -/

/-- The lines of a file in ASCII with Unix line ends; `cur` is what was read of the first. -/
def asciiLinesFrom (cur : Str) : FileLines
  | [] => if cur = [] then [] else [cur]
  | o :: rest =>
      if o.1 = 10 then cur :: asciiLinesFrom [] rest
      else if h : 0 < o.1 ∧ o.1 < 128 then asciiLinesFrom (cur ++ [⟨o.1, h.1, o.2⟩]) rest
      else []

def asciiLines : FileLines := asciiLinesFrom []

def IsAscii (s : Str) : Prop := ∀ b ∈ s, b.1 < 128

instance (s : Str) : Decidable (IsAscii s) := inferInstanceAs (Decidable (∀ _ ∈ _, _))

theorem asciiLinesFrom_line {x : Str} (hx : OneLine x) (cur : Str) (rest : List Octet) :
    asciiLinesFrom cur (fileLine x ++ rest) =
      if IsAscii x then (cur ++ x) :: asciiLines rest else [] := by
  induction x generalizing cur with
  | nil =>
      rw [List.append_nil, if_pos nofun]
      rfl
  | cons b x ih =>
      have hb : b ≠ chr '\n' := (hx.1 b List.mem_cons_self).2
      have hne : ¬b.1 = 10 := fun h => hb (Subtype.ext h)
      have hrest : OneLine x := ⟨fun c hc => hx.1 c (List.mem_cons_of_mem _ hc),
        fun h => hx.2 (h.trans (List.suffix_cons b x).isInfix)⟩
      show asciiLinesFrom cur (⟨b.1, b.2.2⟩ :: (fileLine x ++ rest)) = _
      rw [asciiLinesFrom, if_neg hne]
      by_cases hsmall : b.1 < 128
      · rw [dif_pos ⟨b.2.1, hsmall⟩, ih hrest]
        have hiff : IsAscii (b :: x) ↔ IsAscii x :=
          ⟨fun h c hc => h c (List.mem_cons_of_mem _ hc), fun h c hc => by
            rcases List.mem_cons.mp hc with rfl | hc
            · exact hsmall
            · exact h c hc⟩
        simp only [hiff, List.append_assoc]
        rfl
      · rw [dif_neg fun h => hsmall h.2, if_neg fun h => hsmall (h b List.mem_cons_self)]

theorem asciiLines_readsFileLines : ReadsFileLines asciiLines IsAscii where
  nil := rfl
  line x rest hx hutf := by
    rw [asciiLines, asciiLinesFrom_line hx, if_pos hutf]
    rfl
  illegal x rest hx hutf := by
    rw [asciiLines, asciiLinesFrom_line hx, if_neg hutf]

/-- A list with a password, over a file with another header. -/
theorem keyfile_roundTrip_nick :
    keyfileReadFile asciiLines (chr '#') (keyfileWriteFile [.everywhere (str "n") (str "p")]
      (str "# x\n") (some (octets (str "#\n# longer\n")))) = [.everywhere (str "n") (str "p")] := by
  have storable : ∀ e ∈ [KeyfileEntry.everywhere (str "n") (str "p")], e.Storable (chr '#') := by
    intro e he
    rw [List.mem_singleton.mp he]
    exact ⟨by decide, by decide, by decide⟩
  have hheader : IsHeader (chr '#') (str "# x\n") [str "# x"] := ⟨by decide, by decide, by decide⟩
  refine (keyfile_roundTrip asciiLines_readsFileLines storable hheader).mpr (.inl ⟨by decide, nofun, ?_⟩)
  decide

/-- An entry is written over the first of two longer ones: what is left of it, and the second, are
read behind the new one. -/
theorem old_entries_stay : ¬∀ (lines : FileLines) (utf8 : Str → Prop) (c : Byte)
    (nicks : List KeyfileEntry) (header : Str) (xs : List Str) (file : Option (List Octet)),
    ReadsFileLines lines utf8 → (∀ e ∈ nicks, e.Storable c) → IsHeader c header xs →
      keyfileReadFile lines c (keyfileWriteFile nicks header file) = nicks := by
  intro h
  have storable : ∀ e ∈ [KeyfileEntry.everywhere (str "n") (str "p")], e.Storable (chr '#') := by
    intro e he
    rw [List.mem_singleton.mp he]
    exact ⟨by decide, by decide, by decide⟩
  have hread := h asciiLines IsAscii (chr '#') [.everywhere (str "n") (str "p")] [] []
    (some (octets (str "nick\tlonger\t*\nm\tq\t*\n"))) asciiLines_readsFileLines storable
    ⟨rfl, nofun, nofun⟩
  revert hread
  decide

end Ctrlproxy
