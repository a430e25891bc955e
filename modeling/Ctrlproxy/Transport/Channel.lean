import Ctrlproxy.Lib.File
import Ctrlproxy.Lib.Outcome
import Ctrlproxy.Lib.Stream
import Ctrlproxy.Base.Line
import Ctrlproxy.Transport.Iochannel

/-!
# Transport — lines off a channel

`irc_recv_line` of `libirc/line.c`, and what it asks of its channel.

`g_io_channel_read_line` on a channel without an encoding and without a line terminator takes what
there is up to the first `\n`, `\r\n`, `\r`, U+2029 or zero byte.  A `\r` that is the last byte there
is may be the first half of `\r\n`, so it waits.  When the peer has closed the connection the bytes
behind the last terminator are a line too, and then it is the end of the file.

`g_convert_with_iconv` is outside: it converts a line or reports a `GConvertError`.
-/

namespace Ctrlproxy.Transport
open Outcome

/-- What comes from the peer: bytes, and that it closed the connection. -/
inductive Arrival where
  | byte (b : Octet)
  | closed
  deriving DecidableEq, Repr

/-- The bytes of a string, as they arrive. -/
def arrivals (s : Str) : List Arrival := s.map fun b => .byte (Fin.ofNat 256 b.1)

/-- A byte that is not the terminator of a C string. -/
def octetByte (b : Octet) (h : b.val ≠ 0) : Byte := ⟨b.val, Nat.pos_of_ne_zero h, b.isLt⟩

/-- U+2029 in UTF-8, but for its first byte. -/
def separatorTail : Str := [chr (Char.ofNat 0x80), chr (Char.ofNat 0xa9)]

/-- The search of `g_io_channel_read_line` for the end of the line; `raw` was passed already.  A line
keeps its terminator, unless that is the zero byte. -/
def scanLine (raw : Str) : List Arrival → Option (Str × List Arrival)
  | [] => none
  | .closed :: rest => if raw = [] then none else some (raw, .closed :: rest)
  | .byte b :: rest =>
      if h : b.val = 0 then some (raw, rest)
      else
        let raw := raw ++ [octetByte b h]
        if b = 0x0a then some (raw, rest)
        else if b = 0x0d then
          match rest with
          | [] => none
          | next :: rest' =>
              if next = .byte 0x0a then some (raw ++ [chr '\n'], rest') else some (raw, next :: rest')
        else if b = 0xe2 ∧ rest.take 2 = arrivals separatorTail then
          some (raw ++ separatorTail, rest.drop 2)
        else scanLine raw rest

/-- `g_io_channel_read_line`. -/
def gIoChannelReadLine (c : List Arrival) : GIOStatus × Option Str × List Arrival :=
  match scanLine [] c with
  | some (raw, rest) => (.normal, some raw, rest)
  | none => (if c.head? = some .closed then .eof else .again, none, c)

/-- `GConvertError`, as far as it is told apart. -/
inductive GConvertError where
  | illegalSequence
  | other
  deriving DecidableEq, Repr

/-- A `GIConv`; `none` is `(GIConv)-1`. -/
abbrev GIConv := Option (Str → Except GConvertError Str)

/-- `irc_recv_line`. -/
def ircRecvLine (c : List Arrival) (iconv : GIConv) :
    GIOStatus × Option GConvertError × Option IrcLine × List Arrival :=
  match gIoChannelReadLine c with
  | (_, some raw, rest) =>
      match iconv with
      | none => (.normal, none, ircParseLine raw, rest)
      | some convert =>
          match convert raw with
          | .ok cvrt => (.normal, none, ircParseLine cvrt, rest)
          | .error e => (.error, some e, ircParseLine raw, rest)
  | (status, none, rest) => (status, none, none, rest)

/-! ### Lines of a stream -/

section
variable {raw line : Str} {s r : List Arrival}

theorem scanLine_shorter (h : scanLine raw s = some (line, r)) :
    r.length < s.length ∨ raw ≠ [] ∧ r.length ≤ s.length := by
  induction s generalizing raw with
  | nil => cases h
  | cons a s ih =>
      cases a with
      | closed =>
          rw [scanLine] at h
          split at h
          · cases h
          · next hraw =>
            cases h
            exact .inr ⟨hraw, Nat.le_refl _⟩
      | byte b =>
          rw [scanLine] at h
          split at h
          · cases h
            exact .inl (Nat.lt_succ_self _)
          · dsimp only at h
            split at h
            · cases h
              exact .inl (Nat.lt_succ_self _)
            · split at h
              · split at h
                · cases h
                · split at h <;> cases h <;> exact .inl (by simp only [List.length_cons]; omega)
              · split at h
                · cases h
                  exact .inl (by simp only [List.length_drop, List.length_cons]; omega)
                · have hle : r.length ≤ s.length := (ih h).elim Nat.le_of_lt And.right
                  exact .inl (Nat.lt_succ_of_le hle)

/-- What was passed already stays in front of the line. -/
theorem scanLine_append (p : Str) (h : scanLine raw s = some (line, r)) :
    scanLine (p ++ raw) s = some (p ++ line, r) := by
  induction s generalizing raw with
  | nil => cases h
  | cons a s ih =>
      cases a with
      | closed =>
          rw [scanLine] at h ⊢
          split at h
          · cases h
          · next hraw =>
            cases h
            rw [if_neg (List.append_ne_nil_of_right_ne_nil p hraw)]
      | byte b =>
          rw [scanLine] at h ⊢
          split at h
          · next h0 =>
            cases h
            rw [dif_pos h0]
          · next h0 =>
            rw [dif_neg h0]
            dsimp only at h ⊢
            rw [List.append_assoc]
            split at h
            · next hn =>
              cases h
              rw [if_pos hn]
            · next hn =>
              rw [if_neg hn]
              split at h
              · next hr =>
                rw [if_pos hr]
                cases s with
                | nil => cases h
                | cons next s =>
                    dsimp only at h ⊢
                    rw [List.append_assoc]
                    split at h
                    · next hlf =>
                      cases h
                      rw [if_pos hlf]
                    · next hlf =>
                      cases h
                      rw [if_neg hlf]
              · next hr =>
                rw [if_neg hr]
                split at h
                · next hsep =>
                  cases h
                  rw [if_pos hsep, List.append_assoc]
                · next hsep =>
                  rw [if_neg hsep]
                  exact ih h

/-- A line is not changed by what comes after it. -/
theorem scanLine_stable (t : List Arrival) (h : scanLine raw s = some (line, r)) :
    scanLine raw (s ++ t) = some (line, r ++ t) := by
  induction s generalizing raw with
  | nil => cases h
  | cons a s ih =>
      cases a with
      | closed =>
          rw [scanLine] at h
          rw [List.cons_append, scanLine]
          split at h
          · cases h
          · next hraw =>
            cases h
            rw [if_neg hraw, List.cons_append]
      | byte b =>
          rw [scanLine] at h
          rw [List.cons_append, scanLine]
          split at h
          · next h0 =>
            cases h
            rw [dif_pos h0]
          · next h0 =>
            rw [dif_neg h0]
            dsimp only at h ⊢
            split at h
            · next hn =>
              cases h
              rw [if_pos hn]
            · next hn =>
              rw [if_neg hn]
              split at h
              · next hr =>
                rw [if_pos hr]
                cases s with
                | nil => cases h
                | cons next s =>
                    dsimp only [List.cons_append] at h ⊢
                    split at h
                    · next hlf =>
                      cases h
                      rw [if_pos hlf]
                    · next hlf =>
                      cases h
                      rw [if_neg hlf, List.cons_append]
              · next hr =>
                rw [if_neg hr]
                split at h
                · next hsep =>
                  have hlen : 2 ≤ s.length := by
                    have := congrArg List.length hsep.2
                    rw [List.length_take] at this
                    simp [arrivals, separatorTail] at this
                    omega
                  cases h
                  rw [List.take_append_of_le_length hlen, if_pos hsep,
                    List.drop_append_of_le_length hlen]
                · next hsep =>
                  rw [if_neg, ih h]
                  rintro ⟨he, ht⟩
                  refine hsep ⟨he, ?_⟩
                  -- with less than two bytes there the search would wait
                  have hlen : 2 ≤ s.length := by
                    match s with
                    | [] => cases h
                    | [a] =>
                        have ha : a = .byte 0x80 := by
                          simp only [arrivals, separatorTail, List.cons_append, List.nil_append,
                            List.take_succ_cons, List.map_cons, List.cons.injEq] at ht
                          exact ht.1
                        subst ha
                        simp [scanLine] at h
                    | _ :: _ :: _ => simp
                  rwa [List.take_append_of_le_length hlen] at ht

end

/-- The lines of what comes from a peer. -/
def lineReader : Reader Arrival Str where
  next := scanLine []
  shorter h := (scanLine_shorter h).resolve_right fun h => h.1 rfl
  stable t h := scanLine_stable t h

end Ctrlproxy.Transport
