import Ngircd.Write
import Ngircd.WriteBuffer

/-!
# The lines of `Conn_WriteStr`

`Conn_WriteStr` formats a text into a buffer on the stack, cuts it if the result of
`vsnprintf` says that it did not fit, appends the end of the line and hands the bytes to
`Conn_Write`.  The buffer is modelled byte by byte, with whatever is on the stack before.
-/

namespace Ngircd

open Lib

variable {s rest text : List UInt8}

/-! ## Strings in memory -/

/-- The string at the front of a buffer. -/
def cstring (buffer : List UInt8) : List UInt8 := buffer.takeWhile (· != 0)

/-- `memcpy` to a position of a buffer. -/
def memcpy (buffer : List UInt8) (pos : Nat) (bytes : List UInt8) : List UInt8 :=
  buffer.take pos ++ bytes ++ buffer.drop (pos + bytes.length)

/-- `vsnprintf` of a text.  Its result for a text that does not fit is the length of the text
or, with old C libraries, `-1`. -/
def vsnprintf (old : Bool) (buffer : List UInt8) (size : Nat) (text : List UInt8) :
    List UInt8 × Int :=
  (memcpy buffer 0 (text.take (size - 1) ++ [0]),
    if old && decide (size ≤ text.length) then -1 else text.length)

/-- `strcpy` to a position of a buffer. -/
def strcpyAt (buffer : List UInt8) (pos : Nat) (src : List UInt8) : List UInt8 :=
  memcpy buffer pos (src ++ [0])

/-- `strlcat` of `strlcpy.c`, with its result. -/
def strlcatIn (buffer src : List UInt8) (size : Nat) : List UInt8 × Nat :=
  let len1 := (cstring buffer).length
  let len2 := src.length
  (if size ≠ 0 ∧ len1 < size - 1 then
      let len2 := if len2 ≥ size - len1 then size - len1 - 1 else len2
      memcpy buffer len1 (src.take len2 ++ [0])
    else buffer,
    len1 + len2)

/-- `CUT_TXTSUFFIX`. -/
def cutTxtsuffix : List UInt8 := [91, 67, 85, 84, 93]

/-- The end of a line. -/
def crlf : List UInt8 := [13, 10]

/-- `Conn_WriteStr` up to its call of `Conn_Write`: the bytes it hands over. -/
def lineBytes (old : Bool) (buffer text : List UInt8) : List UInt8 :=
  let (buffer, r) := vsnprintf old buffer (commandLen - 2) text
  let buffer :=
    if r ≥ (commandLen - 2 : Nat) ∨ r = -1 then
      strcpyAt buffer (commandLen - cutTxtsuffix.length - 2 - 1) cutTxtsuffix
    else buffer
  let (buffer, len) := strlcatIn buffer crlf commandLen
  buffer.take len

/-- `Conn_WriteStr` on a connection. -/
def connWriteStrBytes (idx : ConnId) (granted : Bool) (answer last : SendResult) (old : Bool)
    (buffer text : List UInt8) (c : Output) : Bool × Output :=
  connWrite idx granted answer last (lineBytes old buffer text) c

/-! ## What is in the buffer -/

theorem cstring_append (hs : 0 ∉ s) : cstring (s ++ 0 :: rest) = s := by
  unfold cstring
  rw [List.takeWhile_append_of_pos]
  · simp
  · intro b hb
    simpa using fun h : b = 0 => hs (h ▸ hb)

/-- Appending to a string that leaves enough room. -/
theorem take_strlcatIn {src : List UInt8} {size : Nat} (hs : 0 ∉ s)
    (hroom : s.length + src.length < size) :
    (strlcatIn (s ++ 0 :: rest) src size).1.take (strlcatIn (s ++ 0 :: rest) src size).2 =
      s ++ src := by
  have hfits : ¬size - s.length ≤ src.length := by omega
  have hcopy : size ≠ 0 ∧ s.length < size - 1 ∨ src = [] := by
    cases src with
    | nil => exact .inr rfl
    | cons b src =>
      rw [List.length_cons] at hroom
      exact .inl (by omega)
  unfold strlcatIn
  simp only [cstring_append hs, ge_iff_le, if_neg hfits, List.take_length]
  split_ifs with h
  · have hkept : (s ++ (src ++ 0 :: rest.drop src.length)).take (s.length + src.length) = s ++ src := by
      rw [← List.append_assoc, List.take_left' (by simp)]
    simpa [memcpy] using hkept
  · simp [hcopy.resolve_left h]

/-- The text as it stands in the line. -/
def shownText (text : List UInt8) : List UInt8 :=
  if text.length ≤ 510 then text else text.take 505 ++ cutTxtsuffix

theorem length_shownText (text : List UInt8) : (shownText text).length ≤ 510 := by
  unfold shownText
  split_ifs with h
  · exact h
  · simp [cutTxtsuffix]

theorem mem_shownText {b : UInt8} (hb : b ∈ shownText text) :
    b ∈ text ∨ b ∈ cutTxtsuffix := by
  unfold shownText at hb
  split_ifs at hb
  · exact .inl hb
  · exact (List.mem_append.mp hb).imp_left List.mem_of_mem_take

/-- Whatever the stack and the C library are like, the bytes are the shown text and the end of
the line. -/
theorem lineBytes_eq (old : Bool) (buffer : List UInt8) (htext : 0 ∉ text) :
    lineBytes old buffer text = shownText text ++ crlf := by
  have hnul : 0 ∉ shownText text := fun h => (mem_shownText h).elim htext (by decide)
  have hroom : (shownText text).length + crlf.length < commandLen :=
    Nat.lt_of_le_of_lt (Nat.add_le_add_right (length_shownText text) _) (by decide)
  -- Before the end of the line is appended, the buffer holds the shown text.
  obtain ⟨rest, hrest⟩ : ∃ rest, (let (buffer, r) := vsnprintf old buffer (commandLen - 2) text
      if r ≥ (commandLen - 2 : Nat) ∨ r = -1 then
        strcpyAt buffer (commandLen - cutTxtsuffix.length - 2 - 1) cutTxtsuffix
      else buffer) = shownText text ++ 0 :: rest := by
    have hsize : commandLen - 2 = 511 := rfl
    by_cases hshort : text.length ≤ 510
    · have hresult : ¬((vsnprintf old buffer (commandLen - 2) text).2 ≥ (commandLen - 2 : Nat) ∨
          (vsnprintf old buffer (commandLen - 2) text).2 = -1) := by
        simp only [vsnprintf, hsize]
        rw [if_neg (by simp; omega)]
        omega
      refine ⟨buffer.drop (text.length + 1), ?_⟩
      simp only [if_neg hresult, shownText, if_pos hshort]
      simp [vsnprintf, memcpy, hsize, List.take_of_length_le hshort]
    · have hresult : (vsnprintf old buffer (commandLen - 2) text).2 ≥ (commandLen - 2 : Nat) ∨
          (vsnprintf old buffer (commandLen - 2) text).2 = -1 := by
        simp only [vsnprintf, hsize]
        split_ifs
        · exact .inr rfl
        · omega
      refine ⟨buffer.drop 511, ?_⟩
      simp only [if_pos hresult, shownText, if_neg hshort]
      have hlength : (text.take 510).length = 510 := by
        rw [List.length_take]
        omega
      have hpos : commandLen - cutTxtsuffix.length - 2 - 1 = 505 := rfl
      rw [hpos]
      simp [vsnprintf, strcpyAt, memcpy, hsize, cutTxtsuffix, List.take_append, List.drop_append,
        List.take_take, hlength]
  unfold lineBytes
  simp only at hrest ⊢
  rw [hrest]
  exact take_strlcatIn hnul hroom

/-- `Conn_WriteStr` hands one line to `Conn_Write`: the text, or its first 505 bytes and a mark
if it is longer than 510 bytes, and the end of the line.  If it answers `true`, exactly this
line has been added to what the connection sends, and otherwise nothing has. -/
theorem connWriteStr_queues_line (idx : ConnId) (granted : Bool) (answer last : SendResult)
    (old : Bool) (buffer : List UInt8) {text promised : List UInt8} {c : Output}
    (htext : ∀ b ∈ text, b ≠ 0 ∧ b ≠ 13 ∧ b ≠ 10) (hc : OutputRun idx c promised) :
    ∃ line, line = (if text.length ≤ 510 then text else text.take 505 ++ cutTxtsuffix) ∧
      (line ++ crlf).length ≤ 512 ∧ (∀ b ∈ line, b ≠ 0 ∧ b ≠ 13 ∧ b ≠ 10) ∧
      (connWriteStrBytes idx granted answer last old buffer text c).2.Streams idx
        (if (connWriteStrBytes idx granted answer last old buffer text c).1 then
          promised ++ (line ++ crlf) else promised) := by
  have hnul : 0 ∉ text := fun h => (htext 0 h).1 rfl
  refine ⟨shownText text, rfl, ?_, fun b hb => ?_, ?_⟩
  · have hlength := length_shownText text
    rw [List.length_append]
    exact Nat.add_le_add_right hlength 2
  · rcases mem_shownText hb with h | h
    · exact htext b h
    · have hsuffix : ∀ b ∈ cutTxtsuffix, b ≠ 0 ∧ b ≠ 13 ∧ b ≠ 10 := by decide +kernel
      exact hsuffix b h
  · rw [connWriteStrBytes, lineBytes_eq old buffer hnul]
    exact hc.streams.connWrite

/-- A text of 600 bytes, written to a new connection. -/
theorem connWriteStr_queues_line_long : ∃ line, line = List.replicate 505 65 ++ cutTxtsuffix ∧
    (connWriteStrBytes 3 true .again .again false [] (List.replicate 600 65)
      { sock := some 3 }).2.Streams 3 (line ++ crlf) := by
  have htext : ∀ b ∈ List.replicate 600 (65 : UInt8), b ≠ 0 ∧ b ≠ 13 ∧ b ≠ 10 := by
    intro b hb
    rw [List.eq_of_mem_replicate hb]
    decide
  obtain ⟨line, hline, -, -, hstream⟩ :=
    connWriteStr_queues_line 3 true .again .again false [] htext (.opened none 0)
  refine ⟨line, ?_, ?_⟩
  · rw [hline, if_neg (by rw [List.length_replicate]; decide), List.take_replicate]
    rfl
  · rwa [if_pos (by decide +kernel)] at hstream

end Ngircd
