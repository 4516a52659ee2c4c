import Ngircd.ReadInterest
import Mathlib.Data.List.TakeWhile

/-!
# Lines and reads

A stream of bytes reaches `Conn_Process_Buffer` in pieces, as the socket gives
them.  Which lines are cut off the stream should not depend on the pieces.  The
lines are compared with those a reader of single characters finds (`scan`):
each CR and each LF ends a line, and lines without text are dropped.  Only the
length check looks at the end mark as a whole.
-/

namespace Ngircd

open Lib

variable {text rest b read s : Str} {c : Char} {line : BufferLine} {cs : List Str} {n m : Nat}
  {h : Handled}

/-! ## Cutting a text into lines -/

/-- What has been found in a text: lines with text, in front of a line that is
too long or of a last one that is not complete. -/
structure Framed where
  lines : List Str := []
  tooLong : Bool := false
  rest : Str := []
  deriving DecidableEq, Repr

/-- What has been found, with lines in front of it. -/
def Framed.after (f : Framed) (lines : List Str) : Framed := { f with lines := lines ++ f.lines }

@[simp] theorem Framed.after_nil (f : Framed) : f.after [] = f := rfl

theorem Framed.after_after (f : Framed) (l₁ l₂ : List Str) :
    (f.after l₂).after l₁ = f.after (l₁ ++ l₂) := by
  simp [Framed.after]

@[simp] theorem Framed.after_tooLong (f : Framed) (l : List Str) :
    (f.after l).tooLong = f.tooLong := rfl

@[simp] theorem Framed.after_rest (f : Framed) (l : List Str) : (f.after l).rest = f.rest := rfl

@[simp] theorem Framed.after_lines (f : Framed) (l : List Str) :
    (f.after l).lines = l ++ f.lines := rfl

/-- A line counts when there is text in it. -/
def counted (text : Str) : List Str := if text.isEmpty then [] else [text]

/-- The characters that end a line. -/
def endsLine (c : Char) : Bool := c == '\r' || c == '\n'

/-- Text of one line. -/
def OneLine (text : Str) : Prop := ∀ c ∈ text, endsLine c = false

private theorem takeWhile_line (rest : Str) (hnul : nul ∉ text)
    (htext : OneLine text) (hc : endsLine c = true) :
    (text ++ c :: rest).takeWhile (fun c => !(c == nul || c == '\r' || c == '\n')) = text := by
  rw [List.takeWhile_append_of_pos, List.takeWhile_cons_of_neg, List.append_nil]
  · simp only [endsLine, Bool.or_eq_true] at hc
    rcases hc with hc | hc <;> simp [hc]
  · intro d hd
    have hne : d ≠ nul := fun h => hnul (h ▸ hd)
    have hend := htext d hd
    simp only [endsLine, Bool.or_eq_false_iff] at hend
    simp [hne, hend.1, hend.2]

/-- A line ended by CR and LF. -/
theorem nextLine_crlf (rest : Str) (hnul : nul ∉ text) (htext : OneLine text) :
    nextLine (text ++ '\r' :: '\n' :: rest) = some { text, delta := 2, after := '\n' :: rest } := by
  simp only [nextLine, takeWhile_line _ hnul htext (c := '\r') rfl, List.drop_left]

/-- A line ended by one character. -/
theorem nextLine_single (hnul : nul ∉ text)
    (htext : OneLine text) (hc : endsLine c = true) (hcrlf : ¬(c = '\r' ∧ rest.head? = some '\n')) :
    nextLine (text ++ c :: rest) = some { text, delta := 1, after := rest } := by
  simp only [nextLine, takeWhile_line _ hnul htext hc, List.drop_left]
  simp only [endsLine, Bool.or_eq_true, beq_iff_eq] at hc
  rcases hc with rfl | rfl
  · cases rest with
    | nil => rfl
    | cons d rest =>
      have hd : d ≠ '\n' := fun h => hcrlf ⟨rfl, by simp [h]⟩
      split <;> simp_all
  · rfl

/-- There is no line without an end mark. -/
theorem nextLine_none (hb : OneLine b) : nextLine b = none := by
  have hno : ∀ n c rest, endsLine c = true → b.drop n ≠ c :: rest := by
    intro n c rest hc hdrop
    have hmem : c ∈ b := List.mem_of_mem_drop (i := n) (by rw [hdrop]; exact .head _)
    rw [hb c hmem] at hc
    exact Bool.false_ne_true hc
  simp only [nextLine]
  split
  · exact absurd ‹_› (hno _ '\r' _ rfl)
  · exact absurd ‹_› (hno _ '\r' _ rfl)
  · exact absurd ‹_› (hno _ '\n' _ rfl)
  · rfl

/-- A line is what stands in front of its end mark. -/
theorem nextLine_cut (h : nextLine b = some line) :
    OneLine line.text ∧ ∃ mark rest, b = line.text ++ mark ++ rest ∧
      mark.length = line.delta ∧ 0 < line.delta ∧ line.after = (mark ++ rest).tail := by
  set text := b.takeWhile fun c => !(c == nul || c == '\r' || c == '\n') with htext
  have hsplit : b = text ++ b.drop text.length := by
    conv_lhs => rw [← List.take_append_drop text.length b]
    rw [← List.prefix_iff_eq_take.mp (List.takeWhile_prefix _)]
  have hone : OneLine text := by
    intro c hc
    have hstop := List.mem_takeWhile_imp hc
    simp only [Bool.not_eq_true', Bool.or_eq_false_iff] at hstop
    simp [endsLine, hstop.1.2, hstop.2]
  simp only [nextLine, ← htext] at h
  split at h
  case h_4 => exact nomatch h
  · rename_i rest hdrop
    obtain rfl := Option.some.inj h
    rw [hdrop] at hsplit
    exact ⟨hone, ['\r', '\n'], rest, by simpa using hsplit, rfl, Nat.succ_pos _, rfl⟩
  · rename_i rest hno hdrop
    obtain rfl := Option.some.inj h
    rw [hdrop] at hsplit
    exact ⟨hone, ['\r'], rest, by simpa using hsplit, rfl, Nat.succ_pos _, rfl⟩
  · rename_i rest hdrop
    obtain rfl := Option.some.inj h
    rw [hdrop] at hsplit
    exact ⟨hone, ['\n'], rest, by simpa using hsplit, rfl, Nat.succ_pos _, rfl⟩

theorem nextLine_bounds (h : nextLine b = some line) :
    0 < line.len ∧ line.len ≤ b.length := by
  obtain ⟨-, mark, rest, rfl, hmark, hpos, -⟩ := nextLine_cut h
  simp only [BufferLine.len, List.length_append]
  omega

/-- A text is of one line, or it has a first line. -/
theorem oneLine_or_cut (s : Str) :
    OneLine s ∨ ∃ text c rest, s = text ++ c :: rest ∧ OneLine text ∧ endsLine c = true := by
  induction s with
  | nil => exact .inl fun c hc => (nomatch hc)
  | cons d s ih =>
    by_cases hd : endsLine d = true
    · exact .inr ⟨[], d, s, rfl, fun c hc => (nomatch hc), hd⟩
    have hfirst : ∀ text : Str, OneLine text → OneLine (d :: text) := fun text htext =>
      List.forall_mem_cons.mpr ⟨Bool.eq_false_iff.mpr hd, htext⟩
    rcases ih with hs | ⟨text, c, rest, rfl, htext, hc⟩
    · exact .inl (hfirst s hs)
    · exact .inr ⟨d :: text, c, rest, rfl, hfirst text htext, hc⟩

/-- The lines `Conn_Process_Buffer` finds in a buffer when it is called again
and again. -/
def frame (b : Str) : Framed :=
  match _h : nextLine b with
  | none => { rest := b }
  | some line =>
    if line.len > commandLen - 1 then { tooLong := true }
    else (frame (b.drop line.len)).after (counted line.text)
termination_by b.length
decreasing_by
  have hb := nextLine_bounds _h
  simp only [List.length_drop]
  omega

/-- The lines in a text, of which `text` has been read already, when each CR and
each LF ends a line. -/
def scan (text : Str) : Str → Framed
  | [] => { rest := text }
  | c :: s =>
    if endsLine c then
      if text.length + 1 > commandLen - 1 then { tooLong := true }
      else (scan [] s).after (counted text)
    else scan (text ++ [c]) s

/-- Before any line that is too long, there is one that is too long only when
its end mark is read as CR and LF. -/
def hasBorderline (text : Str) : Str → Bool
  | [] => false
  | c :: s =>
    if endsLine c then
      !decide (text.length + 1 > commandLen - 1) &&
        ((text.length + 2 > commandLen - 1 && c == '\r' && s.head? == some '\n') ||
          hasBorderline [] s)
    else hasBorderline (text ++ [c]) s

/-- The lines found in a buffer and the reads that follow. -/
def frameReads (b : Str) : List Str → Framed
  | [] => { rest := b }
  | c :: cs =>
    let f := frame (b ++ c)
    if f.tooLong then f else (frameReads f.rest cs).after f.lines

/-! ## Reading single characters -/

@[simp] theorem oneLine_nil : OneLine [] := fun _ hc => (nomatch hc)

section

variable (htext : OneLine text)
include htext

theorem scan_oneLine (read s : Str) :
    scan read (text ++ s) = scan (read ++ text) s := by
  induction text generalizing read with
  | nil => simp
  | cons c text ih =>
    obtain ⟨hc, htext⟩ := List.forall_mem_cons.mp htext
    simp [scan, hc, ih htext]

theorem scan_of_oneLine : scan [] text = { rest := text } := by
  have h := scan_oneLine htext [] []
  rw [List.append_nil] at h
  exact h

theorem hasBorderline_oneLine (read s : Str) :
    hasBorderline read (text ++ s) = hasBorderline (read ++ text) s := by
  induction text generalizing read with
  | nil => simp
  | cons c text ih =>
    obtain ⟨hc, htext⟩ := List.forall_mem_cons.mp htext
    simp [hasBorderline, hc, ih htext]

end

/-- What is left over is text of one line. -/
theorem oneLine_scan_rest (hread : OneLine read) (s : Str) :
    OneLine (scan read s).rest := by
  induction s generalizing read with
  | nil => exact hread
  | cons c s ih =>
    simp only [scan]
    split_ifs with hc hlong
    · exact oneLine_nil
    · exact ih oneLine_nil
    · refine ih fun d hd => ?_
      rcases List.mem_append.mp hd with hd | hd
      · exact hread d hd
      · rw [List.mem_singleton.mp hd]
        simpa using hc

/-- Reading on after a first part. -/
theorem scan_append (read a s : Str) :
    scan read (a ++ s) =
      if (scan read a).tooLong then scan read a
      else (scan (scan read a).rest s).after (scan read a).lines := by
  induction a generalizing read with
  | nil => simp [scan]
  | cons c a ih =>
    simp only [List.cons_append, scan]
    split_ifs with hc hlong htoo
    all_goals simp_all [Framed.after_after]

/-- A line on the border in what follows is one of the whole text. -/
theorem hasBorderline_append_right (read a s : Str) (hlong : (scan read a).tooLong = false)
    (h : hasBorderline (scan read a).rest s = true) : hasBorderline read (a ++ s) = true := by
  induction a generalizing read with
  | nil => exact h
  | cons c a ih =>
    simp only [List.cons_append, scan, hasBorderline] at *
    split_ifs at * with hc hlen
    · simp_all
    · exact ih _ hlong h

theorem hasBorderline_append_left (read a s : Str) (h : hasBorderline read a = true) :
    hasBorderline read (a ++ s) = true := by
  induction a generalizing read with
  | nil => exact nomatch h
  | cons c a ih =>
    simp only [List.cons_append, hasBorderline] at *
    split_ifs at * with hc
    · simp only [Bool.and_eq_true, Bool.or_eq_true] at h ⊢
      refine ⟨h.1, h.2.imp (fun hmark => ⟨hmark.1, ?_⟩) (ih _)⟩
      cases a with
      | nil => exact absurd hmark.2 (by decide)
      | cons d a => exact hmark.2
    · exact ih _ h

/-! ## Reading line by line -/

/-- Texts without terminators are made of lines: those ended by CR and LF, those
ended by one character, and a last one. -/
theorem line_induction {P : Str → Prop} (last : ∀ s, OneLine s → P s)
    (crlf : ∀ text rest, nul ∉ text → OneLine text → P rest → P (text ++ '\r' :: '\n' :: rest))
    (single : ∀ text c rest, nul ∉ text → OneLine text → endsLine c = true →
      ¬(c = '\r' ∧ rest.head? = some '\n') → P rest → P (text ++ c :: rest))
    (s : Str) (hs : nul ∉ s) : P s := by
  induction hn : s.length using Nat.strong_induction_on generalizing s with
  | _ n ih =>
    rcases oneLine_or_cut s with hone | ⟨text, c, rest, rfl, htext, hc⟩
    · exact last s hone
    have htext' : nul ∉ text := fun h => hs (List.mem_append_left _ h)
    have hrest : nul ∉ rest := fun h => hs (List.mem_append_right _ (.tail _ h))
    simp only [List.length_append, List.length_cons] at hn
    by_cases hcrlf : c = '\r' ∧ rest.head? = some '\n'
    · obtain ⟨rfl, hhead⟩ := hcrlf
      obtain ⟨rest, rfl⟩ : ∃ rest', rest = '\n' :: rest' := List.head?_eq_some_iff.mp hhead
      simp only [List.length_cons] at hn
      refine crlf text rest htext' htext (ih rest.length (by omega) rest ?_ rfl)
      exact fun h => hrest (.tail _ h)
    · exact single text c rest htext' htext hc hcrlf (ih rest.length (by omega) rest hrest rfl)

theorem frame_of_none (h : nextLine b = none) : frame b = { rest := b } := by
  rw [frame]
  split
  · rfl
  · simp_all

theorem frame_of_some (h : nextLine b = some line) :
    frame b = if line.len > commandLen - 1 then { tooLong := true }
      else (frame (b.drop line.len)).after (counted line.text) := by
  rw [frame]
  split <;> simp_all

section

variable (hnul : nul ∉ text) (htext : OneLine text)

include hnul htext

theorem frame_crlf (rest : Str) :
    frame (text ++ '\r' :: '\n' :: rest) =
      if text.length + 2 > commandLen - 1 then { tooLong := true }
      else (frame rest).after (counted text) := by
  rw [frame_of_some (nextLine_crlf rest hnul htext)]
  simp [BufferLine.len, List.drop_append, List.drop_eq_nil_of_le]

theorem frame_single (hc : endsLine c = true)
    (hcrlf : ¬(c = '\r' ∧ rest.head? = some '\n')) :
    frame (text ++ c :: rest) =
      if text.length + 1 > commandLen - 1 then { tooLong := true }
      else (frame rest).after (counted text) := by
  rw [frame_of_some (nextLine_single hnul htext hc hcrlf)]
  simp [BufferLine.len, List.drop_append, List.drop_eq_nil_of_le]

omit hnul

theorem scan_cut (hc : endsLine c = true) (rest : Str) :
    scan [] (text ++ c :: rest) =
      if text.length + 1 > commandLen - 1 then { tooLong := true }
      else (scan [] rest).after (counted text) := by
  rw [scan_oneLine htext]
  simp [scan, hc]

/-- The second half of CR and LF ends a line without text. -/
theorem scan_crlf (rest : Str) :
    scan [] (text ++ '\r' :: '\n' :: rest) =
      if text.length + 1 > commandLen - 1 then { tooLong := true }
      else (scan [] rest).after (counted text) := by
  rw [scan_cut htext rfl]
  rfl

theorem hasBorderline_crlf (rest : Str) :
    hasBorderline [] (text ++ '\r' :: '\n' :: rest) = true ↔
      ¬text.length + 1 > commandLen - 1 ∧
        (text.length + 2 > commandLen - 1 ∨ hasBorderline [] rest = true) := by
  rw [hasBorderline_oneLine htext]
  simp [hasBorderline, endsLine, commandLen]

theorem hasBorderline_single (hc : endsLine c = true)
    (hcrlf : ¬(c = '\r' ∧ rest.head? = some '\n')) :
    hasBorderline [] (text ++ c :: rest) = true ↔
      ¬text.length + 1 > commandLen - 1 ∧ hasBorderline [] rest = true := by
  rw [hasBorderline_oneLine htext]
  simp only [hasBorderline, hc, List.nil_append, if_true]
  simp only [Bool.and_eq_true, Bool.or_eq_true, beq_iff_eq]
  grind

end

/-- Without a line on the border, reading line by line finds what reading single
characters finds. -/
theorem frame_eq_scan (hnul : nul ∉ b) (h : hasBorderline [] b = false) :
    frame b = scan [] b := by
  revert h
  refine line_induction (P := fun b => hasBorderline [] b = false → frame b = scan [] b)
    ?last ?crlf ?single b hnul
  case last =>
      intro s hs _
      rw [frame_of_none (nextLine_none hs), scan_of_oneLine hs]
  case crlf =>
      intro text rest hnul htext ih h
      rw [← Bool.not_eq_true, hasBorderline_crlf htext] at h
      rw [frame_crlf hnul htext, scan_crlf htext]
      by_cases hlong : text.length + 1 > commandLen - 1
      · rw [if_pos hlong, if_pos (by omega)]
      · have hborder : ¬text.length + 2 > commandLen - 1 := fun h' => h ⟨hlong, .inl h'⟩
        have hrest : hasBorderline [] rest = false :=
          Bool.eq_false_iff.mpr fun h' => h ⟨hlong, .inr h'⟩
        rw [if_neg hlong, if_neg hborder, ih hrest]
  case single =>
      intro text c rest hnul htext hc hcrlf ih h
      rw [← Bool.not_eq_true, hasBorderline_single htext hc hcrlf] at h
      rw [frame_single hnul htext hc hcrlf, scan_cut htext hc]
      split_ifs with hlong
      · rfl
      · rw [ih (Bool.eq_false_iff.mpr fun h' => h ⟨hlong, h'⟩)]

/-- A line on the border is refused when it is read as a whole, and counts when
it is read by characters. -/
theorem frame_of_hasBorderline (hnul : nul ∉ b) (h : hasBorderline [] b = true) :
    (frame b).tooLong = true ∧ (frame b).lines.length < (scan [] b).lines.length := by
  revert h
  refine line_induction (P := fun b => hasBorderline [] b = true →
    (frame b).tooLong = true ∧ (frame b).lines.length < (scan [] b).lines.length)
    ?last ?crlf ?single b hnul
  case last =>
      intro s hs h
      have hs' := hasBorderline_oneLine hs [] []
      rw [List.append_nil, h] at hs'
      exact nomatch hs'
  case crlf =>
      intro text rest hnul htext ih h
      obtain ⟨hshort, hborder⟩ := (hasBorderline_crlf htext rest).mp h
      rw [frame_crlf hnul htext, scan_crlf htext, if_neg hshort]
      by_cases hlen : text.length + 2 > commandLen - 1
      · have hsome : text.isEmpty = false := by
          cases text with
          | nil => simp [commandLen] at hlen
          | cons => rfl
        rw [if_pos hlen]
        simp [counted, hsome]
      · obtain ⟨hlong, hlines⟩ := ih (hborder.resolve_left hlen)
        rw [if_neg hlen]
        refine ⟨hlong, ?_⟩
        simpa using hlines
  case single =>
      intro text c rest hnul htext hc hcrlf ih h
      obtain ⟨hshort, hborder⟩ := (hasBorderline_single htext hc hcrlf).mp h
      obtain ⟨hlong, hlines⟩ := ih hborder
      rw [frame_single hnul htext hc hcrlf, scan_cut htext hc, if_neg hshort, if_neg hshort]
      refine ⟨hlong, ?_⟩
      simpa using hlines

/-! ## Reads -/

/-- A text of one line is read on by what follows. -/
theorem scan_nil_append (hb : OneLine b) (s : Str) : scan [] (b ++ s) = scan b s :=
  scan_oneLine hb [] s

theorem nul_notMem_scan_rest (hread : nul ∉ read) (hs : nul ∉ s) :
    nul ∉ (scan read s).rest := by
  induction s generalizing read with
  | nil => exact hread
  | cons c s ih =>
    obtain ⟨hc, hs⟩ := not_or.mp (List.mem_cons.not.mp hs)
    simp only [scan]
    split_ifs
    · exact List.not_mem_nil
    · exact ih List.not_mem_nil hs
    · refine ih ?_ hs
      simp [hread, hc]

/-- One more read, when nothing on the border is in the buffer. -/
theorem frameReads_cons_eq_scan {c : Str}
    (hnul : nul ∉ b ++ c) (hborder : hasBorderline [] (b ++ c) = false)
    (ih : (scan [] (b ++ c)).tooLong = false →
      frameReads (scan [] (b ++ c)).rest cs = scan [] ((scan [] (b ++ c)).rest ++ s)) :
    frameReads b (c :: cs) = scan [] (b ++ c ++ s) := by
  simp only [frameReads, frame_eq_scan hnul hborder]
  rw [scan_append [] (b ++ c) s]
  split_ifs with hlong
  · rfl
  · rw [ih (Bool.eq_false_iff.mpr hlong), scan_nil_append (oneLine_scan_rest oneLine_nil _)]

theorem frameReads_eq_scan (hb : OneLine b)
    (hnul : nul ∉ b ++ cs.flatten) (hborder : hasBorderline [] (b ++ cs.flatten) = false) :
    frameReads b cs = scan [] (b ++ cs.flatten) := by
  induction cs generalizing b with
  | nil => simp [frameReads, scan_of_oneLine hb]
  | cons c cs ih =>
    rw [List.flatten_cons, ← List.append_assoc] at hnul hborder ⊢
    have hfront : nul ∉ b ++ c := fun h => hnul (List.mem_append_left _ h)
    refine frameReads_cons_eq_scan hfront ?_ fun hlong => ih ?_ ?_ ?_
    · exact Bool.eq_false_iff.mpr fun h =>
        Bool.eq_false_iff.mp hborder (hasBorderline_append_left _ _ _ h)
    · exact oneLine_scan_rest oneLine_nil _
    · intro h
      rcases List.mem_append.mp h with h | h
      · exact nul_notMem_scan_rest List.not_mem_nil hfront h
      · exact hnul (List.mem_append_right _ h)
    · refine Bool.eq_false_iff.mpr fun h => Bool.eq_false_iff.mp hborder ?_
      rw [hasBorderline_oneLine (oneLine_scan_rest oneLine_nil _)] at h
      exact hasBorderline_append_right _ _ _ hlong h

/-- Reads of one character each never show CR and LF together. -/
theorem frameReads_singletons (hb : OneLine b) (hnul : nul ∉ b ++ s) :
    frameReads b (s.map fun c => [c]) = scan [] (b ++ s) := by
  induction s generalizing b with
  | nil => simp [frameReads, scan_of_oneLine hb]
  | cons c s ih =>
    rw [List.append_cons] at hnul ⊢
    have hfront : nul ∉ b ++ [c] := fun h => hnul (List.mem_append_left _ h)
    refine frameReads_cons_eq_scan hfront ?_ fun hlong => ih ?_ ?_
    · rw [hasBorderline_oneLine hb]
      simp [hasBorderline]
    · exact oneLine_scan_rest oneLine_nil _
    · intro h
      rcases List.mem_append.mp h with h | h
      · exact nul_notMem_scan_rest List.not_mem_nil hfront h
      · exact hnul (List.mem_append_right _ h)

/-! ## The loop of `Conn_Process_Buffer` -/

section

variable {i : ConnId} {starttime k processed : Nat} {w w' : World}

/-- One turn of the loop, and the turns that follow. -/
inductive LoopTurn (n : Nat) (i : ConnId) (starttime k processed : Nat) (w : World) :
    Handled → World → Prop where
  /-- There is a penalty. -/
  | delayed : starttime < (w.conns i).delaytime →
      LoopTurn n i starttime k processed w { processed := none } w
  | noLine : ¬starttime < (w.conns i).delaytime → nextLine (w.conns i).rbuf = none →
      LoopTurn n i starttime k processed w { processed := some processed } w
  | tooLong {line : BufferLine} {w' : World} : ¬starttime < (w.conns i).delaytime →
      nextLine (w.conns i).rbuf = some line → line.len > commandLen - 1 →
      closer n i none (some "Request too long") true w = .ok ((), w') →
      LoopTurn n i starttime k processed w { tooLong := true, processed := none } w'
  | blank {line : BufferLine} {h : Handled} {w' : World} : ¬starttime < (w.conns i).delaytime →
      nextLine (w.conns i).rbuf = some line → ¬line.len > commandLen - 1 → line.text = [] →
      processLines n i starttime k (processed + line.len) (w.dropRead i line.len) = .ok (h, w') →
      LoopTurn n i starttime k processed w h w'
  /-- `Parse_Request` asks to stop. -/
  | halted {line : BufferLine} {w' : World} : ¬starttime < (w.conns i).delaytime →
      nextLine (w.conns i).rbuf = some line → ¬line.len > commandLen - 1 → line.text ≠ [] →
      exec n (parseRequest i line.text line.after) (w.cutRead i line) = .ok (false, w') →
      LoopTurn n i starttime k processed w { lines := [line.text], processed := none } w'
  | handled {line : BufferLine} {h : Handled} {w₁ w' : World} :
      ¬starttime < (w.conns i).delaytime →
      nextLine (w.conns i).rbuf = some line → ¬line.len > commandLen - 1 → line.text ≠ [] →
      exec n (parseRequest i line.text line.after) (w.cutRead i line) = .ok (true, w₁) →
      processLines n i starttime k (processed + line.len) (w₁.dropRead i line.len) = .ok (h, w') →
      LoopTurn n i starttime k processed w { h with lines := line.text :: h.lines } w'

theorem processLines_zero (hrun : processLines n i starttime 0 processed w = .ok (h, w')) :
    h = { processed := some processed } ∧ w' = w := by
  simp only [processLines, Exec.pure_apply, Except.ok.injEq, Prod.mk.injEq] at hrun
  exact ⟨hrun.1.symm, hrun.2.symm⟩

theorem processLines_succ
    (hrun : processLines n i starttime (k + 1) processed w = .ok (h, w')) :
    LoopTurn n i starttime k processed w h w' := by
  simp only [processLines] at hrun
  split_ifs at hrun with hdelay
  · cases hrun
    exact .delayed hdelay
  split at hrun
  · cases hrun
    exact .noLine hdelay ‹_›
  rename_i line hline
  split_ifs at hrun with hlong hblank
  · obtain ⟨u, w₁, hclose, hpure⟩ := Exec.bind_eq_ok.mp hrun
    cases hpure
    exact .tooLong hdelay hline hlong hclose
  · exact .blank hdelay hline hlong (by simpa using hblank) hrun
  · obtain ⟨u, w₁, hcut, hrest⟩ := Exec.bind_eq_ok.mp hrun
    cases hcut
    obtain ⟨ok, w₂, hparse, hrest⟩ := Exec.bind_eq_ok.mp hrest
    have htext : line.text ≠ [] := by simpa using hblank
    cases ok with
    | false =>
      cases hrest
      exact .halted hdelay hline hlong htext hparse
    | true =>
      obtain ⟨u, w₃, hdrop, hrest⟩ := Exec.bind_eq_ok.mp hrest
      cases hdrop
      obtain ⟨h', w₄, hlines, hpure⟩ := Exec.bind_eq_ok.mp hrest
      cases hpure
      exact .handled hdelay hline hlong htext hparse hlines

/-- Commands leave a read buffer as it is, or empty it with its connection. -/
def Conn.KeepsBuffer (c c' : Conn) : Prop :=
  (c'.rbuf = c.rbuf ∧ (c.sock = none → c'.sock = none)) ∨ (c'.sock = none ∧ c'.rbuf = [])

theorem keepsBuffer_order : SlotOrder Conn.KeepsBuffer where
  refl _ := .inl ⟨rfl, fun h => h⟩
  trans c₁ c₂ c₃ h₁ h₂ := by
    rcases h₂ with ⟨hbuf, hsock⟩ | hclosed
    · rcases h₁ with ⟨hbuf', hsock'⟩ | ⟨hsock', hbuf'⟩
      · exact .inl ⟨hbuf.trans hbuf', fun h => hsock (hsock' h)⟩
      · exact .inr ⟨hsock hsock', hbuf.trans hbuf'⟩
    · exact .inr hclosed
  bytesOut _ _ := .inl ⟨rfl, fun h => h⟩
  edit c e := .inl ⟨e.rbuf_eq c, fun h => (e.sock_eq c).trans h⟩
  startClosing _ := .inl ⟨rfl, fun h => h⟩
  closeSocket _ := .inl ⟨rfl, fun _ => rfl⟩
  initConn _ _ := .inr ⟨rfl, rfl⟩
  pwd _ _ := .inl ⟨rfl, fun h => h⟩
  authPing _ _ := .inl ⟨rfl, fun h => h⟩

/-- The terminator takes the place of one character of the end mark. -/
theorem drop_cut (h : nextLine b = some line) :
    (line.text ++ nul :: line.after).drop line.len = b.drop line.len := by
  obtain ⟨-, mark, rest, rfl, hmark, hpos, hafter⟩ := nextLine_cut h
  cases mark with
  | nil => simp [← hmark] at hpos
  | cons m mark =>
    rw [hafter]
    simp [BufferLine.len, ← hmark, List.drop_append, List.drop_eq_nil_of_le]

/-- Nothing is found in an empty buffer. -/
theorem processLines_empty (hempty : (w.conns i).rbuf = [])
    (hrun : processLines n i starttime k processed w = .ok (h, w')) :
    h.tooLong = false ∧ w' = w := by
  cases k with
  | zero =>
    obtain ⟨rfl, rfl⟩ := processLines_zero hrun
    exact ⟨rfl, rfl⟩
  | succ k =>
    have hnone : ∀ line, nextLine (w.conns i).rbuf ≠ some line := by
      intro line
      rw [hempty]
      exact fun hline => (nomatch hline)
    cases processLines_succ hrun with
    | delayed | noLine => exact ⟨rfl, rfl⟩
    | tooLong _ hline | blank _ hline | halted _ hline | handled _ hline =>
      exact absurd hline (hnone _)

/-- What the loop has found is the front of what is in the buffer. -/
theorem processLines_frame (hrun : processLines n i starttime k processed w = .ok (h, w'))
    (hend : h.tooLong = true ∨ h.processed ≠ none ∧ (w'.conns i).sock ≠ none) :
    frame (w.conns i).rbuf =
      if h.tooLong then { lines := h.lines, tooLong := true }
      else (frame (w'.conns i).rbuf).after h.lines := by
  induction k generalizing w processed h with
  | zero =>
    obtain ⟨rfl, rfl⟩ := processLines_zero hrun
    rfl
  | succ k ih =>
    cases processLines_succ hrun with
    | delayed | halted => simp at hend
    | noLine => rfl
    | tooLong _ hline hlong => rw [frame_of_some hline, if_pos hlong, if_pos rfl]
    | blank _ hline hlong htext hrest =>
      rw [frame_of_some hline, if_neg hlong, htext]
      simpa [World.dropRead, counted] using ih hrest hend
    | @handled line h w₁ _ _ hline hlong htext hparse hrest =>
      have hcounted : counted line.text = [line.text] := by simp [counted, htext]
      rcases keepsBuffer_order.frame.exec_ok hparse i with ⟨hbuf, -⟩ | ⟨hsock, hbuf⟩
      · have hdrop : ((w₁.dropRead i line.len).conns i).rbuf = (w.conns i).rbuf.drop line.len := by
          rw [← drop_cut hline]
          simp [World.dropRead, World.cutRead, hbuf]
        have hframe := ih hrest hend
        rw [hdrop] at hframe
        rw [frame_of_some hline, if_neg hlong, hframe, hcounted]
        split_ifs with hlong'
        · rfl
        · exact Framed.after_after _ _ _
      · -- A connection that has been closed leaves nothing to be found.
        obtain ⟨hlong', rfl⟩ := processLines_empty (by simp [World.dropRead, hbuf]) hrest
        simp [hlong', World.dropRead, hsock] at hend

/-- Lines that are handed over are text of one line. -/
theorem processLines_oneLine (hrun : processLines n i starttime k processed w = .ok (h, w')) :
    ∀ line ∈ h.lines, OneLine line := by
  induction k generalizing w processed h with
  | zero =>
    obtain ⟨rfl, rfl⟩ := processLines_zero hrun
    exact fun line hline => (nomatch hline)
  | succ k ih =>
    cases processLines_succ hrun with
    | delayed | noLine | tooLong => exact fun line hline => (nomatch hline)
    | blank _ _ _ _ hrest => exact ih hrest
    | halted _ hline =>
      intro text htext
      rw [List.mem_singleton.mp htext]
      exact (nextLine_cut hline).1
    | handled _ hline _ _ _ hrest =>
      exact List.forall_mem_cons.mpr ⟨(nextLine_cut hline).1, ih hrest⟩

/-- A call is its loop, and throttling. -/
theorem connProcessBuffer_loop (hrun : connProcessBuffer n i w = .ok ((h, m), w')) :
    ∃ c w₁, processLines n i w.now (commandLimit w i c) 0 w = .ok (h, w₁) ∧
      (w₁.conns i).KeepsBuffer (w'.conns i) ∧
      (h.processed = none ∨ h.processed = some 0 → w' = w₁) := by
  simp only [connProcessBuffer] at hrun
  split at hrun
  · exact nomatch hrun
  split at hrun
  · exact nomatch hrun
  rename_i client _ _ c _
  obtain ⟨h', w₁, hloop, hrest⟩ := Exec.bind_eq_ok.mp hrun
  refine ⟨c, w₁, ?_⟩
  cases hprocessed : h'.processed with
  | none =>
    simp only [hprocessed] at hrest
    cases hrest
    exact ⟨hloop, keepsBuffer_order.refl _, fun _ => rfl⟩
  | some processed =>
    simp only [hprocessed] at hrest
    obtain ⟨w₂, w₃, hget, hrest⟩ := Exec.bind_eq_ok.mp hrest
    cases hget
    split_ifs at hrest with hthrottle
    · obtain ⟨u, w₄, hexec, hrest⟩ := Exec.bind_eq_ok.mp hrest
      cases hrest
      refine ⟨hloop, keepsBuffer_order.frame.exec_ok hexec i, fun hnone => ?_⟩
      rw [hprocessed] at hnone
      exact absurd hthrottle.1 (by simpa using hnone)
    · cases hrest
      exact ⟨hloop, keepsBuffer_order.refl _, fun _ => rfl⟩

/-- A read buffer is handled by one call after the other, until no line is left
in it.  No call is stopped by a penalty or by a command that closes the
connection; what the daemon does between two calls leaves the buffer alone. -/
inductive Drained (i : ConnId) : Str → Framed → Prop where
  | done {b : Str} : nextLine b = none → Drained i b { rest := b }
  | tooLong {n m : Nat} {w w' : World} {h : Handled} :
      connProcessBuffer n i w = .ok ((h, m), w') → h.tooLong = true →
      Drained i (w.conns i).rbuf { lines := h.lines, tooLong := true }
  | more {n m : Nat} {w w' : World} {h : Handled} {f : Framed} :
      connProcessBuffer n i w = .ok ((h, m), w') → h.tooLong = false → h.processed ≠ none →
      (w'.conns i).sock ≠ none → Drained i (w'.conns i).rbuf f →
      Drained i (w.conns i).rbuf (f.after h.lines)

/-- Reads that are appended to a read buffer, each of them handled before the
next one. -/
inductive Reads (i : ConnId) : Str → List Str → Framed → Prop where
  | done {b : Str} : Reads i b [] { rest := b }
  | tooLong {b c : Str} {cs : List Str} {f : Framed} : Drained i (b ++ c) f → f.tooLong = true →
      Reads i b (c :: cs) f
  | more {b c : Str} {cs : List Str} {f g : Framed} : Drained i (b ++ c) f → f.tooLong = false →
      Reads i f.rest cs g → Reads i b (c :: cs) (g.after f.lines)

theorem Drained.eq_frame {f : Framed} (hf : Drained i b f) : f = frame b := by
  induction hf with
  | done hnone => rw [frame_of_none hnone]
  | tooLong hrun hlong =>
    obtain ⟨c, w₁, hloop, -, -⟩ := connProcessBuffer_loop hrun
    rw [processLines_frame hloop (.inl hlong), if_pos hlong]
  | more hrun hshort hprocessed hopen _ ih =>
    obtain ⟨c, w₁, hloop, hkeeps, -⟩ := connProcessBuffer_loop hrun
    rcases hkeeps with ⟨hbuf, hsock⟩ | ⟨hsock, -⟩
    · rw [processLines_frame hloop (.inr ⟨hprocessed, fun h => hopen (hsock h)⟩),
        if_neg (by simp [hshort]), ← hbuf, ih]
    · exact absurd hsock hopen

theorem Reads.eq_frameReads {f : Framed} (hf : Reads i b cs f) :
    f = frameReads b cs := by
  induction hf with
  | done => rfl
  | tooLong hdrained hlong =>
    rw [frameReads, ← hdrained.eq_frame, if_pos hlong]
  | more hdrained hshort _ ih =>
    rw [frameReads, ← hdrained.eq_frame, if_neg (by simp [hshort]), ← ih]

theorem Drained.oneLine {f : Framed} (hf : Drained i b f) :
    ∀ line ∈ f.lines, OneLine line := by
  induction hf with
  | done => exact fun line hline => (nomatch hline)
  | tooLong hrun _ =>
    obtain ⟨c, w₁, hloop, -, -⟩ := connProcessBuffer_loop hrun
    exact processLines_oneLine hloop
  | more hrun _ _ _ _ ih =>
    obtain ⟨c, w₁, hloop, -, -⟩ := connProcessBuffer_loop hrun
    exact List.forall_mem_append.mpr ⟨processLines_oneLine hloop, ih⟩

theorem Reads.oneLine {f : Framed} (hf : Reads i b cs f) :
    ∀ line ∈ f.lines, OneLine line := by
  induction hf with
  | done => exact fun line hline => (nomatch hline)
  | tooLong hdrained _ => exact hdrained.oneLine
  | more hdrained _ _ ih => exact List.forall_mem_append.mpr ⟨hdrained.oneLine, ih⟩

end

/-- The same lines are found and the same decision about their length is taken,
however a stream is cut into reads. -/
def FramingFixed (s : Str) : Prop :=
  ∀ cs cs' : List Str, [] ∉ cs → [] ∉ cs' → cs.flatten = s → cs'.flatten = s →
    (frameReads [] cs).lines = (frameReads [] cs').lines ∧
      (frameReads [] cs).tooLong = (frameReads [] cs').tooLong

theorem framingFixed_iff (hs : nul ∉ s) : FramingFixed s ↔ hasBorderline [] s = false := by
  constructor
  · intro hfixed
    refine Bool.eq_false_iff.mpr fun hborder => ?_
    obtain ⟨hlong, hlines⟩ := frame_of_hasBorderline hs hborder
    have hne : s ≠ [] := fun h => by simp [h, hasBorderline] at hborder
    have hfirst : frameReads [] [s] = frame s := by simp [frameReads, hlong]
    have hsingle := frameReads_singletons oneLine_nil (b := []) hs
    have hsame := (hfixed [s] (s.map fun c => [c]) (by simpa using hne.symm) (by simp)
      (by simp) (by rw [← List.flatMap_def, List.flatMap_singleton'])).1
    rw [hfirst, hsingle] at hsame
    rw [hsame] at hlines
    exact Nat.lt_irrefl _ hlines
  · intro hborder cs cs' _ _ hcs hcs'
    have hread : ∀ cs : List Str, cs.flatten = s → frameReads [] cs = scan [] s := by
      intro cs hcs
      subst hcs
      exact frameReads_eq_scan oneLine_nil hs hborder
    rw [hread cs hcs, hread cs' hcs']
    exact ⟨rfl, rfl⟩

/-- How a stream is cut into reads makes no difference unless there is a line on
the border of what is accepted. -/
theorem framing_independent_of_reads {s : Str} (hs : nul ∉ s) :
    (∀ i cs f, Reads i [] cs f → f = frameReads [] cs ∧
      ∀ line ∈ f.lines, '\r' ∉ line ∧ '\n' ∉ line) ∧
    (FramingFixed s ↔ hasBorderline [] s = false) := by
  refine ⟨fun i cs f hf => ⟨hf.eq_frameReads, fun line hline => ?_⟩, framingFixed_iff hs⟩
  have hone := hf.oneLine line hline
  exact ⟨fun h => (nomatch hone _ h), fun h => (nomatch hone _ h)⟩

theorem framing_independent_of_reads_nick :
    nul ∉ ("NICK a\r\nUSER b\n" : Str) ∧ (FramingFixed "NICK a\r\nUSER b\n" ↔
      hasBorderline [] "NICK a\r\nUSER b\n" = false) :=
  ⟨by decide, (framing_independent_of_reads (by decide)).2⟩

/-- What one call finds in the buffer of a connection that has just been
accepted, and what it leaves. -/
def firstCall (b : Str) : Option (Handled × Bool × Str) :=
  match connProcessBuffer 1 1 (justAccepted.world.received 1 b) with
  | .ok ((h, _), w') => some (h, (w'.conns 1).sock.isSome, (w'.conns 1).rbuf)
  | .error _ => none

theorem firstCall_eq_some {isOpen : Bool}
    (hcall : firstCall b = some (h, isOpen, rest)) :
    ∃ m w', connProcessBuffer 1 1 (justAccepted.world.received 1 b) = .ok ((h, m), w') ∧
      (w'.conns 1).sock.isSome = isOpen ∧ (w'.conns 1).rbuf = rest := by
  unfold firstCall at hcall
  split at hcall
  · rename_i h' m w' hrun
    cases hcall
    exact ⟨m, w', hrun, rfl, rfl⟩
  · exact nomatch hcall

theorem drained_of_firstCall {f : Framed}
    (hcall : firstCall b = some (h, true, rest)) (hshort : h.tooLong = false)
    (hprocessed : h.processed ≠ none) (hf : Drained 1 rest f) :
    Drained 1 b (f.after h.lines) := by
  obtain ⟨m, w', hrun, hopen, rfl⟩ := firstCall_eq_some hcall
  have hsock : (w'.conns 1).sock ≠ none := fun h => by simp [h] at hopen
  exact .more (w := justAccepted.world.received 1 b) hrun hshort hprocessed hsock hf

/-- A line of 511 characters. -/
def borderLine : Str := ("CAP LS" : Str) ++ List.replicate 505 ' '

/-- A line of 511 characters is refused when CR and LF come together, and is
handled when LF comes with the next read. -/
theorem reads_disagree_on_border :
    ∃ (cs cs' : List Str) (f f' : Framed), [] ∉ cs ∧ [] ∉ cs' ∧ nul ∉ cs.flatten ∧
      cs.flatten = cs'.flatten ∧ Reads 1 [] cs f ∧ Reads 1 [] cs' f' ∧
      f.lines = [] ∧ f.tooLong = true ∧ f'.lines = [borderLine] ∧ f'.tooLong = false := by
  have hwhole : firstCall (borderLine ++ ['\r', '\n']) =
      some ({ tooLong := true, processed := none }, false, []) := by decide +kernel
  have hfront : firstCall (borderLine ++ ['\r']) =
      some ({ lines := [borderLine], processed := some 512 }, true, []) := by decide +kernel
  have hback : firstCall ['\n'] = some ({ processed := some 1 }, true, []) := by decide +kernel
  obtain ⟨m, w', hrun, -, -⟩ := firstCall_eq_some hwhole
  have hreads : Reads 1 [] [borderLine ++ ['\r', '\n']] { tooLong := true } :=
    .tooLong (.tooLong (w := justAccepted.world.received 1 _) hrun rfl) rfl
  have hdrained : Drained 1 (borderLine ++ ['\r']) { lines := [borderLine] } :=
    drained_of_firstCall hfront rfl (nomatch ·) (.done rfl)
  have hdrained' : Drained 1 ['\n'] {} :=
    drained_of_firstCall hback rfl (nomatch ·) (.done rfl)
  have hreads' : Reads 1 [] [borderLine ++ ['\r'], ['\n']] { lines := [borderLine] } :=
    .more (b := []) hdrained rfl (.more (b := []) hdrained' rfl .done)
  exact ⟨_, _, _, _, by decide +kernel, by decide +kernel, by decide +kernel, by simp,
    hreads, hreads', rfl, rfl, rfl, rfl⟩

end Ngircd
