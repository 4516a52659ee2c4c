import Mathlib.Data.List.Induction
import Ngircd.LineFormat

/-!
# The configuration file

`Read_Config_File` takes the file in pieces, finds the sections and variables in them and
calls the handler of the section.  Of the handlers, `Handle_CHANNEL`, the default modes in
`Handle_OPTIONS` and the lists of ports are modelled.  A file is a text without NUL, and
memory is taken to be available.
-/

namespace Ngircd

open Lib

variable {s a b : Str} {pieces : List Str}

/-! ## Reading -/

/-- `LINE_LEN`. -/
def lineLen : Nat := 1024

/-- The pieces that calls of `fgets` deliver: each ends with a newline, or where there is no
room left. -/
def fgetsFrom (cur : Str) (room : Nat) : Str → List Str
  | [] => if cur.isEmpty then [] else [cur.reverse]
  | c :: cs =>
    if c = '\n' ∨ room = 1 then (c :: cur).reverse :: fgetsFrom [] (lineLen - 1) cs
    else fgetsFrom (c :: cur) (room - 1) cs

@[inherit_doc fgetsFrom]
def fgetsAll (file : Str) : List Str := fgetsFrom [] (lineLen - 1) file

/-- The sections that have a handler. -/
inductive ConfSection where
  | global
  | limits
  | options
  | operator
  | server
  | channel
  deriving DecidableEq, Repr

/-- The line that starts a section. -/
def ConfSection.header : ConfSection → Str
  | .global => "[GLOBAL]"
  | .limits => "[LIMITS]"
  | .options => "[OPTIONS]"
  | .operator => "[OPERATOR]"
  | .server => "[SERVER]"
  | .channel => "[CHANNEL]"

def findSection (line : Str) : Option ConfSection :=
  [.global, .limits, .options, .operator, .server, .channel].find? (strcaseEq line ·.header)

/-- What `Read_Config_File` does to the configuration: a section starts, which makes a new
entry for servers, channels and operators, or a handler is called. -/
inductive ConfCall where
  | start (sect : ConfSection)
  | handle (sect : ConfSection) (var arg : Str)
  deriving DecidableEq, Repr

/-- The variables of `Read_Config_File` from one line to the next. -/
structure ConfReader where
  sect : Str := []
  calls : List ConfCall := []

/-- A text is a comment. -/
def isComment (str : Str) : Bool := str.head? == some ';' || str.head? == some '#'

/-- `Read_Config_File` goes on with a text that is not empty, no comment and not too long. -/
def confText (str : Str) : Bool :=
  !(str.isEmpty || isComment str) && decide (str.length < lineLen - 1)

/-- What `Read_Config_File` does about such a text. -/
def readConfText (r : ConfReader) (str : Str) : ConfReader :=
  if str.head? = some '[' ∧ str.getLast? = some ']' then
    match findSection str with
    | some s => { sect := str, calls := r.calls ++ [.start s] }
    | none => { r with sect := '\x01' :: str.tail }
  else if r.sect.head? = some '\x01' ∨ !str.contains '=' then r
  else
    match findSection r.sect with
    | some s => { r with calls := r.calls ++ [.handle s (trimStr (str.takeWhile (· != '=')))
        (trimStr (str.dropWhile (· != '=')).tail)] }
    | none => r

/-- One turn of the loop of `Read_Config_File`. -/
def readConfPiece (r : ConfReader) (piece : Str) : ConfReader :=
  if confText (trimStr piece) then readConfText r (trimStr piece) else r

/-- `Read_Config_File`. -/
def readConfigFile (file : Str) : List ConfCall := ((fgetsAll file).foldl readConfPiece {}).calls

/-- The texts in a file that `Read_Config_File` takes for lines. -/
def confTexts (file : Str) : List Str := ((fgetsAll file).map trimStr).filter confText

theorem readConfigFile_eq (file : Str) :
    readConfigFile file = ((confTexts file).foldl readConfText {}).calls := by
  rw [confTexts, List.foldl_filter, List.foldl_map]
  rfl

/-! ## Blanks and pieces -/

theorem trimStr_eq_nil : trimStr s = [] ↔ ∀ c ∈ s, isBlank c = true := by
  rw [trimStr_eq, List.reverse_eq_nil_iff, List.dropWhile_eq_nil_iff]
  simp only [List.mem_reverse]
  constructor
  · intro h c hc
    rw [← List.takeWhile_append_dropWhile (p := isBlank) (l := s), List.mem_append] at hc
    exact hc.elim (fun hc => List.mem_takeWhile_imp hc) (h c)
  · exact fun h c hc => h c ((List.dropWhile_sublist _).subset hc)

theorem trimStr_blank_append (ha : trimStr a = []) (b : Str) :
    trimStr (a ++ b) = trimStr b := by
  rw [trimStr_eq, List.dropWhile_append_of_pos (trimStr_eq_nil.mp ha), trimStr_eq]

theorem trimStr_append_blank (a : Str) (hb : trimStr b = []) :
    trimStr (a ++ b) = trimStr a := by
  have hall := trimStr_eq_nil.mp hb
  by_cases ha : trimStr a = []
  · rw [trimStr_blank_append ha, hb, ha]
  · have hkept : (a.dropWhile isBlank).isEmpty = false := by
      rw [List.isEmpty_eq_false_iff]
      exact fun h => ha (by rw [trimStr_eq, h]; rfl)
    rw [trimStr_eq, trimStr_eq, List.dropWhile_append, hkept, if_neg Bool.false_ne_true,
      List.reverse_append, List.dropWhile_append_of_pos (by simpa using hall)]

/-- The number of characters that are not blank. -/
def inked (s : Str) : Nat := s.countP (!isBlank ·)

theorem inked_trimStr (s : Str) : inked (trimStr s) = inked s := by
  have hdrop (t : Str) : (t.dropWhile isBlank).countP (!isBlank ·) = t.countP (!isBlank ·) := by
    induction t with
    | nil => rfl
    | cons c t ih => by_cases hc : isBlank c = true <;> simp [hc, ih]
  rw [inked, trimStr_eq, List.countP_reverse, hdrop, List.countP_reverse, hdrop, inked]

theorem inked_pos (h : trimStr s ≠ []) : 0 < inked s := by
  rw [inked, List.countP_pos_iff]
  by_contra hnone
  refine h (trimStr_eq_nil.mpr fun c hc => ?_)
  by_contra hc'
  exact hnone ⟨c, hc, by simpa using hc'⟩

/-- What is left of pieces without blanks, and without those that are blank. -/
def marks (pieces : List Str) : List Str := (pieces.map trimStr).filter (!·.isEmpty)

theorem marks_cons (p : Str) (ps : List Str) :
    marks (p :: ps) = if trimStr p = [] then marks ps else trimStr p :: marks ps := by
  by_cases hp : trimStr p = [] <;> simp [marks, hp]

theorem flatten_fgetsFrom (cur : Str) (room : Nat) (s : Str) :
    (fgetsFrom cur room s).flatten = cur.reverse ++ s := by
  induction s generalizing cur room with
  | nil => cases cur <;> simp [fgetsFrom]
  | cons c s ih =>
    rw [fgetsFrom]
    split_ifs
    · simp [ih]
    · simp [ih]

/-- A newline ends a piece. -/
theorem marks_fgetsFrom_newline (cur : Str) (room : Nat) (line rest : Str) :
    marks (fgetsFrom cur room (line ++ '\n' :: rest)) =
      marks (fgetsFrom cur room line) ++ marks (fgetsAll rest) := by
  induction line generalizing cur room with
  | nil =>
    have hend : fgetsFrom cur room ('\n' :: rest) = (cur.reverse ++ ['\n']) :: fgetsAll rest := by
      rw [fgetsFrom, if_pos (.inl rfl), List.reverse_cons, fgetsAll]
    rw [List.nil_append, hend, marks_cons, trimStr_append_blank _ (by decide), fgetsFrom]
    cases cur with
    | nil => rfl
    | cons c cur =>
      rw [List.isEmpty_cons, if_neg Bool.false_ne_true, marks_cons]
      split_ifs
      · rfl
      · rfl
  | cons c line ih =>
    rw [List.cons_append, fgetsFrom, fgetsFrom]
    split_ifs
    · rw [marks_cons, marks_cons, ih]
      split_ifs
      · rfl
      · rfl
    · exact ih _ _

theorem confTexts_eq (file : Str) : confTexts file = (marks (fgetsAll file)).filter confText := by
  rw [confTexts, marks, List.filter_filter]
  refine List.filter_congr fun s _ => ?_
  cases s <;> simp [confText]

/-- The texts in a file are those in its lines. -/
theorem confTexts_lines (file : Str) : confTexts file = (file.splitOn '\n').flatMap confTexts := by
  induction hn : file.length using Nat.strong_induction_on generalizing file with
  | _ n ih =>
    by_cases hmem : '\n' ∈ file
    · obtain ⟨line, rest, rfl⟩ := List.append_of_mem hmem
      rw [List.length_append, List.length_cons] at hn
      rw [List.splitOn_append_cons_self, List.flatMap_append, ← ih _ (by omega) line rfl,
        ← ih _ (by omega) rest rfl, confTexts_eq, fgetsAll, marks_fgetsFrom_newline,
        List.filter_append, ← confTexts_eq rest]
      exact congrArg (· ++ confTexts rest) (confTexts_eq line).symm
    · rw [List.splitOn_eq_singleton hmem, List.flatMap_singleton]

theorem trimStr_flatten (h : (marks pieces).length ≤ 1) :
    marks pieces = if trimStr pieces.flatten = [] then [] else [trimStr pieces.flatten] := by
  induction pieces with
  | nil => rfl
  | cons p ps ih =>
    rw [marks_cons] at h ⊢
    by_cases hp : trimStr p = []
    · rw [if_pos hp] at h ⊢
      rw [List.flatten_cons, trimStr_blank_append hp]
      exact ih h
    · rw [if_neg hp] at h ⊢
      have hnone : marks ps = [] := List.eq_nil_of_length_eq_zero (by simpa using h)
      have hrest : trimStr ps.flatten = [] := by
        have hps := ih (by simp [hnone])
        rw [hnone] at hps
        by_contra hne
        rw [if_neg hne] at hps
        exact nomatch hps
      rw [List.flatten_cons, trimStr_append_blank p hrest, if_neg hp, hnone]

theorem inked_flatten (pieces : List Str) : inked pieces.flatten = ((marks pieces).map inked).sum := by
  induction pieces with
  | nil => rfl
  | cons p ps ih =>
    have hadd : inked (p ++ ps.flatten) = inked p + inked ps.flatten := List.countP_append
    rw [List.flatten_cons, hadd, ih, marks_cons, ← inked_trimStr p]
    split_ifs with hp
    · rw [hp]
      exact Nat.zero_add _
    · rfl

/-- If several pieces of a text are not blank, none of them is the whole text. -/
theorem trimStr_notMem_marks (h : 1 < (marks pieces).length) :
    trimStr pieces.flatten ∉ marks pieces := by
  intro hmem
  obtain ⟨before, after, hsplit⟩ := List.append_of_mem hmem
  have hink := inked_flatten pieces
  rw [hsplit, List.map_append, List.map_cons, List.sum_append, List.sum_cons, inked_trimStr] at hink
  have hzero (l : List Str) (hsub : l ⊆ marks pieces) (hsum : (l.map inked).sum = 0) : l = [] := by
    cases l with
    | nil => rfl
    | cons s l =>
      obtain ⟨hs, hne⟩ := List.mem_filter.mp (hsub (.head _))
      obtain ⟨p, -, rfl⟩ := List.mem_map.mp hs
      have hpos := inked_pos (s := p) (by simpa using hne)
      rw [List.map_cons, List.sum_cons, inked_trimStr] at hsum
      omega
  have hbefore := hzero before (by rw [hsplit]; exact List.subset_append_left _ _) (by omega)
  have hafter := hzero after (by rw [hsplit]; simp) (by omega)
  simp [hsplit, hbefore, hafter] at h

/-- A line of the file is read as one: as a comment it has no effect, and otherwise it has none
or is taken as a whole. -/
def LineWhole (line : Str) : Prop :=
  (isComment (trimStr line) = true → confTexts line = []) ∧
    (confTexts line = [] ∨ confTexts line = [trimStr line])

/-- The file has the effect of its lines; and each line is read as one if and only if, of its
pieces of 1023 characters, at most one is not blank, or all of these are comments or have no
blank at their ends. -/
theorem config_lines_whole_iff (file : Str) :
    readConfigFile file = (((file.splitOn '\n').flatMap confTexts).foldl readConfText {}).calls ∧
      ((∀ line ∈ file.splitOn '\n', LineWhole line) ↔ ∀ line ∈ file.splitOn '\n',
        (marks (fgetsAll line)).length ≤ 1 ∨ ∀ s ∈ marks (fgetsAll line),
          isComment s = true ∨ lineLen - 1 ≤ s.length) := by
  refine ⟨by rw [readConfigFile_eq, confTexts_lines], forall₂_congr fun line _ => ?_⟩
  have hflat : (fgetsAll line).flatten = line := flatten_fgetsFrom _ _ _
  have hskipped {s : Str} (h : isComment s = true ∨ lineLen - 1 ≤ s.length) : confText s = false := by
    rcases h with h | h
    · simp [confText, h]
    · simp [confText, Nat.not_lt.mpr h]
  unfold LineWhole
  rw [confTexts_eq]
  constructor
  · rintro ⟨-, hwhole⟩
    by_contra! hseveral
    obtain ⟨hlength, s, hs, hcomment, hshort⟩ := hseveral
    have hne : s ≠ [] := by
      rintro rfl
      simp [marks] at hs
    have htext : s ∈ (marks (fgetsAll line)).filter confText := by
      refine List.mem_filter.mpr ⟨hs, ?_⟩
      simp [confText, hne, hcomment, hshort]
    have hnot := trimStr_notMem_marks hlength
    rw [hflat] at hnot
    rcases hwhole with hwhole | hwhole
    · rw [hwhole] at htext
      exact nomatch htext
    · have hself := List.mem_singleton.mpr (rfl : trimStr line = trimStr line)
      rw [← hwhole] at hself
      exact hnot (List.mem_of_mem_filter hself)
  · rintro (hone | hnone)
    · have hmarks := trimStr_flatten hone
      rw [hflat] at hmarks
      rw [hmarks]
      split_ifs
      · exact ⟨fun _ => rfl, .inl rfl⟩
      · refine ⟨fun hcomment => by simp [hskipped (.inl hcomment)], ?_⟩
        by_cases htext : confText (trimStr line) = true
        · exact .inr (by simp [htext])
        · exact .inl (by simp [htext])
    · have hempty : (marks (fgetsAll line)).filter confText = [] :=
        List.filter_eq_nil_iff.mpr fun s hs => by simp [hskipped (hnone s hs)]
      rw [hempty]
      exact ⟨fun _ => rfl, .inl rfl⟩

/-- The end of a long comment sets a variable. -/
theorem config_comment_sets_name :
    readConfigFile ("[GLOBAL]\n#".toList ++ List.replicate 1022 'x' ++ "Name=irc.example\n".toList) =
      [.start .global, .handle .global "Name" "irc.example"] := by
  decide +kernel

/-! ## The modes of predefined channels -/

/-- What `Config_Error` is told about a variable. -/
inductive ConfError where
  | tooLong
  | tooManyModes
  | notANumber
  | deprecated
  | unknown
  deriving DecidableEq, Repr

/-- `Check_ArgIsTrue`. -/
def checkArgIsTrue (arg : Str) : Bool := strcaseEq arg "yes" || strcaseEq arg "true" || atoi arg != 0

/-- `sizeof(chan->modes)`: the table has 512 places of eight bytes. -/
def sizeofModes : Nat := 512 * 8

/-- `Handle_Channelname`. -/
def handleChannelname (name : Str) : Str × Bool :=
  if channelIsValidName name then (strlcpy name channelNameLen, name.length < channelNameLen)
  else ('#' :: strlcpy name (channelNameLen - 1), name.length < channelNameLen - 1)

/-- `Handle_CHANNEL`.  The number `modes_num` is the length of `modes`. -/
def handleChannel (chan : ConfChannel) (var arg : Str) : ConfChannel × List ConfError :=
  let tooLong (size : Nat) : List ConfError := if size ≤ arg.length then [.tooLong] else []
  if strcaseEq var "Name" then
    let (name, fits) := handleChannelname arg
    ({ chan with name }, if fits then [] else [.tooLong])
  else if strcaseEq var "Modes" then
    if sizeofModes ≤ chan.modes.length then (chan, [.tooManyModes])
    else ({ chan with modes := chan.modes ++ [arg.take commandLen] }, tooLong commandLen)
  else if strcaseEq var "Topic" then
    ({ chan with topic := strlcpy arg commandLen }, tooLong commandLen)
  else if strcaseEq var "Autojoin" then ({ chan with autojoin := checkArgIsTrue arg }, [])
  else if strcaseEq var "Key" then
    ({ chan with key := strlcpy arg clientPassLen }, tooLong clientPassLen ++ [.deprecated])
  else if strcaseEq var "MaxUsers" then
    let maxusers := toULong (atoi arg)
    ({ chan with maxusers },
      (if maxusers = 0 ∧ arg ≠ "0".toList then [.notANumber] else []) ++ [.deprecated])
  else if strcaseEq var "KeyFile" then ({ chan with keyfile := strlcpy arg 512 }, tooLong 512)
  else (chan, [.unknown])

/-- The entries of `Conf_Channels`, the newest one first, after a call. -/
def confChannels (chans : List ConfChannel) : ConfCall → List ConfChannel
  | .start .channel => { name := [], key := [], autojoin := false } :: chans
  | .handle .channel var arg =>
    match chans with
    | [] => []
    | chan :: rest => (handleChannel chan var arg).1 :: rest
  | _ => chans

/-- The number of `Modes` lines of each CHANNEL section, the last section first. -/
def modesLines (counts : List Nat) : ConfCall → List Nat
  | .start .channel => 0 :: counts
  | .handle .channel var _ => if strcaseEq var "Modes" then counts.modifyHead (· + 1) else counts
  | _ => counts

theorem length_modes_handleChannel (chan : ConfChannel) (var arg : Str) :
    (handleChannel chan var arg).1.modes.length =
      if strcaseEq var "Modes" then min (chan.modes.length + 1) (max chan.modes.length sizeofModes)
      else chan.modes.length := by
  unfold handleChannel
  by_cases hmodes : strcaseEq var "Modes" = true
  · have hname : strcaseEq var "Name" = false := by
      simp only [strcaseEq, beq_iff_eq] at hmodes ⊢
      rw [hmodes]
      decide
    simp only [hname, hmodes, Bool.false_eq_true, if_false, if_true]
    by_cases hfull : sizeofModes ≤ chan.modes.length
    · rw [if_pos hfull]
      dsimp only
      omega
    · rw [if_neg hfull]
      simp only [List.length_append, List.length_singleton]
      omega
  · simp only [hmodes, Bool.false_eq_true, if_false]
    split_ifs <;> rfl

/-- A section has as many modes as it has lines, as far as the check lets them through. -/
theorem length_modes_confChannels (calls : List ConfCall) :
    (calls.foldl confChannels []).map (·.modes.length) =
      (calls.foldl modesLines []).map (min sizeofModes) := by
  induction calls using List.reverseRecOn with
  | nil => rfl
  | append_singleton calls call ih =>
    rw [List.foldl_concat, List.foldl_concat]
    generalize calls.foldl confChannels [] = chans at ih ⊢
    generalize calls.foldl modesLines [] = counts at ih ⊢
    cases call with
    | start s => cases s <;> simpa [confChannels, modesLines] using ih
    | handle s var arg =>
      cases s with
      | channel =>
        cases chans with
        | nil =>
          obtain rfl : counts = [] := by simpa using ih.symm
          simp only [modesLines, List.modifyHead_nil, ite_self]
          rfl
        | cons chan chans =>
          obtain ⟨k, counts, rfl⟩ : ∃ k rest, counts = k :: rest := by
            cases counts with
            | nil => exact nomatch ih
            | cons k rest => exact ⟨k, rest, rfl⟩
          simp only [List.map_cons, List.cons.injEq] at ih
          simp only [confChannels, modesLines, List.map_cons, length_modes_handleChannel, ih.1, ih.2]
          split_ifs
          · simp only [List.modifyHead_cons, List.map_cons, List.cons.injEq, and_true]
            omega
          · rfl
      | _ => exact ih

/-- The number of lines of a section only grows. -/
theorem exists_modesLines_le {counts : List Nat} {k : Nat} (hk : k ∈ counts) (more : List ConfCall) :
    ∃ k' ∈ more.foldl modesLines counts, k ≤ k' := by
  induction more generalizing counts k with
  | nil => exact ⟨k, hk, Nat.le_refl k⟩
  | cons call more ih =>
    have hstep : ∃ k' ∈ modesLines counts call, k ≤ k' := by
      unfold modesLines
      split
      · exact ⟨k, List.mem_cons_of_mem 0 hk, Nat.le_refl k⟩
      · split_ifs
        · cases hk with
          | head => exact ⟨k + 1, .head _, Nat.le_succ k⟩
          | tail _ hk => exact ⟨k, List.mem_cons_of_mem _ hk, Nat.le_refl k⟩
        · exact ⟨k, hk, Nat.le_refl k⟩
      · exact ⟨k, hk, Nat.le_refl k⟩
    obtain ⟨k', hk', hle⟩ := hstep
    obtain ⟨k'', hk'', hle'⟩ := ih hk'
    exact ⟨k'', hk'', hle.trans hle'⟩

/-- While a file is read, no channel gets more modes than its table has places, and further
lines are refused, if and only if no CHANNEL section of the file has more than 512 lines with
modes. -/
theorem channel_modes_fit_iff (file : Str) :
    (∀ calls, calls <+: readConfigFile file →
      (∀ chan ∈ calls.foldl confChannels [], chan.modes.length ≤ 512) ∧
      ∀ chan rest var arg, calls.foldl confChannels [] = chan :: rest → chan.modes.length = 512 →
        calls ++ [.handle .channel var arg] <+: readConfigFile file → strcaseEq var "Modes" = true →
        handleChannel chan var arg = (chan, [.tooManyModes])) ↔
      ∀ k ∈ (readConfigFile file).foldl modesLines [], k ≤ 512 := by
  have hsize : 512 < sizeofModes := by decide
  constructor
  · intro h k hk
    have hlengths := length_modes_confChannels (readConfigFile file)
    have hmem : min sizeofModes k ∈ ((readConfigFile file).foldl confChannels []).map
      (·.modes.length) := by
      rw [hlengths]
      exact List.mem_map_of_mem hk
    obtain ⟨chan, hchan, hlength⟩ := List.mem_map.mp hmem
    have hle := (h _ (List.prefix_refl _)).1 chan hchan
    omega
  · intro h calls hcalls
    have hcounts {calls : List ConfCall} (hcalls : calls <+: readConfigFile file) :
        ∀ k ∈ calls.foldl modesLines [], k ≤ 512 := by
      intro k hk
      obtain ⟨more, hmore⟩ := hcalls
      obtain ⟨k', hk', hle⟩ := exists_modesLines_le hk more
      rw [← List.foldl_append, hmore] at hk'
      exact hle.trans (h k' hk')
    have hlengths := length_modes_confChannels calls
    refine ⟨fun chan hchan => ?_, fun chan rest var arg hchans hfull hnext hmodes => ?_⟩
    · have hmem := List.mem_map_of_mem (f := fun c : ConfChannel => c.modes.length) hchan
      rw [hlengths] at hmem
      obtain ⟨k, hk, hlength⟩ := List.mem_map.mp hmem
      have hle := hcounts hcalls k hk
      omega
    · -- The line would be one too many.
      rw [hchans] at hlengths
      have hmany := hcounts hnext
      rw [List.foldl_concat] at hmany
      cases hks : calls.foldl modesLines [] with
      | nil => rw [hks] at hlengths; exact nomatch hlengths
      | cons k ks =>
        rw [hks, List.map_cons, List.map_cons, List.cons.injEq, hfull] at hlengths
        rw [hks] at hmany
        have hle := hmany (k + 1) (by rw [modesLines, if_pos hmodes]; exact .head _)
        omega

/-- The check lets the 513th line through. -/
theorem channel_modes_overflow :
    ((readConfigFile ("[CHANNEL]\n".toList ++ (List.replicate 513 "Modes=+n\n".toList).flatten)).foldl
      confChannels []).map (·.modes.length) = [513] := by
  decide +kernel

end Ngircd
