import Ngircd.Joining
import Ngircd.Lib.Packing

/-!
# NJOIN on a new link

`Announce_Channel` collects the members of a channel in NJOIN commands.  A line is
sent once the command is longer than a limit that leaves room for one more member,
but not for the name of the server that is put in front of it.  So with a long
server name or long nicknames a line may be cut.
-/

namespace Ngircd

open Lib Prog

variable {name nick modes str server : Str} {entries cur afters line : List Str} {w w' p : World}
  {x f : Char} {n bound : Nat} {i j : ConnId} {client r k o : ClientRef} {this : Client}
  {ch : ChanRef} {c : Channel} {t : Channels}

/-! ## The lines -/

/-- A nickname behind the marks of its flags. -/
def njoinEntry (modes nick : Str) : Str :=
  ((njoinModes.filter fun p => modes.contains p.2).map (·.1)) ++ nick

/-- An NJOIN command with some entries. -/
def njoinText (name : Str) (entries : List Str) : Str :=
  "NJOIN ".toList ++ (name ++ " :".toList) ++ [','].intercalate entries

/-- The length of an NJOIN command with at least one entry. -/
def njoinLength (name : Str) (entries : List Str) : Nat :=
  7 + name.length + (entries.map (·.length + 1)).sum

/-- The length from which on `Announce_Channel` sends a line. -/
def njoinLimit : Nat := commandLen - clientNickLen - 8

/-- The name of a client. -/
def World.nameOf (w : World) (r : ClientRef) : Str := ((w.heap r).map (·.nameOrStar)).getD []

/-- The entries of the members of a channel. -/
def World.njoinEntries (w : World) (ch : ChanRef) : List Str :=
  (w.membersOf ch).map fun r => njoinEntry ((w.chans.flagsOf ch r).getD []) (w.nameOf r)

/-- The entries of the members of a channel, line by line. -/
def World.njoinLines (w : World) (ch : ChanRef) (name : Str) : List (List Str) :=
  pack (njoinLength name) njoinLimit [] (w.njoinEntries ch)

section Texts

theorem intercalate_concat (cur : List Str) (e : Str) (hcur : cur ≠ []) :
    [','].intercalate (cur ++ [e]) = [','].intercalate cur ++ ',' :: e := by
  induction cur with
  | nil => exact absurd rfl hcur
  | cons a cur ih =>
    cases cur with
    | nil => simp
    | cons b rest =>
      rw [List.cons_append, List.cons_append, List.intercalate_cons_cons, ← List.cons_append,
        ih (by simp), List.intercalate_cons_cons]
      simp

theorem njoinText_concat (cur : List Str) (e : Str) :
    njoinText name (cur ++ [e]) =
      (if cur.isEmpty then njoinText name cur else njoinText name cur ++ [',']) ++ e := by
  unfold njoinText
  generalize "NJOIN ".toList ++ (name ++ " :".toList) = front
  cases cur with
  | nil => simp
  | cons a cur =>
    rw [intercalate_concat _ _ (List.cons_ne_nil a cur)]
    simp

theorem length_intercalate_comma (hne : entries ≠ []) :
    ([','].intercalate entries).length + 1 = (entries.map (·.length + 1)).sum := by
  induction entries with
  | nil => exact absurd rfl hne
  | cons a rest ih =>
    cases rest with
    | nil => simp
    | cons b rest =>
      rw [List.map_cons, List.sum_cons, ← ih (List.cons_ne_nil b rest),
        List.intercalate_cons_cons, List.length_append, List.length_append, List.length_singleton]
      omega

theorem length_njoinText_append (name : Str) (entries : List Str) :
    (njoinText name entries).length = name.length + 8 + ([','].intercalate entries).length := by
  have hfront : "NJOIN ".toList.length = 6 := rfl
  have hcolon : " :".toList.length = 2 := rfl
  unfold njoinText
  rw [List.length_append, List.length_append, List.length_append, hfront, hcolon]
  omega

theorem length_njoinText (hne : entries ≠ []) :
    (njoinText name entries).length = njoinLength name entries := by
  have hlength := length_intercalate_comma hne
  rw [length_njoinText_append, njoinLength]
  omega

/-- What the marks and the nickname of an entry are made of. -/
structure IsNick (nick : Str) : Prop where
  ne : nick ≠ []
  letters : ∀ x ∈ nick, x ≠ ',' ∧ x ≠ ' ' ∧ x ≠ ':' ∧ (∀ p ∈ njoinModes, p.1 ≠ x) ∧
    isBlank x = false ∧ x.toNat ≠ 1
  short : nick.length < clientNickLen

theorem IsNick.of_valid (h : w.clientIsValidNick nick = true)
    (hlimit : w.conf.maxNickLength ≤ clientNickLen) : IsNick nick := by
  cases nick with
  | nil => exact nomatch h
  | cons first rest =>
    simp only [World.clientIsValidNick, Bool.and_eq_true, List.all_eq_true, decide_eq_true_eq] at h
    obtain ⟨⟨-, hlength⟩, hall⟩ := h
    refine ⟨List.cons_ne_nil _ _, fun x hx => ?_, by omega⟩
    obtain ⟨hlow, hhigh⟩ := hall x hx
    -- A character outside of the range is not in the nickname.
    have hother {y : Char} (hy : ¬((decide ('A' ≤ y) || ";0123456789-".toList.contains y) = true ∧
        y ≤ '}')) : x ≠ y := by
      rintro rfl
      exact hy ⟨hlow, hhigh⟩
    have hmarks : ∀ p ∈ njoinModes, ¬((decide ('A' ≤ p.1) || ";0123456789-".toList.contains p.1) =
        true ∧ p.1 ≤ '}') := by decide
    refine ⟨hother (by decide), hother (by decide), hother (by decide),
      fun p hp => (hother (hmarks p hp)).symm, ?_, fun hone => ?_⟩
    · have hblank : x ≠ ' ' ∧ x ≠ '\t' ∧ x ≠ '\n' ∧ x ≠ '\r' :=
        ⟨hother (by decide), hother (by decide), hother (by decide), hother (by decide)⟩
      simp [isBlank, hblank]
    · exact hother (y := Char.ofNat 1) (by decide) (by rw [← hone, Char.ofNat_toNat])

theorem IsNick.entry_ne (h : IsNick nick) : njoinEntry modes nick ≠ [] := by
  simp [njoinEntry, h.ne]

/-- Marks are no letters that separate entries or end a line. -/
theorem IsNick.entry_letters (h : IsNick nick) (hx : x ∈ njoinEntry modes nick) :
    x ≠ ',' ∧ x ≠ ':' ∧ isBlank x = false ∧ x.toNat ≠ 1 := by
  rcases List.mem_append.mp hx with hx | hx
  · obtain ⟨p, hp, rfl⟩ := List.mem_map.mp hx
    have hall : ∀ p ∈ njoinModes, p.1 ≠ ',' ∧ p.1 ≠ ':' ∧ isBlank p.1 = false ∧ p.1.toNat ≠ 1 := by
      decide
    exact hall p (List.mem_of_mem_filter hp)
  · obtain ⟨hcomma, -, hcolon, -, hblank, hctcp⟩ := h.letters x hx
    exact ⟨hcomma, hcolon, hblank, hctcp⟩

theorem IsNick.separable (h : IsNick nick) (modes : Str) : njoinEntry modes nick ≠ [] ∧
    ',' ∉ njoinEntry modes nick ∧ ∀ x ∈ njoinEntry modes nick, isBlank x = false :=
  ⟨h.entry_ne, fun hcomma => (h.entry_letters hcomma).1 rfl, fun _ hx => (h.entry_letters hx).2.2.1⟩

theorem length_njoinEntry (modes nick : Str) :
    (njoinEntry modes nick).length ≤ nick.length + 5 := by
  have hle := List.length_filter_le (fun p : Char × Char => modes.contains p.2) njoinModes
  have hfive : njoinModes.length = 5 := rfl
  simp only [njoinEntry, List.length_append, List.length_map]
  omega

/-- The buffer starts with a colon at its end and has none there once it has an entry. -/
theorem njoinText_getLast
    (hcur : ∀ e ∈ cur, e ≠ [] ∧ ∀ x ∈ e, x ≠ ':') :
    (njoinText name cur).getLast? = some ':' ↔ cur = [] := by
  rcases List.eq_nil_or_concat cur with rfl | ⟨front, e, rfl⟩
  · have hshape : njoinText name [] = ("NJOIN ".toList ++ name ++ [' ']) ++ [':'] := by
      unfold njoinText
      simp
    rw [hshape, List.getLast?_concat]
    simp
  · rw [List.concat_eq_append] at hcur ⊢
    obtain ⟨hne, hcolon⟩ := hcur e (by simp)
    have hlast : (njoinText name (front ++ [e])).getLast? = e.getLast? := by
      rw [njoinText_concat, List.getLast?_append_of_ne_nil _ hne]
    rw [hlast]
    constructor
    · intro hend
      exact absurd rfl (hcolon ':' (List.mem_of_getLast? hend))
    · intro hnil
      exact absurd hnil (by simp)

/-- There is room for one more entry in the buffer. -/
theorem njoinText_room (hname : name.length < channelNameLen)
    (hcur : cur = [] ∨ njoinLength name cur ≤ njoinLimit) :
    (njoinText name cur).length ≤ njoinLimit := by
  by_cases hnil : cur = []
  · rw [hnil, length_njoinText_append, List.intercalate_nil, List.length_nil]
    simp only [channelNameLen, njoinLimit, commandLen, clientNickLen] at hname ⊢
    omega
  · rw [length_njoinText hnil]
    exact hcur.resolve_left hnil

theorem foldl_marks (ps : List (Char × Char))
    (hroom : str.length + ps.length < n) :
    ps.foldl (fun s p => if modes.contains p.2 then strlcat s [p.1] n else s) str =
      str ++ (ps.filter fun p => modes.contains p.2).map (·.1) := by
  induction ps generalizing str with
  | nil => simp
  | cons p ps ih =>
    rw [List.length_cons] at hroom
    rw [List.foldl_cons]
    by_cases hp : modes.contains p.2 = true
    · have hcat : strlcat str [p.1] n = str ++ [p.1] := strlcat_of_room (by simp; omega)
      rw [if_pos hp, hcat, ih (by simp; omega), List.filter_cons, if_pos hp]
      simp
    · rw [if_neg hp, ih (by omega), List.filter_cons, if_neg hp]

/-- What `Announce_Channel` appends to the buffer for a member. -/
theorem announced_text (hroom : str.length + 6 + nick.length < commandLen) :
    let cat (s t : Str) : Str := strlcat s t commandLen
    let mark (s : Str) (m : Char) (sign : Str) (known : Bool) : Str :=
      if known && modes.contains m then cat s sign else s
    let str' := mark (mark (mark str 'q' "~" true) 'a' "&" true) 'o' "@" true
    cat (mark (mark str' 'h' "%" true) 'v' "+" true) nick = str ++ njoinEntry modes nick := by
  have hmarks := @foldl_marks modes str commandLen njoinModes
    (by change str.length + 5 < commandLen; omega)
  have hlength := length_njoinEntry modes nick
  simp only [njoinEntry, List.length_append] at hlength
  change strlcat (njoinModes.foldl
    (fun s p => if modes.contains p.2 then strlcat s [p.1] commandLen else s) str)
      nick commandLen = _
  rw [hmarks, strlcat_of_room, njoinEntry, List.append_assoc]
  simp only [List.length_append]
  omega

end Texts

/-! ## What is sent -/

section

variable {d : Client}

/-- The empty buffer. -/
theorem snprintf_njoin (hname : name.length < channelNameLen) :
    snprintf commandLen "NJOIN %s :" [name] = njoinText name [] := by
  have hformat : format "NJOIN %s :" [name] = njoinText name [] := by
    unfold njoinText
    simp [format]
  have hfits := @njoinText_room name [] hname (.inl rfl)
  rw [snprintf, hformat, List.take_of_length_le]
  simp only [njoinLimit, commandLen, clientNickLen] at hfits ⊢
  omega

variable (h : w.Speaks i client this)
include h

/-- The buffer is sent if it has become too long. -/
theorem replyIfLong_sends (name : Str) (entries : List Str) :
    Query.Sends (do
        return some (← replyIfLong client njoinLimit (njoinText name []) (njoinText name entries)))
      (if njoinLimit < (njoinText name entries).length then
        [(i, serverText this.nameOrStar (njoinText name entries))] else [])
      (some (njoinText name
        (if njoinLimit < (njoinText name entries).length then [] else entries))) w := by
  unfold replyIfLong
  by_cases hlong : njoinLimit < (njoinText name entries).length
  · rw [if_pos hlong, if_pos hlong, if_pos hlong]
    have hreply : Query.Sends (do
        reply client (njoinText name entries)
        return njoinText name []) [(i, serverText this.nameOrStar (njoinText name entries))]
        (njoinText name []) w := (reply_sends h _).bind fun w' _ => .pure _ w'
    exact hreply.bind fun w' _ => .pure _ w'
  · rw [if_neg hlong, if_neg hlong, if_neg hlong]
    exact .pure _ w

section

variable (hc : w.chans.heap ch = some c) (hname : c.name.length < channelNameLen)
include hc hname

/-- One member. -/
theorem announceMember_sends (hd : w.heap r = some d) (hnick : IsNick d.nameOrStar)
    (hflags : w.chans.flagsOf ch r = some modes)
    (hroom : cur = [] ∨ njoinLength c.name cur ≤ njoinLimit)
    (hcur : ∀ e ∈ cur, e ≠ [] ∧ ∀ x ∈ e, x ≠ ':') :
    (announceMember client ch true true (njoinText c.name cur) r).Sends
      (if njoinLimit < njoinLength c.name (cur ++ [njoinEntry modes d.nameOrStar]) then
        [(i, serverText this.nameOrStar
          (njoinText c.name (cur ++ [njoinEntry modes d.nameOrStar])))] else [])
      (some (njoinText c.name
        (if njoinLimit < njoinLength c.name (cur ++ [njoinEntry modes d.nameOrStar]) then []
          else cur ++ [njoinEntry modes d.nameOrStar]))) w := by
  obtain ⟨e, he, rfl⟩ := Option.map_eq_some_iff.mp hflags
  have hbuffer := njoinText_room hname hroom
  have hshort := hnick.short
  simp only [njoinLimit, commandLen, clientNickLen] at hbuffer hshort
  have hsep : (if (njoinText c.name cur).getLast? = some ':' then njoinText c.name cur
      else strlcat (njoinText c.name cur) "," commandLen) =
      if cur.isEmpty then njoinText c.name cur else njoinText c.name cur ++ [','] := by
    by_cases hnil : cur = []
    · rw [if_pos ((njoinText_getLast hcur).mpr hnil), if_pos (by simp [hnil])]
    · rw [if_neg (fun hend => hnil ((njoinText_getLast hcur).mp hend)), if_neg (by simp [hnil]),
        strlcat_of_room]
      · rfl
      · simp only [commandLen]
        change _ + 1 < 513
        omega
  have hlength : (njoinText c.name (cur ++ [njoinEntry e.modes d.nameOrStar])).length =
      njoinLength c.name (cur ++ [njoinEntry e.modes d.nameOrStar]) := length_njoinText (by simp)
  have hmember : w.getCl2Chan ch r = some e := he
  have htext := @announced_text d.nameOrStar e.modes
    (if cur.isEmpty then njoinText c.name cur else njoinText c.name cur ++ [',']) (by
      simp only [commandLen]
      split
      · omega
      · simp only [List.length_append, List.length_singleton]
        omega)
  rw [← njoinText_concat] at htext
  unfold announceMember
  refine .read (a := c.name) (by simp [channelName, onChannel_of_some hc])
    (.read (a := e.modes) (by simp [channelUserModes, hmember]) ?_)
  rw [if_pos rfl]
  refine .read (a := d.nameOrStar) (by simp [onClient_of_some hd]) ?_
  rw [hsep, htext, snprintf_njoin hname, ← hlength]
  exact replyIfLong_sends h _ _

/-- The members one after the other, and what is left in the buffer. -/
theorem announceMembers_sends {members : List ClientRef}
    (hmembers : ∀ r ∈ members, ∃ d modes, w.heap r = some d ∧ IsNick d.nameOrStar ∧
      w.chans.flagsOf ch r = some modes) (hroom : cur = [] ∨ njoinLength c.name cur ≤ njoinLimit)
    (hcur : ∀ e ∈ cur, e ≠ [] ∧ ∀ x ∈ e, x ≠ ':') :
    Query.Sends (do
        replyRest client (← replyFold (announceMember client ch true true) (njoinText c.name cur)
          members))
      ((pack (njoinLength c.name) njoinLimit cur (members.map fun r =>
        njoinEntry ((w.chans.flagsOf ch r).getD []) (w.nameOf r))).map fun line =>
          (i, serverText this.nameOrStar (njoinText c.name line))) () w := by
  induction members generalizing cur w with
  | nil =>
    change (replyRest client (njoinText c.name cur)).Sends _ () w
    unfold replyRest
    simp only [List.map_nil, pack]
    by_cases hnil : cur = []
    · rw [if_neg (not_not.mpr ((njoinText_getLast hcur).mpr hnil)), if_pos (by simp [hnil])]
      exact .pure () w
    · rw [if_pos (mt (njoinText_getLast hcur).mp hnil), if_neg (by simp [hnil])]
      exact reply_sends h _
  | cons r members ih =>
    obtain ⟨d, modes, hd, hnick, hflags⟩ := hmembers r (.head _)
    have hentry : njoinEntry ((w.chans.flagsOf ch r).getD []) (w.nameOf r) =
        njoinEntry modes d.nameOrStar := by simp [hflags, World.nameOf, hd]
    have hone := announceMember_sends h hc hname hd hnick hflags hroom hcur
    have hentries : ∀ e ∈ cur ++ [njoinEntry modes d.nameOrStar], e ≠ [] ∧ ∀ x ∈ e, x ≠ ':' := by
      intro e he
      rcases List.mem_append.mp he with he | he
      · exact hcur e he
      · rw [List.mem_singleton.mp he]
        exact ⟨hnick.entry_ne, fun x hx => (hnick.entry_letters hx).2.1⟩
    -- The state of the others does not change.
    have hothers {w' : World} {l : List (ConnId × Str)} (htold : Tells l w w') :
        (∀ r ∈ members, ∃ d modes, w'.heap r = some d ∧ IsNick d.nameOrStar ∧
          w'.chans.flagsOf ch r = some modes) ∧
        (members.map fun r => njoinEntry ((w'.chans.flagsOf ch r).getD []) (w'.nameOf r)) =
          members.map fun r => njoinEntry ((w.chans.flagsOf ch r).getD []) (w.nameOf r) := by
      refine ⟨fun r hr => ?_, ?_⟩
      · rw [htold.sends.heap, htold.quiet.chans]
        exact hmembers r (.tail _ hr)
      · simp only [World.nameOf, htold.sends.heap, htold.quiet.chans]
    rw [replyFold, List.map_cons, hentry, pack, bind_assoc]
    by_cases hlong : njoinLimit < njoinLength c.name (cur ++ [njoinEntry modes d.nameOrStar])
    · rw [if_pos hlong] at hone ⊢
      rw [if_pos hlong] at hone
      refine hone.bind fun w' htold => ?_
      obtain ⟨hmembers', hsame⟩ := hothers htold
      rw [← hsame]
      exact ih (h.told htold) (by rw [htold.quiet.chans]; exact hc) hmembers' (.inl rfl)
        (fun e he => by cases he)
    · rw [if_neg hlong] at hone ⊢
      rw [if_neg hlong] at hone
      refine hone.bind fun w' htold => ?_
      obtain ⟨hmembers', hsame⟩ := hothers htold
      rw [← hsame]
      exact ih (h.told htold) (by rw [htold.quiet.chans]; exact hc) hmembers'
        (.inr (Nat.le_of_not_lt hlong)) hentries

end

theorem announceChannel_sends (hnew : (w.conns i).rfc1459 = false)
    (hflag : ∃ d, w.heap client = some d ∧ d.hasFlag 'X' = true) (hc : w.chans.heap ch = some c)
    (hname : c.name.length < channelNameLen)
    (hmembers : ∀ r ∈ w.membersOf ch, ∃ d modes, w.heap r = some d ∧ IsNick d.nameOrStar ∧
      w.chans.flagsOf ch r = some modes) :
    (announceChannel client ch).Sends ((w.njoinLines ch c.name).map fun line =>
      (i, serverText this.nameOrStar (njoinText c.name line))) () w := by
  obtain ⟨d, hd, hflag⟩ := hflag
  obtain ⟨d', hd', -, hconn⟩ := h.peer.cell
  obtain rfl : d = d' := Option.mem_unique hd hd'
  unfold announceChannel
  refine .read (a := d) (by simp [onClient_of_some hd]) (.read (a := i) (by simp [hconn])
    (.read (a := w) (by simp) (.read (a := c.name)
      (by simp [channelName, onChannel_of_some hc]) ?_)))
  have hsend := @announceMembers_sends [] w i client this ch c h hc hname _ hmembers (.inl rfl)
    fun e he => (List.not_mem_nil he).elim
  rw [snprintf_njoin hname, hnew, hflag]
  exact hsend

end

/-! ## What the lines say -/

/-- The entries of an NJOIN command, as they are read from its line. -/
def entriesIn (line : Str) : List Str :=
  match requestOf line [] with
  | some req => strtok (req.arg 1) ","
  | none => []

theorem njoinText_eq (name : Str) (entries : List Str) :
    njoinText name entries = "NJOIN".toList ++ ' ' ::
      renderParams ([name] ++ [[','].intercalate entries]) := by
  rw [renderParams_snoc]
  unfold njoinText
  simp

/-- The line of an NJOIN command, which may have been cut. -/
theorem serverText_njoin (hserver : server.length < clientIdLen)
    (hname : name.length < channelNameLen)
    (hlength : (njoinText name entries).length ≤ 999) :
    ∃ list, serverText server (njoinText name entries) =
        prefixed server ("NJOIN".toList ++ ' ' :: renderParams ([name] ++ [list])) ∧
      if server.length + (njoinText name entries).length ≤ 508 then list = [','].intercalate entries
      else list.length < ([','].intercalate entries).length := by
  split
  · rename_i hshort
    refine ⟨_, ?_, rfl⟩
    rw [serverText_of_short hshort, njoinText_eq]
  · rename_i hlong
    have hhead (list : Str) : prefixed server ("NJOIN".toList ++ ' ' ::
      renderParams ([name] ++ [list])) =
        prefixed server ("NJOIN ".toList ++ (name ++ " :".toList)) ++ list := by
      rw [renderParams_snoc]
      simp [prefixed]
    have hsize : (prefixed server ("NJOIN ".toList ++ (name ++ " :".toList))).length =
        server.length + name.length + 10 := by
      simp only [prefixed, List.length_cons, List.length_append]
      change server.length + (6 + (name.length + 2) + 1) + 1 = _
      omega
    have htext := length_njoinText_append name entries
    simp only [clientIdLen, channelNameLen] at hserver hname
    refine ⟨([','].intercalate entries).take (495 - server.length - name.length) ++ "[CUT]".toList,
      ?_, ?_⟩
    · rw [serverText, List.take_of_length_le hlength, format_prefixed, njoinText_eq, hhead, cutLine,
        if_pos (by simp only [List.length_append, hsize, commandLen]; omega), List.take_append,
        List.take_of_length_le (by simp only [hsize, commandLen]; omega), hhead, hsize]
      have hrest : commandLen - 5 - 2 - 1 - (server.length + name.length + 10) =
          495 - server.length - name.length := by
        simp only [commandLen]
        omega
      rw [hrest, List.append_assoc]
    · simp only [List.length_append, List.length_take]
      change min _ _ + 5 < _
      omega

theorem mem_intercalate_comma (h : x ∈ [','].intercalate entries) :
    x = ',' ∨ ∃ e ∈ entries, x ∈ e := by
  induction entries with
  | nil => exact nomatch h
  | cons e rest ih =>
    cases rest with
    | nil =>
      rw [List.intercalate_singleton] at h
      exact .inr ⟨e, .head _, h⟩
    | cons f rest =>
      rw [List.intercalate_cons_cons, List.append_assoc, List.mem_append, List.mem_append,
        List.mem_singleton] at h
      obtain h | h | h := h
      · exact .inr ⟨e, .head _, h⟩
      · exact .inl h
      · obtain h | ⟨e', he', hmem⟩ := ih h
        · exact .inl h
        · exact .inr ⟨e', List.mem_cons_of_mem e he', hmem⟩

/-- Entries that can be told apart in a line. -/
def Separable (entries : List Str) : Prop :=
  ∀ e ∈ entries, e ≠ [] ∧ ',' ∉ e ∧ ∀ x ∈ e, isBlank x = false

theorem Separable.trimEnd_eq (h : Separable entries) :
    trimEnd ([','].intercalate entries) = [','].intercalate entries := by
  refine trimEnd_of_last fun x hx => ?_
  rcases List.eq_nil_or_concat entries with rfl | ⟨front, e, rfl⟩
  · exact nomatch hx
  · rw [List.concat_eq_append] at h hx
    obtain ⟨hne, -, hblank⟩ := h e (by simp)
    have hlast : ([','].intercalate (front ++ [e])).getLast? = e.getLast? := by
      by_cases hfront : front = []
      · simp [hfront]
      · rw [intercalate_concat _ _ hfront, List.getLast?_append_of_ne_nil _ (by simp),
          List.getLast?_cons_of_ne_nil hne]
    rw [hlast] at hx
    exact hblank x (List.mem_of_getLast? hx)

theorem requestOf_njoin (hserver : ' ' ∉ server) (hname : IsMiddle name) (list after : Str) :
    ∃ beyond, requestOf (prefixed server
        ("NJOIN".toList ++ ' ' :: renderParams ([name] ++ [list]))) after =
      some { pfx := some server, command := "NJOIN", argv := [name, trimEnd list], beyond } :=
  requestOf_trailing hserver (by decide) (by simpa using hname) (by simp) list after

/-- How long entries are with what separates them. -/
def entriesLength (entries : List Str) : Nat := (entries.map (·.length + 1)).sum

theorem entriesLength_intercalate (hne : entries ≠ []) :
    entriesLength entries = ([','].intercalate entries).length + 1 :=
  (length_intercalate_comma hne).symm

/-- A line has the entries that were put into it if it has not been cut, and is too short for
them otherwise. -/
theorem entriesIn_njoin (hserver : ' ' ∉ server) (hlength : server.length < clientIdLen)
    (hname : IsMiddle name) (hshort : name.length < channelNameLen) (hne : entries ≠ [])
    (hentries : Separable entries) (hbound : (njoinText name entries).length ≤ 999) :
    if server.length + (njoinText name entries).length ≤ 508 then
      entriesIn (serverText server (njoinText name entries)) = entries
    else entriesLength (entriesIn (serverText server (njoinText name entries))) <
      entriesLength entries := by
  obtain ⟨list, hline, hlist⟩ := serverText_njoin hlength hshort hbound
  obtain ⟨beyond, hreq⟩ := requestOf_njoin hserver hname list []
  have hread : entriesIn (serverText server (njoinText name entries)) =
    strtok (trimEnd list) "," := by
    rw [entriesIn, hline, hreq]
    rfl
  rw [hread]
  split at hlist
  · rename_i hfits
    rw [if_pos hfits, hlist, hentries.trimEnd_eq]
    exact strtok_intercalate fun e he => ⟨(hentries e he).1, (hentries e he).2.1⟩
  · rename_i hcut
    rw [if_neg hcut, entriesLength_intercalate hne]
    have htokens := sum_length_strtok_le (trimEnd list) ","
    have htrim := (trimEnd_isPrefix list).length_le
    unfold entriesLength
    omega

theorem entriesLength_append (a b : List Str) :
    entriesLength (a ++ b) = entriesLength a + entriesLength b := by
  simp [entriesLength]

/-- The lines have all the entries if and only if none of them has been cut. -/
theorem entriesIn_complete (hserver : ' ' ∉ server) (hlength : server.length < clientIdLen)
    (hname : IsMiddle name) (hshort : name.length < channelNameLen) {lines : List (List Str)}
    (hlines : ∀ l ∈ lines, l ≠ [] ∧ Separable l ∧ (njoinText name l).length ≤ 999) :
    (lines.flatMap fun l => entriesIn (serverText server (njoinText name l))).Perm lines.flatten ↔
      ∀ l ∈ lines, server.length + (njoinText name l).length ≤ 508 := by
  have hone (l : List Str) (hl : l ∈ lines) := entriesIn_njoin hserver hlength hname hshort
    (hlines l hl).1 (hlines l hl).2.1 (hlines l hl).2.2
  clear hlines
  -- What is read is never longer than what was sent, and shorter once a line has been cut.
  have hmeasure : entriesLength (lines.flatMap fun l =>
    entriesIn (serverText server (njoinText name l)))
        ≤ entriesLength lines.flatten ∧
      (entriesLength (lines.flatMap fun l => entriesIn (serverText server (njoinText name l))) =
        entriesLength lines.flatten →
          ∀ l ∈ lines, server.length + (njoinText name l).length ≤ 508) := by
    induction lines with
    | nil => exact ⟨Nat.le_refl _, fun _ => nofun⟩
    | cons l lines ih =>
      obtain ⟨hle, hall⟩ := ih fun l' hl' => hone l' (.tail l hl')
      have hfirst := hone l (.head _)
      rw [List.flatMap_cons, List.flatten_cons, entriesLength_append, entriesLength_append]
      split at hfirst
      · rename_i hfits
        rw [hfirst]
        refine ⟨by omega, fun heq l' hl' => ?_⟩
        rcases List.mem_cons.mp hl' with rfl | hl'
        · exact hfits
        · exact hall (by omega) l' hl'
      · exact ⟨by omega, fun heq => absurd heq (by omega)⟩
  constructor
  · intro hperm
    exact hmeasure.2 (hperm.map fun e : Str => e.length + 1).sum_eq
  · intro hfits
    rw [← List.flatMap_id]
    refine List.Perm.of_eq (List.flatMap_congr fun l hl => ?_)
    have hread := hone l hl
    rw [if_pos (hfits l hl)] at hread
    exact hread

/-! ## Messages to a member that is on the peer -/

section

theorem exists_of_mem_membersOf (hw : Healthy w) (hr : r ∈ w.membersOf ch) :
    ∃ d e, w.heap r = some d ∧ w.getCl2Chan ch r = some e := by
  obtain ⟨e, he, rfl⟩ := List.mem_map.mp hr
  obtain ⟨hmem, hch⟩ := List.mem_filter.mp he
  obtain ⟨d, -, -, hd, -⟩ := hw.member e hmem
  have hfor : e.isFor ch e.client = true := by
    simpa [Cl2Chan.isFor] using hch
  obtain ⟨e', he'⟩ := Option.isSome_iff_exists.mp (List.find?_isSome.mpr ⟨e, hmem, hfor⟩)
  exact ⟨d, e', hd, he'⟩

theorem replyIfLong_tame (hreply : ∀ text w', Quiet w w' → (reply client text).Tame w')
    (limit : Nat)
    (start str : Str) : (replyIfLong client limit start str).Tame w :=
  .ite ((hreply str w (.refl w)).bind fun _ _ _ => .pure start) (.pure str)

variable (hw : Healthy w) (hcalm : w.Calm) (hclient : w.Reached client)
  (hc : w.chans.heap ch = some c)
include hw hcalm hclient hc

theorem ircSendNames_tame : (ircSendNames client ch).Tame w := by
  have hreply (text : Str) (w' : World) (hq : Quiet w w') : (reply client text).Tame w' :=
    reply_tame (hq.healthy hw) (hq.calm hcalm) (hq.reached hclient) text
  obtain ⟨d, -, -, hd, -⟩ := hclient
  unfold ircSendNames
  refine .read (a := w) (by simp) (.ite (.pure ()) (.read (a := c) (by simp [onChannel_of_some hc])
    (.ite (.pure ()) (.read (a := d) (by simp [onClient_of_some hd])
      (.read (a := d.nameOrStar) (by simp [onClient_of_some hd]) ?_)))))
  refine .bind (.replyFold _ _ fun str r hr w' hq => ?_) fun str w' hq => ?_
  · obtain ⟨dr, e, hdr, he⟩ := exists_of_mem_membersOf hw hr
    obtain ⟨host, hdr'⟩ := hq.heap_some hdr
    have he' : w'.getCl2Chan ch r = some e := by rw [World.getCl2Chan, hq.chans]; exact he
    refine .read (a := dr.hasMode 'i') ?_ (.ite (.pure _) (.read (a := e.modes) ?_
      (.read (a := dr.nameOrStar) ?_ ?_)))
    · simp only [clientHasMode, wp_bind, wp_deref, onClient_of_some hdr', wp_pure]
      exact ⟨rfl, trivial⟩
    · simp [channelUserModes, he']
    · simp only [wp_clientID, onClient_of_some hdr']
      exact ⟨rfl, trivial⟩
    · exact .bind (replyIfLong_tame (fun text w'' hq' => hreply text w'' (hq.trans hq')) _ _ _)
        fun _ _ _ => .pure _
  · exact .ite (hreply str w' hq) (.pure ())

theorem ircSendChannelInfo_tame : (ircSendChannelInfo client ch).Tame w := by
  have hreply (text : Str) (w' : World) (hq : Quiet w w') : (reply client text).Tame w' :=
    reply_tame (hq.healthy hw) (hq.calm hcalm) (hq.reached hclient) text
  have hchan {w' : World} (hq : Quiet w w') : w'.chans.heap ch = some c := by rw [hq.chans, hc]
  obtain ⟨d, k, kc, hd, hrest⟩ := hclient
  have hid {w' : World} (hq : Quiet w w') :
      (clientID client).wp quietWp (fun a w'' => a = d.nameOrStar ∧ w'' = w') w' := by
    obtain ⟨host, hd'⟩ := hq.heap_some hd
    simp only [wp_clientID, onClient_of_some hd']
    exact ⟨rfl, trivial⟩
  unfold ircSendChannelInfo
  have hq := Quiet.refl w
  refine .read (a := c) (by simp [onChannel_of_some hc]) (.ite ?_ ?_)
  on_goal 1 =>
    refine .read (hid hq) (.bind (hreply _ w hq) fun _ w' hq' => ?_)
    refine .read (hid hq') (.bind (hreply _ w' hq') fun _ w'' hq'' => ?_)
    replace hq := hq'.trans hq''
  all_goals
    refine .bind (ircSendNames_tame (hq.healthy hw) (hq.calm hcalm)
      (hq.reached ⟨d, k, kc, hd, hrest⟩) (hchan hq)) fun _ w'' hq' => ?_
    refine .read (hid (hq.trans hq')) (.read (a := c.name) ?_ (hreply _ w'' (hq.trans hq')))
    simp [channelName, onChannel_of_some (hchan (hq.trans hq'))]

end

/-! ## What the peer makes of them -/

/-- The flags that the marks of an entry stand for. -/
def givenFlags (modes : Str) : Str :=
  (njoinModes.filter fun p => modes.contains p.2).foldl (fun flags p => modesAdd flags p.2) []

/-- A new member with flags. -/
def Channels.letIn (t : Channels) (now : Nat) (name : Str) (cl : ClientRef) (flags : Str) :
    Channels :=
  { (t.opened now name).2 with
    cl2chan := { client := cl, channel := (t.opened now name).1, modes := flags } :: t.cl2chan }

section

variable {q : ClientRef} {flags : Str}

theorem marks_njoinEntry (hnick : IsNick nick) (modes : Str) :
    let isMark (c : Char) : Bool := njoinModes.any fun p => p.1 == c
    (njoinEntry modes nick).dropWhile isMark = nick ∧
      (njoinModes.filter fun p => ((njoinEntry modes nick).takeWhile isMark).contains p.1) =
        njoinModes.filter fun p => modes.contains p.2 := by
  intro isMark
  have hmarks : ∀ x ∈ (njoinModes.filter fun p => modes.contains p.2).map (·.1),
    isMark x = true := by
    intro x hx
    obtain ⟨p, hp, rfl⟩ := List.mem_map.mp hx
    exact List.any_eq_true.mpr ⟨p, List.mem_of_mem_filter hp, beq_self_eq_true _⟩
  obtain ⟨first, rest, hcons⟩ := List.exists_cons_of_ne_nil hnick.ne
  have hfirst : isMark first = false := by
    have hother := (hnick.letters first (by simp [hcons])).2.2.2.1
    simpa [isMark] using fun x y hp => hother (x, y) hp
  have hinj : ∀ p ∈ njoinModes, ∀ p' ∈ njoinModes, p'.1 = p.1 → p' = p := by decide
  constructor
  · rw [njoinEntry, List.dropWhile_append_of_pos hmarks, hcons,
      List.dropWhile_cons_of_neg (by simp [hfirst])]
  · refine List.filter_congr fun p hp => ?_
    rw [njoinEntry, List.takeWhile_append_of_pos hmarks, hcons,
      List.takeWhile_cons_of_neg (by simp [hfirst]), List.append_nil, Bool.eq_iff_iff,
      List.contains_iff_mem, List.mem_map]
    constructor
    · rintro ⟨p', hp', heq⟩
      obtain ⟨hmem, hmode⟩ := List.mem_filter.mp hp'
      rwa [hinj p hp p' hmem heq] at hmode
    · intro hmode
      exact ⟨p, List.mem_filter.mpr ⟨hp, hmode⟩, rfl⟩

theorem mem_foldl_modesAdd (ps : List (Char × Char))
    (hroom : flags.length + ps.length < channelModeLen)
    : f ∈ ps.foldl (fun flags p => modesAdd flags p.2) flags ↔
      f ∈ flags ∨ ∃ p ∈ ps, p.2 = f := by
  induction ps generalizing flags with
  | nil => simp
  | cons p ps ih =>
    rw [List.length_cons] at hroom
    have hcat : strlcat flags [p.2] channelModeLen = flags ++ [p.2] :=
      strlcat_of_room (by simp; omega)
    have hlength : (modesAdd flags p.2).length ≤ flags.length + 1 := by
      unfold modesAdd
      split
      · omega
      · simp [hcat]
    have hadd : f ∈ modesAdd flags p.2 ↔ f ∈ flags ∨ p.2 = f := by
      unfold modesAdd
      split
      · rename_i hmem
        refine ⟨.inl, ?_⟩
        rintro (hf | rfl)
        · exact hf
        · simpa using hmem
      · simp [hcat, eq_comm]
    rw [List.foldl_cons, ih (by omega), hadd]
    simp [or_assoc]

theorem mem_givenFlags : f ∈ givenFlags modes ↔ f ∈ modes ∧ f ∈ "qaohv".toList := by
  have hletters : "qaohv".toList = njoinModes.map (·.2) := by decide
  have hroom : ([] : Str).length + (njoinModes.filter fun p => modes.contains p.2).length <
      channelModeLen := by
    have hle := List.length_filter_le (fun p : Char × Char => modes.contains p.2) njoinModes
    have hfive : njoinModes.length = 5 := rfl
    simp only [List.length_nil, channelModeLen]
    omega
  rw [givenFlags, mem_foldl_modesAdd _ hroom, hletters]
  simp only [List.not_mem_nil, false_or, List.mem_filter, List.mem_map]
  constructor
  · rintro ⟨p, ⟨hp, hmode⟩, rfl⟩
    exact ⟨by simpa using hmode, p, hp, rfl⟩
  · rintro ⟨hmode, p, hp, rfl⟩
    exact ⟨p, ⟨hp, by simpa using hmode⟩, rfl⟩

theorem Channels.flagsOf_letIn_self (t : Channels) (now : Nat) :
    (t.letIn now name q flags).flagsOf (t.opened now name).1 q = some flags := by
  simp [flagsOf, letIn, Cl2Chan.isFor]

theorem Channels.flagsOf_letIn_ne (t : Channels) (now : Nat) (hk : k ≠ q) (ch : ChanRef) :
    (t.letIn now name q flags).flagsOf ch k = t.flagsOf ch k := by
  simp [flagsOf, letIn, Cl2Chan.isFor, Ne.symm hk]

/-- One more flag for the new member. -/
theorem channelUserModeAdd_letIn (hs : Holds w (t.letIn w.now name q flags) w')
    (hnew : t.flagsOf (t.opened w.now name).1 q = none) (m : Char) :
    (channelUserModeAdd (t.opened w.now name).1 q m).wp calmWp
      (fun _ w'' => Holds w (t.letIn w.now name q (modesAdd flags m)) w'') w' := by
  have hmember : w'.getCl2Chan (t.opened w.now name).1 q =
      some { client := q, channel := (t.opened w.now name).1, modes := flags } := by
    rw [World.getCl2Chan, hs.chans]
    simp [Channels.letIn, Cl2Chan.isFor]
  have hothers : ∀ e ∈ t.cl2chan, e.isFor (t.opened w.now name).1 q = false := by
    intro e he
    simp only [Channels.flagsOf, Option.map_eq_none_iff, List.find?_eq_none] at hnew
    simpa using hnew e he
  have htable : (w'.chans.cl2chan.map fun e => if e.isFor (t.opened w.now name).1 q then
      { e with modes := modesAdd e.modes m } else e) =
      (t.letIn w.now name q (modesAdd flags m)).cl2chan := by
    have hself : Cl2Chan.isFor (t.opened w.now name).1 q
        { client := q, channel := (t.opened w.now name).1, modes := flags } = true := by
      simp [Cl2Chan.isFor]
    rw [hs.chans]
    simp only [Channels.letIn, List.map_cons, hself, if_true, List.cons.injEq, true_and]
    refine (List.map_congr_left fun e he => ?_).trans (List.map_id _)
    rw [if_neg (by simp [hothers e he]), id]
  unfold channelUserModeAdd channelUserHasMode channelUserModes
  simp only [wp_msg, wp_getWorld, hmember, wp_pure, wp_setUserModes, htable]
  convert hs.put (t.letIn w.now name q (modesAdd flags m)) using 1
  simp [World.setMembers, hs.chans, Channels.letIn]

theorem forEach_channelUserModeAdd (hnew : t.flagsOf (t.opened w.now name).1 q = none)
    (ps : List (Char × Char)) (hs : Holds w (t.letIn w.now name q flags) w') :
    (Prog.forEach (fun p : Char × Char => do
        let _ ← channelUserModeAdd (t.opened w.now name).1 q p.2) ps : Basic Unit).wp calmWp
      (fun _ w'' => Holds w (t.letIn w.now name q
        (ps.foldl (fun flags p => modesAdd flags p.2) flags))
        w'') w' := by
  induction ps generalizing flags w' with
  | nil => exact hs
  | cons p ps ih =>
    simp only [Prog.forEach, wp_bind]
    exact wp_mono (fun _ _ hs₁ => ih hs₁) (channelUserModeAdd_letIn hs hnew p.2)

theorem Channels.letIn_spec (t : Channels) (now : Nat) (hvalid : channelIsValidName name = true)
    (q : ClientRef) (flags : Str) :
    (t.opened now name).2.enter (t.opened now name).1 q = t.letIn now name q [] ∧
      (t.letIn now name q flags).search name = some (t.opened now name).1 ∧
      ∃ c, (t.letIn now name q flags).heap (t.opened now name).1 = some c := by
  obtain ⟨hsearch, ⟨c, hc, -⟩, hmembers⟩ := @opened_spec t name now (length_of_valid hvalid)
  refine ⟨?_, hsearch, c, hc⟩
  rw [enter, letIn, hmembers]

theorem World.CanReach.letIn (h : w.CanReach t) (hq : w.Reached q) (now : Nat) (name flags : Str) :
    w.CanReach (t.letIn now name q flags) := by
  intro e he
  rcases List.mem_cons.mp he with rfl | he
  · exact hq
  · exact h e he

/-- One entry of an NJOIN command. -/
theorem njoinOne_admits (h : w.Hears j r) (hs : Holds w t w') (hreach : w.CanReach t)
    (hvalid : channelIsValidName name = true) (hnick : IsNick nick)
    (hfound : w.clientSearch nick = some q) (hq : w.Reached q)
    (hnew : t.flagsOf (t.opened w.now name).1 q = none) (modes nickOut : Str) :
    (njoinOne r name nickOut (njoinEntry modes nick)).wp (plainWp .never noFault)
      (fun _ w'' => Holds w (t.letIn w.now name q (givenFlags modes)) w'') w' := by
  obtain ⟨hdrop, hgiven⟩ := marks_njoinEntry hnick modes
  obtain ⟨henter, -, -⟩ := t.letIn_spec w.now hvalid q []
  obtain ⟨d, k, kc, hd, hhop⟩ := hq
  obtain ⟨cl, hhas, -⟩ := h.link.has
  have hfound' : w'.clientSearch nick = some q := by rw [hs.clientSearch, hfound]
  have hjoin := channelJoin_calm hs hvalid hnew
  rw [henter] at hjoin
  obtain ⟨-, hsearch, c, hc⟩ := t.letIn_spec w.now hvalid q (givenFlags modes)
  -- From here on the channel is as it should be, and the rest is messages.
  have hsettled {w₁ : World} (hs₁ : Holds w (t.letIn w.now name q (givenFlags modes)) w₁) :
      Healthy w₁ ∧ w₁.Calm ∧ w₁.Reached q ∧ w₁.chans.heap (t.opened w.now name).1 = some c ∧
        ∃ e, w₁.getCl2Chan (t.opened w.now name).1 q = some e := by
    refine ⟨hs₁.healthy (hreach.letIn ⟨d, k, kc, hd, hhop⟩ _ _ _) h.healthy, hs₁.calm h.calm,
      hs₁.reached ⟨d, k, kc, hd, hhop⟩, by rw [hs₁.chans, hc], ?_⟩
    obtain ⟨e, he, -⟩ := Option.map_eq_some_iff.mp
      (@Channels.flagsOf_letIn_self name q (givenFlags modes) t w.now)
    exact ⟨e, by rw [World.getCl2Chan, hs₁.chans]; exact he⟩
  unfold njoinOne
  dsimp only at hdrop hgiven ⊢
  rw [hdrop, hgiven]
  simp only [wp_msg, liftM_basic_plain, wp_getWorld, hfound']
  refine wp_mono (fun joined w₁ hw₁ => ?_) hjoin
  obtain ⟨rfl, hs₁⟩ := hw₁
  have hsearch₁ : w₁.channelSearch name = some (t.opened w.now name).1 := by
    change w₁.chans.search name = _
    rw [hs₁.chans]
    exact hsearch
  simp only [Bool.not_true, Bool.false_eq_true, if_false, wp_msg, wp_getWorld, hsearch₁]
  refine wp_mono (fun _ w₂ hs₂ => ?_) (forEach_channelUserModeAdd hnew _ hs₁)
  change Holds w (t.letIn w.now name q (givenFlags modes)) w₂ at hs₂
  obtain ⟨hw₂, hcalm₂, -⟩ := hsettled hs₂
  obtain ⟨host, hd₂⟩ := hs₂.heap_some hd
  rw [wp_bind, wp_ofBasic, wp_ofLeave, wp_ofMsg]
  refine hs₂.message (ircWriteStrChannelPrefix_tame hw₂ hcalm₂ hd₂ _ _ _ _) fun _ w₃ hs₃ => ?_
  obtain ⟨hw₃, hcalm₃, hq₃, hc₃, -⟩ := hsettled hs₃
  obtain ⟨host', hd₃⟩ := hs₃.heap_some hd
  rw [wp_bind, wp_ofBasic, wp_ofLeave, wp_ofMsg, wp_deref, onClient_of_some hd₃]
  split
  on_goal 1 =>
    simp only [wp_msg]
    refine hs₃.message ((ircSendChannelInfo_tame hw₃ hcalm₃ hq₃ hc₃).toMsg hcalm₃)
      fun _ w₄ hs₄ => ?_
    replace hs₃ := hs₄
  all_goals
    obtain ⟨hw₄, hcalm₄, -, -, e, he⟩ := hsettled hs₃
    obtain ⟨host, hd₄⟩ := hs₃.heap_some hd
    obtain ⟨host', hcl₄⟩ := hs₃.heap_some hhas.cell
    simp only [wp_msg, channelUserModes, wp_getWorld, he, wp_pure]
    split
    · simp only [wp_msg, wp_clientID, onClient_of_some hd₄]
      exact hs₃.message (ircWriteStrChannelPrefix_tame hw₄ hcalm₄ hcl₄ _ _ _ _) fun _ _ hs₅ => hs₅
    · exact hs₃

/-! ## Whole commands -/

end

/-- A member that is announced: the client it is on the peer, its flags and its nickname. -/
structure Newcomer where
  client : ClientRef
  modes : Str
  nick : Str

namespace Newcomer

/-- The entry of a member. -/
def entry (m : Newcomer) : Str := njoinEntry m.modes m.nick

end Newcomer

/-- The table after some members have been admitted. -/
def Channels.admitAll (t : Channels) (now : Nat) (name : Str) (ms : List Newcomer) : Channels :=
  ms.foldl (fun t m => t.letIn now name m.client (givenFlags m.modes)) t

/-- The server knows these clients by their nicknames, and has none of them on the channel. -/
structure Admissible (w : World) (t : Channels) (name : Str) (ms : List Newcomer) : Prop where
  nick : ∀ m ∈ ms, IsNick m.nick
  found : ∀ m ∈ ms, w.clientSearch m.nick = some m.client
  reached : ∀ m ∈ ms, w.Reached m.client
  new : ∀ m ∈ ms, t.flagsOf (t.opened w.now name).1 m.client = none
  distinct : (ms.map (·.client)).Nodup

section

variable {m : Newcomer} {ms : List Newcomer}

theorem Channels.opened_letIn (t : Channels) (now : Nat) (hvalid : channelIsValidName name = true)
    (q : ClientRef) (flags : Str) :
    ((t.letIn now name q flags).opened now name).1 = (t.opened now name).1 := by
  obtain ⟨-, hsearch, -⟩ := t.letIn_spec now hvalid q flags
  rw [opened_of_found hsearch]

theorem Admissible.tail (hvalid : channelIsValidName name = true)
    (h : Admissible w t name (m :: ms))
    (flags : Str) : Admissible w (t.letIn w.now name m.client flags) name ms where
  nick k hk := h.nick k (.tail m hk)
  found k hk := h.found k (.tail m hk)
  reached k hk := h.reached k (.tail m hk)
  new k hk := by
    have hne : k.client ≠ m.client := by
      intro heq
      have hnodup := h.distinct
      rw [List.map_cons, List.nodup_cons] at hnodup
      exact hnodup.1 (heq ▸ List.mem_map_of_mem hk)
    rw [t.opened_letIn w.now hvalid, Channels.flagsOf_letIn_ne t w.now hne]
    exact h.new k (.tail m hk)
  distinct := (List.nodup_cons.mp h.distinct).2

/-- All the entries of an NJOIN command. -/
theorem njoinAll_admits (h : w.Hears j r) (hs : Holds w t w') (hreach : w.CanReach t)
    (hvalid : channelIsValidName name = true) (hms : Admissible w t name ms) (nickOut : Str) :
    ((ms.map Newcomer.entry).foldlM (njoinOne r name) nickOut : Plain Str).wp
      (plainWp .never noFault)
      (fun _ w'' => Holds w (t.admitAll w.now name ms) w'' ∧ w.CanReach (t.admitAll w.now name ms))
      w' := by
  induction ms generalizing t w' nickOut with
  | nil => exact ⟨hs, hreach⟩
  | cons m ms ih =>
    rw [List.map_cons, List.foldlM_cons, wp_bind]
    refine wp_mono (fun nickOut' w₁ hs₁ => ?_) (njoinOne_admits h hs hreach hvalid
      (hms.nick m (.head _)) (hms.found m (.head _))
      (hms.reached m (.head _)) (hms.new m (.head _)) m.modes nickOut)
    exact ih hs₁ (hreach.letIn (hms.reached m (.head _)) _ _ _) (hms.tail hvalid _) nickOut'

/-- The handler of NJOIN. -/
theorem ircNjoin_admits (h : w.Hears j r) (hvalid : channelIsValidName name = true) {req : Request}
    (hms : Admissible w w.chans name ms) (hname : req.arg 0 = name)
    (hentries : strtok (strlcpy (req.arg 1) commandLen) "," = ms.map Newcomer.entry) :
    (ircNjoin r req).wp (plainWp .never noFault)
      (fun _ w' => Holds w (w.chans.admitAll w.now name ms) w') w := by
  have hreach : w.CanReach w.chans := fun e he => h.healthy.member e he
  unfold ircNjoin
  simp only [hname, hentries]
  rw [wp_bind]
  refine wp_mono (fun nickOut w₁ hw₁ => ?_) (njoinAll_admits h (.refl w) hreach hvalid hms [])
  obtain ⟨hs₁, hreach₁⟩ := hw₁
  have hw₁ := hs₁.healthy hreach₁ h.healthy
  obtain ⟨this, hthis⟩ := hw₁.this
  split
  · simp only [wp_msg, wp_thisServer]
    exact hs₁.message (ircWriteStrServersPrefix_tame hw₁ (hs₁.calm h.calm) hthis _ _)
      fun _ _ hs₂ => hs₂
  · exact hs₁

theorem Admissible.separable (h : Admissible w t name ms) : Separable (ms.map Newcomer.entry) := by
  intro e he
  obtain ⟨m, hm, rfl⟩ := List.mem_map.mp he
  exact (h.nick m hm).separable m.modes

/-- The list of nicknames does not start like a CTCP command. -/
theorem scrubCTCP_njoin (hserver : IsWord server) (hname : ':' ∉ name)
    (hms : Admissible w t name ms) (hne : ms ≠ []) :
    scrubCTCP (trimStr (prefixed server (njoinText name (ms.map Newcomer.entry)))) = false := by
  have hlist : [','].intercalate (ms.map Newcomer.entry) ≠ [] := by
    intro hnil
    obtain ⟨m, rest, rfl⟩ := List.exists_cons_of_ne_nil hne
    have htokens := strtok_intercalate (d := ',') fun e he =>
      ⟨(hms.separable e he).1, (hms.separable e he).2.1⟩
    rw [hnil] at htokens
    exact nomatch htokens
  obtain ⟨x, rest, hcons⟩ := List.exists_cons_of_ne_nil hlist
  have hx : x.toNat ≠ 1 := by
    rcases mem_intercalate_comma (show x ∈ [','].intercalate
      (ms.map Newcomer.entry) by simp [hcons])
      with rfl | ⟨e, he, hmem⟩
    · decide
    · obtain ⟨m, hm, rfl⟩ := List.mem_map.mp he
      exact ((hms.nick m hm).entry_letters hmem).2.2.2
  have hshape : server ++ ' ' :: njoinText name (ms.map Newcomer.entry) =
      (server ++ " NJOIN ".toList ++ name ++ [' ']) ++ ':' ::
        [','].intercalate (ms.map Newcomer.entry) := by
    unfold njoinText
    simp
  have hfront : ∀ c ∈ server ++ " NJOIN ".toList ++ name ++ [' '], (c != ':') = true := by
    intro c hc
    simp only [List.mem_append] at hc
    obtain ((hc | hc) | hc) | hc := hc
    · exact bne_iff_ne.mpr fun heq => hserver.colon (heq ▸ hc)
    · have hall : ∀ c ∈ " NJOIN ".toList, (c != ':') = true := by decide
      exact hall c hc
    · exact bne_iff_ne.mpr fun heq => hname (heq ▸ hc)
    · rw [List.mem_singleton.mp hc]
      decide
  rw [trimStr_prefixed_cons, hshape, trimEnd_append _ (by simp [trimEnd_colon]), trimEnd_colon,
    hms.separable.trimEnd_eq, hcons]
  simp only [scrubCTCP, List.head?_cons, if_true, List.tail_cons]
  rw [List.dropWhile_append_of_pos hfront, List.dropWhile_cons_of_neg (by simp)]
  simp [hx]

/-- The peer handles an NJOIN command that has not been cut. -/
theorem exec_njoin (h : w.Hears j r) (ho : w.BehindLink r server o)
    (hserver : IsWord server) (hname : name ≠ []) (hvalid : channelIsValidName name = true)
    (hms : Admissible w w.chans name ms) (hne : ms ≠ [])
    (hshort : server.length + (njoinText name (ms.map Newcomer.entry)).length ≤ 508) (n : Nat)
    (after : Str) : ∃ b w',
      exec n (parseRequest j (serverText server (njoinText name (ms.map Newcomer.entry))) after) w =
        .ok (b, w') ∧ Holds w (w.chans.admitAll w.now name ms) w' := by
  obtain ⟨-, -, hcolon, -⟩ := not_mem_of_valid hvalid
  obtain ⟨beyond, hreq⟩ := requestOf_njoin hserver.space (isMiddle_of_valid hname hvalid)
    ([','].intercalate (ms.map Newcomer.entry)) after
  have hsep := hms.separable
  have hlist : ([','].intercalate (ms.map Newcomer.entry)).length < commandLen := by
    rw [length_njoinText_append] at hshort
    simp only [commandLen]
    omega
  have hfind : findCommand "NJOIN" = some ⟨"NJOIN", .njoin, .server, 2, some 2, 0⟩ := by decide
  rw [hsep.trimEnd_eq, ← njoinText_eq] at hreq
  rw [serverText_of_short hshort]
  refine exec_parseRequest h hreq (trimStr_prefixed_ne _ _) ?_ rfl ho
    (show "NJOIN".toList.length ≠ 3 by decide) hfind (by decide) (by simp [Request.argc]) rfl
    (fun w' counts hw' => hw'.withCounts counts)
    (ircNjoin_admits h hvalid hms rfl ?_) n
  · rw [scrubCTCP_njoin hserver hcolon hms hne, Bool.and_false]
  · have hcopy : strlcpy ([','].intercalate (ms.map Newcomer.entry)) commandLen =
        [','].intercalate (ms.map Newcomer.entry) := List.take_of_length_le (by omega)
    change strtok (strlcpy ([','].intercalate (ms.map Newcomer.entry)) commandLen) "," = _
    rw [hcopy]
    exact strtok_intercalate fun e he => ⟨(hsep e he).1, (hsep e he).2.1⟩

theorem Channels.admitAll_append (t : Channels) (now : Nat) (name : Str) (ms ms' : List Newcomer) :
    t.admitAll now name (ms ++ ms') = (t.admitAll now name ms).admitAll now name ms' :=
  List.foldl_append

/-- The members that are left when some have been admitted. -/
theorem Admissible.rest (hvalid : channelIsValidName name = true) {ms' : List Newcomer}
    (h : Admissible w t name (ms ++ ms')) : Admissible w (t.admitAll w.now name ms) name ms' := by
  induction ms generalizing t with
  | nil => exact h
  | cons m ms ih => exact ih (h.tail hvalid _)

theorem World.CanReach.admitAll (hreach : w.CanReach t) (hms : ∀ m ∈ ms, w.Reached m.client) :
    w.CanReach (t.admitAll w.now name ms) := by
  induction ms generalizing t with
  | nil => exact hreach
  | cons m ms ih =>
    exact ih (hreach.letIn (hms m (.head _)) _ _ _)
      fun k hk => hms k (.tail m hk)

/-- The peer handles the lines one after the other. -/
theorem readLines_njoin (h : w.Hears j r) (ho : w.BehindLink r server o)
    (hserver : IsWord server) (hname : name ≠ []) (hvalid : channelIsValidName name = true)
    {lines : List (List Newcomer)} (hlines : ∀ l ∈ lines, l ≠ [] ∧
      server.length + (njoinText name (l.map Newcomer.entry)).length ≤ 508)
    (hs : Holds w t w') (hreach : w.CanReach t) (hms : Admissible w t name lines.flatten) (n : Nat)
    (hafters : afters.length = lines.length) :
    ∃ w'', readLines n j ((lines.map fun l =>
        serverText server (njoinText name (l.map Newcomer.entry))).zip afters) w' = .ok w'' ∧
      Holds w (t.admitAll w.now name lines.flatten) w'' := by
  induction lines generalizing t w' afters with
  | nil => exact ⟨w', rfl, hs⟩
  | cons l lines ih =>
    obtain ⟨after, afters, rfl⟩ : ∃ after rest, afters = after :: rest :=
      List.exists_cons_of_length_pos (by rw [hafters, List.length_cons]; omega)
    obtain ⟨hne, hshort⟩ := hlines l (.head _)
    rw [List.flatten_cons] at hms ⊢
    have hfirst : ∀ m ∈ l, m ∈ l ++ lines.flatten := fun m hm => List.mem_append_left _ hm
    -- The state in which the line arrives.
    have hadmissible : Admissible w' w'.chans name l := by
      refine ⟨fun m hm => hms.nick m (hfirst m hm), fun m hm => ?_,
        fun m hm => hs.reached (hms.reached m (hfirst m hm)), fun m hm => ?_, ?_⟩
      · rw [hs.clientSearch]
        exact hms.found m (hfirst m hm)
      · rw [hs.chans, hs.now]
        exact hms.new m (hfirst m hm)
      · have hdistinct := hms.distinct
        rw [List.map_append] at hdistinct
        exact hdistinct.of_append_left
    obtain ⟨b, w₁, hexec, hs₁⟩ := exec_njoin (h.holds hreach hs) (ho.placid hs.toPlacid)
      hserver hname
      hvalid hadmissible hne hshort n after
    rw [hs.chans, hs.now] at hs₁
    obtain ⟨w₂, hread, hs₂⟩ := ih (fun l' hl' => hlines l' (.tail l hl'))
      (hs.trans hs₁) (hreach.admitAll fun m hm => hms.reached m (hfirst m hm)) (hms.rest hvalid)
      (Nat.succ.inj hafters)
    refine ⟨w₂, ?_, by rw [Channels.admitAll_append]; exact hs₂⟩
    rw [List.map_cons, List.zip_cons_cons, readLines_cons hexec, hread]

/-- The members after all. -/
theorem Channels.flagsOf_admitAll (hvalid : channelIsValidName name = true)
    (hms : Admissible w t name ms) :
    ((t.admitAll w.now name ms).opened w.now name).1 = (t.opened w.now name).1 ∧
      (∀ m ∈ ms, (t.admitAll w.now name ms).flagsOf (t.opened w.now name).1 m.client =
        some (givenFlags m.modes)) ∧
      ∀ q, (∀ m ∈ ms, m.client ≠ q) → (t.admitAll w.now name ms).flagsOf (t.opened w.now name).1 q =
        t.flagsOf (t.opened w.now name).1 q := by
  induction ms generalizing t with
  | nil => exact ⟨rfl, nofun, fun _ _ => rfl⟩
  | cons m ms ih =>
    have hopened := t.opened_letIn w.now hvalid m.client (givenFlags m.modes)
    obtain ⟨hsame, hmembers, hothers⟩ := ih (hms.tail hvalid (givenFlags m.modes))
    rw [hopened] at hsame hmembers hothers
    have hunique : ∀ k ∈ ms, k.client ≠ m.client := by
      intro k hk heq
      have hmem : m.client ∈ ms.map (·.client) := List.mem_map.mpr ⟨k, hk, heq⟩
      exact (List.nodup_cons.mp hms.distinct).1 hmem
    refine ⟨hsame, fun k hk => ?_, fun q hq => ?_⟩
    · rcases List.mem_cons.mp hk with rfl | hk
      · exact (hothers k.client hunique).trans (t.flagsOf_letIn_self w.now)
      · exact hmembers k hk
    · have hne : q ≠ m.client := (hq m (.head _)).symm
      rw [admitAll, List.foldl_cons, ← admitAll, hothers q fun k hk => hq k (.tail m hk),
        t.flagsOf_letIn_ne w.now hne]

theorem Channels.search_admitAll (now : Nat) (hvalid : channelIsValidName name = true)
    (hne : ms ≠ []) :
    (t.admitAll now name ms).search name = some (t.opened now name).1 := by
  induction ms generalizing t with
  | nil => exact absurd rfl hne
  | cons m ms ih =>
    by_cases hnil : ms = []
    · subst hnil
      exact (t.letIn_spec now hvalid m.client (givenFlags m.modes)).2.1
    · rw [admitAll, List.foldl_cons, ← admitAll, ih hnil, t.opened_letIn now hvalid]

end

/-! ## Members of a channel -/

section

variable {σ : ClientRef → ClientRef}

/-- No NJOIN line for the channel is too long once the name of the server is in front of it. -/
def World.NjoinFits (w : World) (ch : ChanRef) (name server : Str) : Prop :=
  ∀ line ∈ w.njoinLines ch name, server.length + njoinLength name line ≤ 508

section

variable (hname : name.length < channelNameLen)
  (hbound : ∀ r ∈ w.membersOf ch, (w.nameOf r).length ≤ bound)
include hname hbound

/-- The lines are not empty, have entries of members only and are not much longer than the limit. -/
theorem World.njoinLines_spec (hline : line ∈ w.njoinLines ch name) :
    line ≠ [] ∧ (∀ e ∈ line, e ∈ w.njoinEntries ch) ∧ njoinLength name line ≤ 479 + bound := by
  have hflat : (w.njoinLines ch name).flatten = w.njoinEntries ch := flatten_pack _ _ _ _
  have hentry : ∀ e ∈ w.njoinEntries ch, e.length ≤ bound + 5 := by
    intro e he
    obtain ⟨r, hr, rfl⟩ := List.mem_map.mp he
    have hle := length_njoinEntry ((w.chans.flagsOf ch r).getD []) (w.nameOf r)
    have hnick := hbound r hr
    omega
  rcases exists_of_mem_pack (njoinLength name) njoinLimit (.inl rfl) hline with ⟨-, hne⟩ |
    ⟨front, e, he, rfl, hfront⟩
  · exact absurd rfl hne
  · refine ⟨by simp, fun e' he' => ?_, ?_⟩
    · rw [← hflat]
      exact List.mem_flatten.mpr ⟨_, hline, he'⟩
    · have hlast := hentry e he
      have hlength : njoinLength name (front ++ [e]) = njoinLength name front + (e.length + 1) := by
        simp only [njoinLength, List.map_append, List.sum_append]
        simp
        omega
      rw [hlength]
      rcases hfront with rfl | hfront
      · simp only [njoinLength, List.map_nil, List.sum_nil, channelNameLen] at *
        omega
      · simp only [njoinLimit, commandLen, clientNickLen] at hfront
        omega

/-- With short names there is room in every line. -/
theorem World.njoinFits_of_short (hshort : server.length + bound ≤ 29) :
    w.NjoinFits ch name server := by
  intro line hline
  obtain ⟨-, -, hlength⟩ := World.njoinLines_spec hname hbound hline
  omega

end

/-- The other server knows the users under the same nicknames. -/
structure SameUsers (w p : World) (members : List ClientRef) (σ : ClientRef → ClientRef) :
    Prop where
  found : ∀ r ∈ members, p.clientSearch (w.nameOf r) = some (σ r)
  reached : ∀ r ∈ members, p.Reached (σ r)
  distinct : (members.map σ).Nodup

/-- The members of a channel as another server sees them. -/
def World.newcomers (w : World) (ch : ChanRef) (σ : ClientRef → ClientRef) : List Newcomer :=
  (w.membersOf ch).map fun r => ⟨σ r, (w.chans.flagsOf ch r).getD [], w.nameOf r⟩

theorem World.newcomers_entries (w : World) (ch : ChanRef) (σ : ClientRef → ClientRef) :
    (w.newcomers ch σ).map Newcomer.entry = w.njoinEntries ch := by
  simp [newcomers, njoinEntries, Newcomer.entry, Function.comp_def]

theorem SameUsers.admissible (h : SameUsers w p (w.membersOf ch) σ)
    (hnicks : ∀ r ∈ w.membersOf ch, IsNick (w.nameOf r))
    (hempty : ∀ q, p.chans.flagsOf (p.chans.opened p.now name).1 q = none) :
    Admissible p p.chans name (w.newcomers ch σ) where
  nick m hm := by
    obtain ⟨r, hr, rfl⟩ := List.mem_map.mp hm
    exact hnicks r hr
  found m hm := by
    obtain ⟨r, hr, rfl⟩ := List.mem_map.mp hm
    exact h.found r hr
  reached m hm := by
    obtain ⟨r, hr, rfl⟩ := List.mem_map.mp hm
    exact h.reached r hr
  new m _ := hempty m.client
  distinct := by
    rw [World.newcomers, List.map_map]
    exact h.distinct

/-- The peer has the members of the channel, with their flags, and no others. -/
structure SameMembers (w : World) (ch : ChanRef) (p : World) (ch' : ChanRef)
    (σ : ClientRef → ClientRef) : Prop where
  member : ∀ r ∈ w.membersOf ch, ∃ flags flags', w.chans.flagsOf ch r = some flags ∧
    p.chans.flagsOf ch' (σ r) = some flags' ∧ ∀ f, f ∈ flags' ↔ f ∈ flags
  other : ∀ q, (∀ r ∈ w.membersOf ch, σ r ≠ q) → p.chans.flagsOf ch' q = none

/-- The peer ends with the members of the channel if no line is cut. -/
theorem readLines_njoinLines (hw : Healthy w) (hpeer : p.Hears j r) (ho : p.BehindLink r server o)
    (hserver : IsWord server) (hname : name ≠ []) (hvalid : channelIsValidName name = true)
    (hnicks : ∀ r ∈ w.membersOf ch, IsNick (w.nameOf r))
    (hflags : ∀ r ∈ w.membersOf ch, ∀ flags ∈ w.chans.flagsOf ch r, ∀ f ∈ flags, f ∈ "qaohv".toList)
    (hknown : SameUsers w p (w.membersOf ch) σ)
    (hempty : ∀ q, p.chans.flagsOf (p.chans.opened p.now name).1 q = none)
    (hfits : w.NjoinFits ch name server) (n : Nat)
    (hafters : afters.length = (w.njoinLines ch name).length) :
    ∃ p', readLines n j (((w.njoinLines ch name).map fun line =>
        serverText server (njoinText name line)).zip afters) p = .ok p' ∧
      (w.membersOf ch ≠ [] → ∃ ch', p'.channelSearch name = some ch' ∧
        SameMembers w ch p' ch' σ) := by
  have hadm := hknown.admissible hnicks hempty
  have hlines : w.njoinLines ch name = (pack (fun l => njoinLength name (l.map Newcomer.entry))
      njoinLimit [] (w.newcomers ch σ)).map (List.map Newcomer.entry) := by
    rw [← pack_map, List.map_nil, World.newcomers_entries, World.njoinLines]
  have hflat := flatten_pack (fun l => njoinLength name (l.map Newcomer.entry)) njoinLimit []
    (w.newcomers ch σ)
  rw [World.NjoinFits] at hfits
  rw [hlines] at hafters hfits ⊢
  rw [List.length_map] at hafters
  have hshort : ∀ l ∈ pack (fun l => njoinLength name (l.map Newcomer.entry)) njoinLimit []
      (w.newcomers ch σ), l ≠ [] ∧
        server.length + (njoinText name (l.map Newcomer.entry)).length ≤ 508 := by
    intro l hl
    have hne : l ≠ [] := by
      rcases exists_of_mem_pack _ _ (.inl rfl) hl with ⟨-, hne⟩ | ⟨front, e, -, rfl, -⟩
      · exact absurd rfl hne
      · simp
    refine ⟨hne, ?_⟩
    rw [length_njoinText (by simpa using hne)]
    exact hfits _ (List.mem_map_of_mem hl)
  rw [List.nil_append] at hflat
  obtain ⟨p', hread, hholds⟩ := readLines_njoin hpeer ho hserver hname hvalid hshort (Holds.refl p)
    (fun e he => hpeer.healthy.member e he) (by rw [hflat]; exact hadm) n hafters
  rw [hflat] at hholds
  obtain ⟨-, hmembers, hothers⟩ := Channels.flagsOf_admitAll hvalid hadm
  refine ⟨p', by rw [List.map_map]; exact hread,
    fun hsome => ⟨(p.chans.opened p.now name).1, ?_, ?_⟩⟩
  · change p'.chans.search name = _
    rw [hholds.chans]
    exact Channels.search_admitAll p.now hvalid (by simpa [World.newcomers] using hsome)
  · refine ⟨fun r hr => ?_, fun q hq => ?_⟩
    · obtain ⟨d, e, -, he⟩ := exists_of_mem_membersOf hw hr
      have hfound : w.chans.flagsOf ch r = some e.modes := by
        rw [Channels.flagsOf]
        exact Option.map_eq_some_iff.mpr ⟨e, he, rfl⟩
      refine ⟨e.modes, givenFlags e.modes, hfound, ?_, fun f => ?_⟩
      · rw [hholds.chans]
        have hadmitted := hmembers ⟨σ r, (w.chans.flagsOf ch r).getD [], w.nameOf r⟩
          (List.mem_map.mpr ⟨r, hr, rfl⟩)
        simpa [hfound] using hadmitted
      · rw [mem_givenFlags]
        exact ⟨And.left, fun hf => ⟨hf, hflags r hr e.modes hfound f hf⟩⟩
    · rw [hholds.chans, hothers q, hempty q]
      intro m hm
      obtain ⟨r, hr, rfl⟩ := List.mem_map.mp hm
      exact hq r hr

/-- The NJOIN lines of `Announce_Channel` have every member of the channel exactly once, with
its nickname and its flags, if and only if no line is too long with the name of the server in
front of it; and then a peer that knows the users ends with the same members and flags.  Names
of servers and users that are no longer than 29 characters together are short enough. -/
theorem njoin_reproduces (h : w.Speaks i client this) (hnjoin : (w.conns i).rfc1459 = false)
    (hflag : ∃ d, w.heap client = some d ∧ d.hasFlag 'X' = true) (hc : w.chans.heap ch = some c)
    (hname : c.name ≠ []) (hvalid : channelIsValidName c.name = true)
    (hserver : IsWord this.nameOrStar) (hlength : this.nameOrStar.length < clientIdLen)
    (hlimit : w.conf.maxNickLength ≤ clientNickLen)
    (hnicks : ∀ r ∈ w.membersOf ch, w.clientIsValidNick (w.nameOf r) = true)
    (hflags : ∀ r ∈ w.membersOf ch, ∀ flags ∈ w.chans.flagsOf ch r, ∀ f ∈ flags, f ∈ "qaohv".toList)
    (hpeer : p.Hears j r) (ho : p.BehindLink r this.nameOrStar o)
    (hknown : SameUsers w p (w.membersOf ch) σ)
    (hempty : ∀ q, p.chans.flagsOf (p.chans.opened p.now c.name).1 q = none) (n m : Nat) :
    ∃ (w' : World) (lines : List Str),
      execMsg n (announceChannel client ch).toMsg w = .ok (connected, w') ∧
      w'.sent = w.sent ++ lines.map (i, ·) ∧
      ((lines.flatMap entriesIn).Perm (w.njoinEntries ch) ↔ w.NjoinFits ch c.name this.nameOrStar) ∧
      (w.NjoinFits ch c.name this.nameOrStar → ∀ afters, afters.length = lines.length →
        ∃ p', readLines m j (lines.zip afters) p = .ok p' ∧
          (w.membersOf ch ≠ [] →
            ∃ ch', p'.channelSearch c.name = some ch' ∧ SameMembers w ch p' ch' σ)) ∧
      ∀ bound, (∀ r ∈ w.membersOf ch, (w.nameOf r).length ≤ bound) →
        this.nameOrStar.length + bound ≤ 29 → w.NjoinFits ch c.name this.nameOrStar := by
  have hnick (r : ClientRef) (hr : r ∈ w.membersOf ch) : IsNick (w.nameOf r) :=
    .of_valid (hnicks r hr) hlimit
  have hmembers : ∀ r ∈ w.membersOf ch, ∃ d modes, w.heap r = some d ∧ IsNick d.nameOrStar ∧
      w.chans.flagsOf ch r = some modes := by
    intro r hr
    obtain ⟨d, e, hd, he⟩ := exists_of_mem_membersOf h.healthy hr
    have hname := hnick r hr
    rw [World.nameOf, hd] at hname
    exact ⟨d, e.modes, hd, hname, Option.map_eq_some_iff.mpr ⟨e, he, rfl⟩⟩
  have hshort := length_of_valid hvalid
  have hflat : (w.njoinLines ch c.name).flatten = w.njoinEntries ch := flatten_pack _ _ _ _
  have hnickLength : ∀ r ∈ w.membersOf ch, (w.nameOf r).length ≤ 31 :=
    fun r hr => Nat.le_of_lt_succ (hnick r hr).short
  have hspec {line : List Str} (hline : line ∈ w.njoinLines ch c.name) :=
    World.njoinLines_spec hshort hnickLength hline
  obtain ⟨w', hrun, htells⟩ := (announceChannel_sends h hnjoin hflag hc hshort hmembers).run n
  refine ⟨w', (w.njoinLines ch c.name).map fun line =>
    serverText this.nameOrStar (njoinText c.name line),
    hrun, ?_, ?_, fun hfits afters hafters => ?_, fun bound hbound hle => ?_⟩
  · rw [htells.sends.sent, List.map_map]
    rfl
  · rw [List.flatMap_map, ← hflat,
      entriesIn_complete hserver.space hlength (isMiddle_of_valid hname hvalid) hshort]
    · refine forall₂_congr fun line hline => ?_
      rw [length_njoinText (hspec hline).1]
    · intro line hline
      obtain ⟨hne, hentries, hbound⟩ := hspec hline
      refine ⟨hne, fun e he => ?_, by rw [length_njoinText hne]; omega⟩
      obtain ⟨r, hr, rfl⟩ := List.mem_map.mp (hentries e he)
      exact (hnick r hr).separable _
  · exact readLines_njoinLines h.healthy hpeer ho hserver hname hvalid hnick hflags hknown hempty
      hfits m
      (by simpa using hafters)
  · exact World.njoinFits_of_short hshort hbound hle

end

/-- A server with two users on a channel, and one at the other end of a link. -/
def pairServer : SmallNet where
  clients := [
    { id := "irc.a", type := .server, introducer := 0 },
    { id := "irc.b", type := .server, connId := some 1, introducer := 1, flags := "CLMSX" },
    { id := "alice", type := .user, connId := some 2, introducer := 2 },
    { id := "bob", type := .user, connId := some 3, introducer := 3 }]
  chans :=
    { heap := fun ch => if ch = 0 then some { name := "#c" } else none
      order := [0]
      nextRef := 1
      cl2chan := [{ client := 3, channel := 0 }, { client := 2, channel := 0, modes := "ov" }] }
  conf := { maxNickLength := 10 }

@[inherit_doc pairServer]
def pairPeer : SmallNet where
  clients := [
    { id := "irc.b", type := .server, introducer := 0 },
    { id := "irc.a", type := .server, connId := some 1, introducer := 1 },
    { id := "alice", type := .user, introducer := 1 },
    { id := "bob", type := .user, introducer := 1 }]

theorem njoin_reproduces_pair :
    ∃ (w' : World) (lines : List Str),
      execMsg 0 (announceChannel 1 0).toMsg pairServer.world = .ok (connected, w') ∧
      w'.sent = pairServer.world.sent ++ lines.map (1, ·) ∧
      ((lines.flatMap entriesIn).Perm (pairServer.world.njoinEntries 0) ↔
        pairServer.world.NjoinFits 0 "#c" "irc.a") ∧
      (pairServer.world.NjoinFits 0 "#c" "irc.a" → ∀ afters, afters.length = lines.length →
        ∃ p', readLines 0 1 (lines.zip afters) pairPeer.world = .ok p' ∧
          (pairServer.world.membersOf 0 ≠ [] →
            ∃ ch', p'.channelSearch "#c" = some ch' ∧ SameMembers pairServer.world 0 p' ch' id)) ∧
      ∀ bound, (∀ r ∈ pairServer.world.membersOf 0, (pairServer.world.nameOf r).length ≤ bound) →
        "irc.a".toList.length + bound ≤ 29 → pairServer.world.NjoinFits 0 "#c" "irc.a" := by
  have hspeaks : pairServer.world.Speaks 1 1 { id := "irc.a", type := .server, introducer := 0 } :=
    { healthy := SmallNet.Linked.healthy (by decide)
      calm := SmallNet.calm _
      peer := ⟨⟨_, rfl, rfl, rfl⟩, by decide⟩
      this := rfl }
  have hpeer : pairPeer.world.Hears 1 1 :=
    { healthy := SmallNet.Linked.healthy (by decide)
      calm := SmallNet.calm _
      link := ⟨_, ⟨by decide, rfl, rfl⟩, rfl⟩
      back := ⟨_, 1, _, rfl, rfl, rfl, by decide⟩ }
  have hbehind : pairPeer.world.BehindLink 1 "irc.a" 1 := ⟨by decide, rfl⟩
  have hmembers : pairServer.world.membersOf 0 = [3, 2] := by decide
  have hknown : SameUsers pairServer.world pairPeer.world (pairServer.world.membersOf 0) id := by
    rw [hmembers]
    refine ⟨by decide, fun r hr => ?_, by decide⟩
    simp only [List.mem_cons, List.not_mem_nil, or_false] at hr
    rcases hr with rfl | rfl
    · exact ⟨_, 1, _, rfl, rfl, rfl, by decide⟩
    · exact ⟨_, 1, _, rfl, rfl, rfl, by decide⟩
  exact njoin_reproduces hspeaks rfl ⟨_, rfl, by decide⟩ (c := { name := "#c" }) rfl (by decide)
    (by decide)
    ⟨by decide, by decide, by decide, by decide⟩ (by decide) (by decide) (by decide)
    (by decide) hpeer
    hbehind hknown (fun _ => rfl) 0 0

/-- Fourteen nicknames of 31 characters. -/
def crowdNicks : List Str :=
  (List.range 14).map fun k => Char.ofNat (97 + k) :: List.replicate 30 'n'

/-- A server name of 55 characters. -/
def crowdName : Str := "irc.".toList ++ List.replicate 51 's'

/-- A server with a long name and a crowd of users on a channel. -/
def crowdServer : SmallNet where
  clients := [
    { id := crowdName, type := .server, introducer := 0 },
    { id := "irc.b", type := .server, connId := some 1, introducer := 1, flags := "CLMSX" }] ++
    crowdNicks.map fun nick => { id := nick, type := .user, introducer := 1 }
  chans :=
    { heap := fun ch => if ch = 0 then some { name := "#c" } else none
      order := [0]
      nextRef := 1
      cl2chan := (List.range 14).map fun k => { client := k + 2, channel := 0 } }
  conf := { maxNickLength := 32 }

/-- The server at the other end of the link. -/
def crowdPeer : SmallNet where
  clients := [
    { id := "irc.b", type := .server, introducer := 0 },
    { id := crowdName, type := .server, connId := some 1, introducer := 1 }] ++
    crowdNicks.map fun nick => { id := nick, type := .user, introducer := 1 }

/-- The lines that are sent for the crowd. -/
def crowdLines : List Str :=
  (linesOf (execMsg 0 (announceChannel 1 0).toMsg crowdServer.world)).map (·.2)

/-- The one line for the crowd is cut, and the last user is not on the channel of the peer. -/
theorem njoin_member_lost :
    crowdServer.world.clientIsValidNick (crowdServer.world.nameOf 15) = true ∧
      15 ∈ crowdServer.world.membersOf 0 ∧
      crowdLines.map (·.length) = [510] ∧
      crowdServer.world.nameOf 15 ∉ crowdLines.flatMap entriesIn ∧
      flagsAfter "#c" 14 (readLines 0 1 (crowdLines.map (·, [])) crowdPeer.world) = some [] ∧
      flagsAfter "#c" 15 (readLines 0 1 (crowdLines.map (·, [])) crowdPeer.world) = none := by
  decide +kernel

end Ngircd
