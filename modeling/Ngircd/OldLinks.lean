import Ngircd.Joining

/-!
# Links to servers that only know RFC 1459

The flags of a new member of a channel go to other servers with its JOIN
command.  A server that only knows RFC 1459 gets a MODE command instead, which
has all the flags but the nickname only once.  Its peer takes the first flag from
it and ends there.
-/

namespace Ngircd

open Lib Prog

variable {w p : World} {i j : ConnId} {peer target r o : ClientRef} {this t : Client} {ch : ChanRef}
  {e : Cl2Chan} {name modes flags : Str} {m f : Char} {auto : Bool}

/-! ## The lines -/

/-- The lines of `cb_join_forward` for a server that only knows RFC 1459. -/
def joinTexts (nick name modes : Str) : List Str :=
  serverText nick (format "JOIN %s" [name]) ::
    if modes.isEmpty then [] else [serverText nick (format "MODE %s +%s %s" [name, modes, nick])]

section

variable {p' : World} {c : Channel} {nick : Str}

theorem cbJoinForward_tells (h : w.Speaks i peer this) (hold : (w.conns i).rfc1459 = true)
    (ht : w.heap target = some t) (name modes : Str) :
    (cbJoinForward target name modes peer).wp quietWp (fun _ w' =>
      Tells ((joinTexts t.nameOrStar name modes).map fun line => (i, line)) w w') w := by
  obtain ⟨d, hd, -, hconn⟩ := h.peer.cell
  unfold cbJoinForward joinTexts
  simp only [wp_bind, wp_deref, onClient_of_some hd, hconn, wp_connOf_some, wp_getWorld, hold,
    if_true]
  refine wp_mono (fun _ w₁ hw₁ => ?_) (ircWriteStrClientPrefix_tells h ht _)
  have ht₁ : w₁.heap target = some t := by rw [hw₁.2.sends.heap, ht]
  cases modes with
  | nil => exact hw₁.2
  | cons m rest =>
    simp only [List.isEmpty_cons, Bool.not_false, if_true, wp_bind, wp_clientID,
      onClient_of_some ht₁]
    refine wp_mono (fun _ w₂ hw₂ => ?_) (ircWriteStrClientPrefix_tells (h.told hw₁.2) ht₁ _)
    exact hw₁.2.append hw₂.2

/-! ## What the peer makes of them -/

/-- The peer adds the client to the channel. -/
theorem exec_join (h : p.Hears j r) (ho : p.Sender r nick o) (hreach : p.Reached o)
    (hvalid : channelIsValidName name = true) (hname : IsWord name) (hnick : IsWord nick)
    (hlength : nick.length < clientIdLen)
    (hnew : p.chans.flagsOf (p.chans.opened p.now name).1 o = none) (n : Nat) (after : Str) :
    ∃ b p', exec n (parseRequest j (serverText nick (format "JOIN %s" [name])) after) p = .ok (b, p') ∧
      ∃ ch, Joined p name o (if p.autoOps name o then ['o'] else []) ch p' := by
  have hshort : nick.length + ("JOIN".toList ++ ' ' :: unwords [name]).length ≤ 508 := by
    have hchannel := length_of_valid hvalid
    simp only [unwords, List.length_append, List.length_cons, clientIdLen, channelNameLen] at *
    change nick.length + (4 + (name.length + 1)) ≤ 508
    omega
  have htext : format "JOIN %s" [name] = "JOIN".toList ++ ' ' :: unwords [name] := by
    simp [format, unwords]
  have hfind : findCommand "JOIN" = some ⟨"JOIN", .join, .userOrServer, 1, some 2, 0⟩ := by decide
  rw [htext]
  refine exec_words h ho.behind hnick (by decide) (by decide) (by simp) (by simpa using hname) hshort
    hfind (by decide) (by simp) (fun _ => rfl) ?_ (fun beyond => ?_) n after
  · rintro p' counts ⟨ch, hjoined⟩
    exact ⟨ch, hjoined.withCounts counts⟩
  · exact ircJoin_server h ho hreach hvalid hname.ne hnew rfl rfl

theorem isWord_flags (h : ∀ f ∈ modes, f ∈ "qaohv".toList) : IsWord ('+' :: modes) := by
  refine isWord_of_letters "+qaohv" (List.cons_ne_nil _ _) (fun f hf => ?_) (by decide)
  rcases List.mem_cons.mp hf with rfl | hf
  · decide
  · exact .tail '+' (h f hf)

/-- The peer gives the client the first of the flags, if the channel has modes at all. -/
theorem exec_flags (h : p.Hears j r) (ho : p.Sender r nick o) (hch : p.channelSearch name = some ch)
    (hc : p.chans.heap ch = some c) (hmember : p.chans.flagsOf ch o = some flags)
    (hvalid : channelIsValidName name = true) (hname : IsWord name) (hnick : IsWord nick)
    (hlength : nick.length < clientIdLen)
    (hmodes : ∀ f ∈ m :: modes, f ∈ "qaohv".toList) (hfew : (m :: modes).length < channelModeLen)
    (n : Nat) (after : Str) :
    ∃ b p', exec n (parseRequest j (serverText nick
        (format "MODE %s +%s %s" [name, m :: modes, nick])) after) p = .ok (b, p') ∧
      ModesAt p ch (if c.isModeless then p.chans.modeState ch c
        else (Change.member true m o).apply (p.chans.modeState ch c)) p' := by
  have hshort : nick.length + ("MODE".toList ++ ' ' :: unwords [name, '+' :: m :: modes, nick]).length ≤
      508 := by
    have hchannel := length_of_valid hvalid
    simp only [unwords, List.length_append, List.length_cons, clientIdLen, channelNameLen,
      channelModeLen] at *
    change nick.length + (4 + _) ≤ 508
    omega
  have htext : format "MODE %s +%s %s" [name, m :: modes, nick] =
      "MODE".toList ++ ' ' :: unwords [name, '+' :: m :: modes, nick] := by
    simp [format, unwords]
  have hfind : findCommand "MODE" = some ⟨"MODE", .mode, .userOrServer, 1, none, 1⟩ := by decide
  have hsigned : signed true ('+' :: m :: modes) =
      [Change.member true m o].map (fun δ => (δ.sets, δ.letter)) ++ modes.map (true, ·) := by
    have hletter : ∀ f ∈ "qaohv".toList, f ≠ '+' ∧ f ≠ '-' := by decide
    rw [signed, if_pos (.inl rfl)]
    exact signed_letters true fun f hf => hletter f (hmodes f hf)
  rw [htext]
  refine exec_words h ho.behind hnick (by decide) (by decide) (by simp) ?_ hshort hfind (by decide)
    (by simp) (fun _ => rfl) (fun _ counts hmodes => hmodes.withCounts counts)
      (fun beyond => ?_) n after
  · simp only [List.mem_cons, List.not_mem_nil, or_false]
    rintro q (rfl | rfl | rfl)
    · exact hname
    · exact isWord_flags hmodes
    · exact hnick
  · by_cases hmodeless : c.isModeless = true
    · rw [if_pos hmodeless]
      exact wp_ircMode_server h ho hch hvalid rfl rfl (channelMode_modeless h hc hmodeless)
    · rw [if_neg hmodeless]
      refine ircMode_machine h ho hch hc hvalid (by simpa using hmodeless) rfl rfl
        (fun δ (hδ : δ ∈ [Change.member true m o]) => ?_) (fun x hx => ?_) hsigned ?_
      · rw [List.mem_singleton.mp hδ]
        exact hmodes m (.head _)
      · obtain ⟨f, hf, rfl⟩ := List.mem_map.mp (List.mem_of_mem_head? hx)
        exact hmodes f (.tail m hf)
      · exact ⟨[], ⟨nick, rfl, ho.behind.1, by simp [Channels.modeState, hmember]⟩, rfl⟩

/-! ## Both lines -/

/-- The flags a new member gets on the other server, where it has the flags `own` already. -/
def learnedFlags (own : Str) (name : Str) : Str → Str
  | [] => own
  | m :: _ => if name.head? = some '+' then own else modesAdd own m

theorem isModeless_of_strcaseEq (h : strcaseEq name c.name = true) :
    c.isModeless = true ↔ name.head? = some '+' := by
  rw [strcaseEq, beq_iff_eq] at h
  have hhead := congrArg List.head? h
  simp only [lowerStr, List.head?_map] at hhead
  have hplus (s : Str) : s.head?.map Char.toLower = some '+' ↔ s.head? = some '+' := by
    constructor
    · intro hs
      obtain ⟨x, hx, hlower⟩ := Option.map_eq_some_iff.mp hs
      rw [hx, eq_of_toLower (by decide) hlower]
    · intro hs
      rw [hs]
      rfl
  rw [Channel.isModeless, beq_iff_eq, ← hplus c.name, ← hhead, hplus]

/-- The peer handles the lines one after the other. -/
theorem readLines_joinTexts (h : p.Hears j r) (ho : p.Sender r nick o) (hreach : p.Reached o)
    (hvalid : channelIsValidName name = true) (hname : IsWord name) (hnick : IsWord nick)
    (hlength : nick.length < clientIdLen)
    (hnew : p.chans.flagsOf (p.chans.opened p.now name).1 o = none)
    (hmodes : ∀ f ∈ modes, f ∈ "qaohv".toList) (hfew : modes.length < channelModeLen) (n : Nat)
    {afters : List Str} (hafters : afters.length = (joinTexts nick name modes).length) :
    ∃ p', readLines n j ((joinTexts nick name modes).zip afters) p = .ok p' ∧
      ∃ ch, p'.channelSearch name = some ch ∧ p'.chans.flagsOf ch o =
        some (learnedFlags (if p.autoOps name o then ['o'] else []) name modes) := by
  obtain ⟨after, afters, rfl⟩ : ∃ after rest, afters = after :: rest :=
    List.exists_cons_of_length_pos (by rw [hafters, joinTexts, List.length_cons]; omega)
  obtain ⟨b, p₁, hexec, ch, hjoined⟩ :=
    exec_join h ho hreach hvalid hname hnick hlength hnew n after
  rw [joinTexts, List.zip_cons_cons, readLines_cons hexec]
  cases modes with
  | nil => exact ⟨p₁, rfl, ch, hjoined.search, hjoined.flags⟩
  | cons m rest =>
    obtain ⟨after', rfl⟩ : ∃ after', afters = [after'] := by
      rw [joinTexts, if_neg (by simp)] at hafters
      exact List.length_eq_one_iff.mp (Nat.succ.inj hafters)
    obtain ⟨c, hc, hcase⟩ := hjoined.chan
    obtain ⟨d, hd⟩ := ho.cell
    obtain ⟨host, hd₁⟩ := hjoined.heap_some hd
    have hhears : p₁.Hears j r :=
      h.placid hjoined.toPlacid (hjoined.healthy_of_reached hjoined.reach h.healthy)
    have hsender : p₁.Sender r nick o :=
      ⟨ho.behind.placid hjoined.toPlacid, by rw [hjoined.thisServer]; exact ho.other, _, hd₁⟩
    obtain ⟨b', p₂, hexec', hmodesAt⟩ := exec_flags hhears hsender hjoined.search hc hjoined.flags
      hvalid hname hnick hlength hmodes hfew n after'
    obtain ⟨c', -, hstate⟩ := hmodesAt.state
    refine ⟨p₂, readLines_cons hexec', ch, by rw [hmodesAt.channelSearch, hjoined.search], ?_⟩
    have hflags : p₂.chans.flagsOf ch o = _ := congrFun (congrArg ModeState.flags hstate) o
    rw [hflags, learnedFlags]
    by_cases hplus : name.head? = some '+'
    · rw [if_pos ((isModeless_of_strcaseEq hcase).mpr hplus), if_pos hplus]
      exact hjoined.flags
    · rw [if_neg (fun hless => hplus ((isModeless_of_strcaseEq hcase).mp hless)), if_neg hplus]
      simp [Change.apply, Channels.modeState, hjoined.flags, changeModes]

theorem mem_modesAdd_own :
    f ∈ modesAdd (if auto then ['o'] else []) m ↔ f = m ∨ (f = 'o' ∧ auto = true) := by
  cases auto with
  | false => simp [modesAdd, strlcat, channelModeLen]
  | true =>
    by_cases hm : m = 'o'
    · simp [modesAdd, hm]
    · simp [modesAdd, hm, strlcat, channelModeLen, or_comm]

theorem mem_learnedFlags :
    f ∈ learnedFlags (if auto then ['o'] else []) name modes ↔
      (modes.head? = some f ∧ name.head? ≠ some '+') ∨ (f = 'o' ∧ auto = true) := by
  have hown : f ∈ (if auto then ['o'] else []) ↔ f = 'o' ∧ auto = true := by cases auto <;> simp
  cases modes with
  | nil => simp [learnedFlags, hown]
  | cons m rest =>
    rw [learnedFlags]
    split
    · rename_i hplus
      simp [hown, hplus]
    · rename_i hplus
      simp [mem_modesAdd_own, hplus, eq_comm]

end

/-! ## A user that joins -/

/-- A user that joins a channel with some flags has the same flags on a server that only
knows RFC 1459 if and only if each of them is either the first one, on a channel that has
modes, or is given to the user by that server itself. -/
theorem rfc1459_flags_learned (h : w.Speaks i peer this) (hold : (w.conns i).rfc1459 = true)
    (ht : w.heap target = some t) (hnick : IsWord t.nameOrStar)
    (hlength : t.nameOrStar.length < clientIdLen) (hvalid : channelIsValidName name = true)
    (hname : IsWord name) (hmember : w.getCl2Chan ch target = some e)
    (hflags : ∀ f ∈ e.modes, f ∈ "qaohv".toList) (hnodup : e.modes.Nodup) (hpeer : p.Hears j r)
    (ho : p.Sender r t.nameOrStar o) (hreach : p.Reached o)
    (hnew : p.chans.flagsOf (p.chans.opened p.now name).1 o = none) (n m : Nat) :
    ∃ (w' : World) (lines : List Str), execMsg n (do
        cbJoinForward target name (strlcpy (← channelUserModes ch target) (channelModeLen - 1))
          peer) w =
          .ok ((), w') ∧
      w'.sent = w.sent ++ lines.map (i, ·) ∧
      ∀ afters, afters.length = lines.length → ∃ p' ch' flags,
        readLines m j (lines.zip afters) p = .ok p' ∧ p'.channelSearch name = some ch' ∧
        p'.chans.flagsOf ch' o = some flags ∧
        ((∀ f, f ∈ flags ↔ f ∈ e.modes) ↔
          (∀ f ∈ e.modes, (e.modes.head? = some f ∧ name.head? ≠ some '+') ∨
            (f = 'o' ∧ p.autoOps name o = true)) ∧ (p.autoOps name o = true → 'o' ∈ e.modes)) := by
  have hfew : e.modes.length ≤ 5 := (hnodup.subperm fun f hf => hflags f hf).length_le
  have hcopy : strlcpy e.modes (channelModeLen - 1) = e.modes :=
    List.take_of_length_le (by simp only [channelModeLen]; omega)
  have hrun : ((do
      cbJoinForward target name (strlcpy (← channelUserModes ch target) (channelModeLen - 1)) peer) :
        Msg Unit).wp quietWp (fun _ w' =>
          Tells ((joinTexts t.nameOrStar name e.modes).map (i, ·)) w w') w := by
    simp only [channelUserModes, wp_bind, wp_getWorld, hmember, wp_pure, hcopy]
    exact cbJoinForward_tells h hold ht name e.modes
  obtain ⟨_, w', hexec, htells⟩ := execMsg_of_wp hrun n
  refine ⟨w', _, hexec, htells.sends.sent, fun afters hafters => ?_⟩
  obtain ⟨p', hread, ch', hsearch, hlearned⟩ := readLines_joinTexts hpeer ho hreach hvalid hname hnick
    hlength hnew hflags (by simp only [channelModeLen]; omega) m hafters
  refine ⟨p', ch', _, hread, hsearch, hlearned, ?_⟩
  simp only [mem_learnedFlags]
  constructor
  · intro hsame
    exact ⟨fun f hf => (hsame f).mpr hf, fun hauto => (hsame 'o').mp (.inr ⟨rfl, hauto⟩)⟩
  · rintro ⟨hall, hauto⟩ f
    refine ⟨?_, hall f⟩
    rintro (⟨hhead, -⟩ | ⟨rfl, hf⟩)
    · exact List.mem_of_mem_head? hhead
    · exact hauto hf

/-- A server where Alice has just joined a channel. -/
def joinNet (flags : Str) : SmallNet where
  clients := [
    { id := "irc.a", type := .server, introducer := 0 },
    { id := "irc.b", type := .server, connId := some 1, introducer := 1 },
    { id := "alice", type := .user, connId := some 2, introducer := 2 }]
  chans :=
    { heap := fun ch => if ch = 0 then some { name := "#c" } else none
      order := [0]
      nextRef := 1
      cl2chan := [{ client := 2, channel := 0, modes := flags }] }

/-- The other server only knows RFC 1459. -/
def joinServer (flags : Str) : World :=
  (joinNet flags).world.setConn 1 { (joinNet flags).world.conns 1 with rfc1459 := true }

/-- The other server, which does not know the channel. -/
def joinPeer : SmallNet where
  clients := [
    { id := "irc.b", type := .server, introducer := 0 },
    { id := "irc.a", type := .server, connId := some 1, introducer := 1 },
    { id := "alice", type := .user, introducer := 1 }]

theorem joinPeer_hears : joinPeer.world.Hears 1 1 :=
  { healthy := SmallNet.Linked.healthy (by decide)
    calm := SmallNet.calm _
    link := ⟨_, ⟨by decide, rfl, rfl⟩, rfl⟩
    back := ⟨_, 1, _, rfl, rfl, rfl, by decide⟩ }

theorem joinServer_speaks : (joinServer "o").Speaks 1 1
    { id := "irc.a", type := .server, introducer := 0 } := by
  have hquiet : Quiet (joinNet "o").world (joinServer "o") := .setConn ⟨rfl, rfl, rfl, rfl, rfl⟩
  exact
    { healthy := hquiet.healthy (SmallNet.Linked.healthy (by decide))
      calm := hquiet.calm (SmallNet.calm _)
      peer := ⟨⟨_, rfl, rfl, rfl⟩, by decide⟩
      this := rfl }

theorem rfc1459_flags_learned_op :
    ∃ (w' : World) (lines : List Str), execMsg 0 (do
        cbJoinForward 2 "#c" (strlcpy (← channelUserModes 0 2) (channelModeLen - 1)) 1)
          (joinServer "o") = .ok ((), w') ∧
      w'.sent = (joinServer "o").sent ++ lines.map (1, ·) ∧
      ∀ afters, afters.length = lines.length → ∃ p' ch' flags,
        readLines 0 1 (lines.zip afters) joinPeer.world = .ok p' ∧
        p'.channelSearch "#c" = some ch' ∧ p'.chans.flagsOf ch' 2 = some flags ∧
        ((∀ f, f ∈ flags ↔ f ∈ "o".toList) ↔
          (∀ f ∈ "o".toList, ("o".toList.head? = some f ∧ "#c".toList.head? ≠ some '+') ∨
            (f = 'o' ∧ joinPeer.world.autoOps "#c" 2 = true)) ∧
          (joinPeer.world.autoOps "#c" 2 = true → 'o' ∈ "o".toList)) := by
  have hsender : joinPeer.world.Sender 1 "alice" 2 := ⟨⟨by decide, rfl⟩, by decide, _, rfl⟩
  have hmember : (joinServer "o").getCl2Chan 0 2 =
      some { client := 2, channel := 0, modes := "o" } := rfl
  exact rfc1459_flags_learned joinServer_speaks rfl
    (t := { id := "alice", type := .user, connId := some 2, introducer := 2 }) rfl
    ⟨by decide, by decide, by decide, by decide⟩ (by decide) (by decide)
    ⟨by decide, by decide, by decide, by decide⟩ hmember (by decide) (by decide) joinPeer_hears hsender
    ⟨_, 1, _, rfl, rfl, rfl, by decide⟩ rfl 0 0

/-- Of an operator with voice the other server only sees the operator. -/
theorem rfc1459_second_flag_lost :
    linesOf (execMsg 0 (do
        cbJoinForward 2 "#c" (strlcpy (← channelUserModes 0 2) (channelModeLen - 1)) 1)
          (joinServer "ov")) =
        [(1, ":alice JOIN #c".toList), (1, ":alice MODE #c +ov alice".toList)] ∧
      flagsAfter "#c" 2 (readLines 0 1
        [(":alice JOIN #c", []), (":alice MODE #c +ov alice", [])] joinPeer.world) =
          some "o".toList := by
  decide +kernel

end Ngircd
