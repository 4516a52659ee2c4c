import Ngircd.ModeLoop

/-!
# Joining a channel from a link

A server that is told about a new member of a channel creates the channel if it
does not know it, and enters the member into its table.
-/

namespace Ngircd

open Lib Prog

variable {t : Channels} {name flags sender : Str} {ch k : ChanRef} {now : Nat} {o r : ClientRef}
  {w₁ : World}

/-! ## The table of channels -/

namespace Channels

/-- The channel with a name; `Channel_Search`. -/
def search (t : Channels) (name : Str) : Option ChanRef :=
  t.order.find? fun ch =>
    match t.heap ch with
    | some c => strcaseEq name c.name
    | none => false

/-- A new channel in front of the list. -/
def add (t : Channels) (c : Channel) : Channels :=
  { t with
    heap := Function.update t.heap t.nextRef (some c)
    order := t.nextRef :: t.order
    nextRef := t.nextRef + 1 }

/-- The channel with a name, created if need be. -/
def opened (t : Channels) (now : Nat) (name : Str) : ChanRef × Channels :=
  match t.search name with
  | some ch => (ch, t)
  | none => (t.nextRef, t.add { name := strlcpy name channelNameLen, creationTime := now })

/-- A new member, without flags. -/
def enter (t : Channels) (ch : ChanRef) (cl : ClientRef) : Channels :=
  { t with cl2chan := { client := cl, channel := ch } :: t.cl2chan }

theorem search_some (h : t.search name = some ch) :
    ∃ c, t.heap ch = some c ∧ strcaseEq name c.name = true := by
  have hfound := List.find?_some h
  split at hfound
  · rename_i c hc
    exact ⟨c, hc, hfound⟩
  · exact nomatch hfound

theorem search_enter (t : Channels) (ch : ChanRef) (cl : ClientRef) (name : Str) :
    (t.enter ch cl).search name = t.search name := rfl

theorem flagsOf_enter_self (t : Channels) (ch : ChanRef) (cl : ClientRef) :
    (t.enter ch cl).flagsOf ch cl = some [] := by
  simp [flagsOf, enter, Cl2Chan.isFor]

/-- The channel is there and has the name, up to case. -/
theorem opened_spec (hlength : name.length < channelNameLen) :
    (t.opened now name).2.search name = some (t.opened now name).1 ∧
      (∃ c, (t.opened now name).2.heap (t.opened now name).1 = some c ∧
        strcaseEq name c.name = true) ∧
      (t.opened now name).2.cl2chan = t.cl2chan := by
  unfold opened
  cases hsearch : t.search name with
  | some ch => exact ⟨hsearch, search_some hsearch, rfl⟩
  | none =>
    have hcopy : strlcpy name channelNameLen = name := List.take_of_length_le (by omega)
    refine ⟨?_, ⟨_, Function.update_self _ _ _, ?_⟩, rfl⟩
    · simp [search, add, hcopy]
    · rw [hcopy]
      exact strcaseEq_refl name

end Channels

/-- The characters a channel name has not got. -/
theorem not_mem_of_valid (h : channelIsValidName name = true) :
    ' ' ∉ name ∧ ',' ∉ name ∧ ':' ∉ name ∧ Char.ofNat 7 ∉ name := by
  simp only [channelIsValidName, Bool.and_eq_true, List.all_eq_true] at h
  have hnot (c : Char) (hc : (!(c == ' ' || c == ',' || c == ':' || c.toNat == 7)) = false) :
      c ∉ name := by
    intro hmem
    have hall := h.2 c hmem
    rw [hc] at hall
    cases hall
  exact ⟨hnot _ (by decide), hnot _ (by decide), hnot _ (by decide), hnot _ (by decide)⟩

theorem length_of_valid (h : channelIsValidName name = true) :
    name.length < channelNameLen := by
  simp only [channelIsValidName, Bool.and_eq_true, decide_eq_true_eq] at h
  exact h.1.2

theorem isMiddle_of_valid (hne : name ≠ []) (hvalid : channelIsValidName name = true) :
    IsMiddle name := by
  obtain ⟨hspace, -, hcolon, -⟩ := not_mem_of_valid hvalid
  exact ⟨hne, hspace, fun hhead => hcolon (List.mem_of_mem_head? hhead)⟩

/-! ## `Channel_Join` -/

section

variable {w w' : World}

/-- Somebody who is not on the channel joins it. -/
theorem channelJoin_calm (h : Holds w t w') (hvalid : channelIsValidName name = true)
    (hnew : t.flagsOf (t.opened w.now name).1 o = none) :
    (channelJoin o name).wp calmWp (fun joined w'' => joined = true ∧
      Holds w ((t.opened w.now name).2.enter (t.opened w.now name).1 o) w'') w' := by
  obtain rfl : w'.chans = t := h.chans
  have hsearch : w'.channelSearch name = w'.chans.search name := rfl
  unfold channelJoin
  simp only [hvalid, Bool.not_true, Bool.false_eq_true, if_false, wp_msg, wp_getWorld, hsearch]
  cases hfound : w'.chans.search name with
  | some ch =>
    have hopened : w'.chans.opened w.now name = (ch, w'.chans) := by rw [Channels.opened, hfound]
    rw [hopened] at hnew ⊢
    have hmember : w'.channelIsMemberOf ch o = false := by
      rw [World.channelIsMemberOf, World.getCl2Chan, ← Option.isSome_map]
      exact congrArg Option.isSome hnew
    simp only [hmember, Bool.false_eq_true, if_false, wp_bind, wp_addClient, wp_pure, true_and]
    exact h.put (w'.chans.enter ch o)
  | none =>
    have hopened : w'.chans.opened w.now name = (w'.chans.nextRef,
        w'.chans.add { name := strlcpy name channelNameLen, creationTime := w.now }) := by
      rw [Channels.opened, hfound]
    rw [hopened, ← h.now]
    simp only [channelCreate, wp_msg, wp_getWorld, wp_newChannel, wp_addClient, wp_pure, true_and]
    exact h.put _

/-! ## JOIN from a server -/

/-- The modes of a channel that a JOIN creates. -/
def Conf.initialModes (conf : Conf) (name : Str) : Str :=
  if name.head? = some '+' then
    modesAdd (modesAdd (conf.defaultChannelModes.foldl modesAdd []) 't') 'n'
  else conf.defaultChannelModes.foldl modesAdd []

/-- The modes the channel has when somebody joins it. -/
def World.modesFor (w : World) (name : Str) : Str :=
  match w.channelSearch name with
  | some ch => ((w.chans.heap ch).map (·.modes)).getD []
  | none => w.conf.initialModes name

/-- Will the server make a client that joins the channel an operator of it by itself? -/
def World.autoOps (w : World) (name : Str) (o : ClientRef) : Bool :=
  (w.modesFor name).contains 'P' && w.conf.operChanPAutoOp && (w.heap o).any (·.hasMode 'o')

/-- The client is now on the channel, with these flags. -/
structure Joined (w : World) (name : Str) (o : ClientRef) (flags : Str) (ch : ChanRef) (w' : World) :
    Prop extends Placid w w' where
  conf : w'.conf = w.conf
  search : w'.channelSearch name = some ch
  chan : ∃ c, w'.chans.heap ch = some c ∧ strcaseEq name c.name = true
  flags : w'.chans.flagsOf ch o = some flags
  reach : w.CanReach w'.chans

variable {s : ModeState} {c : Channel} {d : Client}

/-- An invitation that is valid only once is used up. -/
theorem checkInvites_at (hw : Healthy w) (hcalm : w.Calm) (h : ModesAt w ch s w')
    (ho : w.heap o = some d) :
    (checkInvites ch o).wp calmWp (fun _ w'' => ModesAt w ch s w'') w' := by
  obtain ⟨host, ho'⟩ := h.heap_some ho
  obtain ⟨c, hc, -⟩ := h.state
  have hcheck (l : List ListElem) : Tame (listsCheckReason l o) w' := by
    unfold listsCheckReason
    refine .ite (.pure _) (.bind ?_ fun _ w₁ hq => ?_)
    · exact .of_wp (clientMaskCloaked_quiet (h.healthy hw) (h.calm hcalm) ho')
    · obtain ⟨host₁, ho₁⟩ := hq.heap_some ho'
      simp only [Tame, clientMask, wp_bind, wp_deref, onClient_of_some ho₁, wp_pure]
      exact .refl w₁
  unfold checkInvites channelListCheck
  simp only [wp_msg, wp_derefChan, onChannel_of_some hc]
  refine h.message (hcheck _) fun found w₁ hw₁ => ?_
  cases found with
  | none => exact hw₁
  | some e =>
    obtain ⟨c₁, hc₁, -⟩ := hw₁.state
    simp only [wp_bind, wp_editChannel, onChannel_of_some hc₁, wp_pure]
    exact hw₁.storeOther hc₁ rfl rfl rfl rfl

section

variable (h : ModesAt w ch s w')
include h

theorem channelModeAdd_at (m : Char) :
    (channelModeAdd ch m).wp calmWp
      (fun _ w'' => ModesAt w ch { s with modes := modesAdd s.modes m } w'') w' :=
  wp_mono (fun _ _ hw => hw.2) (changeMode_at h true m)

theorem addModes_at (modes : Str) :
    (Prog.forEach (fun m => do let _ ← channelModeAdd ch m) modes : Basic Unit).wp calmWp
      (fun _ w'' => ModesAt w ch { s with modes := modes.foldl modesAdd s.modes } w'') w' := by
  induction modes generalizing s w' with
  | nil => exact h
  | cons m modes ih =>
    rw [Prog.forEach, wp_bind, wp_bind]
    refine wp_mono (fun _ w₁ hw₁ => ?_) (channelModeAdd_at h m)
    exact ih hw₁

/-- A new channel gets the default modes. -/
theorem setDefaultModes_at (hs : s.modes = [])
    (hname : (w.chans.heap ch).map (·.name) = some name) :
    (setDefaultModes ch).wp calmWp
      (fun _ w'' => ModesAt w ch { s with modes := w.conf.initialModes name } w'') w' := by
  unfold setDefaultModes
  simp only [wp_msg, wp_getWorld, h.conf]
  refine wp_mono (fun _ w₁ hw₁ => ?_) (addModes_at h w.conf.defaultChannelModes)
  rw [hs] at hw₁
  obtain ⟨c₁, hc₁, -⟩ := hw₁.state
  have hname₁ : c₁.name = name := by
    have hnames := hw₁.names ch
    rw [hc₁, hname] at hnames
    exact Option.some.inj hnames
  simp only [wp_msg, wp_derefChan, onChannel_of_some hc₁, wp_ite, wp_pure,
    Channel.isModeless, hname₁, beq_iff_eq]
  refine ⟨fun hplus => ?_, fun hplus => ?_⟩
  · rw [Conf.initialModes, if_pos hplus]
    refine wp_mono (fun _ w₂ hw₂ => ?_) (channelModeAdd_at hw₁ 't')
    exact (wp_bind _ _ _).mpr (channelModeAdd_at hw₂ 'n')
  · rw [Conf.initialModes, if_neg hplus]
    exact hw₁

/-- Who joins without flags is made an operator where that is configured. -/
theorem joinSetChannelmodes_at (ho : w.heap o = some d) (hflags : s.flags o = some []) :
    (joinSetChannelmodes ch o []).wp calmWp (fun _ w'' => ∃ s', ModesAt w ch s' w'' ∧
      s'.flags o = some (if s.modes.contains 'P' && w.conf.operChanPAutoOp && d.hasMode 'o'
        then ['o'] else [])) w' := by
  obtain ⟨host, ho'⟩ := h.heap_some ho
  obtain ⟨c, hc, hmodes, -⟩ := h.chan
  have hmode (m : Char) : ({ d with cloaked := host } : Client).hasMode m = d.hasMode m := rfl
  have hchan : c.hasMode 'P' = s.modes.contains 'P' := by rw [Channel.hasMode, hmodes]
  have hnothing : (Prog.forEach (fun m => do let _ ← channelUserModeAdd ch o m) [] : Basic Unit) =
      pure () := rfl
  unfold joinSetChannelmodes
  rw [hnothing]
  simp only [channelHasMode, wp_msg, wp_derefChan, onChannel_of_some hc, wp_getWorld, h.conf,
    wp_clientHasMode, onClient_of_some ho', hmode, hchan, wp_ite, wp_pure]
  refine ⟨fun hauto => ?_, fun hauto => ⟨s, h, ?_⟩⟩
  · refine wp_mono (fun _ w₁ hw₁ => ⟨_, hw₁.2, ?_⟩) (changeFlag_at h true 'o' hflags)
    have hP : 'P' ∈ s.modes := by simpa using hauto.1
    simp [Change.apply, hflags, hauto, hP, changeModes, modesAdd, strlcat, channelModeLen]
  · rw [hflags, if_neg]
    simpa [and_assoc] using hauto

end

/-- The announcement of a JOIN. -/
theorem joinForward_tame (hw : Healthy w) (hcalm : w.Calm) (client : ClientRef)
    (ho : w.heap o = some d) (hc : w.chans.heap ch = some c)
    (hflags : w.chans.flagsOf ch o = some flags) : Tame (joinForward client o ch name) w := by
  obtain ⟨e, he, rfl⟩ : ∃ e, w.getCl2Chan ch o = some e ∧ e.modes = flags :=
    Option.map_eq_some_iff.mp hflags
  -- A server is told on its own connection.
  have hserver {w' : World} (hq : Quiet w w') {r : ClientRef} {s : Client} (hs : w'.heap r = some s)
      (hconn : s.connId.isSome) (modes : Str) : Tame (cbJoinForward o name modes r) w' := by
    obtain ⟨i, hi⟩ := Option.isSome_iff_exists.mp hconn
    have hwrite {w₁ : World} (hq₁ : Quiet w' w₁) (text : Str) :
        Tame (ircWriteStrClientPrefix r o text) w₁ := by
      obtain ⟨host, ho₁⟩ := (hq.trans hq₁).heap_some ho
      obtain ⟨host', hs₁⟩ := hq₁.heap_some hs
      exact ircWriteStrClientPrefix_tame ((hq.trans hq₁).healthy hw) ((hq.trans hq₁).calm hcalm) hs₁
        hi ho₁ text
    have hname {w₁ : World} (hq₁ : Quiet w' w₁) : Tame (clientID o) w₁ := by
      obtain ⟨host, ho₁⟩ := (hq.trans hq₁).heap_some ho
      simp only [Tame, wp_clientID, onClient_of_some ho₁]
      exact .refl w₁
    unfold cbJoinForward
    refine .read (a := s) (by simp [onClient_of_some hs]) (.read (a := i) (by simp [hi]) ?_)
    refine .read (a := w') (by simp) (.ite ?_ ?_)
    · refine .bind (hwrite (.refl w') _) fun _ w₁ hq₁ => .ite ?_ (.pure ())
      refine .bind (hname hq₁) fun _ w₂ hq₂ => .bind (hwrite (hq₁.trans hq₂) _) fun _ _ _ => .pure ()
    · exact .bind (hwrite (.refl w') _) fun _ _ _ => .pure ()
  have hmembers {w' : World} (hq : Quiet w w') (text : Str) :
      Tame (ircWriteStrChannelPrefix client ch o false text) w' := by
    obtain ⟨host, ho'⟩ := hq.heap_some ho
    exact ircWriteStrChannelPrefix_tame (hq.healthy hw) (hq.calm hcalm) ho' _ _ _ _
  unfold joinForward
  have hq := Quiet.refl w
  refine .read (a := e.modes) (by simp [channelUserModes, he]) ?_
  refine .read (a := c) (by simp [onChannel_of_some hc]) (.ite ?_ ?_)
  on_goal 1 =>
    refine .bind (ircWriteStrServersPrefixFlagCB_tame hw _ _ fun r s w' hq hs _ hconn =>
      hserver hq hs hconn _) fun _ w₁ hq₁ => ?_
    replace hq := hq₁
  all_goals
    refine .bind (hmembers hq _) fun _ w₂ hq₂ => .ite ?_ (.pure ())
    obtain ⟨host, ho₂⟩ := (hq.trans hq₂).heap_some ho
    exact .read (a := ({ d with cloaked := host } : Client).nameOrStar)
      (by simp [onClient_of_some ho₂]) (hmembers (hq.trans hq₂) _)

variable {j : ConnId}

/-- From the new entry in the table on. -/
theorem enterChannel_rest (h : w.Hears j r) (ho : w.heap o = some d) (hs : ModesAt w ch s w')
    (hflags : s.flags o = some []) :
    (do
      joinSetChannelmodes ch o []
      joinForward r o ch name
      if (← clientType r) = .user then
        if !(← ircWriteStrClientPrefix r o (format "JOIN :%s" [name])) then
          return .leave connected
        if !(← (ircSendChannelInfo r ch).toMsg) then return .leave connected
      return .next : Basic JoinResult).wp calmWp (fun a w'' => a = .next ∧ ∃ s', ModesAt w ch s' w'' ∧
        s'.flags o = some (if s.modes.contains 'P' && w.conf.operChanPAutoOp && d.hasMode 'o'
          then ['o'] else [])) w' := by
  obtain ⟨cl, hhas, htype⟩ := h.link.has
  rw [wp_bind]
  refine wp_mono (fun _ w₁ hw₁ => ?_) (joinSetChannelmodes_at hs ho hflags)
  obtain ⟨s₁, hw₁, hflags₁⟩ := hw₁
  obtain ⟨c₁, hc₁, rfl⟩ := hw₁.state
  obtain ⟨host, ho₁⟩ := hw₁.heap_some ho
  rw [wp_bind, liftM_msg_basic, wp_ofLeave, wp_ofMsg]
  refine hw₁.message (joinForward_tame (hw₁.healthy h.healthy) (hw₁.calm h.calm) r ho₁ hc₁ hflags₁)
    fun _ w₂ hw₂ => ?_
  obtain ⟨host', hcl⟩ := hw₂.heap_some hhas.cell
  simp only [wp_msg, wp_clientType, onClient_of_some hcl, htype, reduceCtorEq, if_false,
    wp_pure, true_and]
  exact ⟨_, hw₂, hflags₁⟩

/-- The table has the new member, and then modes of the channel change. -/
theorem Joined.of_modes (h : Holds w t w₁) (hreach : w.CanReach t)
    (hs : ModesAt w₁ ch s w') (hsearch : t.search name = some ch)
    (hflags : s.flags o = some flags) : Joined w name o flags ch w' where
  toPlacid := h.toPlacid.trans hs.toPlacid
  conf := hs.conf.trans h.conf
  search := by
    rw [hs.channelSearch, ← hsearch, ← h.chans]
    rfl
  chan := by
    obtain ⟨c₁, hc₁, hcase⟩ := Channels.search_some hsearch
    obtain ⟨c', hc', -⟩ := hs.state
    have hnames := hs.names ch
    rw [h.chans, hc₁, hc'] at hnames
    have hname : c'.name = c₁.name := Option.some.inj hnames
    refine ⟨c', hc', ?_⟩
    rw [hname]
    exact hcase
  flags := by
    obtain ⟨c', -, rfl⟩ := hs.state
    exact hflags
  reach e he := by
    obtain ⟨e', he', hclient⟩ := hs.member_before he
    rw [← hclient]
    exact hreach e' (by rw [← h.chans]; exact he')

theorem Channels.opened_of_found (h : t.search name = some ch) :
    t.opened now name = (ch, t) := by
  rw [Channels.opened, h]

theorem Channels.opened_of_new (h : t.search name = none)
    (hlength : name.length < channelNameLen) :
    t.opened now name = (t.nextRef, t.add { name, creationTime := now }) := by
  have hcopy : strlcpy name channelNameLen = name := List.take_of_length_le (by omega)
  rw [Channels.opened, h, hcopy]

/-- A client behind a link enters a channel. -/
theorem enterChannel_server (h : w.Hears j r) (ho : w.heap o = some d) (hreach : w.Reached o)
    (hvalid : channelIsValidName name = true)
    (hnew : w.chans.flagsOf (w.chans.opened w.now name).1 o = none) :
    (enterChannel r o name (w.channelSearch name) []).wp calmWp (fun a w' => a = .next ∧
      ∃ ch, Joined w name o (if w.autoOps name o then ['o'] else []) ch w') w := by
  have hlength := length_of_valid hvalid
  obtain ⟨hsearch, ⟨c, hc, hcase⟩, hmembers⟩ := @Channels.opened_spec w.chans name w.now hlength
  unfold enterChannel
  rw [wp_bind]
  refine wp_mono (fun joined w₁ hw₁ => ?_) (channelJoin_calm (.refl w) hvalid hnew)
  obtain ⟨rfl, hw₁⟩ := hw₁
  obtain ⟨ch, hch⟩ : ∃ ch, ch = (w.chans.opened w.now name).1 := ⟨_, rfl⟩
  rw [← hch] at hsearch hc hw₁
  have hreach₁ : w.CanReach ((w.chans.opened w.now name).2.enter ch o) := by
    intro e he
    rcases List.mem_cons.mp he with rfl | he
    · exact hreach
    · rw [hmembers] at he
      exact h.healthy.member e he
  obtain ⟨host, ho₁⟩ := hw₁.heap_some ho
  have hc₁ : w₁.chans.heap ch = some c := by
    rw [hw₁.chans]
    exact hc
  have hflags₁ : (w₁.chans.modeState ch c).flags o = some [] := by
    rw [hw₁.chans]
    exact Channels.flagsOf_enter_self _ _ _
  have hhears₁ := h.holds hreach₁ hw₁
  -- What the user has in the end depends on the modes the channel gets.
  have hauto {modes : Str} (hmodes : modes = w.modesFor name) : w.autoOps name o =
      (modes.contains 'P' && w₁.conf.operChanPAutoOp &&
        ({ d with cloaked := host } : Client).hasMode 'o') := by
    rw [World.autoOps, hmodes, hw₁.conf, ho, Option.any_some]
    rfl
  rw [if_neg (by simp)]
  dsimp only
  cases hfound : w.channelSearch name with
  | some k =>
    have hopened : w.chans.opened w.now name = (k, w.chans) := Channels.opened_of_found hfound
    rw [hopened] at hch hc
    obtain rfl : ch = k := hch
    refine wp_mono ?_ (enterChannel_rest hhears₁ ho₁ (.start hc₁) hflags₁)
    rintro a w' ⟨rfl, s', hs', hflags'⟩
    refine ⟨rfl, ch, .of_modes hw₁ hreach₁ hs' hsearch (hflags'.trans ?_)⟩
    rw [hauto]
    simp [World.modesFor, hfound, show w.chans.heap ch = some c from hc, Channels.modeState]
  | none =>
    have hopened : w.chans.opened w.now name =
        (w.chans.nextRef, w.chans.add { name, creationTime := w.now }) :=
      Channels.opened_of_new hfound hlength
    rw [hopened] at hch hc
    obtain rfl : ch = w.chans.nextRef := hch
    obtain rfl : { name, creationTime := w.now } = c := by simpa [Channels.add] using hc
    have hfound₁ : w₁.channelSearch name = some w.chans.nextRef := by
      rw [← hsearch, ← Channels.search_enter _ w.chans.nextRef o, ← hw₁.chans]
      rfl
    simp only [wp_msg, wp_getWorld, hfound₁]
    refine wp_mono (fun _ w₂ hw₂ => ?_) (setDefaultModes_at (.start hc₁) rfl (by rw [hc₁]; rfl))
    refine wp_mono ?_ (enterChannel_rest hhears₁ ho₁ hw₂ hflags₁)
    rintro a w' ⟨rfl, s', hs', hflags'⟩
    refine ⟨rfl, _, .of_modes hw₁ hreach₁ hs' hsearch (hflags'.trans ?_)⟩
    rw [hauto]
    rw [World.modesFor, hfound]
    exact congrArg (·.initialModes name) hw₁.conf

theorem Joined.withCounts (h : Joined w name o flags ch w')
    (counts : Str → Nat × Nat × Nat) : Joined w name o flags ch (w'.withCounts counts) :=
  ⟨{ h.toPlacid with }, h.conf, h.search, h.chan, h.flags, h.reach⟩

/-- Changes of the lists of a channel come before. -/
theorem Joined.after (hs : ModesAt w k s w₁)
    (h : Joined w₁ name o flags ch w') : Joined w name o flags ch w' where
  toPlacid := hs.toPlacid.trans h.toPlacid
  conf := h.conf.trans hs.conf
  search := h.search
  chan := h.chan
  flags := h.flags
  reach e he := hs.reached_before (h.reach e he)

theorem ModesAt.autoOps (hc : w.chans.heap ch = some c)
    (h : ModesAt w ch (w.chans.modeState ch c) w') (hfound : w.channelSearch name = some ch)
    (ho : w.heap o = some d) : w'.autoOps name o = w.autoOps name o := by
  obtain ⟨c', hc', heq⟩ := h.state
  obtain ⟨host, ho'⟩ := h.heap_some ho
  have hmodes : c'.modes = c.modes := congrArg ModeState.modes heq
  simp only [World.autoOps, World.modesFor, h.channelSearch, hfound, hc, hc', ho, ho', h.conf,
    Option.map_some, Option.getD_some, Option.any_some, hmodes]
  rfl

theorem ModesAt.flagsOf_opened (h : ModesAt w ch (w.chans.modeState ch c) w')
    (hfound : w.channelSearch name = some ch) :
    w.chans.flagsOf (w.chans.opened w.now name).1 o =
      w'.chans.flagsOf (w'.chans.opened w'.now name).1 o := by
  obtain ⟨c', -, heq⟩ := h.state
  have hfound' : w'.chans.search name = some ch := (h.channelSearch name).trans hfound
  rw [Channels.opened_of_found (show w.chans.search name = some ch from hfound),
    Channels.opened_of_found hfound']
  exact (congrFun (congrArg ModeState.flags heq) o).symm

/-- A JOIN of a client behind a link. -/
theorem ircJoin_server (h : w.Hears j r) (ho : w.Sender r sender o) (hreach : w.Reached o)
    (hvalid : channelIsValidName name = true) (hname : name ≠ [])
    (hnew : w.chans.flagsOf (w.chans.opened w.now name).1 o = none) {req : Request}
    (hpfx : req.pfx = some sender) (hargv : req.argv = [name]) :
    (ircJoin r req).wp calmWp (fun _ w' => ∃ ch,
      Joined w name o (if w.autoOps name o then ['o'] else []) ch w') w := by
  obtain ⟨cl, hhas, htype⟩ := h.link.has
  obtain ⟨d, hd⟩ := ho.cell
  have harg0 : req.arg 0 = name := by simp [Request.arg, hargv]
  have hargc : req.argc = 1 := by simp [Request.argc, hargv]
  have hzero : name ≠ "0".toList := by
    rintro rfl
    exact absurd hvalid (by decide)
  obtain ⟨-, hcomma, -, hbell⟩ := not_mem_of_valid hvalid
  have htargets : joinTargets req = [(name, none)] := by
    have htokens : strtok name ",".toList = [name] := by
      refine strtok_single hname fun c hc => ?_
      have hne : c ≠ ',' := fun heq => hcomma (heq ▸ hc)
      simp [hne]
    unfold joinTargets
    simp only [harg0, hargc, htokens]
    rfl
  have hcut : cutAt (Char.ofNat 7) name = (name, none) := cutAt_of_not_mem hbell
  have hchannel : (joinChannel r o name none).wp calmWp (fun a w' => a = .next ∧ ∃ ch,
      Joined w name o (if w.autoOps name o then ['o'] else []) ch w') w := by
    unfold joinChannel planJoinServer
    simp only [wp_msg, wp_clientType, onClient_of_some hhas.cell, htype, beq_self_eq_true, if_true,
      hcut, reduceCtorEq, if_false, wp_getWorld, Option.getD_none]
    cases hfound : w.channelSearch name with
    | none =>
      have henter := enterChannel_server h hd hreach hvalid hnew
      rw [hfound] at henter
      exact henter
    | some ch =>
      obtain ⟨c, hc, -⟩ := Channels.search_some (show w.chans.search name = some ch from hfound)
      rw [wp_bind]
      refine wp_mono (fun _ w₁ hw₁ => ?_) (checkInvites_at h.healthy h.calm (.start hc) hd)
      obtain ⟨host, hd₁⟩ := hw₁.heap_some hd
      have hfound₁ : w₁.channelSearch name = some ch := by rw [hw₁.channelSearch, hfound]
      have henter := enterChannel_server (h.placid hw₁.toPlacid (hw₁.healthy h.healthy)) hd₁
        (hw₁.reached hreach) hvalid (hw₁.flagsOf_opened hfound ▸ hnew)
      rw [hfound₁] at henter
      change (enterChannel r o name (some ch) []).wp calmWp _ w₁
      refine wp_mono (fun a w' hw' => ?_) henter
      obtain ⟨rfl, ch', hjoined⟩ := hw'
      rw [hw₁.autoOps hc hfound hd] at hjoined
      exact ⟨rfl, ch', hjoined.after hw₁⟩
  unfold ircJoin withSender senderOf
  simp only [wp_msg, wp_clientType, onClient_of_some hhas.cell, htype, if_true, hpfx, wp_getWorld,
    ho.behind.1, wp_pure, hargc, harg0, hzero, and_false, if_false, htargets, List.isEmpty_iff,
    hname, joinChannels]
  refine wp_mono (fun a w' hw' => ?_) hchannel
  obtain ⟨rfl, hw'⟩ := hw'
  exact hw'

end

/-- The flags of a client on a channel when some lines have been handled. -/
def flagsAfter (name : Str) (o : ClientRef) : Except Fault World → Option Str
  | .ok w => (w.channelSearch name).bind (w.chans.flagsOf · o)
  | .error _ => none

end Ngircd
