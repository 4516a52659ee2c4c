import Ngircd.Joining

/-!
# CHANINFO on a new link

`Send_CHANINFO` tells a new server the modes, the key, the limit and the topic of
a channel in one line.  The key is sent as it is, so that one with a colon at its
front is read as the rest of the line.
-/

namespace Ngircd

open Lib Prog

variable {w p : World} {i j : ConnId} {client r o : ClientRef} {this d : Client} {ch : ChanRef}
  {c : Channel} {name s : Str} {Q : Unit → World → Prop}

/-! ## What is sent -/

/-- The parameter of CHANINFO for the key. -/
def Channel.keyParam (c : Channel) : Str :=
  if c.hasMode 'k' ∧ !c.key.isEmpty then c.key else "*"

/-- The parameter of CHANINFO for the limit. -/
def Channel.limitParam (c : Channel) : Str := natStr (if c.hasMode 'l' then c.maxusers else 0)

/-- The text of `Send_CHANINFO`. -/
def chaninfoText (c : Channel) : Str :=
  if !c.hasMode 'k' ∧ !c.hasMode 'l' then
    if c.topic.isEmpty then format "CHANINFO %s +%s" [c.name, c.modes]
    else format "CHANINFO %s +%s :%s" [c.name, c.modes, c.topic]
  else format "CHANINFO %s +%s %s %lu :%s" [c.name, c.modes, c.keyParam, c.limitParam, c.topic]

section

variable {w' : World}

theorem sendChaninfo_sends (h : w.Speaks i client this) (hc : w.chans.heap ch = some c)
    (hsome : c.modes ≠ [] ∨ c.topic ≠ []) :
    (sendChaninfo client ch).Sends [(i, serverText this.nameOrStar (chaninfoText c))] () w := by
  refine .read (a := c) (by simp [onChannel_of_some hc]) ?_
  have hsent : ¬(c.modes.isEmpty = true ∧ c.topic.isEmpty = true) := by
    rw [List.isEmpty_iff, List.isEmpty_iff, not_and_or]
    exact hsome
  rw [if_neg hsent]
  unfold chaninfoText
  split
  · split
    · exact reply_sends h _
    · exact reply_sends h _
  · exact reply_sends h _

/-! ## What is read -/

/-- What MODE and TOPIC of users can make of a channel. -/
structure Channel.UserMade (c : Channel) : Prop where
  name : c.name ≠ [] ∧ channelIsValidName c.name = true
  modes : ∀ m ∈ c.modes, m ∈ "RsziVMmnNQtOPkl".toList
  nodup : c.modes.Nodup
  key : ' ' ∉ c.key ∧ c.key.length < clientPassLen
  limit : c.maxusers < 0xFFFF

/-- The parameters the peer reads. -/
def chaninfoArgs (c : Channel) : List Str :=
  if !c.hasMode 'k' ∧ !c.hasMode 'l' then
    if c.topic.isEmpty then [c.name, '+' :: c.modes]
    else [c.name, '+' :: c.modes, trimEnd c.topic]
  else if c.keyParam.head? = some ':' then
    [c.name, '+' :: c.modes, trimEnd (c.keyParam.tail ++ ' ' ::
      (c.limitParam ++ ' ' :: ':' :: c.topic))]
  else [c.name, '+' :: c.modes, c.keyParam, c.limitParam, trimEnd c.topic]

theorem Channel.UserMade.isWord_modes (h : c.UserMade) : IsWord ('+' :: c.modes) := by
  refine isWord_of_letters "+RsziVMmnNQtOPkl" (List.cons_ne_nil _ _) (fun f hf => ?_) (by decide)
  rcases List.mem_cons.mp hf with rfl | hf
  · decide
  · exact .tail '+' (h.modes f hf)

theorem requestOf_chaninfo (h : c.UserMade) (hname : ' ' ∉ name) (after : Str) :
    ∃ beyond, requestOf (prefixed name (chaninfoText c)) after =
      some { pfx := some name, command := "CHANINFO", argv := chaninfoArgs c, beyond } := by
  have hmodes := h.isWord_modes
  have hchannel := isMiddle_of_valid h.name.1 h.name.2
  have hfront : ∀ q ∈ [c.name, '+' :: c.modes], IsMiddle q := by
    simp only [List.mem_cons, List.not_mem_nil, or_false]
    rintro q (rfl | rfl)
    · exact hchannel
    · exact hmodes.middle
  have hcommand : "CHANINFO".toList ≠ [] ∧ ' ' ∉ "CHANINFO".toList := by decide
  unfold chaninfoText chaninfoArgs
  by_cases hplain : !c.hasMode 'k' ∧ !c.hasMode 'l'
  · rw [if_pos hplain, if_pos hplain]
    by_cases htopic : c.topic.isEmpty = true
    · rw [if_pos htopic, if_pos htopic]
      have htext : format "CHANINFO %s +%s" [c.name, c.modes] =
          "CHANINFO".toList ++ ' ' :: unwords [c.name, '+' :: c.modes] := by simp [format, unwords]
      rw [htext]
      exact requestOf_words hname hcommand (by simp) hfront (by simpa using hmodes.last) after
    · rw [if_neg htopic, if_neg htopic]
      have htext : format "CHANINFO %s +%s :%s" [c.name, c.modes, c.topic] =
          "CHANINFO".toList ++ ' ' :: renderParams ([c.name, '+' :: c.modes] ++ [c.topic]) := by
        rw [renderParams_snoc]
        simp [format]
      rw [htext]
      exact requestOf_trailing hname hcommand hfront (by simp) c.topic after
  · rw [if_neg hplain, if_neg hplain]
    have htext : format "CHANINFO %s +%s %s %lu :%s"
        [c.name, c.modes, c.keyParam, c.limitParam, c.topic] =
        "CHANINFO".toList ++ ' ' ::
          renderParams ([c.name, '+' :: c.modes, c.keyParam, c.limitParam] ++ [c.topic]) := by
      rw [renderParams_snoc]
      simp [format]
    by_cases hcolon : c.keyParam.head? = some ':'
    · -- The key is taken for the last parameter.
      rw [if_pos hcolon, htext]
      obtain ⟨rest, hrest⟩ : ∃ rest, c.keyParam = ':' :: rest := by
        cases hkey : c.keyParam with
        | nil => simp [hkey] at hcolon
        | cons x rest =>
          obtain rfl : x = ':' := by simpa [hkey] using hcolon
          exact ⟨rest, rfl⟩
      have hsame : renderParams ([c.name, '+' :: c.modes, c.keyParam, c.limitParam] ++ [c.topic]) =
          renderParams ([c.name, '+' :: c.modes] ++
            [c.keyParam.tail ++ ' ' :: (c.limitParam ++ ' ' :: ':' :: c.topic)]) := by
        rw [renderParams_snoc, renderParams_snoc, hrest]
        simp
      rw [hsame]
      exact requestOf_trailing hname hcommand hfront (by simp) _ after
    · rw [if_neg hcolon, htext]
      refine requestOf_trailing hname hcommand (fun q hq => ?_) (by simp) c.topic after
      rw [show [c.name, '+' :: c.modes, c.keyParam, c.limitParam] =
        [c.name, '+' :: c.modes] ++ [c.keyParam, c.limitParam] from rfl, List.mem_append] at hq
      rcases hq with hq | hq
      · exact hfront q hq
      · simp only [List.mem_cons, List.not_mem_nil, or_false] at hq
        rcases hq with rfl | rfl
        · refine ⟨?_, ?_, hcolon⟩
          · unfold Channel.keyParam
            split
            · rename_i hkey
              simpa [List.isEmpty_iff] using hkey.2
            · decide
          · unfold Channel.keyParam
            split
            · exact h.key.1
            · decide
        · exact isMiddle_natStr _

/-! ## What the peer makes of it -/

/-- The channel that the modes part of `IRC_CHANINFO` makes of a new one. -/
def chaninfoChannel (c : Channel) (req : Request) : Channel :=
  let modes := strlcpy (req.arg 1).tail channelModeLen
  if req.argc = 5 then
    { c with
      modes
      key := if modes.contains 'k' then strlcpy (req.arg 2) clientPassLen else c.key
      maxusers := if modes.contains 'l' then toULong (atoi (req.arg 3)) else c.maxusers }
  else { c with modes := modesDel (modesDel modes 'l') 'k' }

section

variable {t : Channels}

theorem Holds.chan (h : Holds w (t.add c) w') : w'.chans.heap t.nextRef = some c := by
  rw [h.chans]
  exact Function.update_self _ _ _

/-- An edit of the new channel. -/
theorem Holds.edit (h : Holds w (t.add c) w') (f : Channel → Channel)
    (hQ : ∀ w'', Holds w (t.add (f c)) w'' → Q () w'') :
    (editChannel t.nextRef f).wp calmWp Q w' := by
  rw [wp_editChannel, onChannel_of_some h.chan]
  refine hQ _ ?_
  have hput := h.put (t.add (f c))
  convert hput using 1
  simp only [World.setChannel, h.chans, Channels.add, Function.update_idem]

/-- Members are told about the new channel. -/
theorem Holds.tellMembers (h : Holds w (w.chans.add c) w') (hw : Healthy w) (hcalm : w.Calm)
    (ho : w.heap o = some d) (ch : ChanRef) (text : Str)
    (hQ : ∀ w'', Holds w (w.chans.add c) w'' → Q () w'') :
    (ircWriteStrChannelPrefix r ch o false text).wp quietWp Q w' := by
  obtain ⟨host, ho'⟩ := h.heap_some ho
  have hw' : Healthy w' := h.healthy (fun e he => hw.member e he) hw
  exact h.message (ircWriteStrChannelPrefix_tame hw' (h.calm hcalm) ho' _ _ _ _) fun _ => hQ

end

variable {req : Request}

theorem chaninfoModes_new (h : w.Hears j r) (ho : w.heap o = some d)
    (hs : Holds w (w.chans.add c) w') (hempty : c.modes = []) (hplus : (req.arg 1).head? = some '+') :
    (chaninfoModes r o w.chans.nextRef req).wp calmWp
      (fun _ w'' => Holds w (w.chans.add (chaninfoChannel c req)) w'') w' := by
  unfold chaninfoModes chaninfoChannel
  rw [if_neg (by simp [hplus])]
  simp only [wp_msg, wp_derefChan, onChannel_of_some hs.chan, hempty, List.isEmpty_nil,
    Bool.not_true, Bool.false_eq_true, if_false]
  refine hs.edit _ fun w₁ h₁ => ?_
  split
  -- The last step is the same, whatever the channel is by then.
  all_goals
    rw [wp_bind]
    refine h₁.edit _ fun w₂ h₂ => ?_
    simp only [wp_msg, wp_derefChan, onChannel_of_some h₂.chan]
    exact h₂.tellMembers h.healthy h.calm ho _ _ fun _ h' => h'

/-- The topic a CHANINFO command has. -/
def chaninfoTopic (req : Request) : Str := if req.argc = 2 then [] else req.arg (req.argc - 1)

theorem ircChaninfo_new (h : w.Hears j r) (ho : w.Sender r name o)
    (hnone : w.channelSearch (req.arg 0) = none) (hpfx : req.pfx = some name)
    (hargc : ¬(req.argc < 2 ∨ req.argc = 4 ∨ req.argc > 5)) (hplus : (req.arg 1).head? = some '+')
    (htopic : (chaninfoTopic req).length < commandLen) :
    (ircChaninfo r req).wp calmWp (fun _ w' => ∃ time who, Holds w (w.chans.add
      { chaninfoChannel { name := strlcpy (req.arg 0) channelNameLen, creationTime := w.now } req with
        topic := chaninfoTopic req, topicTime := time, topicWho := who }) w') w := by
  obtain ⟨cl, hhas, htype⟩ := h.link.has
  obtain ⟨d, hd⟩ := ho.cell
  have hadded : Holds w (w.chans.add
      { name := strlcpy (req.arg 0) channelNameLen, creationTime := w.now })
      (w.addChannel { name := strlcpy (req.arg 0) channelNameLen, creationTime := w.now }) :=
    (Holds.refl w).put _
  unfold ircChaninfo withSender senderOf channelCreate
  simp only [if_neg hargc, wp_msg, wp_clientType, onClient_of_some hhas.cell, htype, if_true, hpfx,
    wp_getWorld, ho.behind.1, wp_pure, hnone, wp_newChannel]
  refine wp_mono (fun _ w₁ h₁ => ?_) (chaninfoModes_new h hd hadded rfl hplus)
  have hempty : (chaninfoChannel
      { name := strlcpy (req.arg 0) channelNameLen, creationTime := w.now } req).topic = [] := by
    unfold chaninfoChannel
    split <;> rfl
  generalize chaninfoChannel
    { name := strlcpy (req.arg 0) channelNameLen, creationTime := w.now } req = e at h₁ hempty ⊢
  -- The command is passed on in any case.
  have hforward {e : Channel} {w₂ : World} (h₂ : Holds w (w.chans.add e) w₂) (text : Str) :
      (ircWriteStrServersPrefixFlag (some r) o (some 'C') text).wp quietWp
        (fun _ w' => Holds w (w.chans.add e) w') w₂ := by
    obtain ⟨host, hd₂⟩ := h₂.heap_some hd
    have hw₂ : Healthy w₂ := h₂.healthy (fun e he => h.healthy.member e he) h.healthy
    exact h₂.message (.of_wp (ircWriteStrServersPrefixFlag_quiet hw₂ (h₂.calm h.calm) hd₂ _ _ _))
      fun _ _ h' => h'
  have hnothing (hnil : chaninfoTopic req = []) :
      { e with topic := chaninfoTopic req, topicTime := e.topicTime, topicWho := e.topicWho } = e := by
    rw [hnil, ← hempty]
  by_cases htwo : req.argc = 2
  · have hnil : chaninfoTopic req = [] := if_pos htwo
    rw [if_neg (by simpa using htwo)]
    simp only [wp_msg]
    refine wp_mono (fun _ w₂ h₂ => ?_) (hforward h₁ _)
    exact ⟨e.topicTime, e.topicWho, by rw [hnothing hnil]; exact h₂⟩
  · have hlast : req.arg (req.argc - 1) = chaninfoTopic req := (if_neg htwo).symm
    rw [if_pos htwo, hlast]
    simp only [wp_msg, wp_derefChan, onChannel_of_some h₁.chan, hempty, List.isEmpty_nil, true_and,
      Bool.not_eq_eq_eq_not, Bool.not_true]
    by_cases hnil : chaninfoTopic req = []
    · rw [if_neg (by simp [hnil])]
      simp only [wp_msg]
      refine wp_mono (fun _ w₂ h₂ => ?_) (hforward h₁ _)
      exact ⟨e.topicTime, e.topicWho, by rw [hnothing hnil]; exact h₂⟩
    · obtain ⟨host, hcl₁⟩ := h₁.heap_some hhas.cell
      rw [if_pos (by simpa [List.isEmpty_iff] using hnil), wp_bind]
      unfold channelSetTopic
      simp only [wp_msg, wp_getWorld, wp_clientType, onClient_of_some hcl₁, htype, if_true, wp_pure]
      refine h₁.edit _ fun w₂ h₂ => ?_
      rw [if_neg (by omega)] at h₂
      simp only [wp_msg, wp_derefChan, onChannel_of_some h₂.chan]
      refine h₂.tellMembers h.healthy h.calm hd _ _ fun w₃ h₃ => ?_
      rw [wp_bind, wp_ofLeave, wp_ofMsg]
      refine wp_mono (fun _ w₄ h₄ => ?_) (hforward h₃ _)
      exact ⟨_, _, h₄⟩

/-! ## The round trip -/

/-- The other server has the modes, the key, the limit and the topic. -/
structure Channel.Reproduced (c c' : Channel) : Prop where
  modes : ∀ m, m ∈ c'.modes ↔ m ∈ c.modes
  key : 'k' ∈ c.modes → c'.key = c.key
  limit : 'l' ∈ c.modes → c'.maxusers = c.maxusers
  topic : c'.topic = c.topic

/-- The key can be sent as a parameter, and no blank of the topic is trimmed. -/
def Channel.Sendable (c : Channel) : Prop :=
  ('k' ∈ c.modes → c.key ≠ [] ∧ c.key.head? ≠ some ':') ∧ ∀ x ∈ c.topic.getLast?, isBlank x = false

theorem trimEnd_eq_self : trimEnd s = s ↔ ∀ x ∈ s.getLast?, isBlank x = false := by
  refine ⟨fun h x hx => ?_, trimEnd_of_last⟩
  obtain ⟨front, rfl⟩ := List.getLast?_eq_some_iff.mp hx
  by_contra hblank
  have hsame : trimEnd (front ++ [x]) = trimEnd front := by
    simp [trimEnd, show isBlank x = true by simpa using hblank]
  have hlength := (trimEnd_isPrefix front).length_le
  rw [← hsame, h, List.length_append, List.length_singleton] at hlength
  omega

theorem Channel.UserMade.copyModes (h : c.UserMade) : strlcpy c.modes channelModeLen = c.modes := by
  have hfew : c.modes.length ≤ 15 := (h.nodup.subperm fun m hm => h.modes m hm).length_le
  exact List.take_of_length_le (by simp only [channelModeLen]; omega)

section

variable (h : c.UserMade) (base : Channel)
include h base

/-- Modes without a key and a limit. -/
theorem reproduced_plain (hplain : !c.hasMode 'k' ∧ !c.hasMode 'l') (hargc : req.argc ≠ 5)
    (harg : req.arg 1 = '+' :: c.modes) (htopic : chaninfoTopic req = trimEnd c.topic) (time : Nat)
    (who : Str) :
    c.Reproduced { chaninfoChannel base req with
      topic := chaninfoTopic req, topicTime := time, topicWho := who } ↔ c.Sendable := by
  have hk : 'k' ∉ c.modes := by simpa [Channel.hasMode] using hplain.1
  have hl : 'l' ∉ c.modes := by simpa [Channel.hasMode] using hplain.2
  have hmodes : (chaninfoChannel base req).modes = c.modes := by
    rw [chaninfoChannel, if_neg hargc, harg, List.tail_cons, h.copyModes]
    simp [modesDel, List.erase_of_not_mem, hk, hl]
  constructor
  · intro hsame
    exact ⟨fun hmem => absurd hmem hk, trimEnd_eq_self.mp (htopic.symm.trans hsame.topic)⟩
  · intro hsend
    refine ⟨fun m => ?_, fun hmem => absurd hmem hk, fun hmem => absurd hmem hl, ?_⟩
    · rw [hmodes]
    · exact htopic.trans (trimEnd_eq_self.mpr hsend.2)

/-- A key with a colon at its front is lost, and the mode with it. -/
theorem reproduced_colon (hcolon : c.keyParam.head? = some ':') (hargc : req.argc ≠ 5)
    (harg : req.arg 1 = '+' :: c.modes) (topic : Str) (time : Nat) (who : Str) :
    c.Reproduced { chaninfoChannel base req with
      topic, topicTime := time, topicWho := who } ↔ c.Sendable := by
  unfold Channel.keyParam at hcolon
  split at hcolon
  · rename_i hkey
    have hk : 'k' ∈ c.modes := by simpa [Channel.hasMode] using hkey.1
    have hmodes : 'k' ∉ (chaninfoChannel base req).modes := by
      rw [chaninfoChannel, if_neg hargc, harg, List.tail_cons, h.copyModes]
      exact (h.nodup.erase 'l').not_mem_erase
    constructor
    · intro hsame
      exact absurd ((hsame.modes 'k').mpr hk) hmodes
    · intro hsend
      exact absurd hcolon (hsend.1 hk).2
  · cases hcolon

/-- Otherwise all the parameters arrive. -/
theorem reproduced_full (hcolon : c.keyParam.head? ≠ some ':')
    (hargv : req.argv = [c.name, '+' :: c.modes, c.keyParam, c.limitParam, trimEnd c.topic])
    (time : Nat) (who : Str) :
    c.Reproduced { chaninfoChannel base req with
      topic := chaninfoTopic req, topicTime := time, topicWho := who } ↔ c.Sendable := by
  have hargc : req.argc = 5 := by simp [Request.argc, hargv]
  have htopic : chaninfoTopic req = trimEnd c.topic := by
    simp [chaninfoTopic, hargc, Request.arg, hargv]
  have hmodes : (chaninfoChannel base req).modes = c.modes := by
    simp [chaninfoChannel, hargc, Request.arg, hargv, h.copyModes]
  have hkey (hk : 'k' ∈ c.modes) : (chaninfoChannel base req).key = c.keyParam := by
    have hshort : c.keyParam.length < clientPassLen := by
      unfold Channel.keyParam
      split
      · exact h.key.2
      · decide
    have hcopy : strlcpy c.keyParam clientPassLen = c.keyParam :=
      List.take_of_length_le (by omega)
    simp [chaninfoChannel, hargc, Request.arg, hargv, h.copyModes, hk, hcopy]
  have hlimit (hl : 'l' ∈ c.modes) : (chaninfoChannel base req).maxusers = c.maxusers := by
    have hlt := h.limit
    have hround : toULong c.maxusers = c.maxusers := by
      unfold toULong
      omega
    simp [chaninfoChannel, hargc, Request.arg, hargv, h.copyModes, hl, Channel.limitParam,
      Channel.hasMode, hround]
  have hparam (hk : 'k' ∈ c.modes) (hne : c.key ≠ []) : c.keyParam = c.key := by
    simp [Channel.keyParam, Channel.hasMode, hk, hne]
  constructor
  · intro hsame
    refine ⟨fun hk => ?_, trimEnd_eq_self.mp (htopic.symm.trans hsame.topic)⟩
    have hsent : c.keyParam = c.key := (hkey hk).symm.trans (hsame.key hk)
    refine ⟨fun hnil => ?_, by rwa [← hsent]⟩
    rw [Channel.keyParam, hnil] at hsent
    simp at hsent
  · intro hsend
    refine ⟨fun m => by rw [hmodes], fun hk => ?_, hlimit, ?_⟩
    · exact (hkey hk).trans (hparam hk (hsend.1 hk).1)
    · exact htopic.trans (trimEnd_eq_self.mpr hsend.2)

theorem reproduced_iff (hargv : req.argv = chaninfoArgs c) (time : Nat) (who : Str) :
    c.Reproduced { chaninfoChannel base req with
      topic := chaninfoTopic req, topicTime := time, topicWho := who } ↔ c.Sendable := by
  unfold chaninfoArgs at hargv
  split at hargv
  · rename_i hplain
    split at hargv
    · rename_i hempty
      have hnil : c.topic = [] := List.isEmpty_iff.mp hempty
      refine reproduced_plain h base hplain (by simp [Request.argc, hargv])
        (by simp [Request.arg, hargv])
        ?_ time who
      simp [chaninfoTopic, Request.argc, hargv, hnil, trimEnd]
    · refine reproduced_plain h base hplain (by simp [Request.argc, hargv])
        (by simp [Request.arg, hargv])
        ?_ time who
      simp [chaninfoTopic, Request.argc, Request.arg, hargv]
  · split at hargv
    · rename_i hcolon
      exact reproduced_colon h base hcolon (by simp [Request.argc, hargv])
        (by simp [Request.arg, hargv])
        _ time who
    · rename_i hcolon
      exact reproduced_full h base hcolon hargv time who

end

theorem length_chaninfoTopic (hargv : req.argv = chaninfoArgs c) :
    (chaninfoTopic req).length ≤ (chaninfoText c).length := by
  have htrim (s : Str) : (trimEnd s).length ≤ s.length := (trimEnd_isPrefix s).length_le
  unfold chaninfoTopic Request.arg Request.argc
  rw [hargv]
  unfold chaninfoArgs chaninfoText
  split
  · split
    · simp
    · have hle := htrim c.topic
      simp [format]
      omega
  · split
    · have hle := htrim (c.keyParam.tail ++ ' ' :: (c.limitParam ++ ' ' :: ':' :: c.topic))
      simp [format] at hle ⊢
      omega
    · have hle := htrim c.topic
      simp [format]
      omega

/-- The channel the peer has when it has handled the line. -/
theorem exec_chaninfo (h : c.UserMade) (hname : ' ' ∉ name)
    (hfits : name.length + (chaninfoText c).length ≤ 508) (hpeer : p.Hears j r)
    (ho : p.Sender r name o) (hnone : p.channelSearch c.name = none)
    (hscrub : (p.conf.scrubCTCP && scrubCTCP (trimStr (prefixed name (chaninfoText c)))) = false)
    (after : Str) (n : Nat) :
    ∃ b p', exec n (parseRequest j (prefixed name (chaninfoText c)) after) p = .ok (b, p') ∧
      ∃ ch' c', p'.channelSearch c.name = some ch' ∧ p'.chans.heap ch' = some c' ∧
        (c.Reproduced c' ↔ c.Sendable) := by
  obtain ⟨beyond, hreq⟩ := requestOf_chaninfo h hname after
  obtain ⟨req, heq⟩ : ∃ req : Request, req =
      { pfx := some name, command := "CHANINFO", argv := chaninfoArgs c, beyond } := ⟨_, rfl⟩
  rw [← heq] at hreq
  have hargv : req.argv = chaninfoArgs c := by rw [heq]
  have hargs : ∃ rest, req.argv = c.name :: ('+' :: c.modes) :: rest ∧
      ¬(req.argc < 2 ∨ req.argc = 4 ∨ req.argc > 5) := by
    unfold Request.argc
    rw [hargv]
    unfold chaninfoArgs
    split
    · split
      · exact ⟨[], rfl, by simp⟩
      · exact ⟨_, rfl, by simp⟩
    · split
      · exact ⟨_, rfl, by simp⟩
      · exact ⟨_, rfl, by simp⟩
  obtain ⟨rest, hshape, hargc⟩ := hargs
  have harg0 : req.arg 0 = c.name := by simp [Request.arg, hshape]
  have hplus : (req.arg 1).head? = some '+' := by simp [Request.arg, hshape]
  have htopic : (chaninfoTopic req).length < commandLen := by
    have hle := length_chaninfoTopic hargv
    simp only [commandLen]
    omega
  have hcopy : strlcpy c.name channelNameLen = c.name :=
    List.take_of_length_le (by have := length_of_valid h.name.2; omega)
  have hfind : findCommand "CHANINFO" = some ⟨"CHANINFO", .chaninfo, .server, 0, none, 0⟩ := by decide
  have hcommand : req.command = "CHANINFO".toList := by rw [heq]
  have hhandled := ircChaninfo_new hpeer ho (by rw [harg0]; exact hnone) (by rw [heq]) hargc hplus
    htopic
  rw [harg0, hcopy] at hhandled
  obtain ⟨b, p', hexec, time, who, hholds⟩ := exec_parseRequest hpeer hreq (trimStr_prefixed_ne _ _)
    hscrub (by rw [heq]) ho.behind (by rw [hcommand]; decide) (by rw [hcommand]; exact hfind)
    (by decide) (by simp) rfl
    (fun p' counts hp => hp.elim fun time hp => hp.elim fun who hholds =>
      ⟨time, who, hholds.withCounts counts⟩)
    ((wp_ofBasic _).mpr hhandled) n
  refine ⟨b, p', hexec, p.chans.nextRef, _, ?_, hholds.chan, reproduced_iff h _ hargv time who⟩
  have hcase : (chaninfoChannel { name := c.name, creationTime := p.now } req).name = c.name := by
    unfold chaninfoChannel
    split <;> rfl
  change p'.chans.search c.name = some p.chans.nextRef
  rw [hholds.chans]
  simp [Channels.search, Channels.add, hcase]

end

/-- A peer that does not know a channel and is told about it by `Send_CHANINFO` has the same
modes, key, limit and topic, if and only if the key can be sent as a parameter, the topic does
not end in a blank and the peer does not take the line for a CTCP command. -/
theorem chaninfo_reproduces (h : w.Speaks i client this) (hc : w.chans.heap ch = some c)
    (hmade : c.UserMade) (hsome : c.modes ≠ [] ∨ c.topic ≠ []) (hname : ' ' ∉ this.nameOrStar)
    (hfits : this.nameOrStar.length + (chaninfoText c).length ≤ 508) (hpeer : p.Hears j r)
    (ho : p.Sender r this.nameOrStar o) (hnone : p.channelSearch c.name = none) (n m : Nat) :
    ∃ w' line, execMsg n (sendChaninfo client ch).toMsg w = .ok (connected, w') ∧
      w'.sent = w.sent ++ [(i, line)] ∧ ∀ after, ∃ b p',
        exec m (parseRequest j line after) p = .ok (b, p') ∧
        ((∃ ch' c', p'.channelSearch c.name = some ch' ∧ p'.chans.heap ch' = some c' ∧
            c.Reproduced c') ↔
          c.Sendable ∧ (p.conf.scrubCTCP = true → scrubCTCP (trimStr line) = false)) := by
  obtain ⟨w', hrun, htells⟩ := (sendChaninfo_sends h hc hsome).run n
  rw [serverText_of_short hfits] at htells
  refine ⟨w', _, hrun, htells.sends.sent, fun after => ?_⟩
  by_cases hscrub : (p.conf.scrubCTCP &&
      scrubCTCP (trimStr (prefixed this.nameOrStar (chaninfoText c)))) = true
  · refine ⟨true, p, exec_scrubbed hscrub after m, ?_⟩
    obtain ⟨hconf, hctcp⟩ := Bool.and_eq_true_iff.mp hscrub
    constructor
    · rintro ⟨ch', c', hsearch, -⟩
      rw [hnone] at hsearch
      exact nomatch hsearch
    · rintro ⟨-, hkept⟩
      rw [hkept hconf] at hctcp
      exact nomatch hctcp
  · have hkept := Bool.eq_false_of_not_eq_true hscrub
    obtain ⟨b, p', hexec, ch', c', hsearch, hc', hiff⟩ :=
      exec_chaninfo hmade hname hfits hpeer ho hnone hkept after m
    refine ⟨b, p', hexec, ?_⟩
    constructor
    · rintro ⟨k, d, hk, hd, hsame⟩
      obtain rfl : ch' = k := Option.mem_unique hsearch hk
      obtain rfl : c' = d := Option.mem_unique hc' hd
      exact ⟨hiff.mp hsame, fun hconf => by simpa [hconf] using hkept⟩
    · rintro ⟨hsend, -⟩
      exact ⟨ch', c', hsearch, hc', hiff.mpr hsend⟩

/-- A server with a user, and with a channel if there is one. -/
def chaninfoNet (c : Option Channel) : SmallNet where
  clients := [
    { id := "irc.a", type := .server, introducer := 0 },
    { id := "irc.b", type := .server, connId := some 1, introducer := 1 },
    { id := "alice", type := .user, connId := some 2, introducer := 2, topserver := some 0 }]
  chans :=
    { heap := fun ch => if ch = 0 then c else none
      order := if c.isSome then [0] else []
      nextRef := if c.isSome then 1 else 0 }

/-- The server at the other end of the link. -/
def chaninfoPeer : SmallNet where
  clients := [
    { id := "irc.b", type := .server, introducer := 0 },
    { id := "irc.a", type := .server, connId := some 1, introducer := 1 }]

/-- A channel with a key, a limit and a topic. -/
def chaninfoRoom : Channel where
  name := "#c"
  modes := "ntkl"
  topic := "Hello all"
  key := "se:cret"
  maxusers := 10

theorem chaninfo_reproduces_room :
    ∃ w' line, execMsg 0 (sendChaninfo 1 0).toMsg (chaninfoNet (some chaninfoRoom)).world =
        .ok (connected, w') ∧
      w'.sent = (chaninfoNet (some chaninfoRoom)).world.sent ++ [(1, line)] ∧ ∀ after, ∃ b p',
        exec 0 (parseRequest 1 line after) chaninfoPeer.world = .ok (b, p') ∧
        ((∃ ch' c', p'.channelSearch "#c" = some ch' ∧ p'.chans.heap ch' = some c' ∧
            chaninfoRoom.Reproduced c') ↔
          chaninfoRoom.Sendable ∧
            (chaninfoPeer.world.conf.scrubCTCP = true → scrubCTCP (trimStr line) = false)) := by
  have hspeaks : (chaninfoNet (some chaninfoRoom)).world.Speaks 1 1
      { id := "irc.a", type := .server, introducer := 0 } :=
    { healthy := SmallNet.Linked.healthy (by decide)
      calm := SmallNet.calm _
      peer := ⟨⟨_, rfl, rfl, rfl⟩, by decide⟩
      this := rfl }
  have hpeer : chaninfoPeer.world.Hears 1 1 :=
    { healthy := SmallNet.Linked.healthy (by decide)
      calm := SmallNet.calm _
      link := ⟨_, ⟨by decide, rfl, rfl⟩, rfl⟩
      back := ⟨_, 1, _, rfl, rfl, rfl, by decide⟩ }
  have hsender : chaninfoPeer.world.Sender 1 "irc.a" 1 := ⟨⟨by decide, rfl⟩, by decide, _, rfl⟩
  exact chaninfo_reproduces hspeaks (c := chaninfoRoom) rfl
    ⟨by decide, by decide, by decide, by decide, by decide⟩ (by decide) (by decide) (by decide) hpeer
    hsender rfl 0 0

/-- The channels when some lines have been handled. -/
def channelsOf : Except Fault World → List (Option Channel)
  | .ok w => w.chans.order.map w.chans.heap
  | .error _ => []

/-- Alice sets the key `:foo`.  The other server takes it for the topic. -/
theorem chaninfo_colon_key_lost :
    (match readLines 0 2 [("JOIN #c", []), ("MODE #c +k ::foo", [])] (chaninfoNet none).world with
      | .ok w => (w.chans.heap 0, linesOf (execMsg 0 (sendChaninfo 1 0).toMsg { w with sent := [] }))
      | .error _ => (none, [])) =
        (some { name := "#c", modes := "k", key := ":foo" },
          [(1, ":irc.a CHANINFO #c +k :foo 0 :".toList)]) ∧
      channelsOf (readLines 0 1 [(":irc.a CHANINFO #c +k :foo 0 :", [])] chaninfoPeer.world) =
        [some { name := "#c", topic := "foo 0 :", topicWho := "-Server-" }] := by
  decide +kernel

end Ngircd
