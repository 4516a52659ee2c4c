import Ngircd.Broadcast
import Ngircd.Handlers
import Ngircd.Telling

/-!
# G-Lines on a new link

`Synchronize_Lists` tells a new server about the G-Lines, each with the number
of seconds it is still valid; the number zero stands for a G-Line without
expiry.  The peer adds the number to its own clock.  So an entry keeps its
expiry as long as there is something left of it, and one that has expired but
has not been purged yet becomes permanent.
-/

namespace Ngircd

open Lib Prog

variable {w p p' : World} {i j : ConnId} {client r : ClientRef} {this : Client} {name : Str}
  {k : Int} {e : ListElem}

/-! ## What the new server is told -/

/-- The text of the GLINE command for an entry. -/
def glineText (now : Nat) (e : ListElem) : Str :=
  let t := e.validUntil - now
  format "GLINE %s %ld :%s" [e.mask, intStr (if t > 0 then toLong t else 0), e.reason]

/-- The text of the MODE command for an entry of a list of a channel. -/
def listText (c : Channel) (type : Char) (e : ListElem) : Str :=
  format "MODE %s +%c %s" [c.name, [type], e.mask]

/-- The texts for the lists of a channel. -/
def listTexts (c : Channel) : List Str :=
  c.listExcepts.map (listText c 'e') ++ c.listBans.map (listText c 'b') ++
    c.listInvites.map (listText c 'I')

/-- What `Synchronize_Lists` sends. -/
def World.syncLines (w : World) (i : ConnId) (this : Client) : List (ConnId × Str) :=
  let line (text : Str) : ConnId × Str := (i, serverText this.nameOrStar text)
  (w.misc.glines.map fun e => line (glineText w.now e)) ++
    w.chans.order.flatMap fun ch => (((w.chans.heap ch).map listTexts).getD []).map line

section

variable (h : w.Speaks i client this) {ch : ChanRef} {c : Channel} (hc : w.chans.heap ch = some c)
include h hc

theorem sendList_sends (type : Char) (l : List ListElem) :
    (sendList client ch type l).Sends
      ((l.map (listText c type)).map fun text => (i, serverText this.nameOrStar text)) () w := by
  rw [List.map_map]
  refine .forEach_line l fun e _ l' w' htold => ?_
  have hc' : w'.chans.heap ch = some c := by rw [htold.quiet.chans, hc]
  exact .read (by simp [channelName, onChannel_of_some hc']) (reply_sends (h.told htold) _)

/-- The part of `Synchronize_Lists` for one channel. -/
theorem sendLists_sends :
    Query.Sends (do
      sendList client ch 'e' (← derefChan ch).listExcepts
      sendList client ch 'b' (← derefChan ch).listBans
      sendList client ch 'I' (← derefChan ch).listInvites)
      ((listTexts c).map fun text => (i, serverText this.nameOrStar text)) () w := by
  have hread {x : World} {l : List (ConnId × Str)} (ht : Tells l w x) :
      x.chans.heap ch = some c ∧ (derefChan ch).wp quietWp (fun c' x' => c' = c ∧ x' = x) x := by
    have hx : x.chans.heap ch = some c := by rw [ht.quiet.chans, hc]
    exact ⟨hx, by simp [onChannel_of_some hx]⟩
  rw [listTexts, List.map_append, List.map_append, List.append_assoc]
  refine .read (hread (Tells.nothing w)).2 ?_
  refine (sendList_sends h hc 'e' _).bind fun w₁ h₁ => .read (hread h₁).2 ?_
  refine (sendList_sends (h.told h₁) (hread h₁).1 'b' _).bind fun w₂ h₂ => ?_
  have h₁₂ := h₁.append h₂
  exact .read (hread h₁₂).2 (sendList_sends (h.told h₁₂) (hread h₁₂).1 'I' _)

end

theorem synchronizeLists_sends (h : w.Speaks i client this)
    (hchans : ∀ ch ∈ w.chans.order, ∃ c, w.chans.heap ch = some c) :
    (synchronizeLists client).Sends (w.syncLines i this) () w := by
  refine .read (a := w) (by simp) ?_
  refine Query.Sends.bind (a := ()) ?_ fun w₁ h₁ => ?_
  · exact .forEach_line _ fun e _ l w' htold => reply_sends (h.told htold) _
  · refine .forEach _ fun ch hch l w' htold => ?_
    obtain ⟨c, hc⟩ := hchans ch hch
    have htold' := h₁.append htold
    have hc' : w'.chans.heap ch = some c := by rw [htold'.quiet.chans, hc]
    simpa only [hc, Option.map_some, Option.getD_some] using sendLists_sends (h.told htold') hc'

/-! ## What happens to the list of G-Lines

Beside the handlers of GLINE and the checks of new clients nothing touches the
list: messages do not, and neither does closing a connection. -/

/-- The list of G-Lines is `l`. -/
def HasGlines (l : List ListElem) (w : World) : Prop := w.misc.glines = l

/-- If the list of G-Lines was `l`, it still is. -/
def KeepsGlines (l : List ListElem) (w w' : World) : Prop := HasGlines l w → HasGlines l w'

section

variable {α : Type} {l : List ListElem}

theorem keepsGlines_msgFrame : MsgFrame (fun _ => KeepsGlines l) (KeepsGlines l) where
  refl _ h := h
  trans _ _ _ h h' hw := h' (h hw)
  queue _ _ _ _ _ h := h
  fail _ _ _ _ _ h hw := h hw
  editConn _ _ _ h := h
  cloak _ _ _ _ _ h := h

theorem message_glines (p : Msg α) :
    p.Stable (msgWp (closing (KeepsGlines l)) anyFault) (HasGlines l) :=
  fun _ hw => keepsGlines_msgFrame.wp (fun _ => trivial) p fun _ _ h => h hw

theorem departing_glines : Departing (closing (KeepsGlines l)) (HasGlines l) where
  msg _ p := message_glines p
  quit ch client reason :=
    removeClient_stable (fun _ p => message_glines p) (fun _ _ hw => hw)
      (deleteIfEmpty_stable (fun _ p => message_glines p) fun _ _ hw => hw) .quit ch client client
      reason false
  whowas _ _ _ hw := hw
  unlink _ _ hw := hw
  free _ _ hw := hw
  setConn _ _ _ hw := hw
  release _ _ _ hw := hw

theorem closer_glines (n : Nat) : (closing (KeepsGlines l)).RightAbout anyFault (closer n) :=
  closer_departing departing_glines n

theorem basic_glines (p : Msg α) : UpholdsBasic (HasGlines l) (liftM p : Basic α) (KeepsGlines l) :=
  .leave (stable_ofMsg (message_glines p))

theorem plain_glines (p : Msg α) : Upholds (HasGlines l) (liftM p : Plain α) (KeepsGlines l) :=
  .basic (basic_glines p)

theorem ircKillClient_glines (client source : Option ClientRef) (nick reason : Str) :
    Upholds (HasGlines l) (ircKillClient client source nick reason) (KeepsGlines l) := by
  have hclose (i : ConnId) (reason : Option Str) :
      Upholds (HasGlines l) (callClose i none reason true) (KeepsGlines l) :=
    fun w hw w' h => h hw
  have hdestroy (r : ClientRef) (f : Option Str) :
      Upholds (HasGlines l) (destroyClient r none f false) (KeepsGlines l) := by
    refine .bind (plain_glines _) fun w => ?_
    intro w' hw
    rw [liftM_shut_plain, wp_ofShut]
    exact departing_glines.clientDestroy _ r none f false w' hw
  refine .bind (plain_glines _) fun w => ?_
  cases w.clientSearch nick with
  | none => exact .pure _
  | some r =>
    refine .bind (plain_glines _) fun c => .ite ?_ (.bind (plain_glines _) fun _ => ?_)
    · cases client with
      | none => exact fun _ _ => trivial
      | some cl => exact .bind (plain_glines _) fun _ => plain_glines _
    · cases client
      case' some cl => refine .bind (plain_glines _) fun c => ?_
      all_goals
        refine .bind (.pure _) fun myConn => .bind (plain_glines _) fun d => ?_
        cases d.connId with
        | some i => exact .bind (hclose _ _) fun _ => .bind (plain_glines _) fun _ => .pure _
        | none => exact .bind (hdestroy r _) fun _ => .bind (plain_glines _) fun _ => .pure _

/-- The entry that matches a client is one of the list. -/
theorem listsCheckReason_mem (l' : List ListElem) (client : ClientRef)
    (hw : HasGlines l w) :
    (listsCheckReason l' client).wp (msgWp (closing (KeepsGlines l)) anyFault)
      (fun e w' => HasGlines l w' ∧ ∀ x ∈ e, x ∈ l') w := by
  unfold listsCheckReason
  by_cases hempty : l'.isEmpty
  · rw [if_pos hempty]
    exact ⟨hw, by simp⟩
  · rw [if_neg hempty, wp_bind]
    refine wp_mono (fun cloaked w₁ hw₁ => ?_) (message_glines _ w hw)
    rw [wp_bind]
    refine wp_mono (fun mask w₂ hw₂ => ⟨hw₂, fun e he => ?_⟩) (message_glines _ w₁ hw₁)
    exact List.mem_of_find?_eq_some he

/-- An entry that is not valid only once is still there after its use. -/
theorem classGetMemberReason_glines (hl : ∀ e ∈ l, e.onlyonce = false) (label : Str)
    (client : ClientRef) :
    UpholdsBasic (HasGlines l) (classGetMemberReason LineClass.gline.list LineClass.gline.put label
      client) (KeepsGlines l) := by
  intro w hw
  have hlist : LineClass.gline.list w.misc = l := hw
  unfold classGetMemberReason
  simp only [wp_msg, wp_getWorld, hlist]
  refine wp_mono (fun found w' hfound => ?_) (listsCheckReason_mem l client hw)
  obtain ⟨hw', hmem⟩ := hfound
  cases found with
  | none => exact hw'
  | some e =>
    show listsUsed w'.misc.glines e = l
    rw [listsUsed, hl e (hmem e rfl), if_neg Bool.false_ne_true]
    exact hw'

theorem killListed_glines (hl : ∀ e ∈ l, e.onlyonce = false) (client : ClientRef) (reason : Str)
    (n : Nat) (next : Option ClientRef) :
    Upholds (HasGlines l) (killListed client .gline reason n next) (KeepsGlines l) := by
  induction n generalizing next with
  | zero =>
    cases next with
    | none => exact .pure _
    | some r => exact plain_glines _
  | succ n ih =>
    cases next with
    | none => exact .pure _
    | some r =>
      refine .bind (plain_glines _) fun next => .bind (plain_glines _) fun c => .ite ?_ (ih next)
      refine .bind (.basic (classGetMemberReason_glines hl _ _)) fun listed => .ite ?_ (ih next)
      refine .bind (plain_glines _) fun nick => ?_
      exact .bind (ircKillClient_glines _ none nick reason) fun _ => ih next

end

/-! ## The entry of the peer -/

section

variable {mask num reason : Str}

/-- The state of a peer that accepts G-Lines from the server `name` on the connection `j`. -/
structure World.TakesGlines (p : World) (j : ConnId) (r : ClientRef) (name : Str) : Prop where
  link : p.ServerLink j r
  known : p.BehindLink r name r
  allowed : p.conf.allowRemoteOper = true
  kept : ∀ e ∈ p.misc.glines, e.onlyonce = false

/-- The list of G-Lines once the entry has been added. -/
def World.glinesWith (p : World) (mask num reason : Str) : List ListElem :=
  let timeout := atoi num
  listsAdd p.misc.glines (listsMakeMask mask) (if timeout > 0 then timeout + p.now else timeout)
    reason false

/-- `IRC_xLINE` adds the G-Line of a server. -/
theorem ircXline_gline (h : p.TakesGlines j r name) {req : Request}
    (hpfx : req.pfx = some name) (hcommand : req.command = "GLINE".toList)
    (hargv : req.argv = [mask, num, reason]) :
    (ircXline r req).wp (plainWp (closing (KeepsGlines (p.glinesWith mask num reason))) anyFault)
      (fun _ => HasGlines (p.glinesWith mask num reason)) p := by
  obtain ⟨c, hhas, htype⟩ := h.link.has
  have hargc : req.argc = 3 := by simp [Request.argc, hargv]
  have h0 : req.arg 0 = mask := by simp [Request.arg, hargv]
  have h1 : req.arg 1 = num := by simp [Request.arg, hargv]
  have h2 : req.arg 2 = reason := by simp [Request.arg, hargv]
  have hclass : LineClass.ofCommand req.command = some .gline := by rw [hcommand]; rfl
  have honce := onlyonce_listsAdd h.kept (listsMakeMask mask)
    (if atoi num > 0 then atoi num + p.now else atoi num) reason
  -- What comes after the entry has been added keeps the list.
  have hadd : (addLine r r req .gline).wp
      (basicWp (closing (KeepsGlines (p.glinesWith mask num reason))) anyFault)
      (fun _ => HasGlines (p.glinesWith mask num reason)) p := by
    unfold addLine
    simp only [h0, h1, h2, wp_msg, liftM_leave_basic, wp_getWorld, wp_editMisc]
    refine wp_mono (fun type w hw => ?_) (message_glines _ _ rfl)
    refine UpholdsBasic.ite ?_ (.ite (basic_glines _) (.pure ())) w hw
    refine .bind (basic_glines _) fun _ => .bind (basic_glines _) fun _ => ?_
    exact .ite (basic_glines _) (.pure ())
  have hcheck : (opCheck r req).wp (msgWp (closing (KeepsGlines (p.glinesWith mask num reason)))
      anyFault) (fun source w => source = some r ∧ w = p) p := by
    unfold opCheck
    simp only [wp_bind, wp_getWorld, wp_clientType, onClient_of_some hhas.cell, htype, hpfx,
      beq_self_eq_true, h.known.1, wp_deref, and_self, if_true]
    exact ⟨rfl, rfl⟩
  unfold ircXline
  rw [if_neg (by simp [hargc])]
  simp only [wp_msg, wp_getWorld, wp_clientType, onClient_of_some hhas.cell, h.allowed,
    Bool.not_true, Bool.false_eq_true, false_and, if_false, liftM_basic_plain]
  refine wp_mono (fun source w hsource => ?_) hcheck
  obtain ⟨rfl, rfl⟩ := hsource
  rw [hclass]
  dsimp only
  rw [if_neg (by simp [hargc]), wp_bind, wp_ofBasic]
  refine wp_mono (fun _ w₁ hw₁ => ?_) hadd
  refine Upholds.bind (plain_glines _) (fun _ => .bind (plain_glines _) fun w₂ => ?_) w₁ hw₁
  exact .bind (killListed_glines honce r _ _ _) fun _ => .pure connected

/-- What a peer that gets a GLINE command of the server does with it. -/
theorem parseRequest_gline (h : p.TakesGlines j r name) {line after beyond : Str}
    (hreq : requestOf line after = some
      { pfx := some name, command := "GLINE".toList, argv := [mask, num, reason], beyond })
    (hnonempty : trimStr line ≠ [])
    (hscrub : (p.conf.scrubCTCP && scrubCTCP (trimStr line)) = false) {n : Nat} {b : Bool}
    (hrun : exec n (parseRequest j line after) p = .ok (b, p')) :
    HasGlines (p.glinesWith mask num reason) p' := by
  have hlength : ("GLINE" : Str).length ≠ 3 := by decide
  have hfind : findCommand "GLINE" = some ⟨"GLINE", .xLine, .userOrServer, 0, none, 0⟩ := by decide
  have hcall : (ircXline r ⟨some name, "GLINE", [mask, num, reason], beyond⟩).wp
      (plainWp (closing (KeepsGlines (p.glinesWith mask num reason))) anyFault)
      (fun _ => HasGlines (p.glinesWith mask num reason)) p := ircXline_gline h rfl rfl rfl
  have hparse : (parseRequest j line after).wp
      (fullWp (closing (KeepsGlines (p.glinesWith mask num reason))) anyFault)
      (fun _ => HasGlines (p.glinesWith mask num reason)) p := by
    refine parseRequest_link h.link hreq hnonempty hscrub rfl h.known hlength hfind (by decide)
      (by simp) ?_
    simp only [callHandler, liftM_plain_full, wp_ofPlain]
    exact wp_mono (fun b w' hw' counts => hw') hcall
  exact (exec_ends (closer_glines n) hparse).of_ok hrun

end

/-! ## G-Lines keep their expiry -/

/-- An entry as `Class_AddMask` puts it on the list: the mask is one parameter of a command
and fits its field, and the time that is left is a `long`. -/
structure ListElem.Proper (now : Nat) (e : ListElem) : Prop where
  mask : IsMiddle e.mask
  fits : e.mask.length < maskLen
  until_lt : e.validUntil - now < 2 ^ 31

theorem length_intStr_le (h0 : 0 ≤ k) (hk : k < 2 ^ 31) : (intStr k).length ≤ 10 := by
  have habs : k.natAbs < 10 ^ 10 := by omega
  rw [intStr, if_neg (by omega)]
  exact (Nat.length_toDigits_le_iff (by decide) (by decide)).mpr habs

theorem atoi_intStr (h0 : 0 ≤ k) : atoi (intStr k) = k := by
  rw [intStr, if_neg (by omega), atoi_natStr]
  omega

/-- The line for a G-Line is read as its mask, the seconds that are left and a part of the
reason. -/
theorem requestOf_glineText {now : Nat} (he : e.Proper now) (hname : ' ' ∉ name)
    (hlength : name.length < clientIdLen) (after : Str) :
    ∃ body reason beyond, serverText name (glineText now e) = prefixed name body ∧
      requestOf (prefixed name body) after = some
        { pfx := some name, command := "GLINE".toList,
          argv := [e.mask, intStr (max (e.validUntil - now) 0), reason], beyond } := by
  have hlt := he.until_lt
  obtain ⟨k, hk, hk0, hklt⟩ : ∃ k : Int, k = max (e.validUntil - now) 0 ∧ 0 ≤ k ∧ k < 2 ^ 31 :=
    ⟨_, rfl, by omega, by omega⟩
  have hleft : (if e.validUntil - now > 0 then toLong (e.validUntil - now) else 0) = k := by
    split
    next hpos => rw [toLong_of_lt (by omega) hlt, hk, max_eq_left (by omega)]
    next hpos => rw [hk, max_eq_right (by omega)]
  rw [← hk]
  have hshape : glineText now e =
      ("GLINE ".toList ++ e.mask ++ ' ' :: intStr k ++ " :".toList) ++ e.reason := by
    simp only [glineText, hleft]
    simp [format]
  have hhead : name.length + ("GLINE ".toList ++ e.mask ++ ' ' :: intStr k ++ " :".toList).length ≤
      503 := by
    have hfits := he.fits
    have hdigits := length_intStr_le hk0 hklt
    simp only [maskLen, clientHostLen, clientIdLen] at hfits hlength
    have hcommand : "GLINE ".toList.length = 6 := by decide
    have hcolon : " :".toList.length = 2 := by decide
    simp only [List.length_append, List.length_cons, hcommand, hcolon]
    omega
  have hmiddle : ∀ q ∈ [e.mask, intStr k], IsMiddle q := by
    intro q hq
    rcases List.mem_pair.mp hq with rfl | rfl
    · exact he.mask
    · rw [intStr, if_neg (by omega)]
      exact isMiddle_natStr _
  have hcommand : "GLINE".toList ≠ [] ∧ ' ' ∉ "GLINE".toList := by decide
  obtain ⟨tail, htail⟩ := serverText_append hhead e.reason
  obtain ⟨beyond, hreq⟩ := requestOf_trailing hname hcommand hmiddle (by simp) tail after
  refine ⟨_, trimEnd tail, beyond, ?_, hreq⟩
  rw [hshape, htail]
  simp [renderParams]

/-- A peer that is told about the G-Lines of a server by `Synchronize_Lists` has every entry
without expiry as such and every other one with an expiry that is not later, if and only if
the entry has not expired yet. -/
theorem gline_expiry_synchronised (h : w.Speaks i client this)
    (hchans : ∀ ch ∈ w.chans.order, ∃ c, w.chans.heap ch = some c)
    (hname : ' ' ∉ this.nameOrStar) (hlength : this.nameOrStar.length < clientIdLen)
    (hmem : e ∈ w.misc.glines) (he : e.Proper w.now)
    (hpeer : p.TakesGlines j r this.nameOrStar) (hclock : p.now = w.now)
    (hscrub : (p.conf.scrubCTCP &&
      scrubCTCP (trimStr (serverText this.nameOrStar (glineText w.now e)))) = false) (n : Nat) :
    ∃ w' sent, execMsg n (synchronizeLists client).toMsg w = .ok (connected, w') ∧
      w'.sent = w.sent ++ sent ∧ (i, serverText this.nameOrStar (glineText w.now e)) ∈ sent ∧
      ∀ after m b p',
        exec m (parseRequest j (serverText this.nameOrStar (glineText w.now e)) after) p =
          .ok (b, p') →
        ∃ e', listsCheckDupeMask p'.misc.glines (listsMakeMask e.mask) = some e' ∧
          (((0 < e.validUntil → 0 < e'.validUntil ∧ e'.validUntil ≤ e.validUntil) ∧
            (e.validUntil ≤ 0 → e'.validUntil ≤ 0)) ↔ (0 < e.validUntil → w.now < e.validUntil)) := by
  obtain ⟨w', hrun, htells⟩ := (synchronizeLists_sends h hchans).run n
  refine ⟨w', _, hrun, htells.sends.sent, ?_, fun after m b p' hpeerrun => ?_⟩
  · exact List.mem_append_left _ (List.mem_map_of_mem hmem)
  obtain ⟨body, reason, beyond, hbody, hreq⟩ := requestOf_glineText he hname hlength after
  rw [hbody] at hpeerrun hscrub
  have hglines : p'.misc.glines = _ :=
    parseRequest_gline hpeer hreq (trimStr_prefixed_ne _ _) hscrub hpeerrun
  obtain ⟨e', hfound, huntil⟩ := listsCheckDupeMask_listsAdd p.misc.glines
    (length_listsMakeMask e.mask) _ reason false
  refine ⟨e', by rw [hglines]; exact hfound, ?_⟩
  rw [huntil, atoi_intStr (by omega), hclock]
  split
  · omega
  · omega

/-- A G-Line that is valid until the time 160. -/
def evilLine : ListElem where
  mask := "*!*@evil.net"
  reason := "Spam"
  validUntil := 160
  onlyonce := false

/-- A server with this G-Line and with a link, at the time `now`. -/
def glineServer (now : Nat) : SmallNet where
  clients := [
    { id := "irc.a", type := .server, introducer := 0 },
    { id := "irc.b", type := .server, connId := some 1, introducer := 1 }]
  misc := { glines := [evilLine] }
  now

/-- The server at the other end of the link. -/
def glinePeer (now : Nat) : SmallNet where
  clients := [
    { id := "irc.b", type := .server, introducer := 0 },
    { id := "irc.a", type := .server, connId := some 1, introducer := 1 }]
  conf := { allowRemoteOper := true }
  now

theorem gline_expiry_synchronised_evil :
    ∃ w' sent, execMsg 0 (synchronizeLists 1).toMsg (glineServer 100).world = .ok (connected, w') ∧
      w'.sent = (glineServer 100).world.sent ++ sent ∧
      (1, serverText "irc.a" (glineText 100 evilLine)) ∈ sent ∧
      ∀ after m b p',
        exec m (parseRequest 1 (serverText "irc.a" (glineText 100 evilLine)) after)
          (glinePeer 100).world = .ok (b, p') →
        ∃ e', listsCheckDupeMask p'.misc.glines (listsMakeMask evilLine.mask) = some e' ∧
          (((0 < evilLine.validUntil → 0 < e'.validUntil ∧ e'.validUntil ≤ evilLine.validUntil) ∧
            (evilLine.validUntil ≤ 0 → e'.validUntil ≤ 0)) ↔
              (0 < evilLine.validUntil → (100 : Nat) < evilLine.validUntil)) := by
  have hspeaks : (glineServer 100).world.Speaks 1 1
      { id := "irc.a", type := .server, introducer := 0 } :=
    { healthy := SmallNet.Linked.healthy (by decide)
      calm := SmallNet.calm _
      peer := ⟨⟨_, rfl, rfl, rfl⟩, by decide⟩
      this := rfl }
  have hpeer : (glinePeer 100).world.TakesGlines 1 1 "irc.a" :=
    { link := ⟨_, ⟨by decide, rfl, rfl⟩, rfl⟩
      known := ⟨by decide, rfl⟩
      allowed := rfl
      kept := by decide }
  exact gline_expiry_synchronised hspeaks (by simp [SmallNet.world, glineServer]) (by decide)
    (by decide)
    (by decide) ⟨by decide, by decide, by decide⟩ hpeer rfl (by decide) 0

/-- The G-Lines when a run is over. -/
def glinesOf {α : Type} : Except Fault (α × World) → List ListElem
  | .ok (_, w) => w.misc.glines
  | .error _ => []

/-- At the time 200 the G-Line has expired.  If it is still on the list when the servers are
linked, the peer gets it without an expiry. -/
theorem expired_gline_permanent :
    (1, (":irc.a GLINE *!*@evil.net 0 :Spam" : Str)) ∈
        linesOf (execMsg 0 (synchronizeLists 1).toMsg (glineServer 200).world) ∧
      glinesOf (exec 0 (parseRequest 1 ":irc.a GLINE *!*@evil.net 0 :Spam" []) (glinePeer 200).world) =
        [{ evilLine with validUntil := 0 }] := by
  decide +kernel

end Ngircd
