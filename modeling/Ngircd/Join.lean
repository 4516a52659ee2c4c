import Ngircd.Info
import Ngircd.Message

/-!
# JOIN, PART, TOPIC and CHANINFO

The remaining handlers of `irc-channel.c`, with the decision function of
`join_check.c` and the error mapping of `join_error.c`.
-/

namespace Ngircd

open Lib

variable (client : ClientRef) (req : Request)

/-! ## The decision about a JOIN -/

/-- `JOIN_CHECK_xxx`. -/
inductive JoinCheck where
  | ok | banned | inviteOnly | badKey | full | secureOnly | opOnly | regOnly
  deriving DecidableEq, Repr

/-- `Join_Check_Access`. -/
def joinCheckAccess (isOperator isBanned isInvited isException keyOk isFull secureRequired
    hasSsl operOnly regOnly isRegistered : Bool) : JoinCheck :=
  if isOperator then .ok
  else if isBanned && !isInvited && !isException then .banned
  else if !keyOk then .badKey
  else if isFull then .full
  else if secureRequired && !hasSsl then .secureOnly
  else if operOnly && !isOperator then .opOnly
  else if regOnly && !isRegistered then .regOnly
  else .ok

/-- `Join_Error_FromCheck`, with the message `join_allowed` sends for the error. -/
def joinErrorMsg : JoinCheck → Option Str
  | .ok => none
  | .banned => some errBannedfromchanMsg
  | .inviteOnly => some errInviteonlychanMsg
  | .badKey => some errBadchannelkeyMsg
  | .full => some errChannelisfullMsg
  | .secureOnly => some errSecurechannelMsg
  | .opOnly => some errOponlychannelMsg
  | .regOnly => some errRegonlychannelMsg

/-- Does a line `user:nick:password` of a key file admit this client? -/
def keyLineMatches (user nick key line : Str) : Bool :=
  match cutAt ':' (trimStr line) with
  | (userMask, some rest) =>
    maskMatch userMask user &&
      match cutAt ':' rest with
      | (nickMask, some pass) => maskMatch nickMask nick && key == pass
      | (_, none) => false
  | (_, none) => false

/-- `Channel_CheckKey`, for a client with this user name and nick. -/
def channelCheckKey (chan : Channel) (user nick key : Str) : Bool :=
  if !chan.hasMode 'k' then true
  else if key.isEmpty then false
  else if chan.key = key then true
  else match chan.keyfile with
    | none => false
    | some lines => lines.any (keyLineMatches user nick key)

/-- `join_allowed`.  No connection uses SSL in this build. -/
def joinAllowed (client : ClientRef) (ch : ChanRef) (channame : Str) (key : Option Str) :
    Basic Bool := do
  let isOperator ← clientHasMode client 'o'
  let isBanned ← checkBans ch client
  let isException ← checkExcepts ch client
  let isInvited ← checkInvites ch client
  let c ← deref client
  let chan ← derefChan ch
  let keyOk := channelCheckKey chan c.userOrTilde (← clientID client) (key.getD [])
  let isFull := chan.hasMode 'l' &&
    decide (chan.maxusers ≤ (← getWorld).channelMemberCount ch)
  let check := joinCheckAccess isOperator isBanned isInvited isException keyOk isFull
    (chan.hasMode 'z') false (chan.hasMode 'O') (chan.hasMode 'R') (c.hasMode 'R')
  match joinErrorMsg check with
  | none => return true
  | some msg =>
    let _ ← ircWriteErrClient client (format msg [← clientID client, channame])
    return false

/-! ## Joining -/

/-- `Channel_Join`. -/
def channelJoin (client : ClientRef) (name : Str) : Basic Bool := do
  if !channelIsValidName name then
    let _ ← ircWriteErrClient client (format errNosuchchannelMsg [← clientID client, name])
    return false
  let w ← getWorld
  match w.channelSearch name with
  | some ch =>
    if w.channelIsMemberOf ch client then return false
    addClient ch client
    return true
  | none =>
    addClient (← channelCreate name) client
    return true

/-- The modes of a channel that has just been created by a JOIN. -/
def setDefaultModes (ch : ChanRef) : Basic Unit := do
  Prog.forEach (fun m => do let _ ← channelModeAdd ch m) (← getWorld).conf.defaultChannelModes
  if (← derefChan ch).isModeless then
    let _ ← channelModeAdd ch 't'
    let _ ← channelModeAdd ch 'n'

/-- `join_set_channelmodes`. -/
def joinSetChannelmodes (ch : ChanRef) (target : ClientRef) (flags : Str) : Basic Unit := do
  Prog.forEach (fun m => do let _ ← channelUserModeAdd ch target m) flags
  if (← channelHasMode ch 'P') ∧ (← getWorld).conf.operChanPAutoOp ∧
      (← clientHasMode target 'o') then
    let _ ← channelUserModeAdd ch target 'o'

/-- `cb_join_forward`: servers in RFC 1459 mode get the modes in a MODE command. -/
def cbJoinForward (pfx : ClientRef) (channame modes : Str) (peer : ClientRef) : Msg Unit := do
  let i ← connOf (← deref peer).connId
  if ((← getWorld).conns i).rfc1459 then
    let _ ← ircWriteStrClientPrefix peer pfx (format "JOIN %s" [channame])
    if !modes.isEmpty then
      let _ ← ircWriteStrClientPrefix peer pfx
        (format "MODE %s +%s %s" [channame, modes, ← clientID pfx])
  else
    let str := if modes.isEmpty then channame else channame ++ [Char.ofNat 7] ++ modes
    let _ ← ircWriteStrClientPrefix peer pfx (format "JOIN %s" [str])

/-- `join_forward`. -/
def joinForward (client target : ClientRef) (ch : ChanRef) (channame : Str) : Msg Unit := do
  let modes := strlcpy (← channelUserModes ch target) (channelModeLen - 1)
  if !(← derefChan ch).isLocal then
    ircWriteStrServersPrefixFlagCB (some client) none (cbJoinForward target channame modes)
  ircWriteStrChannelPrefix client ch target false (format "JOIN :%s" [channame])
  if !modes.isEmpty then
    ircWriteStrChannelPrefix client ch target false
      (format "MODE %s +%s %s" [channame, modes, ← clientID target])

/-- `IRC_Send_Channel_Info`. -/
def ircSendChannelInfo (client : ClientRef) (ch : ChanRef) : Query Unit := do
  let chan ← derefChan ch
  if !chan.topic.isEmpty then
    reply client (format rplTopicMsg [← clientID client, chan.name, chan.topic])
    reply client (format rplTopicsetbyMsg
      [← clientID client, chan.name, chan.topicWho, natStr chan.topicTime])
  ircSendNames client ch
  reply client (format rplEndofnamesMsg [← clientID client, ← channelName ch])

/-- What `IRC_JOIN` does after one channel of its list: go on with the next
one, or leave the loop with a result. -/
inductive JoinResult where
  | next
  | leave (result : Bool)
  deriving DecidableEq, Repr

/-- What `IRC_JOIN` finds out about a channel before it joins it. -/
inductive JoinPlan where
  /-- Join, giving the new member these modes if the channel is new. -/
  | enter (chan : Option ChanRef) (flags : Str)
  | skip (result : JoinResult)
  deriving DecidableEq, Repr

/-- The checks of `IRC_JOIN` for a local user. -/
def planJoinUser (client : ClientRef) (channame : Str) (key : Option Str) : Basic JoinPlan := do
  let w ← getWorld
  let chan := w.channelSearch channame
  match chan with
  | some ch => if w.channelIsMemberOf ch client then return .skip .next
  | none =>
    if !(channame.head?.any fun c => w.conf.allowedChannelTypes.contains c) then
      let _ ← ircWriteErrClient client (format errNosuchchannelMsg [← clientID client, channame])
      return .skip .next
  if w.conf.maxJoins > 0 ∧ (w.channelCountForUser client : Int) ≥ w.conf.maxJoins then
    if !(← ircWriteErrClient client
        (format errToomanychannelsMsg [← clientID client, channame])) then
      return .skip (.leave disconnected)
    return .skip .next
  let flags : Str ← match chan with
    | some ch =>
      if !(← joinAllowed client ch channame key) then return .skip .next
      pure []
    | none => pure (if channame.head? = some '+' then [] else "o")
  updateIdle client
  return .enter chan flags

/-- The same for a JOIN received from a server: only one-shot invitations are
used up. -/
def planJoinServer (target : ClientRef) (channame flags : Str) : Basic JoinPlan := do
  let chan := (← getWorld).channelSearch channame
  if let some ch := chan then
    let _ ← checkInvites ch target
  return .enter chan flags

/-- The second half of the loop body of `IRC_JOIN`: join, announce, greet. -/
def enterChannel (client target : ClientRef) (channame : Str) (chan : Option ChanRef)
    (flags : Str) : Basic JoinResult := do
  if !(← channelJoin target channame) then return .next
  let ch ← match chan with
    | some ch => pure ch
    | none =>
      match (← getWorld).channelSearch channame with
      | none => dataFault .assertion
      | some ch => do
          setDefaultModes ch
          pure ch
  joinSetChannelmodes ch target flags
  joinForward client target ch channame
  if (← clientType client) = .user then
    if !(← ircWriteStrClientPrefix client target (format "JOIN :%s" [channame])) then
      return .leave connected
    if !(← (ircSendChannelInfo client ch).toMsg) then return .leave connected
  return .next

/-- The body of the loop of `IRC_JOIN` for one channel and the key given for
it.  A server may append modes for the new member after a BEL character. -/
def joinChannel (client target : ClientRef) (name : Str) (key : Option Str) :
    Basic JoinResult := do
  let isServer := (← clientType client) == .server
  let (channame, modes) := if isServer then cutAt (Char.ofNat 7) name else (name, none)
  let plan ←
    if (← clientType client) = .user then planJoinUser client channame key
    else planJoinServer target channame (modes.getD [])
  match plan with
  | .skip r => return r
  | .enter chan flags => enterChannel client target channame chan flags

/-- The loop of `IRC_JOIN`. -/
def joinChannels (client target : ClientRef) : List (Str × Option Str) → Basic JoinResult
  | [] => return .next
  | (name, key) :: rest => do
      match ← joinChannel client target name key with
      | .next => joinChannels client target rest
      | .leave r => return .leave r

/-- The channels of a JOIN request, each with the key given for it. -/
def joinTargets (req : Request) : List (Str × Option Str) :=
  let names := strtok (req.arg 0) ","
  let keys := if req.argc > 1 then strtok (req.arg 1) "," else []
  names.zipIdx.map fun ni => (ni.1, keys[ni.2]?)

/-! ## Leaving -/

/-- `Channel_Part`. -/
def channelPart (client origin : ClientRef) (name reason : Str) : Basic Bool := do
  let w ← getWorld
  match w.channelSearch name with
  | none => do
      let _ ← ircWriteErrClient client (format errNosuchchannelMsg [← clientID client, name])
      return false
  | some ch =>
    if !w.channelIsMemberOf ch client then
      let _ ← ircWriteErrClient client (format errNotonchannelMsg [← clientID client, name])
      return false
    removeClient .part ch client origin (if w.conf.morePrivacy then [] else reason) true

/-- The loop of `part_from_all_channels`, for at most `n` channels. -/
def partChannels (client target : ClientRef) : Nat → Basic Unit
  | 0 => dataFault .endless
  | n + 1 => do
      match (← getWorld).channelsOf target with
      | [] => return ()
      | ch :: _ => do
          let _ ← channelPart target client (← channelName ch) (← clientID target)
          partChannels client target n

/-- `part_from_all_channels`. -/
def partFromAllChannels (client target : ClientRef) : Basic Bool := do
  partChannels client target (((← getWorld).channelsOf target).length + 1)
  return connected

/-- `IRC_JOIN`. -/
def ircJoin : Basic Bool :=
  withSender req client fun target => do
    if req.argc = 1 ∧ req.arg 0 = "0" then partFromAllChannels client target
    else if (req.arg 0).isEmpty then needMoreParams client req
    else match ← joinChannels client target (joinTargets req) with
      | .next => return connected
      | .leave r => return r

/-- `IRC_PART`. -/
def ircPart : Basic Bool :=
  withSender req client fun target => do
    let names := strtok (req.arg 0) ","
    if names.isEmpty then return ← needMoreParams client req
    Prog.forEach (fun name => do
      let _ ← channelPart target client name (req.arg 1)) names
    updateIdle client
    return connected

/-! ## Topics and channel information -/

/-- The change of a topic by `IRC_TOPIC`, once it is allowed. -/
def changeTopic (client source : ClientRef) (ch : ChanRef) (req : Request) : Basic Bool := do
  let w ← getWorld
  let source := if w.conf.operServerMode then w.thisServer else source
  let text := format "TOPIC %s :%s" [req.arg 0, req.arg 1]
  if !(← derefChan ch).isLocal then ircWriteStrServersPrefix (some client) source text
  if req.arg 1 ≠ (← derefChan ch).topic then
    ircWriteStrChannelPrefix client ch source false text
  channelSetTopic ch (some source) (req.arg 1)
  if (← clientType client) = .user then ircWriteStrClientPrefix client client text
  else return connected

/-- The answer of `IRC_TOPIC` to a request without a new topic. -/
def showTopic (client source : ClientRef) (ch : ChanRef) : Query Unit := do
  let chan ← derefChan ch
  if chan.topic.isEmpty then
    reply source (format rplNotopicMsg [← clientID source, chan.name])
  else
    reply source (format rplTopicMsg [← clientID client, chan.name, chan.topic])
    reply source (format rplTopicsetbyMsg
      [← clientID client, chan.name, chan.topicWho, natStr chan.topicTime])

/-- `IRC_TOPIC`. -/
def ircTopic : Basic Bool :=
  withSender req client fun source => do
    let w ← getWorld
    match w.channelSearch (req.arg 0) with
    | none =>
      ircWriteErrClient source (format errNosuchchannelMsg [← clientID source, req.arg 0])
    | some ch =>
      let isServer := (← clientType client) == .server
      let topicPower := isServer || (← clientHasMode source 'o')
      if !isServer ∧ !w.channelIsMemberOf ch source ∧ !(w.conf.operCanMode && topicPower) then
        return ← ircWriteErrClient source (format errNotonchannelMsg [← clientID source, req.arg 0])
      if req.argc = 1 then return ← (showTopic client source ch).toMsg
      if ← channelHasMode ch 't' then
        if !topicPower then
          if !(← channelUserHasAnyMode ch source "hoaq") then
            return ← ircWriteErrClient source
              (format errChanoprivsneededMsg [← clientID source, ← channelName ch])
      changeTopic client source ch req

/-- The modes part of `IRC_CHANINFO`. -/
def chaninfoModes (client source : ClientRef) (ch : ChanRef) (req : Request) : Basic Unit := do
  if (req.arg 1).head? ≠ some '+' then return ()
  if !(← derefChan ch).modes.isEmpty then return ()
  editChannel ch fun c => { c with modes := strlcpy (req.arg 1).tail channelModeLen }
  if req.argc = 5 then
    editChannel ch fun c =>
      { c with
        key := if c.hasMode 'k' then strlcpy (req.arg 2) clientPassLen else c.key
        maxusers := if c.hasMode 'l' then toULong (atoi (req.arg 3)) else c.maxusers }
  else
    editChannel ch fun c => { c with modes := modesDel (modesDel c.modes 'l') 'k' }
  let c ← derefChan ch
  let limit : Str := if c.hasMode 'l' then format " %lu" [natStr c.maxusers] else []
  let key : Str := if c.hasMode 'k' then ' ' :: c.key else []
  ircWriteStrChannelPrefix client ch source false
    (format "MODE %s +%s%s" [req.arg 0, c.modes, limit ++ key])

/-- `IRC_CHANINFO`. -/
def ircChaninfo : Basic Bool := do
  if req.argc < 2 ∨ req.argc = 4 ∨ req.argc > 5 then return ← needMoreParams client req
  withSender req client fun source => do
    let ch ← match (← getWorld).channelSearch (req.arg 0) with
      | some ch => pure ch
      | none => channelCreate (req.arg 0)
    chaninfoModes client source ch req
    if req.argc ≠ 2 then
      let topic := req.arg (req.argc - 1)
      if (← derefChan ch).topic.isEmpty ∧ !topic.isEmpty then
        channelSetTopic ch (some client) topic
        ircWriteStrChannelPrefix client ch source false
          (format "TOPIC %s :%s" [req.arg 0, (← derefChan ch).topic])
    let fmt : Str :=
      if req.argc = 5 then "CHANINFO %s %s %s %s :%s"
      else if req.argc = 3 then "CHANINFO %s %s :%s"
      else "CHANINFO %s %s"
    ircWriteStrServersPrefixFlag (some client) source (some 'C') (format fmt req.argv)
    return connected

end Ngircd
