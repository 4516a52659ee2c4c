import Ngircd.Join

/-!
# MODE and AWAY

The handlers of `irc-mode.c`.  A MODE request is a string of signed letters;
they are applied one after the other while the string is still being read.
-/

namespace Ngircd

open Lib

variable (client : ClientRef) (req : Request)

/-! ## Modes of users -/

/-- `Client_ModeAdd`. -/
def clientModeAdd (r : ClientRef) (m : Char) : Basic Bool := do
  let had ← clientHasMode r m
  editClient r { edit := fun c => { c with modes := modesAdd c.modes m } }
  return !had

/-- `Client_ModeDel`. -/
def clientModeDel (r : ClientRef) (m : Char) : Basic Bool := do
  let had ← clientHasMode r m
  editClient r { edit := fun c => { c with modes := modesDel c.modes m } }
  return had

/-- `Client_SetAway`. -/
def clientSetAway (r : ClientRef) (txt : Str) : Basic Unit :=
  editClient r { edit := fun c => { c with away := some (txt.take (clientAwayLen - 1)) } }

/-- The string of changes that is announced: a change of sign overwrites a sign
nothing has followed yet. -/
def signModes (theModes : Str) (sign : Char) : Str :=
  match theModes.getLast? with
  | some '+' => theModes.dropLast ++ [sign]
  | some '-' => theModes.dropLast ++ [sign]
  | _ => strlcat theModes [sign] commandLen

/-- Drop a sign at the end that nothing follows. -/
def trimSign (theModes : Str) : Str :=
  match theModes.getLast? with
  | some '+' => theModes.dropLast
  | some '-' => theModes.dropLast
  | _ => theModes

/-- What `Client_Mode` does with one letter. -/
inductive UserModeChange where
  /-- Answer an error to the originator. -/
  | refuse (msg : Str)
  | change (m : Char)
  | nothing
  deriving DecidableEq, Repr

/-- The validation of one letter by `Client_Mode`.  `isServer` tells whether
the request comes from a server, `origin` and `client` are the originator and
the client it was received from. -/
def validateUserMode (w : World) (isServer set : Bool) (client origin : Client) (m : Char) :
    UserModeChange :=
  if "bCiIsw".toList.contains m then .change m
  else if m = 'a' then if isServer then .change 'a' else .refuse errNoprivilegesMsg
  else if m = 'B' then if client.hasMode 'r' then .refuse errRestrictedMsg else .change 'B'
  else if m = 'c' ∨ m = 'q' ∨ m = 'F' then
    if !set || isServer || origin.hasMode 'o' then .change m else .refuse errNoprivilegesMsg
  else if m = 'o' then
    if !set || isServer then .change 'o' else .refuse errNoprivilegesMsg
  else if m = 'r' then if set || isServer then .change 'r' else .refuse errRestrictedMsg
  else if m = 'R' then if isServer then .change 'R' else .refuse errNickregisterMsg
  else if m = 'x' then
    if client.hasMode 'r' then .refuse errRestrictedMsg
    else if !set || !w.conf.cloakHostModeX.isEmpty || isServer || origin.hasMode 'o' then
      .change 'x'
    else .refuse errNoprivilegesMsg
  else if !isServer then .refuse errUmodeunknownflag2Msg
  else if m = '\x00' then .nothing
  else .change m

/-- The letters `Client_Mode` reads: all parameters after the first sign.  At
an empty parameter it reads the terminator and runs on behind it. -/
def userModeLetters (req : Request) : Str :=
  (req.arg 1).tail ++
    (req.argv.drop 2).flatMap fun a => if a.isEmpty then '\x00' :: req.beyond else a

/-- The state of the loop of `Client_Mode`. -/
structure UserModeRun where
  set : Bool
  theModes : Str
  /-- `send_RPL_HOSTHIDDEN_MSG`. -/
  hostHidden : Bool := false
  deriving DecidableEq, Repr

/-- Change one mode of the target and record it. -/
def applyUserMode (target origin : ClientRef) (isServer : Bool) (st : UserModeRun) (m : Char) :
    Basic UserModeRun := do
  if m = 'a' ∧ isServer then clientSetAway origin "Away"
  let changed ← if st.set then clientModeAdd target m else clientModeDel target m
  return { st with
    theModes := if changed then strlcat st.theModes [m] commandLen else st.theModes
    hostHidden := st.hostHidden || m == 'x' }

/-- The loop of `Client_Mode`; the second result is `ok`. -/
def clientModeLoop (client origin target : ClientRef) (isServer : Bool) :
    UserModeRun → Str → Basic (UserModeRun × Bool)
  | st, [] => return (st, connected)
  | st, m :: rest => do
      if m = '+' ∨ m = '-' then
        let set : Bool := m = '+'
        let theModes := if set = st.set then st.theModes else signModes st.theModes m
        clientModeLoop client origin target isServer { st with set, theModes } rest
      else
        match validateUserMode (← getWorld) isServer st.set (← deref client) (← deref origin) m
        with
        | .refuse msg =>
          let sign : Str := if st.set then "+" else "-"
          let text := format msg [← clientID origin, sign, [m]]
          if !(← ircWriteErrClient origin (text.takeWhile (· != '\x00'))) then
            return (st, disconnected)
          clientModeLoop client origin target isServer st rest
        | .nothing => clientModeLoop client origin target isServer st rest
        | .change m =>
          let st ← applyUserMode target origin isServer st m
          clientModeLoop client origin target isServer st rest

/-- The part of `Client_Mode` after its loop: announce the changes. -/
def announceUserModes (client origin target : ClientRef) (isServer : Bool) (st : UserModeRun)
    (ok : Bool) : Msg Bool := do
  if st.theModes.length ≤ 1 then return ok
  let text := do return format "MODE %s :%s" [← clientID target, trimSign st.theModes]
  let ok ←
    if isServer then do
      if (← deref target).connId.isSome then
        let _ ← ircWriteStrClientPrefix target origin (← text)
      pure ok
    else ircWriteStrClientPrefix client origin (← text)
  ircWriteStrServersPrefix (some client) origin (← text)
  if st.hostHidden ∧ (← deref target).connId.isSome then
    let _ ← ircWriteStrClientPrefix target origin
      (format rplHosthiddenMsg [← clientID target, ← clientHostnameDisplayed target])
  return ok

/-- `Client_Mode`. -/
def clientMode (origin target : ClientRef) :
    Basic Bool := do
  let type ← clientType client
  if type = .user ∧ target ≠ client then
    return ← ircWriteErrClient client (format errUsersdontmatchMsg [← clientID client])
  if req.argc = 1 then
    return ← ircWriteStrClient origin
      (format rplUmodeisMsg [← clientID target, (← deref target).modes])
  match (req.arg 1).head? with
  | some '+' | some '-' =>
    let set : Bool := (req.arg 1).head? = some '+'
    let isServer : Bool := type = .server
    let (st, ok) ← clientModeLoop client origin target isServer
      { set, theModes := if set then "+" else "-" } (userModeLetters req)
    announceUserModes client origin target isServer st ok
  | _ => ircWriteErrClient origin (format errUmodeunknownflagMsg [← clientID origin])

/-! ## The power of a requester over a channel -/

/-- The flags `is_oper` to `is_halfop` of `Channel_Mode`. -/
structure ModePower where
  oper : Bool
  machine : Bool
  owner : Bool := false
  admin : Bool := false
  op : Bool := false
  halfop : Bool := false
  deriving DecidableEq, Repr

namespace ModePower

/-- IRC operators who may change modes, servers and services. -/
def trusted (p : ModePower) : Bool := p.oper || p.machine

/-- At least an owner. -/
def ownerOr (p : ModePower) : Bool := p.trusted || p.owner

/-- At least a channel admin. -/
def adminOr (p : ModePower) : Bool := p.ownerOr || p.admin

/-- At least a channel operator. -/
def opOr (p : ModePower) : Bool := p.adminOr || p.op

/-- At least a half operator. -/
def halfopOr (p : ModePower) : Bool := p.opOr || p.halfop

/-- The flags only grow: those of the member's modes now are added. -/
def gain (p : ModePower) (modes : Str) : ModePower :=
  { p with
    owner := p.owner || modes.contains 'q'
    admin := p.admin || modes.contains 'a'
    op := p.op || modes.contains 'o'
    halfop := p.halfop || modes.contains 'h' }

end ModePower

/-! ## Lists of a channel -/

/-- The list a mode letter stands for. -/
def channelListOf (what : Char) (c : Channel) : List ListElem :=
  if what = 'I' then c.listInvites else if what = 'b' then c.listBans else c.listExcepts

/-- Replace the list a mode letter stands for. -/
def setChannelList (what : Char) (l : List ListElem) (c : Channel) : Channel :=
  if what = 'I' then { c with listInvites := l }
  else if what = 'b' then { c with listBans := l }
  else { c with listExcepts := l }

/-- `ShowChannelList` with the messages of `Channel_ShowInvites`,
`Channel_ShowBans` and `Channel_ShowExcepts`. -/
def showChannelList (what : Char) (client : ClientRef) (ch : ChanRef) : Query Unit := do
  let (msg, msgEnd) : Str × Str :=
    if what = 'I' then (rplInvitelistMsg, rplEndofinvitelistMsg)
    else if what = 'b' then (rplBanlistMsg, rplEndofbanlistMsg)
    else (rplExceptlistMsg, rplEndofexceptlistMsg)
  Prog.forEach (fun (e : ListElem) => do
    reply client (format msg
      [← clientID client, ← channelName ch, e.mask, e.reason, intStr e.validUntil]))
    (channelListOf what (← derefChan ch))
  reply client (format msgEnd [← clientID client, ← channelName ch])

/-- `Send_ListChange`. -/
def sendListChange (isAdd : Bool) (what : Char) (pfx client : ClientRef) (ch : ChanRef)
    (mask : Str) : Msg Bool := do
  let text := do
    return format "MODE %s %c%c %s" [← channelName ch, if isAdd then "+" else "-", [what], mask]
  let ok ←
    if (← clientType client) = .user then ircWriteStrClientPrefix client pfx (← text)
    else pure true
  ircWriteStrServersPrefix (some client) pfx (← text)
  ircWriteStrChannelPrefix client ch pfx false (← text)
  return ok

/-- `Add_To_List`. -/
def addToList (what : Char) (pfx client : ClientRef) (ch : ChanRef) (pattern : Str) :
    Basic Bool := do
  let mask := listsMakeMask pattern
  let c ← derefChan ch
  if (listsCheckDupeMask (channelListOf what c) mask).isSome then return connected
  if (← clientType client) = .user ∧ maxHndlChannelLists ≤
      c.listInvites.length + c.listExcepts.length + c.listBans.length then
    return ← ircWriteErrClient client (format errListfullMsg
      [← clientID client, c.name, mask, natStr maxHndlChannelLists])
  let now := (← getWorld).now
  let who ← clientID client
  editChannel ch fun c => setChannelList what (listsAdd (channelListOf what c) mask now who false) c
  sendListChange true what pfx client ch mask

/-- `Del_From_List`. -/
def delFromList (what : Char) (pfx client : ClientRef) (ch : ChanRef) (pattern : Str) :
    Basic Bool := do
  let mask := listsMakeMask pattern
  if (listsCheckDupeMask (channelListOf what (← derefChan ch)) mask).isNone then return connected
  editChannel ch fun c => setChannelList what (listsDel (channelListOf what c) mask) c
  sendListChange false what pfx client ch mask

/-! ## Modes of channels -/

/-- What one letter of a channel MODE request comes to. -/
inductive ModeChange where
  /-- Leave the loop (`goto chan_exit`), with the value of `connected`. -/
  | leave (ok : Bool)
  /-- No mode is changed. -/
  | nothing (ok : Bool)
  | channel (m : Char) (argadd : Str)
  | member (m : Char) (client : ClientRef)
  deriving DecidableEq, Repr

/-- Who asks for a channel mode, on whose behalf, where and with what command. -/
structure ModeRequest where
  client : ClientRef
  origin : ClientRef
  ch : ChanRef
  command : Str
  deriving DecidableEq, Repr

/-- Answer an error about the channel to the originator. -/
def modeError (r : ModeRequest) (msg : Str) (more : List Str) : Msg Bool := do
  ircWriteErrClient r.origin (format msg ((← clientID r.origin) :: (← channelName r.ch) :: more))

/-- A letter that half operators may change. -/
def plainMode (r : ModeRequest) (power : ModePower) (m : Char) : Msg ModeChange := do
  if power.halfopOr then return .channel m []
  return .nothing (← modeError r errChanoprivsneededMsg [])

/-- `Mode_Limit_Reached`. -/
def modeLimitReached (type : ClientType) (count : Nat) : Bool :=
  type ≠ .server && type ≠ .service && decide (maxHndlModesArg ≤ count)

/-- `+k`.  The result also holds the parameters that are left. -/
def setKeyMode (r : ModeRequest) (power : ModePower) : List Str → Basic (ModeChange × List Str)
  | [] => do
      if power.machine then return (.leave connected, [])
      return (.leave (← ircWriteErrClient r.origin
        (format errNeedmoreparamsMsg [← clientID r.origin, r.command])), [])
  | key :: args => do
      if key.isEmpty ∨ key.contains ' ' then
        if power.machine then return (.leave connected, args)
        return (.leave (← modeError r errInvalidmodeparamMsg ["k"]), args)
      if power.halfopOr then
        let _ ← channelModeDel r.ch 'k'
        editChannel r.ch fun c => { c with key := strlcpy key clientPassLen }
        return (.channel 'k' (← derefChan r.ch).key, args)
      return (.nothing (← modeError r errChanoprivsneededMsg []), args)

/-- `-k`: a parameter is passed over if there is one. -/
def unsetKeyMode (r : ModeRequest) (power : ModePower) (args : List Str) :
    Basic (ModeChange × List Str) := do
  if power.halfopOr then
    return (.channel 'k' (if ← channelHasMode r.ch 'k' then "*" else []), args.tail)
  return (.nothing (← modeError r errChanoprivsneededMsg []), args)

/-- `+l`. -/
def setLimitMode (r : ModeRequest) (power : ModePower) :
    List Str → Basic (ModeChange × List Str)
  | [] => do
      if power.machine then return (.leave connected, [])
      return (.leave (← ircWriteErrClient r.origin
        (format errNeedmoreparamsMsg [← clientID r.origin, r.command])), [])
  | limit :: args => do
      let l := atoi limit
      if l ≤ 0 ∨ 0xFFFF ≤ l then
        if power.machine then return (.leave connected, args)
        return (.leave (← modeError r errInvalidmodeparamMsg ["l"]), args)
      if power.halfopOr then
        let _ ← channelModeDel r.ch 'l'
        editChannel r.ch fun c => { c with maxusers := l.toNat }
        return (.channel 'l' (intStr l), args)
      return (.nothing (← modeError r errChanoprivsneededMsg []), args)

/-- `O` and `P`: only IRC operators and machines may set them. -/
def operMode (r : ModeRequest) (power : ModePower) (set : Bool) (m : Char) :
    Msg ModeChange := do
  if set then
    if power.trusted then return .channel m []
    return .nothing (← ircWriteErrClient r.origin (format errNoprivilegesMsg [← clientID r.origin]))
  if power.opOr then return .channel m []
  return .nothing (← modeError r errChanoprivsneededMsg [])

/-- The modes of members, after the checks for the single letters. -/
def memberMode (r : ModeRequest) (power : ModePower) (m : Char) :
    List Str → Msg (ModeChange × List Str)
  | [] => return (.leave connected, [])
  | nick :: args => do
      if power.halfopOr then
        match (← getWorld).clientSearch nick with
        | some cl => return (.member m cl, args)
        | none =>
          return (.nothing (← ircWriteErrClient r.origin
            (format errNosuchnickMsg [← clientID r.origin, nick])), args)
      return (.nothing (← modeError r errChanoprivsneededMsg []), args)

/-- `I`, `b` and `e`: change a list, or show it when no parameter is left. -/
def listMode (r : ModeRequest) (power : ModePower) (set : Bool) (m : Char) :
    List Str → Basic (ModeChange × List Str)
  | [] => do
      let _ ← (showChannelList m r.origin r.ch).toMsg
      return (.nothing connected, [])
  | pattern :: args => do
      if power.halfopOr then
        let ok ←
          if set then addToList m r.origin r.client r.ch pattern
          else delFromList m r.origin r.client r.ch pattern
        return (.nothing ok, args)
      return (.nothing (← modeError r errChanoprivsneededMsg []), args)

/-- A letter that is no channel mode: only servers may set it. -/
def unknownMode (r : ModeRequest) (type : ClientType) (m : Char) : Msg ModeChange := do
  if type ≠ .server then
    let text := format errUnknownmodeMsg [← clientID r.origin, [m], ← channelName r.ch]
    return .nothing (← ircWriteErrClient r.origin (text.takeWhile (· != '\x00')))
  return if m = '\x00' then .nothing connected else .channel m []

/-- The validation of one letter by `Channel_Mode`, and the parameters left. -/
def validateMode (r : ModeRequest) (type : ClientType) (power : ModePower) (set : Bool)
    (m : Char) (args : List Str) : Basic (ModeChange × List Str) := do
  if m = 'R' ∨ m = 's' ∨ m = 'z' then
    if !power.opOr then return (.leave (← modeError r errChanoprivsneededMsg []), args)
    return (← plainMode r power m, args)
  else if "iVMmnNQt".toList.contains m then return (← plainMode r power m, args)
  else if m = 'k' then if set then setKeyMode r power args else unsetKeyMode r power args
  else if m = 'l' then
    if set then setLimitMode r power args else return (← plainMode r power m, args)
  else if m = 'O' ∨ m = 'P' then return (← operMode r power set m, args)
  else if m = 'q' ∧ !power.ownerOr then
    return (.leave (← modeError r errChanopprivtoolowMsg []), args)
  else if m = 'a' ∧ !power.adminOr then
    return (.leave (← modeError r errChanopprivtoolowMsg []), args)
  else if (m = 'o' ∨ m = 'h') ∧ !power.opOr then
    return (.leave (← modeError r errChanoprivsneededMsg []), args)
  else if m = 'q' ∨ m = 'a' ∨ m = 'o' ∨ m = 'h' ∨ m = 'v' then memberMode r power m args
  else if m = 'I' ∨ m = 'b' ∨ m = 'e' then listMode r power set m args
  else return (← unknownMode r type m, args)

/-- The state of the loop of `Channel_Mode`.  `args` are the parameters from
`arg_arg` on. -/
structure ModeRun where
  set : Bool
  theModes : Str
  theArgs : Str := []
  args : List Str
  count : Nat := 0
  power : ModePower
  deriving DecidableEq, Repr

/-- Apply a change and record it.  The second result tells whether the loop
goes on. -/
def applyMode (r : ModeRequest) (st : ModeRun) : ModeChange → Basic (ModeRun × Bool)
  | .leave _ => return (st, false)
  | .nothing ok => return (st, ok)
  | .channel m argadd => do
      let changed ← if st.set then channelModeAdd r.ch m else channelModeDel r.ch m
      return ({ st with
        theModes := if changed then strlcat st.theModes [m] commandLen else st.theModes
        theArgs :=
          if argadd.isEmpty then st.theArgs
          else strlcat (strlcat st.theArgs " " commandLen) argadd commandLen }, true)
  | .member m cl => do
      if !(← getWorld).channelIsMemberOf r.ch cl then
        let ok ← ircWriteErrClient r.origin (format errUsernotinchannelMsg
          [← clientID r.origin, ← clientID cl, ← channelName r.ch])
        return (st, ok)
      let changed ←
        if st.set then channelUserModeAdd r.ch cl m else channelUserModeDel r.ch cl m
      if !changed then return (st, true)
      return ({ st with
        theArgs := strlcat (strlcat st.theArgs " " commandLen) (← clientID cl) commandLen
        theModes := strlcat st.theModes [m] commandLen }, true)

/-- The value of `connected` after a letter. -/
def ModeChange.connectedAfter : ModeChange → Bool
  | .leave ok => ok
  | .nothing ok => ok
  | _ => connected

/-- One letter of a channel MODE request that is no sign.  The results are the
new state, whether the loop goes on, and `connected`. -/
def modeLetter (r : ModeRequest) (type : ClientType) (st : ModeRun) (m : Char) :
    Basic (ModeRun × Bool × Bool) := do
  let power ←
    if st.power.trusted then pure st.power
    else pure (st.power.gain (← channelUserModes r.ch r.client))
  let st := { st with power }
  let counts := "klIbe".toList.contains m
  if counts ∧ modeLimitReached type st.count then return (st, false, connected)
  let st := { st with count := if counts then st.count + 1 else st.count }
  let (change, args) ← validateMode r type power st.set m st.args
  let (st, goOn) ← applyMode r { st with args } change
  return (st, goOn, change.connectedAfter)

/-- The next letter: from the current parameter, or from the next one that is
left.  At an empty parameter the terminator is read, and then what is behind it. -/
def nextModeChar (beyond : Str) : Str → List Str → Option (Char × Str × List Str)
  | m :: rest, args => some (m, rest, args)
  | [], [] => none
  | [], [] :: args => some ('\x00', beyond, args)
  | [], (m :: rest) :: args => some (m, rest, args)

/-- The loop of `Channel_Mode`, for at most `n` letters. -/
def channelModeLoop (r : ModeRequest) (type : ClientType) (beyond : Str) :
    Nat → ModeRun → Str → Basic (ModeRun × Bool)
  | 0, _, _ => dataFault .endless
  | n + 1, st, rest =>
    match nextModeChar beyond rest st.args with
    | none => return (st, connected)
    | some (m, rest, args) => do
        let st := { st with args }
        if m = '+' ∨ m = '-' then
          let set : Bool := m = '+'
          let theModes := if set = st.set then st.theModes else signModes st.theModes m
          channelModeLoop r type beyond n { st with set, theModes } rest
        else
          let (st, goOn, ok) ← modeLetter r type st m
          if goOn then channelModeLoop r type beyond n st rest else return (st, ok)

/-- More letters than a MODE request can have. -/
def modeBound (req : Request) : Nat :=
  (req.argv.map fun a => a.length + req.beyond.length + 1).sum + 1

/-- The part of `Channel_Mode` after its loop: announce the changes. -/
def announceModes (r : ModeRequest) (st : ModeRun) (ok : Bool) : Msg Bool := do
  if st.theModes.length ≤ 1 then return ok
  let text := do
    return format "MODE %s %s%s" [← channelName r.ch, trimSign st.theModes, st.theArgs]
  let w ← getWorld
  if (← clientType r.client) = .server then
    if (← derefChan r.ch).isLocal ∧ r.client ≠ w.thisServer then return connected
    ircWriteStrServersPrefix (some r.client) r.origin (← text)
    ircWriteStrChannelPrefix r.client r.ch r.origin false (← text)
    return ok
  else
    let origin := if w.conf.operServerMode then w.thisServer else r.origin
    let ok ← ircWriteStrClientPrefix r.client origin (← text)
    if !(← derefChan r.ch).isLocal then
      ircWriteStrServersPrefix (some r.client) origin (← text)
    ircWriteStrChannelPrefix r.client r.ch origin false (← text)
    return ok

/-- `Channel_Mode_Answer_Request`. -/
def channelModeAnswerRequest (origin : ClientRef) (ch : ChanRef) : Query Unit := do
  let c ← derefChan ch
  let shown :=
    if !(← getWorld).channelIsMemberOf ch origin then c.modes
    else strlcat c.modes (c.modes.flatMap fun m =>
      if m = 'l' then ' ' :: natStr c.maxusers else if m = 'k' then ' ' :: c.key else [])
      commandLen
  reply origin (format rplChannelmodeisMsg [← clientID origin, c.name, shown])
  reply origin (format rplCreationtimeMsg [← clientID origin, c.name, natStr c.creationTime])

/-- `Channel_Mode`. -/
def channelMode (origin : ClientRef) (ch : ChanRef) :
    Basic Bool := do
  let chan ← derefChan ch
  if chan.isModeless then
    return ← ircWriteErrClient client (format errNochanmodesMsg [← clientID client, chan.name])
  if req.argc ≤ 1 then return ← (channelModeAnswerRequest origin ch).toMsg
  let w ← getWorld
  let c ← deref client
  let power : ModePower :=
    { oper := c.hasMode 'o' && w.conf.operCanMode
      machine := c.type = .server || c.type = .service }
  if !w.channelIsMemberOf ch client ∧ !power.trusted then
    return ← ircWriteErrClient origin (format errNotonchannelMsg [← clientID origin, chan.name])
  let (set, rest) := match req.arg 1 with
    | '-' :: rest => (false, rest)
    | '+' :: rest => (true, rest)
    | rest => (true, rest)
  let r : ModeRequest := { client, origin, ch, command := req.command }
  let (st, ok) ← channelModeLoop r c.type req.beyond (modeBound req)
    { set, theModes := if set then "+" else "-", args := req.argv.drop 2, power } rest
  announceModes r st ok

/-- `IRC_MODE`. -/
def ircMode : Basic Bool :=
  withSender req client fun origin => do
    let w ← getWorld
    -- Requests the daemon makes itself carry the name of this server.
    let client :=
      if req.pfx.bind w.clientSearch = some w.thisServer then w.thisServer else client
    let isValidNick := w.clientIsValidNick (req.arg 0)
    let cl := if isValidNick then w.clientSearch (req.arg 0) else none
    let chan := if channelIsValidName (req.arg 0) then w.channelSearch (req.arg 0) else none
    match cl, chan with
    | some cl, _ => clientMode client req origin cl
    | none, some ch => channelMode client req origin ch
    | none, none =>
      let msg := if isValidNick then errNosuchnickMsg else errNosuchchannelMsg
      ircWriteErrClient client (format msg [← clientID client, req.arg 0])

/-- `IRC_AWAY`. -/
def ircAway : Basic Bool := do
  if req.argc = 1 ∧ !(req.arg 0).isEmpty then
    clientSetAway client (req.arg 0)
    let _ ← clientModeAdd client 'a'
    ircWriteStrServersPrefix (some client) client (format "MODE %s :+a" [← clientID client])
    ircWriteStrClient client (format rplNowawayMsg [← clientID client])
  else
    let _ ← clientModeDel client 'a'
    ircWriteStrServersPrefix (some client) client (format "MODE %s :-a" [← clientID client])
    ircWriteStrClient client (format rplUnawayMsg [← clientID client])

end Ngircd
