import Ngircd.Commands

/-!
# Queries

The handlers of `irc-info.c`, and TRACE, HELP and LIST.  All of them send
replies and stop at the first one that cannot be written.
-/

namespace Ngircd

open Lib

variable (client : ClientRef) (req : Request)

/-- `MAX_RPL_WHO`, `MAX_RPL_WHOIS`, `DEF_RPL_WHOWAS`, `MAX_RPL_WHOWAS`. -/
def maxRplWho : Nat := 25

@[inherit_doc maxRplWho] def maxRplWhois : Nat := 10

@[inherit_doc maxRplWho] def defRplWhowas : Nat := 5

@[inherit_doc maxRplWho] def maxRplWhowas : Nat := 25

/-- `CLIENT_AWAY_LEN`. -/
def clientAwayLen : Nat := 128

/-- `MAX_HNDL_MODES_ARG`. -/
def maxHndlModesArg : Nat := 5

/-- `MAX_HNDL_CHANNEL_LISTS`. -/
def maxHndlChannelLists : Nat := 50

/-- `CHANTYPES`. -/
def chanTypes : Str := "#&+"

/-! ## Loops -/

/-- Go through a list with an accumulator until a visit answers `none`, which
stands for `break`. -/
def replyFold {σ α : Type} (visit : σ → α → Query (Option σ)) : σ → List α → Query σ
  | s, [] => pure s
  | s, a :: rest => do
      match ← visit s a with
      | none => pure s
      | some s => replyFold visit s rest

/-- The same along `My_Clients`, where the walk reads `next` of the structure
it has just visited. -/
def replyClients {σ : Type} (s : σ) (visit : σ → ClientRef → Query (Option σ)) : Query σ := do
  replyFold (fun s r => do
    if !(← getWorld).order.contains r then return some s
    let next ← visit s r
    if next.isSome ∧ !(← getWorld).order.contains r then dataFault (.freedClient r)
    return next) s (← getWorld).order

/-- `IRC_CheckListTooBig`. -/
def ircCheckListTooBig (client : ClientRef) (count limit : Nat) (name : Str) : Msg Bool := do
  if count < limit then return false
  let _ ← ircWriteStrClient client
    (format "NOTICE %s :%s list limit (%d) reached!" [← clientID client, name, natStr limit])
  ircSetPenalty client 2
  return true

/-- Separate the next name from those already listed after the colon. -/
def separated (str : Str) : Str :=
  if str.getLast? = some ':' then str else strlcat str " " commandLen

/-- Send a list of names that has become longer than `limit` and start anew. -/
def replyIfLong (client : ClientRef) (limit : Nat) (start str : Str) : Query Str := do
  if str.length > limit then
    reply client str
    return start
  return str

/-- Send what is left of a list of names. -/
def replyRest (client : ClientRef) (str : Str) : Query Unit := do
  if str.getLast? ≠ some ':' then reply client str

/-- `who_flags_qualifier`: all prefixes of a member, or the highest one. -/
def whoFlagsQualifier (multiPrefix : Bool) (modes str : Str) (len : Nat) : Str :=
  let all : List (Char × Char) := [('q', '~'), ('a', '&'), ('o', '@'), ('h', '%'), ('v', '+')]
  let present := all.filter fun p => modes.contains p.1
  let shown := if multiPrefix then present else present.take 1
  shown.foldl (fun s p => strlcat s [p.2] len) str

/-! ## Operator privileges -/

/-- `Op_NoPrivileges`. -/
def opNoPrivileges : Query Unit := do
  let w ← getWorld
  match req.pfx.bind fun p => (w.clientSearch p).map fun f => (p, f) with
  | some (p, source) => do
      logSnotice (format "No privileges: client \"%s\" (%s), command \"%s\"!"
        [p, ← clientMask client, req.command])
      replyErr source (format errNoprivilegesMsg [← clientID source])
  | none => do
      logSnotice (format "No privileges: client \"%s\", command \"%s\"!"
        [← clientMask client, req.command])
      replyErr client (format errNoprivilegesMsg [← clientID client])

/-- `Op_Check`: the operator on whose behalf a request is made. -/
def opCheck : Msg (Option ClientRef) := do
  let w ← getWorld
  let isServer := (← clientType client) == .server
  let candidate := match isServer, req.pfx with
    | true, some p => w.clientSearch p
    | _, _ => some client
  match candidate with
  | none => return none
  | some cand =>
    let c ← deref cand
    if isServer ∧ c.type = .server then return some cand
    if !c.hasMode 'o' then return none
    if c.connId.isNone ∧ !w.conf.allowRemoteOper then return none
    return some cand

/-! ## Server information -/

/-- Answer a query here, or forward it to the server it is for.  The result of
the forwarding write is not used. -/
def replyOrForward (req : Request) (client : ClientRef) (argc : Nat)
    (forward : ClientRef → Msg Str) (answer : ClientRef → Query Unit) : Query Unit :=
  replySender req client fun sender =>
    replyTarget req argc sender fun target => do
      if target ≠ (← thisServer) then
        let _ ← ircWriteStrClientPrefix target sender (← forward target)
      else answer sender

/-- `IRC_ADMIN`. -/
def ircAdmin : Query Unit :=
  replyOrForward req client 0 (fun target => do
      return format "ADMIN %s" [← clientID target]) fun pfx => do
    let conf := (← getWorld).conf
    reply client (format rplAdminmeMsg [← clientID pfx, conf.serverName])
    reply client (format rplAdminloc1Msg [← clientID pfx, conf.serverAdmin1])
    reply client (format rplAdminloc2Msg [← clientID pfx, conf.serverAdmin2])
    reply client (format rplAdminemailMsg [← clientID pfx, conf.serverAdminMail])

/-- `IRC_INFO`. -/
def ircInfo : Query Unit :=
  replyOrForward req client 0 (fun target => do
      return format "INFO %s" [← clientID target]) fun pfx => do
    let conf := (← getWorld).conf
    reply client (format rplInfoMsg [← clientID pfx, conf.ngircdVersion])
    reply client (format rplInfoMsg
      [← clientID pfx, snprintf 510 "Birth Date: %s" [conf.birthDate]])
    reply client (format rplInfoMsg [← clientID pfx, strlcat "On-line since " conf.startStr 510])
    reply client (format rplEndofinfoMsg [← clientID pfx])

/-- `IRC_TIME`. -/
def ircTime : Query Unit :=
  replyOrForward req client 0 (fun target => do
      return format "TIME %s" [← clientID target]) fun source => do
    let w ← getWorld
    reply source (format rplTimeMsg
      [← clientID source, ← clientID w.thisServer,
        w.conf.strftime "%A %B %d %Y -- %H:%M %Z" w.now])

/-- `IRC_Send_ISUPPORT`. -/
def ircSendIsupport (client : ClientRef) : Query Unit := do
  let conf := (← getWorld).conf
  if !conf.network.isEmpty then
    reply client (format rplIsupportnetMsg [← clientID client, conf.network])
  reply client (format rplIsupport1Msg
    [← clientID client, chanTypes, chanTypes, intStr conf.maxJoins])
  reply client (format rplIsupport2Msg
    [← clientID client, natStr (channelNameLen - 1), natStr (conf.maxNickLength - 1),
      natStr (commandLen - 23), natStr (clientAwayLen - 1), natStr (commandLen - 113),
      natStr maxHndlModesArg, natStr maxHndlChannelLists])

/-- `IRC_VERSION`. -/
def ircVersion : Query Unit :=
  replyOrForward req client 0 (fun target => do
      return format "VERSION %s" [← clientID target]) fun pfx => do
    let conf := (← getWorld).conf
    reply client (format rplVersionMsg
      [← clientID pfx, conf.packageName, conf.packageVersion, conf.debugLevel, conf.serverName,
        conf.versionAddition])
    ircSendIsupport pfx

/-- `IRC_Show_MOTD`. -/
def ircShowMotd (client : ClientRef) : Query Unit := do
  let w ← getWorld
  if w.conf.motd.isEmpty then
    replyErr client (format errNomotdMsg [← clientID client])
  else
    reply client (format rplMotdstartMsg [← clientID client, ← clientID w.thisServer])
    Prog.forEach (fun line => do
      reply client (format rplMotdMsg [← clientID client, line])) w.conf.motd
    reply client (format rplEndofmotdMsg [← clientID client])
    if !w.conf.cloakHost.isEmpty then
      reply client (format rplHosthiddenMsg [← clientID client, (← deref client).host])

/-- `IRC_MOTD`. -/
def ircMotd : Query Unit :=
  replyOrForward req client 0 (fun target => do
    return format "MOTD %s" [← clientID target]) ircShowMotd

/-- `IRC_SUMMON`. -/
def ircSummon (client : ClientRef) : Query Unit := do
  replyErr client (format errSummondisabledMsg [← clientID client])

/-- `IRC_USERS`. -/
def ircUsers (client : ClientRef) : Query Unit := do
  replyErr client (format errUsersdisabledMsg [← clientID client])

/-! ## Users and servers -/

namespace World

/-- `Count`. -/
def countType (w : World) (t : ClientType) : Nat :=
  w.listed.countP fun rc => rc.2.type = t

/-- `MyCount`. -/
def myCountType (w : World) (t : ClientType) : Nat :=
  w.listed.countP fun rc => rc.2.introducer = w.thisServer && rc.2.type = t

/-- `Client_MyServerCount`. -/
def clientMyServerCount (w : World) : Nat :=
  w.listed.countP fun rc => rc.2.type = .server && rc.2.hops = 1

/-- `Client_OperCount`. -/
def clientOperCount (w : World) : Nat :=
  w.listed.countP fun rc => rc.2.type = .user && rc.2.hasMode 'o'

/-- `Client_UnknownCount`. -/
def clientUnknownCount (w : World) : Nat :=
  w.listed.countP fun rc =>
    rc.2.type ≠ .user && rc.2.type ≠ .service && rc.2.type ≠ .server

/-- `Channel_CountVisible`. -/
def channelCountVisible (w : World) (client : ClientRef) : Nat :=
  w.chans.order.countP fun ch => match w.chans.heap ch with
    | some c => !c.hasMode 's' || w.channelIsMemberOf ch client
    | none => false

end World

/-- `IRC_Send_LUSERS`. -/
def ircSendLusers (client : ClientRef) : Query Unit := do
  let w ← getWorld
  let send (msg : Str) (counts : List Nat) : Query Unit := do
    reply client (format msg ((← clientID client) :: counts.map natStr))
  send rplLuserclientMsg [w.countType .user, w.countType .service, w.countType .server]
  if w.clientOperCount > 0 then send rplLuseropMsg [w.clientOperCount]
  if w.clientUnknownCount > 0 then send rplLuserunknownMsg [w.clientUnknownCount]
  send rplLuserchannelsMsg [w.channelCountVisible client]
  send rplLusermeMsg [w.myCountType .user, w.myCountType .service, w.clientMyServerCount]
  let cnt := w.myCountType .user
  send rplLocalusersMsg [cnt, w.misc.myMaxUsers, cnt, w.misc.myMaxUsers]
  let cnt := w.countType .user
  send rplNetusersMsg [cnt, w.misc.maxUsers, cnt, w.misc.maxUsers]
  send rplStatsconnMsg [w.misc.numConnectionsMax, w.misc.numConnectionsAccepted]

/-- `IRC_LUSERS`. -/
def ircLusers : Query Unit :=
  replyOrForward req client 1 (fun target => do
    return format "LUSERS %s %s" [req.arg 0, ← clientID target]) ircSendLusers

/-- Take off a blank at the end (`ngt_TrimLastChr`). -/
def trimLastBlank (s : Str) : Str := if s.getLast? = some ' ' then s.dropLast else s

/-- One nickname of an ISON request. -/
def isonEntry (rpl name : Str) : Msg Str := do
  match (← getWorld).clientSearch (trimStr name) with
  | none => return rpl
  | some r =>
    if (← clientType r) ≠ .user then return rpl
    return strlcat (strlcat rpl (← clientID r) commandLen) " " commandLen

/-- `IRC_ISON`. -/
def ircIson : Query Unit := do
  let rpl ← replyFold (fun rpl name => do return some (← isonEntry rpl name))
    rplIsonMsg (req.argv.flatMap fun a => strtok a " ")
  let conf := (← getWorld).conf
  reply client (formatWith conf.vsnprintf 0 (trimLastBlank rpl) [← clientID client])

/-- One nickname of a USERHOST request. -/
def userhostEntry (rpl name : Str) : Msg Str := do
  let w ← getWorld
  match w.clientSearch name with
  | none => return rpl
  | some r =>
    let c ← deref r
    if c.type ≠ .user then return rpl
    let cat (s t : Str) : Str := strlcat s t commandLen
    let rpl := cat rpl (← clientID r)
    let rpl := if c.hasMode 'o' then cat rpl "*" else rpl
    let rpl := cat (cat rpl "=") (if c.hasMode 'a' then "-" else "+")
    let rpl := cat (cat rpl c.userOrTilde) "@"
    return cat (cat rpl (← clientHostnameDisplayed r)) " "

/-- `IRC_USERHOST`. -/
def ircUserhost : Query Unit := do
  let rpl ← replyFold (fun rpl name => do return some (← userhostEntry rpl name))
    rplUserhostMsg (req.argv.take 5)
  let conf := (← getWorld).conf
  reply client (formatWith conf.vsnprintf 0 (trimLastBlank rpl) [← clientID client])

/-- The body of `IRC_LINKS` once it is clear that it is answered here. -/
def sendLinks (source : ClientRef) (mask : Str) : Query Unit := do
  replyClients () fun _ r => do
    let c ← deref r
    if c.type = .server ∧ matchCaseInsensitive mask (← clientID r) then
      let top := c.topserver.getD (← thisServer)
      reply source (format rplLinksMsg
        [← clientID source, ← clientID r, ← clientID top, intStr c.hops, c.info])
    return some ()
  reply source (format rplEndoflinksMsg [← clientID source, mask])

/-- `IRC_LINKS`. -/
def ircLinks : Query Unit :=
  replySender req client fun source => do
    let mask : Str := req.argv.getLast?.getD "*"
    if req.argc = 2 then
      replyTarget req 0 source fun target => do
        if target ≠ (← thisServer) then
          let _ ← ircWriteStrClientPrefix target source
            (format "LINKS %s %s" [← clientID target, req.arg 1])
        else sendLinks source mask
    else sendLinks source mask

/-- `IRC_SERVLIST`. -/
def ircServlist : Query Unit := do
  if req.argc < 2 ∨ req.arg 1 = "0" then
    replyClients () fun _ r => do
      let c ← deref r
      if c.type = .service ∧
          (req.argc = 0 ∨ matchCaseInsensitive (req.arg 0) (← clientID r)) then
        reply client (format rplServlistMsg
          [← clientID client, c.mask, ← clientMask c.introducer, "*", "0", intStr c.hops,
            c.info])
      return some ()
  reply client (format rplServlistendMsg
    [← clientID client, req.argv.getD 0 "*", req.argv.getD 1 "0"])

/-! ## NAMES -/

/-- `IRC_Send_NAMES`. -/
def ircSendNames (client : ClientRef) (ch : ChanRef) : Query Unit := do
  let w ← getWorld
  let isMember := w.channelIsMemberOf ch client
  if w.conf.morePrivacy ∧ !isMember then return ()
  let chan ← derefChan ch
  let secret := chan.hasMode 's'
  if !isMember ∧ secret then return ()
  let me ← deref client
  let start := snprintf commandLen rplNamreplyMsg
    [← clientID client, if secret then "@" else "=", chan.name]
  let str ← replyFold (fun str r => do
    if !isMember ∧ (← clientHasMode r 'i') then return some str
    let flags := whoFlagsQualifier me.capabilities.multiPrefix (← channelUserModes ch r)
      (separated str) commandLen
    let str := strlcat flags (← clientID r) commandLen
    return some (← replyIfLong client (commandLen - clientNickLen - 4) start str))
    start (w.membersOf ch)
  replyRest client str

/-- The part of `IRC_NAMES` about users who are in no channel. -/
def sendNamesRest (source : ClientRef) : Query Unit := do
  let start := snprintf commandLen rplNamreplyMsg [← clientID source, "*", "*"]
  let str ← replyClients start fun str r => do
    let c ← deref r
    if c.type = .user ∧ ((← getWorld).channelsOf r).isEmpty ∧ !c.hasMode 'i' then
      return some (← replyIfLong source (commandLen - clientNickLen - 4) start
        (strlcat (separated str) (← clientID r) commandLen))
    return some str
  replyRest source str
  reply source (format rplEndofnamesMsg [← clientID source, "*"])

/-- `IRC_NAMES`. -/
def ircNames : Query Unit :=
  replyOrForward req client 1 (fun target => do
      return format "NAMES %s :%s" [req.arg 0, ← clientID target]) fun source => do
    if req.argc > 0 then
      Prog.forEach (fun name => do
        if let some ch := (← getWorld).channelSearch name then ircSendNames source ch
        reply source (format rplEndofnamesMsg [← clientID source, name])) (strtok (req.arg 0) ",")
    else
      Prog.forEach (ircSendNames source) (← getWorld).chans.order
      sendNamesRest source

/-! ## WHO, WHOIS and WHOWAS -/

/-- `write_whoreply`. -/
def writeWhoreply (client r : ClientRef) (channelname flags : Str) : Query Unit := do
  let c ← deref r
  reply client (format rplWhoreplyMsg
    [← clientID client, channelname, c.userOrTilde, ← clientHostnameDisplayed r,
      ← clientID c.introducer, ← clientID r, flags, intStr c.hops, c.info])

/-- The flags of a WHO reply before the channel modes: away and IRC operator. -/
def whoFlags (c : Client) : Str :=
  (if c.hasMode 'a' then 'G' else 'H') :: (if c.hasMode 'o' then ['*'] else [])

/-- `IRC_WHO_Channel`. -/
def ircWhoChannel (client : ClientRef) (ch : ChanRef) (onlyOps : Bool) : Query Unit := do
  let w ← getWorld
  let isMember := w.channelIsMemberOf ch client
  let me ← deref client
  let isOper := me.hasMode 'o'
  let chan ← derefChan ch
  if !isMember ∧ !isOper ∧ chan.hasMode 's' then
    return ← reply client (format rplEndofwhoMsg [← clientID client, chan.name])
  let count ← replyFold (fun count r => do
    let c ← deref r
    if onlyOps ∧ !c.hasMode 'o' then return some count
    if !(isMember || !c.hasMode 'i' || isOper) then return some count
    writeWhoreply client r (← channelName ch)
      (whoFlagsQualifier me.capabilities.multiPrefix (← channelUserModes ch r) (whoFlags c) 10)
    return some (count + 1)) 0 (w.membersOf ch)
  if count > maxRplWho then ircSetPenalty client 1
  reply client (format rplEndofwhoMsg [← clientID client, ← channelName ch])

/-- Does a WHO mask match host, server, name or nick of a client? -/
def whoMaskMatches (mask : Str) (r : ClientRef) (c : Client) : Msg Bool := do
  if matchCaseInsensitive mask c.host then return true
  if matchCaseInsensitive mask (← clientID c.introducer) then return true
  if matchCaseInsensitive mask c.info then return true
  return matchCaseInsensitive mask (← clientID r)

/-- Is a client shown to someone who asks with a WHO mask?  Invisible clients
are if the mask is their name or if the two share a channel. -/
def whoVisible (client r : ClientRef) (c : Client) (mask : Option Str) : Msg Bool := do
  if !c.hasMode 'i' then return true
  if let some m := mask then
    if strcaseEq (← clientID r) m then return true
  let w ← getWorld
  return (w.channelsOf client).any fun ch => w.channelIsMemberOf ch r

/-- `IRC_WHO_Mask`. -/
def ircWhoMask (client : ClientRef) (mask : Option Str) (onlyOps : Bool) : Query Unit := do
  let mask := mask.map lowerStr
  ircSetPenalty client 3
  let _ ← replyClients 0 fun count r => do
    let c ← deref r
    if c.type ≠ .user ∨ (onlyOps ∧ !c.hasMode 'o') then return some count
    if let some m := mask then
      if !(← whoMaskMatches m r c) then return some count
    if !(← whoVisible client r c mask) then return some count
    if ← ircCheckListTooBig client count maxRplWho "WHO" then return none
    writeWhoreply client r "*" (whoFlags c)
    return some (count + 1)
  reply client (format rplEndofwhoMsg [← clientID client, mask.getD "*"])

/-- `IRC_WHO`. -/
def ircWho : Query Unit := do
  let onlyOps : Bool := req.argc = 2 ∧ req.arg 1 = "o"
  if req.argc = 0 then ircWhoMask client none onlyOps
  else match (← getWorld).channelSearch (req.arg 0) with
    | some ch => ircWhoChannel client ch onlyOps
    | none =>
      ircWhoMask client (if req.arg 0 = "0" then none else some (req.arg 0)) onlyOps

/-- The channel list of a WHOIS reply. -/
def whoisChannels (client source r : ClientRef) : Query Unit := do
  let w ← getWorld
  let me ← deref client
  let start := snprintf commandLen rplWhoischannelsMsg [← clientID source, ← clientID r]
  let str ← replyFold (fun str ch => do
    let chan ← derefChan ch
    if chan.hasMode 's' ∧ !(← getWorld).channelIsMemberOf ch client then return some str
    if me.type = .server ∧ chan.isLocal then return some str
    let flags := whoFlagsQualifier me.capabilities.multiPrefix (← channelUserModes ch r)
      (separated str) commandLen
    let str := strlcat flags chan.name commandLen
    return some (← replyIfLong client (commandLen - channelNameLen - 4) start str))
    start (w.channelsOf r)
  replyRest client str

/-- `IRC_WHOIS_SendReply`. -/
def ircWhoisSendReply (client source r : ClientRef) : Query Unit := do
  let send (msg : Str) (args : List Str) : Query Unit := do
    reply source (format msg ((← clientID source) :: (← clientID r) :: args))
  let c ← deref r
  send rplWhoisuserMsg [c.userOrTilde, ← clientHostnameDisplayed r, c.info]
  send rplWhoisserverMsg [← clientID c.introducer, (← deref c.introducer).info]
  let isOper ← clientHasMode source 'o'
  if !c.hasMode 'I' ∨ isOper then whoisChannels client source r
  if c.type = .service then send rplWhoisserviceMsg []
  if c.type ≠ .service ∧ c.hasMode 'o' then send rplWhoisoperatorMsg []
  if c.hasMode 'B' then send rplWhoisbotMsg []
  if c.hasMode 'R' then send rplWhoisregnickMsg []
  if let some account := c.accountName then send rplWhoisloggedinMsg [account]
  let w ← getWorld
  if let some i := c.connId then
    if source = r ∨ isOper then
      send rplWhoishostMsg [c.host, c.ipaText.getD (w.conns i).addr]
      send rplWhoismodesMsg [c.modes]
    if !w.conf.morePrivacy then
      send rplWhoisidleMsg [natStr (w.now - (w.conns i).lastprivmsg), natStr (w.conns i).signon]
  if c.hasMode 'a' then send rplAwayMsg [c.away.getD []]

/-- The loop of `IRC_WHOIS` over all clients for a query with wildcards. -/
def whoisWildcard (client source : ClientRef) (query : Str) (matchCount : Nat) : Query Nat :=
  replyClients matchCount fun count r => do
    if ← ircCheckListTooBig client count maxRplWhois "WHOIS" then return none
    let c ← deref r
    if c.type ≠ .user ∨ c.hasMode 'i' then return some count
    if !matchCaseInsensitive query (← clientID r) then return some count
    ircWhoisSendReply client source r
    return some (count + 1)

/-- One query of a WHOIS request.  The state is the number of matches so far
and whether a query with wildcards has been answered. -/
def whoisQuery (client source : ClientRef) (isRemote : Bool) (lastArg : Str)
    (st : Nat × Bool) (query : Str) : Query (Option (Nat × Bool)) := do
  let (matchCount, gotWildcard) := st
  let unknown : Query Unit := do
    replyErr client (format errNosuchnickMsg [← clientID client, query])
  if !query.any (fun c => c == '*' || c == '?') || isRemote then
    match (← getWorld).clientSearch query with
    | some r =>
      let t ← clientType r
      if t = .user ∨ t = .service then ircWhoisSendReply client source r else unknown
    | none => unknown
    return some st
  if gotWildcard then
    unknown
    return some st
  ircSetPenalty client 3
  let matchCount ← whoisWildcard client source query matchCount
  if matchCount = 0 then
    let _ ← ircWriteErrClient client (format errNosuchnickMsg [← clientID client, lastArg])
  return some (matchCount, true)

/-- The answer of `IRC_WHOIS`, for at most three queries. -/
def answerWhois (client source : ClientRef) (req : Request) : Query Unit := do
  let lastArg := req.argv.getLastD []
  let isRemote := (← deref source).connId.isNone
  let _ ← replyFold (whoisQuery client source isRemote lastArg) (0, false)
    ((strtok (lowerStr (strlcpy lastArg commandLen)) ",").take 3)
  reply source (format rplEndofwhoisMsg [← clientID source, lastArg])

/-- `IRC_WHOIS`. -/
def ircWhois : Query Unit := do
  if req.argc < 1 then replyErr client (format errNonicknamegivenMsg [← clientID client])
  else if req.argc > 2 then
    replyErr client (format errNeedmoreparamsMsg [← clientID client, req.command])
  else replySender req client fun source => do
    if req.argc > 1 then
      -- The error of a wrong target goes to the client, not to the sender.
      replyTarget req 0 client fun target => do
        if target ≠ (← thisServer) then
          let _ ← ircWriteStrClientPrefix target source
            (format "WHOIS %s :%s" [req.arg 0, req.arg 1])
        else answerWhois client source req
    else answerWhois client source req

/-- `WHOWAS_EntryWrite`. -/
def whowasEntryWrite (pfx : ClientRef) (e : Whowas) : Query Unit := do
  let conf := (← getWorld).conf
  reply pfx (format rplWhowasuserMsg [← clientID pfx, e.id, e.user, e.host, e.info])
  reply pfx (format rplWhoisserverMsg
    [← clientID pfx, e.id, e.server, conf.strftime "%a %b %d %H:%M:%S %Y" e.time])

/-- The inner loop of `IRC_WHOWAS`, which goes backwards through the ring of
old entries: the index where it stops, the hits for this nick and all hits. -/
def whowasScan (pfx : ClientRef) (nick : Str) (limit : Int) (last : Nat) :
    Nat → Nat → Nat → Nat → Query (Nat × Nat × Nat)
  | 0, i, nc, count => return (i, nc, count)
  | n + 1, i, nc, count => do
      let e := (← getWorld).misc.whowas i
      let hit : Bool := e.time > 0 ∧ strcaseEq nick e.id
      if hit then whowasEntryWrite pfx e
      let nc := if hit then nc + 1 else nc
      let count := if hit then count + 1 else count
      let i := if i = 0 then maxWhowas - 1 else i - 1
      if (nc > 0 ∧ (count : Int) ≥ limit) ∨ i = last then return (i, nc, count)
      whowasScan pfx nick limit last n i nc count

/-- `IRC_WHOWAS`. -/
def ircWhowas : Query Unit := do
  if req.argc < 1 then replyErr client (format errNonicknamegivenMsg [← clientID client])
  else if req.argc > 3 then
    replyErr client (format errNeedmoreparamsMsg [← clientID client, req.command])
  else replySender req client fun pfx => replyTarget req 2 pfx fun target => do
    let w ← getWorld
    if w.conf.morePrivacy then return ()
    if target ≠ w.thisServer then
      let _ ← ircWriteStrClientPrefix target pfx
        (format "WHOWAS %s %s %s" [req.arg 0, req.arg 1, ← clientID target])
    else
      let last := w.misc.lastWhowas.getD 0
      let limit : Int :=
        if req.argc > 1 then if atoi (req.arg 1) < 1 then maxRplWhowas else atoi (req.arg 1)
        else defRplWhowas
      let _ ← replyFold (fun (st : Nat × Nat) nick => do
        let (i, nc, count) ← whowasScan pfx nick limit last maxWhowas st.1 0 st.2
        if nc = 0 then replyErr pfx (format errWasnosuchnickMsg [← clientID pfx, nick])
        return some (i, count)) (last, 0) (strtok (strlcpy (req.arg 0) commandLen) ",")
      reply pfx (format rplEndofwhowasMsg [← clientID pfx, req.arg 0])

/-! ## STATS, TRACE, HELP and LIST -/

/-- `STATS g` and `STATS k`. -/
def statsXline (source : ClientRef) (query : Char) (list : Misc → List ListElem) :
    Query Unit := do
  if !(← clientHasMode source 'o') then
    replyErr source (format errNoprivilegesMsg [← clientID source])
  else
    Prog.forEach (fun (e : ListElem) => do
      reply source (format rplStatsxlineMsg
        [← clientID source, [query], e.mask, intStr e.validUntil, e.reason]))
      (list (← getWorld).misc)
    reply source (format rplEndofstatsMsg [← clientID source, [query]])

/-- `STATS l` and `STATS L`. -/
def statsLinks (client source : ClientRef) (query : Char) (moreLinks : Bool) : Query Unit := do
  Prog.forEach (fun i => do
    let w ← getWorld
    let conn := w.conns i
    if conn.sock.isNone then return ()
    match conn.client with
    | none => return ()
    | some cl =>
      let c ← deref cl
      if c.type = .server ∨ cl = client ∨ (moreLinks ∧ c.type = .user) then
        reply source (format rplStatslinkinfoMsg
          [← clientID source, c.mask, natStr (w.env.sendQ i), natStr conn.msgOut,
            natStr conn.bytesOut, natStr conn.msgIn, natStr conn.bytesIn,
            natStr (w.now - conn.signon)]))
    (List.range (← getWorld).poolSize)
  reply source (format rplEndofstatsMsg [← clientID source, [query]])

/-- `STATS m`. -/
def statsCommands (source : ClientRef) (query : Char) : Query Unit := do
  Prog.forEach (fun (cmd : Command) => do
    let (lcount, bytes, rcount) := (← getWorld).misc.cmdCounts cmd.name
    if lcount ≠ 0 ∨ rcount ≠ 0 then
      reply source (format rplStatscommandsMsg
        [← clientID source, cmd.name, natStr lcount, natStr bytes, natStr rcount])) myCommands
  reply source (format rplEndofstatsMsg [← clientID source, [query]])

/-- `STATS u`. -/
def statsUptime (source : ClientRef) (query : Char) : Query Unit := do
  let w ← getWorld
  let t := w.now - w.conf.start
  reply source (format rplStatsuptime
    [← clientID source, natStr (t / 86400), natStr (t % 86400 / 3600), natStr (t % 3600 / 60),
      natStr (t % 60)])
  reply source (format rplEndofstatsMsg [← clientID source, [query]])

/-- `IRC_STATS`. -/
def ircStats : Query Unit :=
  replyOrForward req client 1 (fun target => do
      return format "STATS %s %s" [req.arg 0, ← clientID target]) fun source => do
    let query := (req.arg 0).headD '*'
    if query = 'g' ∨ query = 'G' then statsXline source query Misc.glines
    else if query = 'k' ∨ query = 'K' then statsXline source query Misc.klines
    else if query = 'L' then
      if (← opCheck source req).isNone then opNoPrivileges source req
      else statsLinks client source query true
    else if query = 'l' then statsLinks client source query false
    else if query = 'm' ∨ query = 'M' then statsCommands source query
    else if query = 'u' ∨ query = 'U' then statsUptime source query
    else reply source (format rplEndofstatsMsg [← clientID source, [query]])

/-- The answer of `IRC_TRACE` for this server. -/
def answerTrace (source : ClientRef) : Query Unit := do
  replyClients () fun _ r => do
    let c ← deref r
    if c.connId.isSome then
      if c.type = .server then
        let user := if c.userOrTilde.head? = some '~' then ("unknown" : Str) else c.userOrTilde
        reply source (format rplTraceserverMsg
          [← clientID source, ← clientID r, user, c.host, ← clientMask (← thisServer), ""])
      if c.type = .user ∧ c.hasMode 'o' then
        reply source (format rplTraceoperatorMsg [← clientID source, ← clientID r])
    return some ()
  let conf := (← getWorld).conf
  reply source (format rplTraceendMsg
    [← clientID source, conf.serverName, conf.packageName, conf.packageVersion,
      conf.debugLevel])

/-- `IRC_TRACE`.  A forwarded request is answered with a link reply first. -/
def ircTrace : Query Unit :=
  replySender req client fun source =>
    replyTarget req 0 source fun target => do
      let w ← getWorld
      if target ≠ w.thisServer then
        let i ← connOf (← deref client).connId
        let hop ← clientNextHop target
        let j ← connOf (← deref hop).connId
        reply source (format rplTracelinkMsg
          [← clientID source, w.conf.packageName, w.conf.packageVersion, ← clientID target,
            ← clientID hop, "", natStr (w.now - (w.conns j).signon), natStr (w.env.sendQ i),
            natStr (w.env.sendQ j)])
        let _ ← ircWriteStrClientPrefix target source (format "TRACE %s" [req.arg 0])
      else answerTrace source

/-- `Help`.  `lines` counts the lines sent of the article, once it has begun.
An article at the very end of the file is followed by the error message. -/
def help (client : ClientRef) (topic : Str) : Option Nat → List Str → Query Unit
  | _, [] => do
      reply client (format "NOTICE %s :No help for \"%s\" found!" [← clientID client, topic])
  | none, line :: rest =>
    let begins := line.take 2 == ("- " : Str) && strcaseEq (line.drop 2) topic
    help client topic (if begins then some 0 else none) rest
  | some lines, line :: rest => do
      if line.head? = some '\t' then
        let text := if line.tail = "." then line.drop 2 else line.drop 1
        reply client (format "NOTICE %s :%s" [← clientID client, text])
        help client topic (some (lines + 1)) rest
      else if lines = 0 then
        reply client (format "NOTICE %s :No help for \"%s\" found!" [← clientID client, topic])

/-- `IRC_HELP`. -/
def ircHelp : Query Unit := do
  let helptext := (← getWorld).conf.helptext
  if req.argc = 0 ∧ !helptext.isEmpty then help client "Intro" none helptext
  else if req.argc ≥ 1 ∧ !strcaseEq (req.arg 0) "Commands" then
    help client (req.arg 0) none helptext
  else
    Prog.forEach (fun (cmd : Command) => do
      reply client (format "NOTICE %s :%s" [← clientID client, cmd.name])) myCommands

/-- One pattern of a LIST request; `count` channels have been listed before. -/
def listPattern (source : ClientRef) (count : Nat) (pattern : Str) : Query Nat := do
  replyFold (fun count ch => do
    let w ← getWorld
    let chan ← derefChan ch
    if !matchCaseInsensitive pattern chan.name then return some count
    if chan.hasMode 's' ∧ !w.channelIsMemberOf ch source ∧ !(← clientHasMode source 'o') then
      return some count
    if w.conf.maxListSize > 0 then
      if ← ircCheckListTooBig source count w.conf.maxListSize.toNat "LIST" then return none
    reply source (format rplListMsg
      [← clientID source, ← channelName ch, natStr ((← getWorld).channelMemberCount ch),
        (← derefChan ch).topic])
    return some (count + 1)) count (← getWorld).chans.order

/-- The answer of `IRC_LIST` for this server. -/
def answerList (source : ClientRef) (req : Request) : Query Unit := do
  let patterns : List Str :=
    if req.argc > 0 then (strtok (req.arg 0) ",").map lowerStr else [("*" : Str)]
  reply source (format rplListstartMsg [← clientID source])
  let _ ← replyFold (fun count pattern => do return some (← listPattern source count pattern))
    0 patterns
  reply source (format rplListendMsg [← clientID source])

/-- What is left of a string after the first call of `strtok` on it. -/
def afterStrtok (s : Str) (delim : Char) : Str :=
  s.takeWhile (· == delim) ++ (s.dropWhile (· == delim)).takeWhile (· != delim)

/-- `IRC_LIST`. -/
def ircList : Query Unit :=
  replySender req client fun source => do
    if req.argc = 2 then
      let w ← getWorld
      match w.clientSearch (req.arg 1) with
      | none =>
        replyErr source (format errNosuchserverMsg [← clientID client, req.arg 1])
      | some target =>
        if (← clientType target) ≠ .server then
          replyErr source (format errNosuchserverMsg [← clientID client, req.arg 1])
        else if target ≠ w.thisServer then
          replyPrefix target source (format "LIST %s :%s" [afterStrtok (req.arg 0) ',', req.arg 1])
        else answerList source req
    else answerList source req

end Ngircd
