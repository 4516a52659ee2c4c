import Ngircd.Register

/-!
# Server links

`irc-server.c` and `numeric.c`: how a peer becomes a server, what it is told
about the network, and the commands by which servers change each other's view.
-/

namespace Ngircd

open Lib

variable (client : ClientRef) (req : Request)

/-! ## What a new server is told -/

/-- `Announce_Channel`, for one member and the list of nicks so far. -/
def announceMember (client : ClientRef) (ch : ChanRef) (njoin xop : Bool) (str : Str)
    (r : ClientRef) : Query (Option Str) := do
  let name ← channelName ch
  let modes ← channelUserModes ch r
  if njoin then
    let cat (s t : Str) : Str := strlcat s t commandLen
    let mark (s : Str) (m : Char) (sign : Str) (known : Bool) : Str :=
      if known && modes.contains m then cat s sign else s
    let str := if str.getLast? = some ':' then str else cat str ","
    let str := mark (mark (mark str 'q' "~" xop) 'a' "&" xop) 'o' "@" true
    let str := mark (mark str 'h' "%" xop) 'v' "+" true
    let str := cat str (← clientID r)
    return some (← replyIfLong client (commandLen - clientNickLen - 8)
      (snprintf commandLen "NJOIN %s :" [name]) str)
  else
    replyPrefix client r (format "JOIN %s" [name])
    Prog.forEach (fun (m : Char) => do
      replyPrefix client r (format "MODE %s +%c %s" [name, [m], ← clientID r])) modes
    return some str

/-- `Announce_Channel`. -/
def announceChannel (client : ClientRef) (ch : ChanRef) : Query Unit := do
  let c ← deref client
  let i ← connOf c.connId
  let w ← getWorld
  let str ← replyFold (announceMember client ch (!(w.conns i).rfc1459) (c.hasFlag 'X'))
    (snprintf commandLen "NJOIN %s :" [← channelName ch]) (w.membersOf ch)
  replyRest client str

/-- The SERVER command that announces a server. -/
def serverLine (r : ClientRef) : Msg Str := do
  let s ← deref r
  return format "SERVER %s %d %d :%s" [← clientID r, intStr (s.hops + 1), intStr s.mytoken, s.info]

/-- `Announce_Server`. -/
def announceServer (client server : ClientRef) : Query Unit := do
  let s ← deref server
  if s.connId.isSome then reply server (← serverLine client)
  let this ← thisServer
  match if s.hops = 1 then some this else s.topserver with
  | none => dataFault .assertion
  | some pfx => replyPrefix client pfx (← serverLine server)

/-- `Send_List`. -/
def sendList (client : ClientRef) (ch : ChanRef) (type : Char) (l : List ListElem) :
    Query Unit :=
  Prog.forEach (fun (e : ListElem) => do
    reply client (format "MODE %s +%c %s" [← channelName ch, [type], e.mask])) l

/-- `Synchronize_Lists`. -/
def synchronizeLists (client : ClientRef) : Query Unit := do
  let w ← getWorld
  Prog.forEach (fun (e : ListElem) => do
    let t : Int := e.validUntil - w.now
    let left := if t > 0 then toLong t else 0
    reply client (format "GLINE %s %ld :%s" [e.mask, intStr left, e.reason])) w.misc.glines
  Prog.forEach (fun ch => do
    sendList client ch 'e' (← derefChan ch).listExcepts
    sendList client ch 'b' (← derefChan ch).listBans
    sendList client ch 'I' (← derefChan ch).listInvites) w.chans.order

/-- `Send_CHANINFO`. -/
def sendChaninfo (client : ClientRef) (ch : ChanRef) : Query Unit := do
  let c ← derefChan ch
  if c.modes.isEmpty ∧ c.topic.isEmpty then return ()
  if !c.hasMode 'k' ∧ !c.hasMode 'l' then
    if c.topic.isEmpty then reply client (format "CHANINFO %s +%s" [c.name, c.modes])
    else reply client (format "CHANINFO %s +%s :%s" [c.name, c.modes, c.topic])
  else
    let key : Str := if c.hasMode 'k' ∧ !c.key.isEmpty then c.key else "*"
    let limit := if c.hasMode 'l' then c.maxusers else 0
    reply client (format "CHANINFO %s +%s %s %lu :%s" [c.name, c.modes, key, natStr limit, c.topic])

namespace World

/-- The highest hop count of a client, zero at least. -/
def maxHops (w : World) : Nat :=
  w.listed.foldl (fun m rc => max m rc.2.hops.toNat) 0

end World

/-- The part of `IRC_Num_ENDOFMOTD` that tells the new server about the
network.  Servers go out in the order of their distance. -/
def introduceNetwork (client : ClientRef) : Query Unit := do
  Prog.forEach (fun (hops : Nat) => replyClients () fun _ r => do
    let c ← deref r
    if c.type = .server ∧ c.hops = hops ∧ r ≠ client ∧ r ≠ (← thisServer) then
      announceServer client r
    return some ()) (List.range ((← getWorld).maxHops + 1))
  replyClients () fun _ r => do
    let c ← deref r
    if c.type = .user ∨ c.type = .service then clientAnnounce client (← thisServer) r
    return some ()
  Prog.forEach (fun ch => do
    if !(← derefChan ch).isLocal then
      if (← deref client).hasFlag 'C' then sendChaninfo client ch
      announceChannel client ch) (← getWorld).chans.order
  if (← deref client).hasFlag 'L' then synchronizeLists client
  reply client (format "PING :%s" [← clientID (← thisServer)])

/-- `IRC_Num_ENDOFMOTD`. -/
def ircNumEndofmotd (client : ClientRef) : Full Bool := do
  clientSetType client .server
  let i ← connOf (← deref client).connId
  logSnotice (format "Server \"%s\" registered (connection %d, 1 hop - direct link)."
    [← clientID client, natStr i])
  (introduceNetwork client).toMsg

/-- `IRC_Num_ISUPPORT`: a peer with another length of nicknames is dropped. -/
def ircNumIsupport : Plain Bool := do
  let w ← getWorld
  let wrong := ((req.argv.drop 1).dropLast).any fun a =>
    let (key, value) := cutAt '=' a
    key = "NICKLEN" && decide (toULong (atoi (value.getD [])) ≠ w.conf.maxNickLength - 1)
  if wrong then
    let i ← connOf (← deref client).connId
    callClose i (some "Incompatible nickname length") none false
    return disconnected
  return connected

/-! ## SERVER -/

/-- `Client_CheckID`, with the close in it. -/
def clientCheckID (client : ClientRef) (id : Str) : Plain Bool := do
  let i ← connOf (← deref client).connId
  if id.length > clientIdLen then
    let _ ← ircWriteErrClient client (format errErroneusnicknameMsg [← clientID client, id])
    return false
  if (← getWorld).listed.any fun rc => strcaseEq rc.2.id id then
    let str := snprintf commandLen "ID \"%s\" already registered" [id]
    callClose i (some str) (some str) true
    return false
  return true

/-- `Conf_SetServer` for the configuration entry at an index. -/
def confSetServer (k : Nat) (i : ConnId) : Plain Bool := do
  let w ← getWorld
  match w.conf.servers[k]?.bind ConfServer.connId with
  | some j =>
    if j ≠ i then
      callClose i none (some "Server configuration already in use") true
      return false
    return true
  | none =>
    (editServers fun l => l.modify k fun s => { s with connId := some i } : Basic Unit)
    return true

/-- `TOKEN_OUTBOUND`. -/
def tokenOutbound : Int := -2

/-- The part of `IRC_SERVER` after the checks: the peer is a server. -/
def acceptServer (client : ClientRef) (i : ConnId) (srv : ConfServer) (req : Request) :
    Full Bool := do
  clientSetID client (req.arg 0)
  editClient client { edit := fun c => { c with hops := 1 } }
  clientSetInfo client (req.argv.getLastD [])
  let w ← getWorld
  let c ← deref client
  let ok ←
    if c.token ≠ tokenOutbound then do
      let hello : Query Unit := do
        reply client (format "PASS %s %s" [srv.pwdOut, w.conf.protoId])
        reply client (format "SERVER %s 1 :%s" [w.conf.serverName, w.conf.serverInfo])
      if ← hello.toMsg then
        clientSetIntroducer client
        editClient client { edit := fun c => { c with token := 1 } }
        pure true
      else
        let i ← connOf (← deref client).connId
        callClose i (some "Unexpected server behavior!") none false
        pure false
    else do
      editClient client { edit := fun c => { c with token := atoi (req.arg 1) } }
      pure true
  if !ok then return disconnected
  if (← clientType client) = .gotPass then
    editConn i { edit := fun conn => { conn with rfc1459 := true } }
  clientSetType client .unknownServer
  if (← deref client).hasFlag 'H' then
    let greet : Query Unit := do
      ircSendIsupport client
      reply client (format rplEndofmotdMsg [← clientID client])
    greet.toMsg
  else ircNumEndofmotd client

/-- `IRC_SERVER` of a peer that wants to become a server. -/
def registerServer : Full Bool := do
  if req.argc ≠ 2 ∧ req.argc ≠ 3 then return ← needMoreParams client req
  let i ← connOf (← deref client).connId
  let w ← getWorld
  let refuse (reason : Str) : Plain Bool := do
    callClose i none (some reason) true
    return disconnected
  match w.conf.servers.findIdx? fun s => strcaseEq (req.arg 0) s.name with
  | none => refuse "Server not configured here"
  | some k =>
    let srv := w.conf.servers.getD k {}
    if (w.conns i).pwd ≠ srv.pwdIn then return ← refuse "Bad password"
    if !(← clientCheckID client (req.arg 0)) then return disconnected
    if !(← confSetServer k i) then return disconnected
    acceptServer client i srv req

/-- `IRC_SERVER` of a server that introduces another one. -/
def introduceServer : Plain Bool := do
  if req.argc ≠ 4 then return ← needMoreParams client req
  let i ← connOf (← deref client).connId
  if !(← clientCheckID client (req.arg 0)) then return disconnected
  let w ← getWorld
  match req.pfx with
  | none =>
    callClose i none (some "SERVER command without prefix") true
    return disconnected
  | some p =>
    match w.clientSearch p with
    | none =>
      callClose i none (some "Unknown ID in prefix of SERVER") true
      return disconnected
    | some source =>
      let id := strlcpy (req.arg 0) clientIdLen
      let cloak := w.conf.cloakUserToNick
      let r ← newRemote
        { starttime := w.now, introducer := client, topserver := some source
          type := .server, id, hops := atoi (req.arg 1), token := atoi (req.arg 2)
          mytoken := w.freeToken
          user := if cloak then strlcpy id clientUserLen else []
          host := w.conf.hostname [] (req.arg 0)
          info := strlcpy (if cloak then id else req.arg 3) clientInfoLen }
      let s ← deref r
      let sourceId ← clientID source
      let via : Str :=
        if s.hops > 1 ∧ !p.isEmpty then snprintf 100 "connected to %s, " [sourceId] else []
      logSnotice (format "Server \"%s\" registered (via %s, %s%d hop%s)."
        [← clientID r, ← clientID client, via, intStr s.hops, if s.hops > 1 then "s" else ""])
      ircWriteStrServersPrefix (some client) source (← (serverLine r : Msg Str))
      return connected

/-- `IRC_SERVER`. -/
def ircServer : Full Bool := do
  let c ← deref client
  if c.connId.isNone then
    ircWriteErrClient client (format errUnknowncommandMsg [← clientID client, req.command])
  else match c.type with
    | .gotPass | .gotPass2813 => registerServer client req
    | .server => introduceServer client req
    | _ => needMoreParams client req

/-! ## NJOIN -/

/-- The prefixes of a nick in an NJOIN and the modes they stand for. -/
def njoinModes : List (Char × Char) :=
  [('~', 'q'), ('&', 'a'), ('@', 'o'), ('%', 'h'), ('+', 'v')]

/-- The loop body of `IRC_NJOIN`; `nickOut` is the list to be forwarded. -/
def njoinOne (client : ClientRef) (channame nickOut entry : Str) : Plain Str := do
  let isMark (c : Char) : Bool := njoinModes.any fun p => p.1 == c
  let marks := entry.takeWhile isMark
  let nick := entry.dropWhile isMark
  match (← getWorld).clientSearch nick with
  | none => return nickOut
  | some c =>
    if !(← channelJoin c channame) then
      let _ ← ircKillClient none none nick "Internal NJOIN error!"
      return nickOut
    match (← getWorld).channelSearch channame with
    | none => (dataFault .assertion : Basic Str)
    | some ch =>
      let given := njoinModes.filter fun p => marks.contains p.1
      (Prog.forEach (fun p => do let _ ← channelUserModeAdd ch c p.2) given : Basic Unit)
      ircWriteStrChannelPrefix client ch c false (format "JOIN :%s" [channame])
      if (← deref c).connId.isSome then
        let _ ← ((ircSendChannelInfo c ch).toMsg : Basic Bool)
      let modes := strlcpy (← channelUserModes ch c) 8
      if !modes.isEmpty then
        ircWriteStrChannelPrefix client ch client false
          (format "MODE %s +%s %s" [channame, modes, ← clientID c])
      let sep := if nickOut.isEmpty then nickOut else strlcat nickOut "," commandLen
      let marked := given.foldl (fun s p => strlcat s [p.1] commandLen) sep
      return strlcat marked nick commandLen

/-- `IRC_NJOIN`. -/
def ircNjoin : Plain Bool := do
  let entries := strtok (strlcpy (req.arg 1) commandLen) ","
  let nickOut ← entries.foldlM (njoinOne client (req.arg 0)) ([] : Str)
  if !nickOut.isEmpty then
    ircWriteStrServersPrefix (some client) (← thisServer)
      (format "NJOIN %s :%s" [req.arg 0, nickOut])
  return connected

/-! ## SQUIT -/

/-- The reason of a SQUIT as it is forwarded. -/
def squitMsg (reason sourceId : Str) (indirect : Bool) : Str :=
  if reason.isEmpty then snprintf commandLen "Got SQUIT from %s" [sourceId]
  else if indirect then snprintf commandLen "\"%s\" (SQUIT from %s)" [reason, sourceId]
  else strlcpy reason commandLen

/-- `IRC_SQUIT` for the server or user that sent it. -/
def squit (client source : ClientRef) (req : Request) : Plain Bool := do
  let type ← clientType client
  let sourceId ← clientID source
  if type = .user then
    logSnotice (format "Got SQUIT from %s for \"%s\": \"%s\" ..." [sourceId, req.arg 0, req.arg 1])
  let w ← getWorld
  match w.clientSearch (req.arg 0) with
  | none => return connected
  | some target =>
    if type ≠ .server ∧ target = w.thisServer then
      return ← (opNoPrivileges client req).toMsg
    let con := (← deref target).connId
    let hop ← clientNextHop source
    let msg := squitMsg (req.arg 1) (← clientID source) (decide (hop ≠ client) || con.isSome)
    match con with
    | some i =>
      let clientCon := (← deref client).connId
      ircSendWallops w.thisServer w.thisServer (format "Received SQUIT %s from %s: %s"
        [req.arg 0, ← clientID source, if (req.arg 1).isEmpty then "-" else req.arg 1])
      callClose i none (some msg) true
      return decide (some i ≠ clientCon)
    | none =>
      if (← clientType source) ≠ .server then
        let _ ← ircWriteStrClientPrefix (← clientNextHop target) source
          (format "SQUIT %s :%s" [req.arg 0, req.arg 1])
      else
        let whole := snprintf commandLen "\"%s\" (SQUIT from %s)" [req.arg 1, ← clientID source]
        let logmsg := if msg.contains '(' then msg else whole
        destroyClient target (some logmsg) (some msg) false
      return connected

/-- `IRC_SQUIT`. -/
def ircSquit : Plain Bool := do
  let c ← deref client
  if c.type ≠ .server ∧ !c.hasMode 'o' then return ← (opNoPrivileges client req).toMsg
  match c.type, req.pfx with
  | .server, some p =>
    match (← getWorld).clientSearch p with
    | none => (dataFault .assertion : Basic Bool)
    | some source =>
      if (← clientType source) ≠ .server ∧
          (← opCheck client req).isNone then
        return ← (opNoPrivileges client req).toMsg
      squit client source req
  | _, _ => squit client client req

end Ngircd
