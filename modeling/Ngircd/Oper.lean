import Ngircd.Server

/-!
# Operators

`irc-oper.c`, `irc-op.c`, `irc-metadata.c` and the commands KILL and ERROR:
what IRC operators, channel operators and servers may do to others.
-/

namespace Ngircd

open Lib

variable (client : ClientRef) (req : Request)

/-- Refuse a command for want of privileges. -/
def noPrivileges : Plain Bool :=
  ((opNoPrivileges client req).toMsg : Basic Bool)

/-! ## The daemon -/

/-- `Bad_OperPass`. -/
def badOperPass (client : ClientRef) (errtoken errmsg : Str) : Query Unit := do
  logSnotice (format "Got invalid OPER from \"%s\": \"%s\" -- %s!"
    [← clientMask client, errtoken, errmsg])
  ircSetPenalty client 10
  reply client (format errPasswdmismatchMsg [← clientID client])

/-- `IRC_OPER`. -/
def ircOper : Reply Unit := do
  let mask ← clientMask client
  match (← getWorld).conf.opers.find? fun op => op.name = req.arg 0 with
  | none => badOperPass client (req.arg 0) "not configured"
  | some op =>
    if op.pwd ≠ req.arg 1 then badOperPass client op.name "bad password"
    else if op.mask.any fun m => !maskMatch m mask then
      badOperPass client (op.mask.getD []) "hostmask check failed"
    else
      if !(← clientHasMode client 'o') then
        let _ ← clientModeAdd client 'o'
        reply client (format "MODE %s :+o" [← clientID client])
        ircWriteStrServersPrefix none client (format "MODE %s :+o" [← clientID client])
      logSnotice (format "Got valid OPER for \"%s\" from \"%s\", user is an IRC operator now."
        [req.arg 0, ← clientMask client])
      reply client (format rplYoureoperMsg [← clientID client])

/-- The farewell of `IRC_DIE` on one connection. -/
def dieNotice (text : Str) (i : ConnId) : Msg Unit := do
  let conn := (← getWorld).conns i
  if conn.sock.isNone then return ()
  match conn.client with
  | none => dataFault .assertion
  | some cl =>
    if (← clientType cl) = .user then
      let _ ← ircWriteStrClient cl (format "NOTICE %s :%s" [← clientID cl, text])

/-- `IRC_DIE`. -/
def ircDie : Reply Unit := do
  if (← opCheck client req).isNone then opNoPrivileges client req
  else
    if let some text := req.argv.head? then
      Prog.forEach (fun i => dieNotice text i) (List.range (← getWorld).poolSize)
    logSnotice (format "Got DIE command from \"%s\" ..." [← clientMask client])
    editMisc fun m => { m with signalQuit := true }

/-- `IRC_REHASH`. -/
def ircRehash : Reply Unit := do
  if (← opCheck client req).isNone then opNoPrivileges client req
  else
    logSnotice (format "Got REHASH command from \"%s\" ..." [← clientMask client])
    let _ ← ircWriteStrClient client (format rplRehashingMsg [← clientID client])
    editMisc fun m => { m with signalRehash := true }

/-- `IRC_RESTART`. -/
def ircRestart : Reply Unit := do
  if (← opCheck client req).isNone then opNoPrivileges client req
  else
    logSnotice (format "Got RESTART command from \"%s\" ..." [← clientMask client])
    editMisc fun m => { m with signalRestart := true }

/-! ## Server links on request -/

/-- `HOST_LEN`. -/
def hostLen : Nat := 256

/-- `(UINT16) atoi(s)`. -/
def portOf (s : Str) : Nat := (atoi s % 2 ^ 16).toNat

/-- `Conf_EnablePassiveServer`. -/
def confEnablePassiveServer (name : Str) : Basic Bool := do
  let servers := (← getWorld).conf.servers
  match servers.findIdx? fun s => strcaseEq s.name name && decide (0 < s.port) with
  | none => return false
  | some k =>
    editServers fun l => l.modify k fun s => { s with disabled := false }
    return true

/-- `Conf_EnableServer`. -/
def confEnableServer (name : Str) (port : Nat) : Basic Bool := do
  let servers := (← getWorld).conf.servers
  match servers.findIdx? fun s => strcaseEq s.name name with
  | none => return false
  | some k =>
    editServers fun l => l.modify k fun s => { s with port, disabled := false }
    return decide (port ≠ 0) && !(servers.getD k {}).host.isEmpty

/-- `Conf_AddServer`. -/
def confAddServer (name : Str) (port : Nat) (host myPwd peerPwd : Str) : Basic Bool := do
  match (← getWorld).conf.servers.findIdx? fun s => s.name.isEmpty with
  | none => return false
  | some k =>
    editServers fun l => l.set k
      { name := strlcpy name clientIdLen, host := strlcpy host hostLen
        pwdOut := strlcpy myPwd clientPassLen, pwdIn := strlcpy peerPwd clientPassLen
        port, once := true }
    return true

/-- The change of the configuration that CONNECT asks for. -/
def connectServer (req : Request) : Basic Bool :=
  match req.argv with
  | [name] => confEnablePassiveServer name
  | [name, port] | [name, port, _] => confEnableServer name (portOf port)
  | name :: port :: host :: myPwd :: peerPwd :: _ =>
    confAddServer name (portOf port) host myPwd peerPwd
  | [] | [_, _, _, _] => pure false

/-- `IRC_CONNECT` on the server it is for. -/
def connectHere (client source : ClientRef) (req : Request) : Reply Unit := do
  if (← opCheck source req).isNone then opNoPrivileges client req
  else if !(← connectServer req) then
    replyErr source (format errNosuchserverMsg [← clientID source, req.arg 0])
  else
    logSnotice (format "Got CONNECT command from \"%s\" for \"%s\"."
      [← clientMask source, req.arg 0])
    let this ← thisServer
    ircSendWallops this this (format "Received CONNECT %s from %s" [req.arg 0, ← clientID source])

/-- `IRC_CONNECT` with a target parameter. -/
def connectTarget (client source : ClientRef) (req : Request) (targetName : Str) :
    Reply Unit := do
  let w ← getWorld
  let isServer (r : ClientRef) : Bool := (w.heap r).any fun c => c.type = .server
  match (w.clientSearch targetName).filter isServer with
  | none => replyErr source (format errNosuchserverMsg [← clientID source, req.arg 0])
  | some target =>
    if target = w.thisServer then connectHere client source req
    else if req.argc = 3 then
      let _ ← ircWriteStrClientPrefix target source (format "CONNECT %s %s :%s" req.argv)
    else
      let _ ← ircWriteStrClientPrefix target source (format "CONNECT %s %s %s %s %s :%s" req.argv)

/-- `IRC_CONNECT`. -/
def ircConnect : Reply Unit := do
  let syntaxError : Reply Unit := do
    replyErr client (format errNeedmoreparamsMsg [← clientID client, req.command])
  if !([1, 2, 3, 5, 6] : List Nat).contains req.argc then syntaxError
  else if req.argc > 1 ∧ atoi (req.arg 1) < 1 then syntaxError
  else
    let c ← deref client
    if c.type ≠ .server ∧ !c.hasMode 'o' then opNoPrivileges client req
    else if req.argc = 3 ∨ req.argc = 6 then
      let w ← getWorld
      let source := match c.type, req.pfx with
        | .server, some p => w.clientSearch p
        | _, _ => some client
      match source with
      | none =>
        replyErr client (format errNosuchnickMsg [← clientID client, req.pfx.getD []])
      | some source =>
        connectTarget client source req (if req.argc = 3 then req.arg 2 else req.arg 5)
    else connectHere client client req

/-- `Conf_DisableServer`. -/
def confDisableServer (name : Str) : Plain Bool := do
  let servers := (← getWorld).conf.servers
  match servers.findIdx? fun s => strcaseEq s.name name with
  | none => return false
  | some k =>
    (editServers fun l => l.modify k fun s => { s with disabled := true } : Basic Unit)
    match servers[k]?.bind ConfServer.connId with
    | some i =>
      callClose i none (some "Server link terminated on operator request") true
      return true
    | none => return true

/-- `IRC_DISCONNECT`. -/
def ircDisconnect : Plain Bool := do
  if (← opCheck client req).isNone then
    return ← noPrivileges client req
  let this ← thisServer
  ircSendWallops this this (format "Received DISCONNECT %s from %s" [req.arg 0, ← clientID client])
  logSnotice (format "Got DISCONNECT command from \"%s\" for \"%s\"."
    [← clientMask client, req.arg 0])
  let i ← connOf (← deref client).connId
  if !(← confDisableServer (req.arg 0)) then
    return ← ircWriteErrClient client (format errNosuchserverMsg [← clientID client, req.arg 0])
  return ((← getWorld).conns i).client.isSome

/-- `IRC_WALLOPS`. -/
def ircWallops : Query Unit := do
  match ← clientType client with
  | .user =>
    if (← opCheck client req).isNone then opNoPrivileges client req
    else ircSendWallops client client (req.arg 0)
  | .server =>
    replySender req client fun source => ircSendWallops client source (req.arg 0)
  | _ => return ()

/-! ## G-Lines and K-Lines -/

/-- `CLASS_GLINE` and `CLASS_KLINE`. -/
inductive LineClass where
  | gline | kline
  deriving DecidableEq, Repr

namespace LineClass

/-- The class a command is about. -/
def ofCommand (command : Str) : Option LineClass :=
  match command.head? with
  | some 'g' | some 'G' => some .gline
  | some 'k' | some 'K' => some .kline
  | _ => none

/-- The letter of a class in messages. -/
def letter : LineClass → Str
  | .gline => "G"
  | .kline => "K"

/-- `Class_GetList`. -/
def list : LineClass → Misc → List ListElem
  | .gline => Misc.glines
  | .kline => Misc.klines

/-- Replace the list of a class. -/
def put : LineClass → List ListElem → Misc → Misc
  | .gline, l, m => { m with glines := l }
  | .kline, l, m => { m with klines := l }

end LineClass

/-- `Client_Next`: the structure after one that must still be on the list. -/
def clientNext (r : ClientRef) : Msg (Option ClientRef) := do
  let order := (← getWorld).order
  if order.contains r then return (order.dropWhile (· != r)).tail.head?
  dataFault (.freedClient r)

/-- The loop of `IRC_xLINE` over the connected clients, which reads `next`
before it kills. -/
def killListed (client : ClientRef) (cls : LineClass) (reason : Str) :
    Nat → Option ClientRef → Plain Unit
  | _, none => return ()
  | 0, some _ => (dataFault .endless : Basic Unit)
  | n + 1, some r => do
      let next ← clientNext r
      if cls = .gline ∨ (← deref r).connId.isSome then
        let listed ← classGetMemberReason cls.list cls.put cls.letter r
        if listed.isSome then
          let _ ← ircKillClient (some client) none (← clientID r) reason
      killListed client cls reason n next

/-- `IRC_xLINE` with one parameter: take a mask off the list. -/
def deleteLine (client source : ClientRef) (req : Request) (cls : LineClass) : Basic Unit := do
  editMisc fun m => cls.put (listsDel (cls.list m) (listsMakeMask (req.arg 0))) m
  logSnotice (format "\"%s\" deleted \"%s\" from %c-Line list."
    [← clientMask source, req.arg 0, cls.letter])
  if cls = .gline then
    ircWriteStrServersPrefix (some client) source (format "%s %s" [req.command, req.arg 0])

/-- `IRC_xLINE` with three parameters: put a mask on the list. -/
def addLine (client source : ClientRef) (req : Request) (cls : LineClass) : Basic Unit := do
  let timeout := atoi (req.arg 1)
  let w ← getWorld
  let validUntil : Int := if timeout > 0 then timeout + w.now else timeout
  editMisc fun m =>
    cls.put (listsAdd (cls.list m) (listsMakeMask (req.arg 0)) validUntil (req.arg 2) false) m
  if (← clientType source) ≠ .server then
    logSnotice (format "\"%s\" added \"%s\" to %c-Line list: \"%s\" (%ld seconds)."
      [← clientMask source, req.arg 0, cls.letter, req.arg 2, intStr timeout])
  if cls = .gline then
    ircWriteStrServersPrefix (some client) source
      (format "%s %s %s :%s" [req.command, req.arg 0, req.arg 1, req.arg 2])

/-- `IRC_xLINE`. -/
def ircXline : Plain Bool := do
  if req.argc ≠ 1 ∧ req.argc ≠ 3 then return ← needMoreParams client req
  let w ← getWorld
  let type ← clientType client
  let source ←
    if !w.conf.allowRemoteOper ∧ type = .server then pure none
    else (opCheck client req : Basic (Option ClientRef))
  match source, LineClass.ofCommand req.command with
  | none, _ => noPrivileges client req
  | some _, none => return connected
  | some source, some cls =>
    if req.argc = 1 then deleteLine client source req cls
    else
      addLine client source req cls
      let reason := snprintf commandLen "%c-Line by \"%s\": \"%s\""
        [cls.letter, ← clientID source, req.arg 2]
      let order := (← getWorld).order
      killListed client cls reason order.length order.head?
    return connected

/-! ## KILL and ERROR -/

/-- `IRC_KILL`. -/
def ircKill : Plain Bool := do
  let type ← clientType client
  if type ≠ .server then
    if (← opCheck client req).isNone then
      return ← noPrivileges client req
  let w ← getWorld
  let source := match req.pfx with
    | some p => (w.clientSearch p).getD w.thisServer
    | none => client
  if client ≠ w.thisServer then
    logSnotice (format "Got KILL command from \"%s\" for \"%s\": \"%s\"."
      [← clientMask source, req.arg 0, req.arg 1])
  let me ← clientID client
  let reason :=
    if type = .user then snprintf commandLen "KILLed by %s: %s" [me, req.arg 1]
    else strlcpy (req.arg 1) commandLen
  ircKillClient (some client) (some source) (req.arg 0) reason

/-- `IRC_ERROR`. -/
def ircError : Plain Bool := do
  let c ← deref client
  match c.type with
  | .gotPass | .gotPass2813 | .unknownServer | .server | .service =>
    match c.connId with
    | some i =>
      callClose i none (some (req.argv.headD "Got ERROR command")) false
      return disconnected
    | none => return connected
  | _ =>
    ircSetPenalty client 2
    return connected

/-! ## KICK and INVITE -/

/-- May a local user with the modes `mine` kick a member with the modes `theirs`? -/
def kickRights (mine theirs : Str) : Bool :=
  mine.contains 'q' ||
  (mine.contains 'a' && !theirs.contains 'q') ||
  (mine.contains 'o' && !theirs.contains 'q' && !theirs.contains 'a') ||
  (mine.contains 'h' && !theirs.contains 'q' && !theirs.contains 'a' && !theirs.contains 'o')

/-- The checks of `Channel_Kick` on a channel that exists: the text of the
error for the origin, if there is one. -/
def kickError (ch : ChanRef) (peer target origin : ClientRef) (name : Str) :
    Msg (Option Str) := do
  let w ← getWorld
  let chan ← derefChan ch
  let peerType ← clientType peer
  let o ← deref origin
  if peerType ≠ .server ∧ o.type ≠ .service ∧ !w.channelIsMemberOf ch origin then
    return some (format errNotonchannelMsg [← clientID origin, name])
  if !w.channelIsMemberOf ch target then
    return some (format errUsernotinchannelMsg [← clientID origin, ← clientID target, name])
  if peerType ≠ .user then return none
  let t ← deref target
  if (chan.hasMode 'Q' ∨ t.hasMode 'q' ∨ t.type = .service) ∧ !o.hasMode 'o' then
    return some (format errKickdenyMsg [← clientID origin, name, ← clientID target])
  let mine ← channelUserModes ch peer
  let theirs ← channelUserModes ch target
  if kickRights mine theirs ∨ (o.hasMode 'o' ∧ w.conf.operCanMode) then return none
  return some (format errChanopprivtoolowMsg [← clientID origin, name])

/-- `Channel_Kick`. -/
def channelKick (peer target origin : ClientRef) (name reason : Str) : Basic Unit := do
  match (← getWorld).channelSearch name with
  | none =>
    let _ ← ircWriteErrClient origin (format errNosuchchannelMsg [← clientID origin, name])
  | some ch =>
    match ← kickError ch peer target origin name with
    | some text => let _ ← ircWriteErrClient origin text
    | none => let _ ← removeClient .kick ch target origin reason true

/-- `try_kick`. -/
def tryKick (peer source : ClientRef) (nick channel : Str) (reason : Option Str) :
    Reply Unit := do
  match (← getWorld).clientSearch nick with
  | none => replyErr source (format errNosuchnickMsg [← clientID source, nick])
  | some target =>
    -- Without a comment the reason is the ID of the kicking client.
    let id ← clientID source
    channelKick peer target source channel (reason.getD id)

/-- `IRC_KICK`. -/
def ircKick : Reply Unit :=
  replySender req client fun source => do
    let channels := splitOn ',' [] (req.arg 0)
    let nicks := splitOn ',' [] (req.arg 1)
    let kick (nick channel : Str) : Reply Unit := tryKick client source nick channel req.argv[2]?
    match channels with
    | [channel] => Prog.forEach (fun nick => kick nick channel) nicks
    | _ =>
      if channels.length = nicks.length then
        Prog.forEach (fun p : Str × Str => kick p.1 p.2) (nicks.zip channels)
      else replyErr client (format errNeedmoreparamsMsg [← clientID client, req.command])

/-- The checks of `IRC_INVITE` on a channel that exists: an error for the
inviting user, or whether the invitation has to be remembered. -/
def inviteCheck (ch : ChanRef) (source target : ClientRef) (me : Str) (req : Request) :
    Basic (Except Str Bool) := do
  let w ← getWorld
  let chan ← derefChan ch
  if !w.channelIsMemberOf ch source then
    return .error (format errNotonchannelMsg [me, req.arg 1])
  if chan.hasMode 'V' then
    return .error (format errNoinviteMsg [← clientID source, chan.name])
  let inviteOnly := chan.hasMode 'i'
  if inviteOnly then
    if !(← channelUserHasAnyMode ch source "qaoh") then
      return .error (format errChanoprivsneededMsg [← clientID source, chan.name])
  if w.channelIsMemberOf ch target then
    return .error (format errUseronchannelMsg [← clientID source, req.arg 0, req.arg 1])
  let banned ← checkBans ch target
  return .ok (banned || inviteOnly)

/-- `Channel_AddInvite`. -/
def channelAddInvite (ch : ChanRef) (mask : Str) (onlyonce : Bool) (who : Str) : Basic Unit := do
  let w ← getWorld
  editChannel ch fun c =>
    { c with listInvites := listsAdd c.listInvites mask w.now who onlyonce }

/-- The messages of `IRC_INVITE`. -/
def sendInvite (source target : ClientRef) (req : Request) : Query Unit := do
  let colon : Str := if (req.arg 1).contains ' ' then ":" else ""
  let _ ← ircWriteStrClientPrefix target source
    (format "INVITE %s %s%s" [req.arg 0, colon, req.arg 1])
  if (← deref target).connId.isSome then
    reply source (format rplInvitingMsg [← clientID source, req.arg 0, colon, req.arg 1])
    let t ← deref target
    if t.hasMode 'a' then
      reply source (format rplAwayMsg [← clientID source, ← clientID target, t.away.getD []])

/-- `IRC_INVITE`. -/
def ircInvite : Reply Unit :=
  replySender req client fun source => do
    let w ← getWorld
    let isUser (r : ClientRef) : Bool := (w.heap r).any fun c => c.type = .user
    match (w.clientSearch (req.arg 0)).filter isUser with
    | none => replyErr source (format errNosuchnickMsg [← clientID client, req.arg 0])
    | some target =>
      let me ← clientID client
      if (req.arg 1).head? = some '&' ∧ (← deref target).connId.isNone then
        replyErr source (format errUsernotonservMsg [me, req.arg 0])
      else match w.channelSearch (req.arg 1) with
        | none => sendInvite source target req
        | some ch =>
          match ← inviteCheck ch source target me req with
          | .error text => replyErr source text
          | .ok remember =>
            if remember then
              channelAddInvite ch (← clientMaskCloaked target) true (← clientID source)
            sendInvite source target req

/-! ## METADATA -/

/-- `Client_SetFlags`. -/
def clientSetFlags (r : ClientRef) (flags : Str) : Basic Unit :=
  editClient r { edit := fun c => { c with flags := strlcpy flags clientFlagsLen } }

/-- `Client_SetAccountName`. -/
def clientSetAccountName (r : ClientRef) (name : Str) : Basic Unit :=
  editClient r { edit := fun c =>
    { c with accountName := if name.isEmpty then none else some (name.take (clientNickLen - 1)) } }

/-- Tell a local client the host name that others see. -/
def tellHostHidden (target pfx : ClientRef) : Msg Unit := do
  let _ ← ircWriteStrClientPrefix target pfx
    (format rplHosthiddenMsg [← clientID target, ← clientHostnameDisplayed target])

/-- The keys of `IRC_METADATA` that are forwarded by it.  Without SSL there is
nothing to store for `certfp`; other keys are ignored. -/
def setMetadata (target pfx : ClientRef) (key value : Str) : Basic Unit := do
  if !value.isEmpty ∧ strcaseEq key "host" then
    clientSetHostname target value
    let t ← deref target
    if t.connId.isSome ∧ !t.hasMode 'x' then tellHostHidden target pfx
  else if strcaseEq key "info" then clientSetInfo target value
  else if !value.isEmpty ∧ strcaseEq key "user" then clientSetUser target value true
  else if strcaseEq key "accountname" then clientSetAccountName target value

/-- `IRC_METADATA`. -/
def ircMetadata : Reply Unit :=
  replySender req client fun pfx => do
    match (← getWorld).clientSearch (req.arg 0) with
    | none => replyErr client (format errNosuchnickMsg [← clientID client, req.arg 0])
    | some target =>
      let t ← deref target
      if !t.hasFlag 'M' then clientSetFlags target (snprintf commandLen "%sM" [t.flags])
      if strcaseEq (req.arg 1) "cloakhost" then
        clientUpdateCloakedHostname target (some pfx)
          (if (req.arg 2).isEmpty then none else some (req.arg 2))
        let t ← deref target
        if t.connId.isSome ∧ t.hasMode 'x' then tellHostHidden target pfx
      else
        setMetadata target pfx (req.arg 1) (req.arg 2)
        ircWriteStrServersPrefixFlag (some client) pfx (some 'M')
          (format "METADATA %s %s :%s" [← clientID target, req.arg 1, req.arg 2])

end Ngircd
