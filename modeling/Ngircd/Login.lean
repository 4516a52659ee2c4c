import Ngircd.Mode

/-!
# Logging in

`login.c` with what it needs of `client.c` and `class.c`: how a connection
becomes a user, how clients are introduced to other servers, and how they are
rejected or killed.
-/

namespace Ngircd

open Lib

/-- `CLIENT_FLAGS_LEN`. -/
def clientFlagsLen : Nat := 16

/-- `USERMODES`. -/
def userModes : Str := "abBcCFiIoqrRswx"

/-- `CHANMODES`. -/
def chanModes : Str := "abehiIklmMnoOPqQrRstvVz"

/-! ## Fields of a client -/

namespace World

/-- The token `Generate_MyToken` finds: the first one from 2 on that is free. -/
def freeToken (w : World) : Int :=
  ((List.range (w.order.length + 1)).find? fun k =>
    !w.listed.any fun rc => rc.2.mytoken = (k : Int) + 2).elim 2 fun k => (k : Int) + 2

end World

/-- `Adjust_Counters`. -/
def adjustCounters (r : ClientRef) : Basic Unit := do
  let c ← deref r
  if c.type = .user then
    let w ← getWorld
    editMisc fun m =>
      { m with
        myMaxUsers :=
          if c.connId.isSome then max m.myMaxUsers (w.myCountType .user) else m.myMaxUsers
        maxUsers := max m.maxUsers (w.countType .user) }

/-- `Client_SetType`. -/
def clientSetType (r : ClientRef) (t : ClientType) : Full Unit := do
  setType r t
  if t = .server then
    let token := (← getWorld).freeToken
    editClient r { edit := fun c => { c with mytoken := token } }
  adjustCounters r

/-- `Client_SetID`. -/
def clientSetID (r : ClientRef) (id : Str) : Full Unit := do
  setId r (strlcpy id clientIdLen)
  if (← getWorld).conf.cloakUserToNick then
    editClient r { edit := fun c =>
      { c with user := strlcpy id clientUserLen, info := strlcpy id clientInfoLen } }

/-- `Client_SetUser`. -/
def clientSetUser (r : ClientRef) (user : Str) (idented : Bool) : Basic Unit := do
  let cloak := (← getWorld).conf.cloakUserToNick
  editClient r { edit := fun c =>
    { c with user :=
        if cloak then strlcpy c.id clientUserLen
        else if idented then strlcpy user clientUserLen
        else '~' :: strlcpy user (clientUserLen - 1) } }

/-- `Client_SetInfo`. -/
def clientSetInfo (r : ClientRef) (info : Str) : Basic Unit := do
  let cloak := (← getWorld).conf.cloakUserToNick
  editClient r { edit := fun c =>
    { c with info := strlcpy (if cloak then c.id else info) clientInfoLen } }

/-- The host name `Client_SetHostname` stores. -/
def Conf.hostname (conf : Conf) (old hostname : Str) : Str :=
  if !conf.cloakHost.isEmpty && (old.isEmpty || old.contains '.' || old.contains ':') then
    let key := strlcat (strlcpy hostname getidLen) conf.cloakHostSalt getidLen
    strlcpy (snprintf getidLen conf.cloakHost [hexStr (hash key).toNat]) clientHostLen
  else strlcpy hostname clientHostLen

/-- `Client_SetHostname`. -/
def clientSetHostname (r : ClientRef) (hostname : Str) : Basic Unit := do
  let conf := (← getWorld).conf
  editClient r { edit := fun c => { c with host := conf.hostname c.host hostname } }

/-- `Client_NewRemoteUser`. -/
def clientNewRemoteUser (introducer : ClientRef) (nick : Str) (hops : Int)
    (user hostname : Str) (token : Int) (modes info : Str) : Plain ClientRef := do
  let w ← getWorld
  let id := strlcpy nick clientIdLen
  let cloak := w.conf.cloakUserToNick
  let modes := strlcpy modes channelModeLen
  let r ← newRemote
    { starttime := w.now, introducer, type := .user, id, hops, token, modes
      user := strlcpy (if cloak then id else user) clientUserLen
      host := w.conf.hostname [] hostname
      info := strlcpy (if cloak then id else info) clientInfoLen
      away := if modes.contains 'a' then some ("Away" : Str) else none }
  (adjustCounters r : Basic Unit)
  return r

/-! ## Removing clients -/

/-- `Client_Destroy` for a client that is no local connection. -/
def destroyClient (r : ClientRef) (logMsg fwdMsg : Option Str) (sendQuit : Bool) :
    Plain Unit := do
  clientDestroy (← getWorld).destroyBound r logMsg fwdMsg sendQuit

/-- `IRC_KillClient`. -/
def ircKillClient (client source : Option ClientRef) (nick reason : Str) : Plain Bool := do
  let w ← getWorld
  match w.clientSearch nick with
  | none => return connected
  | some r =>
    let c ← deref r
    let killable := c.type = .user ∨ c.type = .gotNick ∨ c.type = .service
    if !killable ∧ client ≠ some w.thisServer then
      match client with
      | none => Prog.call .absentSender fun e : Empty => nomatch e
      | some cl =>
        let msg := if c.type = .server then errCantkillserverMsg else errNoprivilegesMsg
        ircWriteErrClient cl (format msg [← clientID cl])
    else
      ircWriteStrServersPrefix (if source.isSome then client else none)
        (source.getD w.thisServer) (format "KILL %s :%s" [nick, reason])
      let myConn ← match client with
        | some cl => do pure (← deref cl).connId
        | none => pure none
      match (← deref r).connId with
      | some i => callClose i none (some reason) true
      | none => destroyClient r none (some reason) false
      let w ← getWorld
      return myConn.any fun i => (w.conns i).client.isSome

/-- `Client_Reject`. -/
def clientReject (client : ClientRef) (reason : Str) (informClient : Bool) : Plain Unit := do
  let info : Str :=
    if informClient then snprintf commandLen "Access denied: %s" [reason]
    else "Access denied: Bad password?"
  let i ← connOf (← deref client).connId
  callClose i (some reason) (some info) true

/-! ## Introducing clients -/

/-- Write to a connection and return `DISCONNECTED` when that fails. -/
def sendConn (i : ConnId) (text : Str) : Query Unit := Prog.perform (ReplyOp.send i text)

/-- `Client_Announce`. -/
def clientAnnounce (client pfx user : ClientRef) : Query Unit := do
  let peer ← deref client
  let u ← deref user
  let i ← connOf peer.connId
  if ((← getWorld).conns i).rfc1459 then
    sendConn i (format "NICK %s :%d" [← clientID user, intStr (u.hops + 1)])
    sendConn i (format ":%s USER %s %s %s :%s"
      [← clientID user, u.userOrTilde, u.host, ← clientID u.introducer, u.info])
    if !u.modes.isEmpty then
      sendConn i (format ":%s MODE %s +%s" [← clientID user, ← clientID user, u.modes])
  else
    let token := (← deref u.introducer).mytoken
    if u.type = .service ∧ peer.hasFlag 'S' then
      replyPrefix client pfx (format "SERVICE %s %d * +%s %d :%s"
        [u.mask, intStr token, u.modes, intStr (u.hops + 1), u.info])
    else
      replyPrefix client pfx (format "NICK %s %d %s %s %d +%s :%s"
        [← clientID user, intStr (u.hops + 1), u.userOrTilde, u.host, intStr token, u.modes,
          u.info])
  if peer.hasFlag 'M' then
    if let some h := u.cloaked then
      replyPrefix client pfx (format "METADATA %s cloakhost :%s" [← clientID user, h])
    if let some a := u.accountName then
      replyPrefix client pfx (format "METADATA %s accountname :%s" [← clientID user, a])

/-- `Client_Introduce`; `source` is the server a remote client comes from. -/
def clientIntroduce (source : Option ClientRef) (client : ClientRef) (type : ClientType) :
    Full Unit := do
  clientSetType client type
  let w ← getWorld
  match source with
  | some s =>
    let conf := (← deref s).connId.bind w.confGetServer
    let id ← clientID client
    if conf.any fun srv => World.confNickIsService srv id then clientSetType client .service
  | none =>
    let c ← deref client
    let i ← connOf c.connId
    logServerNotice 'c' (format "Client connecting: %s (%s@%s) [%s] - %s"
      [← clientID client, c.userOrTilde, c.host, (w.conns i).addr, c.typeText])
  ircWriteStrServersPrefixFlagCB source none fun peer => do
    let _ ← (clientAnnounce peer (source.getD (← thisServer)) client).toMsg

/-! ## Logging in -/

/-- `Class_GetMemberReason`: the reason of the ban that matches a client.  An
entry that is valid only once is used up. -/
def classGetMemberReason (list : Misc → List ListElem) (put : List ListElem → Misc → Misc)
    (label : Str) (client : ClientRef) : Basic (Option Str) := do
  match ← listsCheckReason (list (← getWorld).misc) client with
  | none => return none
  | some e =>
    editMisc fun m => put (listsUsed (list m) e) m
    return some (snprintf commandLen "\"%s\" (%s)" [strlcpy e.reason commandLen, label])

/-- The ban that `Class_HandleServerBans` finds. -/
def serverBan (client : ClientRef) : Basic (Option Str) := do
  match ← classGetMemberReason Misc.glines (fun l m => { m with glines := l }) "G-Line" client with
  | some reason => return some reason
  | none =>
    classGetMemberReason Misc.klines (fun l m => { m with klines := l }) "K-Line" client

/-- `Class_HandleServerBans`. -/
def classHandleServerBans (client : ClientRef) : Plain Bool := do
  match ← serverBan client with
  | none => return connected
  | some reason =>
    clientReject client reason true
    return disconnected

/-- The welcome messages of `Login_User_PostAuth`. -/
def welcome (client : ClientRef) : Query Unit := do
  let w ← getWorld
  let conf := w.conf
  reply client (format rplWelcomeMsg [← clientID client, ← clientMask client])
  reply client (format rplYourhostMsg
    [← clientID client, ← clientID w.thisServer, conf.packageVersion, conf.hostCpu,
      conf.hostVendor, conf.hostOs])
  reply client (format rplCreatedMsg [← clientID client, conf.startStr])
  reply client (format rplMyinfoMsg
    [← clientID client, ← clientID w.thisServer, conf.packageVersion, userModes, chanModes])
  ircSendIsupport client
  ircSendLusers client
  ircShowMotd client

/-- `Login_Autojoin`. -/
def loginAutojoin (client : ClientRef) : Basic Unit := do
  Prog.forEach (fun (c : ConfChannel) => do
    if c.autojoin ∧ ((← getWorld).channelSearch c.name).isSome then
      let _ ← ircJoin client
        { pfx := some (← clientID (← thisServer)), command := "JOIN", argv := [c.name] })
    (← getWorld).conf.channels

/-- The part of `Login_User_PostAuth` after the new user is introduced. -/
def greetUser (client : ClientRef) : Basic Bool := do
  if !(← (welcome client).toMsg) then return disconnected
  let modes := (← getWorld).conf.defaultUserModes
  if modes.isEmpty then ircSetPenalty client 1
  else
    let _ ← ircMode client
      { pfx := some (← clientID (← thisServer)), command := "MODE"
        argv := [← clientID client, snprintf (channelModeLen + 1) "+%s" [modes]] }
  loginAutojoin client
  return connected

/-- `Login_User_PostAuth`. -/
def loginUserPostAuth (client : ClientRef) : Full Bool := do
  if !(← classHandleServerBans client) then return disconnected
  clientIntroduce none client .user
  greetUser client

/-- The password check of `Login_User`. -/
def passwordOk (conf : Conf) (pwd : Str) : Bool := conf.serverPwd.isEmpty || pwd == conf.serverPwd

/-- `Login_User`. -/
def loginUser (client : ClientRef) : Full Bool := do
  let i ← connOf (← deref client).connId
  let w ← getWorld
  if w.conf.authPing ∧ (w.conns i).authPing ≠ 0 then
    clientSetType client .waitAuthPing
    return connected
  if (← deref client).capabilities.pending then
    setCaps client fun caps => { caps with pending := false }
  if !passwordOk w.conf (w.conns i).pwd then
    clientReject client "Bad server password" false
    return disconnected
  loginUserPostAuth client

end Ngircd
