import Ngircd.Login

/-!
# Registration commands

`irc-login.c` and `irc-cap.c` with the decision functions of `login_check.c`,
`login_flow.c`, `nick_check.c` and `user_check.c`: the commands with which a
connection registers, and the same commands as servers use them to introduce
remote clients.
-/

namespace Ngircd

open Lib

variable (client : ClientRef) (req : Request)

/-! ## PASS -/

/-- `LOGIN_CHECK_xxx`. -/
inductive LoginCheck where
  | allowed | needMoreParams | alreadyRegistered
  deriving DecidableEq, Repr

/-- `Login_Check_Pass`. -/
def loginCheckPass (t : ClientType) (argc : Nat) : LoginCheck :=
  if t ≠ .unknown ∧ t ≠ .unknownServer then .alreadyRegistered
  else if t = .unknown ∧ argc = 1 then .allowed
  else if argc = 3 ∨ argc = 4 then .allowed
  else .needMoreParams

/-- The flags `IRC_PASS` finds in the implementation parameter of an IRC+ peer,
or in the flags parameter of any other one. -/
def passFlags (req : Request) : Str :=
  let isIrcPlus : Bool := (req.arg 1).drop 4 = "-IRC+"
  if isIrcPlus then
    let (impl, version) := cutAt '|' (req.arg 2)
    (cutAt ':' (version.getD impl)).2.getD []
  else if (req.arg 3).contains 'Z' then "Z" else []

/-- `IRC_PASS`. -/
def ircPass : Full Bool := do
  let c ← deref client
  match loginCheckPass c.type req.argc with
  | .needMoreParams => needMoreParams client req
  | .alreadyRegistered =>
    ircWriteErrClient client (format errAlreadyregistredMsg [← clientID client])
  | .allowed =>
    let i ← connOf c.connId
    connSetPassword i (req.arg 0)
    -- A second parameter of four characters or more is a protocol version.
    clientSetType client (if req.argc ≥ 2 ∧ (req.arg 1).length ≥ 4 then .gotPass2813 else .gotPass)
    if req.argc ≥ 3 then
      editClient client { edit := fun c =>
        { c with flags := strlcpy (passFlags req) clientFlagsLen } }
    return connected

/-! ## NICK -/

/-- `NICK_CHECK_xxx`. -/
inductive NickCheck where
  | userOrChange | serverIntroduce | alreadyRegistered
  deriving DecidableEq, Repr

/-- `Nick_Check_Context`. -/
def nickCheckContext (t : ClientType) (argc : Nat) : NickCheck :=
  if t = .server ∧ argc = 1 then .userOrChange
  else if t = .server ∨ t = .service then
    if argc = 2 ∨ argc = 7 then .serverIntroduce else .alreadyRegistered
  else if t = .unknown ∨ t = .gotPass ∨ t = .gotNick ∨ t = .gotUser ∨ t = .user then
    .userOrChange
  else .alreadyRegistered

/-- `LOGIN_FLOW_xxx`; `setState` is `SET_GOTNICK` or `SET_GOTUSER`. -/
inductive LoginFlow where
  | keepState | setState | loginNow
  deriving DecidableEq, Repr

/-- `login_flow_decide`, for a client that may register. -/
def loginFlowDecide (primaryReceived capPending authPingPending : Bool) : LoginFlow :=
  if authPingPending || capPending then .setState
  else if primaryReceived then .loginNow
  else .setState

/-- `Login_Flow_OnNick`. -/
def loginFlowOnNick (t : ClientType) (userReceived capPending authPingPending : Bool) :
    LoginFlow :=
  match t with
  | .unknown | .gotPass | .gotNick | .gotUser | .user | .service =>
    loginFlowDecide userReceived capPending authPingPending
  | _ => .keepState

/-- `Login_Flow_OnUser`. -/
def loginFlowOnUser (t : ClientType) (nickReceived capPending authPingPending : Bool) :
    LoginFlow :=
  match t with
  | .gotNick | .unknown | .gotPass =>
    loginFlowDecide nickReceived capPending authPingPending
  | _ => .keepState

/-- What `Client_CheckNick` finds wrong with a nickname. -/
inductive NickError where
  | tooLong | erroneous | forbidden | inUse
  deriving DecidableEq, Repr

namespace World

/-- The decision of `Client_CheckNick` for a client of this type. -/
def nickError (w : World) (t : ClientType) (nick : Str) : Option NickError :=
  if !w.clientIsValidNick nick then
    if nick.length ≥ w.conf.maxNickLength then some .tooLong else some .erroneous
  else if t ≠ .server ∧ t ≠ .service ∧ w.confNickIsBlocked nick then some .forbidden
  else if (w.clientSearch nick).isSome then some .inUse
  else none

end World

/-- `Client_CheckNick`. -/
def clientCheckNick (client : ClientRef) (nick : Str) : Msg Bool := do
  let w ← getWorld
  let err (msg : Str) : Msg Bool := do
    let _ ← ircWriteErrClient client
      (format msg [← clientID client, nick, natStr (w.conf.maxNickLength - 1)])
    return false
  match w.nickError (← clientType client) nick with
  | none => return true
  | some .tooLong => err errNicknametoolongMsg
  | some .erroneous => err errErroneusnicknameMsg
  | some .forbidden => err errForbiddennicknameMsg
  | some .inUse => err errNicknameinuseMsg

/-- `Change_Nick`. -/
def changeNick (origin target : ClientRef) (newNick : Str) (informClient : Bool) :
    Full Unit := do
  let text := format "NICK :%s" [newNick]
  updateIdle target
  if informClient then
    let _ ← ircWriteStrClientPrefix target target text
    ircWriteStrServersPrefix none target text
  else ircWriteStrServersPrefix (some origin) target text
  ircWriteStrRelatedPrefix target target false text
  clientRegisterWhowas target
  clientSetID target newNick

/-- Send the AUTH PING after a NICK of a new client. -/
def sendAuthPing (client : ClientRef) : Full Unit := do
  let i ← connOf (← deref client).connId
  let token ← drawRand
  connSetAuthPing i token
  let _ ← connWriteStr i (format "PING :%ld" [intStr token])

/-- The part of `IRC_NICK` for a client that is not registered yet. -/
def registerNick (client target : ClientRef) (nick : Str) : Full Bool := do
  clientSetID target nick
  if (← getWorld).conf.authPing then sendAuthPing client
  let c ← deref client
  let i ← connOf c.connId
  let authPing := ((← getWorld).conns i).authPing
  match loginFlowOnNick c.type (c.type == .gotUser) c.capabilities.pending (authPing != 0) with
  | .loginNow => loginUser client
  | .setState =>
    clientSetType client .gotNick
    return connected
  | .keepState => return connected

/-- The part of `IRC_NICK` for a registered client. -/
def ircNickChange (client target : ClientRef) (nick : Str) : Full Bool := do
  let w ← getWorld
  let c ← deref client
  let locked := w.chans.order.find? fun ch =>
    (w.chans.heap ch).any (·.hasMode 'N') && w.channelIsMemberOf ch client
  match if c.type = .user ∧ !c.hasMode 'o' then locked else none with
  | some ch =>
    ircWriteErrClient client (format errNonickchangeMsg [← clientID client, ← channelName ch])
  | none =>
    changeNick client target nick (c.type == .user)
    ircSetPenalty target 2
    return connected

/-- `IRC_NICK` for a user, or for a server that passes on a change of nick. -/
def ircNickUser (client target : ClientRef) (nick : Str) : Full Bool := do
  let old ← clientID target
  if old = nick then return connected
  if !strcaseEq old nick then
    if !(← clientCheckNick target nick) then return connected
  let t ← clientType target
  if t ≠ .user ∧ t ≠ .service ∧ t ≠ .server then registerNick client target nick
  else ircNickChange client target nick

/-- `IRC_NICK` for a server that introduces a remote client. -/
def ircNickIntroduce : Full Bool := do
  let w ← getWorld
  let nick := req.arg 0
  if (w.clientSearch nick).isSome then
    ircKillClient (some client) none nick "Nick collision"
  else
    let rfc2813 : Bool := req.argc ≥ 7
    let token := atoi (if rfc2813 then req.arg 4 else req.arg 1)
    match w.clientGetFromToken client token with
    | none => ircKillClient (some client) none nick "Unknown server"
    | some server =>
      if rfc2813 then
        let r ← clientNewRemoteUser server nick (atoi (req.arg 1)) (req.arg 2) (req.arg 3) token
          (req.arg 5).tail (req.arg 6)
        clientIntroduce (some client) r .user
      else
        let r ← clientNewRemoteUser server nick 1 nick (← clientID client) token [] nick
        clientSetType r .gotNick
      return connected

/-- `IRC_NICK`. -/
def ircNick : Full Bool := do
  let c ← deref client
  match nickCheckContext c.type req.argc with
  | .userOrChange =>
    if req.argc ≠ 1 then needMoreParams client req
    else if c.type = .server then
      match req.pfx with
      | none => needMoreParams client req
      | some p =>
        match (← getWorld).clientSearch p with
        | none =>
          ircWriteErrClient client (format errNosuchnickMsg [← clientID client, req.arg 0])
        | some target => ircNickUser client target (req.arg 0)
    else if c.hasMode 'r' then
      ircWriteErrClient client (format errRestrictedMsg [← clientID client])
    else ircNickUser client client (req.arg 0)
  | .serverIntroduce => ircNickIntroduce client req
  | .alreadyRegistered =>
    ircWriteErrClient client (format errAlreadyregistredMsg [← clientID client])

/-- `IRC_SVSNICK`. -/
def ircSvsnick : Full Bool := do
  let w ← getWorld
  match req.pfx with
  | none => needMoreParams client req
  | some p =>
    let source := (w.clientSearch p).getD client
    let unknown : Basic Bool := do
      ircWriteErrClient client (format errNosuchnickMsg [← clientID client, req.arg 0])
    match w.clientSearch (req.arg 0) with
    | none => unknown
    | some target =>
      let t ← deref target
      if t.type ≠ .user then unknown
      else if t.connId.isNone then
        let hop ← clientNextHop target
        ircWriteStrClientPrefix hop source (format "SVSNICK %s %s" [req.arg 0, req.arg 1])
      else
        if ← clientCheckNick source (req.arg 1) then
          changeNick source target (req.arg 1) true
        return connected

/-! ## USER -/

/-- `USER_CHECK_xxx`. -/
inductive UserCheck where
  | newConnection | serverUpdate | alreadyRegistered | notRegistered
  deriving DecidableEq, Repr

/-- `User_Check_Context`. -/
def userCheckContext : ClientType → UserCheck
  | .gotNick | .unknown | .gotPass => .newConnection
  | .server | .service => .serverUpdate
  | .user => .alreadyRegistered
  | _ => .notRegistered

/-- The user names `IRC_USER` accepts: letters, digits and a few other
characters. -/
def userNameOk (name : Str) : Bool :=
  name.all fun c => c.isAlphanum || c == '+' || c == '-' || c == '@' || c == '.' || c == '_'

/-- `IRC_USER` on a new connection, with an acceptable user name. -/
def registerUser : Full Bool := do
  clientSetUser client (cutAt '@' (req.arg 0)).1 false
  clientSetInfo client (if (req.arg 3).isEmpty then "-" else req.arg 3)
  let c ← deref client
  let i ← connOf c.connId
  let authPing := ((← getWorld).conns i).authPing
  match loginFlowOnUser c.type (c.type == .gotNick) c.capabilities.pending (authPing != 0) with
  | .loginNow => loginUser client
  | .setState =>
    clientSetType client .gotUser
    return connected
  | .keepState => return connected

/-- `IRC_USER` of a server about a remote client. -/
def ircUserServer : Full Bool := do
  match req.pfx with
  | none => needMoreParams client req
  | some p =>
    match (← getWorld).clientSearch p with
    | none => ircWriteErrClient client (format errNosuchnickMsg [← clientID client, p])
    | some r =>
      clientSetUser r (req.arg 0) true
      clientSetHostname r (req.arg 1)
      clientSetInfo r (req.arg 3)
      if (← clientType r) = .gotNick then clientIntroduce (some client) r .user
      return connected

/-- `IRC_USER`. -/
def ircUser : Full Bool := do
  let c ← deref client
  match userCheckContext c.type with
  | .newConnection =>
    if req.argc ≠ 4 then needMoreParams client req
    else if !userNameOk (req.arg 0) then
      let i ← connOf c.connId
      callClose i none (some "Invalid user name") true
      return disconnected
    else registerUser client req
  | .serverUpdate =>
    if req.argc ≠ 4 then needMoreParams client req else ircUserServer client req
  | .alreadyRegistered =>
    ircWriteErrClient client (format errAlreadyregistredMsg [← clientID client])
  | .notRegistered =>
    ircWriteErrClient client (format errNotregisteredMsg [← clientID client])

/-! ## SERVICE and WEBIRC -/

/-- `IRC_SERVICE`. -/
def ircService : Full Bool := do
  let t ← clientType client
  if t ≠ .gotPass ∧ t ≠ .server then
    ircWriteErrClient client (format errAlreadyregistredMsg [← clientID client])
  else if t ≠ .server then
    ircWriteErrClient client (format errErroneusnicknameMsg [← clientID client, req.arg 0])
  else
    let w ← getWorld
    if (w.clientSearch (req.arg 0)).isSome then
      ircKillClient (some client) none (req.arg 0) "Nick collision"
    else
      let token := atoi (req.arg 1)
      match w.clientGetFromToken client token with
      | none => ircKillClient (some client) none (req.arg 0) "Unknown server"
      | some server =>
        let (name, host) := cutAt '@' (req.arg 0)
        let (nick, user) := cutAt '!' name
        let modes := match req.arg 3 with
          | '+' :: modes => modes
          | _ => []
        let serverHost := (← deref server).host
        let r ← clientNewRemoteUser server nick (atoi (req.arg 4)) (user.getD nick)
          (host.getD serverHost) token modes (req.arg 5)
        clientIntroduce (some client) r .service
        return connected

/-- `IRC_WEBIRC`. -/
def ircWebirc : Basic Bool := do
  let conf := (← getWorld).conf
  if conf.webircPwd.isEmpty ∨ req.arg 0 ≠ conf.webircPwd then
    return ← ircWriteErrClient client (format errPasswdmismatchMsg [← clientID client])
  clientSetUser client (req.arg 1) true
  clientSetHostname client (if conf.dns then req.arg 2 else req.arg 3)
  let ipa : Option Str :=
    if (req.arg 3).isEmpty then none else some ((req.arg 3).take (clientHostLen - 1))
  editClient client { edit := fun c => { c with ipaText := ipa } }
  return connected

/-! ## QUIT, PING and PONG -/

/-- The message of a QUIT that does not come from a server, in quotes. -/
def quoteQuit (msg : Str) : Str :=
  let msg := strlcpy msg commandLen
  if msg.head? = some '"' then msg
  else strlcat (strlcat "\"" msg (commandLen - 1)) "\"" commandLen

/-- `IRC_QUIT`, with the parameter as the handler for HTTP requests sets it. -/
def quitWith (msg : Option Str) : Plain Bool := do
  let c ← deref client
  let w ← getWorld
  if c.type = .server then
    match req.pfx with
    | none => needMoreParams client req
    | some p =>
      match w.clientSearch p with
      | none => return connected
      | some target =>
        let msg := msg.map fun m => strlcpy m commandLen
        if target ≠ client then
          destroyClient target (some "Got QUIT command") msg true
          return connected
        else
          let i ← connOf c.connId
          callClose i (some "Got QUIT command") msg true
          return disconnected
  else
    let i ← connOf c.connId
    callClose i (some "Got QUIT command") (msg.map quoteQuit) true
    return disconnected

/-- `IRC_QUIT`. -/
def ircQuit : Plain Bool :=
  quitWith client req (if req.argc = 1 then some (req.arg 0) else none)

/-- `IRC_QUIT_HTTP`. -/
def ircQuitHttp : Plain Bool :=
  quitWith client req (some "Oops, HTTP request received? This is IRC!")

/-- `IRC_PING`. -/
def ircPing : Query Unit := do
  let w ← getWorld
  let noServer (name : Str) : Query Unit := do
    replyErr client (format errNosuchserverMsg [← clientID client, name])
  let answer : Query Unit := do
    let source :=
      if (← clientType client) = .server then req.pfx.elim (some client) w.clientSearch
      else some w.thisServer
    match source with
    | none => noServer (req.pfx.getD [])
    | some source => reply client (format "PONG %s :%s" [← clientID source, req.arg 0])
  let forward (target : ClientRef) : Query Unit := do
    let isServer := (← clientType client) == .server
    match isServer, req.pfx with
    | true, none => replyErr client (format errNeedmoreparamsMsg [← clientID client, req.command])
    | _, _ =>
      match if isServer then w.clientSearch (req.pfx.getD []) else some client with
      | none => noServer (req.pfx.getD [])
      | some source =>
        replyPrefix target source (format "PING %s :%s" [req.arg 0, req.arg 1])
  if req.argc < 1 then replyErr client (format errNooriginMsg [← clientID client])
  else if req.argc > 1 then
    match w.clientSearch (req.arg 1) with
    | none => noServer (req.arg 1)
    | some target =>
      if (← clientType target) ≠ .server then noServer (req.arg 1)
      else if target ≠ w.thisServer then forward target
      else answer
  else answer

/-- What `IRC_PONG` does with a PONG that a server sends to somebody else;
`none` if it is for this server after all. -/
def forwardPong (p : Str) : Msg (Option Bool) := do
  let w ← getWorld
  match w.clientSearch (req.arg 0) with
  | none =>
    return some (← ircWriteErrClient client
      (format errNosuchserverMsg [← clientID client, req.arg 0]))
  | some target =>
    let source := w.clientSearch p
    if target = w.thisServer ∨ source = some target then return none
    match source with
    | none =>
      return some (← ircWriteErrClient client (format errNosuchserverMsg [← clientID client, p]))
    | some source =>
      let hop ← clientNextHop target
      let name ← if (← clientType hop) ≠ .server then clientID source else pure (req.arg 0)
      return some (← ircWriteStrClientPrefix target source (format "PONG %s :%s" [name, req.arg 1]))

/-- `IRC_PONG` where it is not forwarded: check the answer to an AUTH PING. -/
def receivePong : Full Bool := do
  let i ← connOf (← deref client).connId
  let authPing := ((← getWorld).conns i).authPing
  let alive ←
    if authPing = 0 then pure connected
    else if authPing = atoi (req.arg 0) then do
      connSetAuthPing i 0
      if (← clientType client) = .waitAuthPing then
        let _ ← loginUser client
      pure connected
    else
      ircWriteStrClient client (format "NOTICE %s :To connect, type /QUOTE PONG %ld"
        [← clientID client, intStr authPing])
  if !alive then return disconnected
  -- The type is read again, for the log message only.
  let _ ← clientType client
  editConn i noPongPending
  return connected

/-- `IRC_PONG`. -/
def ircPong : Full Bool := do
  let t ← clientType client
  if req.argc < 1 then
    if t = .user then ircWriteErrClient client (format errNooriginMsg [← clientID client])
    else return connected
  else if t = .user ∧ req.argc > 2 then needMoreParams client req
  else if req.argc = 2 ∧ t = .server then
    match req.pfx with
    | none => needMoreParams client req
    | some p =>
      match ← forwardPong client req p with
      | some result => return result
      | none => receivePong client req
  else receivePong client req

/-! ## CAP -/

/-- `Parse_CAP`; `none` for a capability that is not known. -/
def parseCap (caps : Caps) (args : Str) : Option Caps :=
  (strtok (strlcpy args commandLen) " ").foldlM (fun caps (tok : Str) =>
      if tok = "multi-prefix" then some { caps with multiPrefix := true }
      else if tok = "-multi-prefix" then some { caps with multiPrefix := false }
      else none) caps

/-- `Get_CAP_String`. -/
def getCapString (caps : Caps) : Str := if caps.multiPrefix then "multi-prefix " else []

/-- `Set_CAP_Negotiation`. -/
def setCapNegotiation (client : ClientRef) : Full Unit := do
  let t ← clientType client
  setCaps client fun caps => { caps with pending := caps.pending || t != .user, supported := true }

/-- `Handle_CAP_REQ`. -/
def handleCapReq (client : ClientRef) (arg : Str) : Full Bool := do
  setCapNegotiation client
  match parseCap (← deref client).capabilities arg with
  | none => ircWriteStrClient client (format "CAP %s NAK :%s" [← clientID client, arg])
  | some caps =>
    setCaps client fun _ => caps
    ircWriteStrClient client (format "CAP %s ACK :%s" [← clientID client, arg])

/-- `Handle_CAP_CLEAR`. -/
def handleCapClear (client : ClientRef) : Full Bool := do
  let old := (← deref client).capabilities
  setCaps client fun caps => { caps with multiPrefix := false }
  ircWriteStrClient client (format "CAP %s ACK :%s" [← clientID client, getCapString old])

/-- `Handle_CAP_END`. -/
def handleCapEnd (client : ClientRef) : Full Bool := do
  if (← clientType client) = .user then return connected
  setCaps client fun caps => { caps with pending := false }
  if (← clientID client).head? ≠ some '*' then loginUser client
  else return connected

/-- `IRC_CAP`. -/
def ircCap : Full Bool := do
  let sub (name : Str) : Bool := strcaseEq (req.arg 0) name
  if req.argc = 1 ∧ sub "CLEAR" then handleCapClear client
  else if req.argc = 1 ∧ sub "END" then handleCapEnd client
  else if 1 ≤ req.argc ∧ req.argc ≤ 2 ∧ sub "LS" then
    setCapNegotiation client
    ircWriteStrClient client (format "CAP %s LS :multi-prefix" [← clientID client])
  else if 1 ≤ req.argc ∧ req.argc ≤ 2 ∧ sub "LIST" then
    ircWriteStrClient client
      (format "CAP %s LIST :%s" [← clientID client, getCapString (← deref client).capabilities])
  else if req.argc = 2 ∧ sub "REQ" then handleCapReq client (req.arg 1)
  else if req.argc = 2 ∧ sub "ACK" then return connected
  else ircWriteErrClient client (format errInvalidcapMsg [← clientID client, req.arg 0])

end Ngircd
