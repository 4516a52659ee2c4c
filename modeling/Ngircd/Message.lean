import Ngircd.Request

/-!
# PRIVMSG, NOTICE and SQUERY

`Send_Message` of `irc.c` with the parameter check of `message_check.c` and the
channel part of `channel.c`.
-/

namespace Ngircd

open Lib

variable (client : ClientRef) (req : Request)

/-! ## Lists of masks -/

/-- `Lists_CheckReason`: the entry that matches the client, if any. -/
def listsCheckReason (l : List ListElem) (client : ClientRef) : Msg (Option ListElem) := do
  if l.isEmpty then return none
  let cloaked ← clientMaskCloaked client
  return listsMatch l cloaked (← clientMask client)

/-- `Lists_Check` on one of the lists of a channel. -/
def channelListCheck (ch : ChanRef) (list : Channel → List ListElem)
    (put : List ListElem → Channel → Channel) (client : ClientRef) : Basic Bool := do
  match ← listsCheckReason (list (← derefChan ch)) client with
  | none => return false
  | some e =>
    editChannel ch fun c => put (listsUsed (list c) e) c
    return true

/-- `Lists_Check(Channel_GetListBans(chan), Client)`. -/
def checkBans (ch : ChanRef) (client : ClientRef) : Basic Bool :=
  channelListCheck ch Channel.listBans (fun l c => { c with listBans := l }) client

/-- `Lists_Check(Channel_GetListExcepts(chan), Client)`. -/
def checkExcepts (ch : ChanRef) (client : ClientRef) : Basic Bool :=
  channelListCheck ch Channel.listExcepts (fun l c => { c with listExcepts := l }) client

/-- `Lists_Check(Channel_GetListInvites(chan), Client)`. -/
def checkInvites (ch : ChanRef) (client : ClientRef) : Basic Bool :=
  channelListCheck ch Channel.listInvites (fun l c => { c with listInvites := l }) client

/-! ## Messages to channels -/

/-- `Can_Send_To_Channel`. -/
def canSendToChannel (ch : ChanRef) (source : ClientRef) : Basic Bool := do
  let w ← getWorld
  if w.thisServer = source then return true
  let isMember := w.channelIsMemberOf ch source
  let privileged ←
    if isMember then channelUserHasAnyMode ch source "vhoaq" else pure false
  let chan ← derefChan ch
  if chan.hasMode 'n' ∧ !isMember then return false
  let s ← deref source
  if chan.hasMode 'M' ∧ !s.hasMode 'R' ∧ !s.hasMode 'o' then return false
  if privileged then return true
  if chan.hasMode 'm' then return false
  if ← checkExcepts ch source then return true
  return !(← checkBans ch source)

/-- `Conn_UpdateIdle` for the connection of a local client. -/
def updateIdle (client : ClientRef) : Msg Unit := do
  match (← deref client).connId with
  | some i => do
      let w ← getWorld
      editConn i { edit := fun c => { c with lastprivmsg := w.now } }
  | none => pure ()

/-- `Channel_Write`. -/
def channelWrite (ch : ChanRef) (source client : ClientRef) (command : Str) (sendErrors : Bool)
    (text : Str) : Basic Bool := do
  if !(← canSendToChannel ch source) then
    if !sendErrors then return connected
    let chan ← derefChan ch
    let msg := if chan.hasMode 'M' then errNeedreggednickMsg else errCannotsendtochanMsg
    return ← ircWriteErrClient source (format msg [← clientID source, chan.name])
  updateIdle source
  ircWriteStrChannelPrefix client ch source true
    (format "%s %s :%s" [command, ← channelName ch, text])
  return connected

/-! ## Messages to users -/

/-- Search `My_Clients` with a test that may itself send messages.  The walk
reads `next` of the structure it has just tested. -/
def findClient (test : ClientRef → Msg Bool) : List ClientRef → Msg (Option ClientRef)
  | [] => pure none
  | r :: rest => do
      if (← getWorld).order.contains r then
        if ← test r then return some r
        if (← getWorld).order.contains r then findClient test rest
        else dataFault (.freedClient r)
      else findClient test rest

/-- The parts of a target that is no nickname: `user ["%" host] "@" server`,
`user "%" host` or `nick "!" user "@" host`. -/
structure MsgTo where
  nick : Option Str
  user : Str
  host : Option Str
  server : Option Str
  deriving DecidableEq, Repr

/-- Cut a string at a character; the second part is what follows it. -/
def cutAt (c : Char) (s : Str) : Str × Option Str :=
  match s.dropWhile (· != c) with
  | [] => (s, none)
  | _ :: rest => (s.takeWhile (· != c), some rest)

/-- How `Send_Message` takes a target apart. -/
def parseMsgTo (target : Str) : MsgTo :=
  let (rest, server) := cutAt '@' (strlcpy target commandLen)
  let (rest, host) := cutAt '%' rest
  match cutAt '!' rest with
  | (nick, some user) => { nick := some nick, user, host := server, server }
  | (user, none) => { nick := none, user, host, server }

/-- Is this client the one a target describes? -/
def matchesMsgTo (t : MsgTo) (cl : ClientRef) : Msg Bool := do
  let c ← deref cl
  if c.type ≠ .user ∧ c.type ≠ .service then return false
  match t.nick, t.host with
  | some nick, some host =>
    if !strcaseEq nick (← clientID cl) || !strcaseEq t.user c.userOrTilde then return false
    return strcaseEq host (← clientHostnameDisplayed cl)
  | _, host =>
    if !strcaseEq t.user c.userOrTilde then return false
    if let some host := host then
      if !strcaseEq host (← clientHostnameDisplayed cl) then return false
    match t.server with
    | none => return true
    | some server => return strcaseEq server (← clientID (← deref cl).introducer)

/-- The client a target names, if it names one. -/
def findTarget (target : Str) : Msg (Option ClientRef) := do
  let w ← getWorld
  let byNick := if target.contains '!' then none else w.clientSearch target
  match byNick with
  | some cl => return some cl
  | none => findClient (matchesMsgTo (parseMsgTo target)) w.order

/-- What the loop over the targets does after one of them: go on, with the
command it now sends, or leave `Send_Message` with a result. -/
inductive TargetResult where
  | goOn (command : Str)
  | stop (result : Bool)
  deriving DecidableEq, Repr

/-- Answer an error about one target, then go on unless that write failed. -/
def targetError (sendErrors : Bool) (command : Str) (source : ClientRef) (text : Msg Str) :
    Msg TargetResult := do
  if sendErrors then
    if !(← ircWriteErrClient source (← text)) then return .stop disconnected
  return .goOn command

/-- `Send_Message` for a target that is a user or a service. -/
def sendToClient (client source cl : ClientRef) (forceType : ClientType) (sendErrors : Bool)
    (command target message : Str) : Msg TargetResult := do
  let c ← deref cl
  if c.type ≠ forceType ∧ ¬(forceType = .user ∧ (c.type = .user ∨ c.type = .service)) then
    return ← targetError sendErrors command source do
      return format errNosuchnickMsg [← clientID source, target]
  let command ←
    if forceType = .service then do
      let hop ← deref (← clientNextHop cl)
      let i ← connOf hop.connId
      -- A link in RFC 1459 mode knows no SQUERY.
      pure (if ((← getWorld).conns i).rfc1459 then ("PRIVMSG" : Str) else command)
    else pure command
  let s ← deref source
  if c.hasMode 'b' ∧ !s.hasMode 'R' ∧ !s.hasMode 'o' ∧ s.type ≠ .server ∧ s.type ≠ .service then
    return ← targetError sendErrors command source do
      return format errNononregMsg [← clientID source, ← clientID cl]
  if c.hasMode 'C' ∧ !s.hasMode 'o' ∧ s.type ≠ .server ∧ s.type ≠ .service then
    let w ← getWorld
    if !(w.channelsOf cl).any fun ch => w.channelIsMemberOf ch source then
      return ← targetError sendErrors command source do
        return format errNotonsamechannelMsg [← clientID source, ← clientID cl]
  if sendErrors ∧ (← clientType client) ≠ .server ∧ c.hasMode 'a' then
    if !(← ircWriteStrClient source
        (format rplAwayMsg [← clientID source, ← clientID cl, c.away.getD []])) then
      return .stop disconnected
  updateIdle source
  if !(← ircWriteStrClientPrefix cl source
      (format "%s %s :%s" [command, ← clientID cl, message])) then
    return .stop disconnected
  return .goOn command

/-- One client of the loops of `Send_Message_Mask`. -/
def sendIfMatch (source : ClientRef) (command message : Str) (test : Client → Msg Bool)
    (cl : ClientRef) : Msg Bool := do
  let c ← deref cl
  if c.type ≠ .user then return true
  if !(← test c) then return true
  ircWriteStrClientPrefix cl source (format "%s %s :%s" [command, ← clientID cl, message])

/-- `Send_Message_Mask`.  Its loops stop at the first write that fails. -/
def sendMessageMask (source : ClientRef) (command targetMask message : Str)
    (sendErrors : Bool) : Msg Bool := do
  if !(← clientHasMode source 'o') then
    if !sendErrors then return true
    return ← ircWriteErrClient source (format errNoprivilegesMsg [← clientID source])
  let lastLabel := (targetMask.reverse.takeWhile (· != '.')).reverse
  if !targetMask.contains '.' ∨ lastLabel.any (fun c => c == '*' || c == '?') then
    if !sendErrors then return true
    return ← ircWriteErrClient source (format errWildtoplevelMsg [targetMask])
  let mask := targetMask.tail
  let w ← getWorld
  if targetMask.head? = some '#' then
    whileClients (sendIfMatch source command message fun c =>
      pure (matchCaseInsensitive mask c.host)) w.order
  else
    whileClients (sendIfMatch source command message fun c => do
      return matchCaseInsensitive mask (← clientID c.introducer)) w.order

/-- `Send_Message` for one target of the list. -/
def sendToTarget (client source : ClientRef) (forceType : ClientType) (sendErrors : Bool)
    (message command target : Str) : Basic TargetResult := do
  match ← findTarget target with
  | some cl => sendToClient client source cl forceType sendErrors command target message
  | none =>
    let w ← getWorld
    match if forceType = .service then none else w.channelSearch target with
    | some ch =>
      if !(← channelWrite ch source client command sendErrors message) then
        return .stop disconnected
      return .goOn command
    | none =>
      if forceType ≠ .service ∧ (target.head? = some '$' ∨ target.head? = some '#') ∧
          target.contains '.' then
        if !(← sendMessageMask source command target message sendErrors) then
          return .stop disconnected
        return .goOn command
      else if !sendErrors then return .stop connected
      else
        if !(← ircWriteErrClient source
            (format errNosuchnickMsg [← clientID source, target])) then
          return .stop disconnected
        return .goOn command

/-- `MAX_HNDL_TARGETS`. -/
def maxHndlTargets : Nat := 25

/-- The loop of `Send_Message` over its targets; `seen` are those before. -/
def sendToTargets (client source : ClientRef) (forceType : ClientType) (sendErrors : Bool)
    (message : Str) : Str → List Str → List Str → Basic Bool
  | _, _, [] => return connected
  | command, seen, target :: rest => do
      let result ←
        if seen.any (strcaseEq target) then pure (.goOn command)
        else sendToTarget client source forceType sendErrors message command target
      match result with
      | .stop b => return b
      | .goOn command =>
        match rest with
        | [] => return connected
        | next :: _ =>
          connSetPenalty (← connOf (← deref client).connId) 1
          if seen.length + 1 ≥ maxHndlTargets then
            ircWriteErrClient client (format errToomanytargetsMsg [next])
          else
            sendToTargets client source forceType sendErrors message command (seen ++ [target]) rest

/-- `MESSAGE_CHECK_xxx` results of `message_check.c`. -/
inductive MessageCheck where
  | ok | noRecipient | noText | needMoreParams
  deriving DecidableEq, Repr

/-- `Message_Check_Send`. -/
def messageCheckSend (req : Request) (sendErrors : Bool) : MessageCheck :=
  let problem (m : MessageCheck) : MessageCheck := if sendErrors then m else .ok
  if req.argc = 0 then problem .noRecipient
  else if req.argc = 1 then problem .noText
  else if req.argc > 2 then problem .needMoreParams
  else if (req.arg 1).isEmpty then problem .noText
  else .ok

/-- `from` of `Send_Message`: whom a message is from. -/
def World.messageFrom (w : World) (client : ClientRef) (type : ClientType) (pfx : Option Str) :
    Option ClientRef :=
  match type, pfx with
  | .server, some p => w.clientSearch p
  | _, _ => some client

/-- `Send_Message`. -/
def sendMessage (forceType : ClientType)
    (sendErrors : Bool) : Plain Bool := do
  match messageCheckSend req sendErrors with
  | .noRecipient =>
    ircWriteErrClient client (format errNorecipientMsg [← clientID client, req.command])
  | .noText => ircWriteErrClient client (format errNotexttosendMsg [← clientID client])
  | .needMoreParams => needMoreParams client req
  | .ok =>
    let type ← clientType client
    match (← getWorld).messageFrom client type req.pfx with
    | none =>
      ircWriteErrClient client (format errNosuchnickMsg [← clientID client, req.pfx.getD []])
    | some source =>
      let message ← param req 1
      if message.isEmpty then
        if !sendErrors then return connected
        ircWriteErrClient client (format errNotexttosendMsg [← clientID client])
      else
        let targets ← param req 0
        sendToTargets client source forceType sendErrors message
          (req.command.map Char.toUpper) [] (strtok targets ",")

/-- `IRC_PRIVMSG`. -/
def ircPrivmsg : Plain Bool :=
  sendMessage client req .user true

/-- `IRC_NOTICE`. -/
def ircNotice : Plain Bool :=
  sendMessage client req .user false

/-- `IRC_SQUERY`. -/
def ircSquery : Plain Bool :=
  sendMessage client req .service true

end Ngircd
