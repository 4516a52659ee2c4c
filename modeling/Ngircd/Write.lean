import Ngircd.Client

/-!
# Writing to clients, channels and servers

The functions of `irc-write.c` with the parts of `conn.c`, `conn-func.c`,
`client.c` and `log.c` they need.  A channel message is sent in two passes: the
first marks, in the shared connection pool, the next hop of every recipient,
the second writes to all marked connections.
-/

namespace Ngircd

open Lib

/-- `CONNECTED` and `DISCONNECTED`. -/
abbrev connected : Bool := true

@[inherit_doc connected] abbrev disconnected : Bool := false

/-! ## Single connections -/

/-- The line `Conn_WriteStr` sends for a text: one that would not fit is cut. -/
def cutLine (text : Str) : Str :=
  if text.length ≥ commandLen - 2 then text.take (commandLen - 5 - 2 - 1) ++ "[CUT]" else text

/-- `Conn_WriteStr` on a connection. -/
def connWriteStr (i : ConnId) (text : Str) : Msg Bool := do
  let ok ← writeTo i (cutLine text)
  editConn i { edit := fun c => { c with msgOut := c.msgOut + 1 } }
  return ok

/-- `assert(Idx > NONE)` for a connection ID. -/
def connOf (i : Option ConnId) : Msg ConnId :=
  match i with
  | some i => pure i
  | none => dataFault .assertion

/-- `Conn_SetPenalty`. -/
def connSetPenalty (i : ConnId) (seconds : Nat) : Msg Unit := do
  let w ← getWorld
  let limit := w.conf.maxPenaltyTime
  let seconds :=
    if 0 ≤ limit ∧ limit < seconds ∧ seconds < 10 then limit.toNat else seconds
  editConn i { edit := fun c => { c with delaytime := max c.delaytime w.now + seconds } }

/-- `IRC_SetPenalty`. -/
def ircSetPenalty (client : ClientRef) (seconds : Nat) : Msg Unit := do
  let c ← deref client
  if c.type = .server then return ()
  match c.connId with
  | none => return ()
  | some i => connSetPenalty i seconds

/-- `Conn_ClearFlags`. -/
def connClearFlags : Msg Unit := do
  Prog.forEach (fun i => editConn i { edit := fun c => { c with flag := none } })
    (List.range (← getWorld).poolSize)

/-- `Conn_SetFlag`. -/
def connSetFlag (i : ConnId) (m : Mark) : Msg Unit :=
  editConn i { edit := fun c => { c with flag := some m } }

/-! ## Servers -/

/-- `IRC_WriteStrServersPrefixFlag_CB`: call back for every directly linked
server but one; `none` stands for the flag character NUL. -/
def ircWriteStrServersPrefixFlagCB (exceptOf : Option ClientRef) (flag : Option Char)
    (callback : ClientRef → Msg Unit) : Msg Unit :=
  forAllClients fun r => do
    let c ← deref r
    if c.type = .server ∧ c.connId.isSome ∧ r ≠ (← thisServer) ∧ some r ≠ exceptOf then
      if flag.all c.hasFlag then callback r

/-- `IRC_WriteStrClientPrefix` to a directly linked server.  `Get_Prefix`
answers the ID of the originator there. -/
def writeStrServer (server pfx : ClientRef) (text : Str) : Msg Bool := do
  let hop ← deref (← clientNextHop server)
  connWriteStr (← connOf hop.connId) (format ":%s %s" [← clientID pfx, text.take 999])

/-- `IRC_WriteStrServersPrefixFlag`. -/
def ircWriteStrServersPrefixFlag (exceptOf : Option ClientRef) (pfx : ClientRef)
    (flag : Option Char) (text : Str) : Msg Unit :=
  ircWriteStrServersPrefixFlagCB exceptOf flag fun r => do
    let _ ← writeStrServer r pfx text

/-- `IRC_WriteStrServersPrefix`. -/
def ircWriteStrServersPrefix (exceptOf : Option ClientRef) (pfx : ClientRef)
    (text : Str) : Msg Unit :=
  ircWriteStrServersPrefixFlag exceptOf pfx none text

/-! ## Displayed names -/

/-- `Client_UpdateCloakedHostname`. -/
def clientUpdateCloakedHostname (client : ClientRef) (origin : Option ClientRef)
    (hostname : Option Str) : Msg Unit := do
  let w ← getWorld
  let origin := origin.getD w.thisServer
  let c ← deref client
  let cloaked ← match hostname with
    | some h => pure (strlcpy h clientHostLen)
    | none =>
      if w.conf.cloakHostModeX.isEmpty then
        pure (strlcpy (← clientID c.introducer) clientHostLen)
      else
        let key := strlcat (strlcpy c.host clientHostLen) w.conf.cloakHostSalt clientHostLen
        pure (snprintf clientHostLen w.conf.cloakHostModeX [hexStr (hash key).toNat])
  setCloaked client cloaked
  ircWriteStrServersPrefixFlag (some (← clientNextHop origin)) origin (some 'M')
    (format "METADATA %s cloakhost :%s" [← clientID client, cloaked])

/-- `Client_HostnameDisplayed`. -/
def clientHostnameDisplayed (client : ClientRef) : Msg Str := do
  let c ← deref client
  if !c.hasMode 'x' then return c.host
  match c.cloaked with
  | some h => return h
  | none =>
    clientUpdateCloakedHostname client none none
    return (← deref client).cloaked.getD []

/-- `Client_Mask`. -/
def clientMask (client : ClientRef) : Msg Str := do
  return (← deref client).mask

/-- `Client_MaskCloaked`. -/
def clientMaskCloaked (client : ClientRef) : Msg Str := do
  let c ← deref client
  if !c.hasMode 'x' then return c.mask
  return snprintf getidLen "%s!%s@%s" [c.id, c.user, ← clientHostnameDisplayed client]

/-- `Get_Prefix`. -/
def getPrefix (target client : ClientRef) : Msg Str := do
  if (← clientType target) = .server then clientID client else clientMaskCloaked client

/-! ## Clients -/

/-- The connection and the line with which a text for a client is sent. -/
def lineFor (client pfx : ClientRef) (text : Str) : Msg (ConnId × Str) := do
  let hop ← clientNextHop client
  let i ← connOf (← deref hop).connId
  return (i, format ":%s %s" [← getPrefix hop pfx, text.take 999])

/-- `IRC_WriteStrClientPrefix`. -/
def ircWriteStrClientPrefix (client pfx : ClientRef) (text : Str) : Msg Bool := do
  let (i, line) ← lineFor client pfx text
  connWriteStr i line

/-- `IRC_WriteStrClient`. -/
def ircWriteStrClient (client : ClientRef) (text : Str) : Msg Bool := do
  ircWriteStrClientPrefix client (← thisServer) text

/-- `IRC_WriteErrClient`. -/
def ircWriteErrClient (client : ClientRef) (text : Str) : Msg Bool := do
  ircSetPenalty client 2
  ircWriteStrClientPrefix client (← thisServer) text

/-! ## Replies

Most handlers send a sequence of replies and return `DISCONNECTED` as soon as
one of the writes fails.  In a reply program that return is part of `send`. -/

/-- The operations of a signature, and a write that ends the program when it
fails. -/
inductive ReplyOp (Op : Type) where
  | base (op : Op)
  | send (i : ConnId) (text : Str)

/-- Answers to the operations of reply programs. -/
def ReplyOp.Res {Op : Type} (Res : Op → Type) : ReplyOp Op → Type
  | .base op => Res op
  | .send _ _ => Unit

/-- Message programs that return `DISCONNECTED` at the first `send` that fails. -/
abbrev Query (α : Type) := Prog (ReplyOp.Res MsgOp.Res) α

/-- Basic programs that return `DISCONNECTED` at the first `send` that fails. -/
abbrev Reply (α : Type) := Prog (ReplyOp.Res BasicOp.Res) α

/-- A message program as part of a query. -/
def Query.ofMsg {α : Type} (p : Msg α) : Query α :=
  p.run fun m => (Prog.perform (ReplyOp.base m) : Query (ReplyOp.Res MsgOp.Res (.base m)))

/-- A basic program as part of a reply. -/
def Reply.ofBasic {α : Type} (p : Basic α) : Reply α :=
  p.run fun b => (Prog.perform (ReplyOp.base b) : Reply (ReplyOp.Res BasicOp.Res (.base b)))

/-- A query is a reply. -/
def Reply.ofQuery {α : Type} (p : Query α) : Reply α :=
  p.run fun
    | .base m =>
      (Prog.perform (ReplyOp.base (BasicOp.leave (.msg m))) :
        Reply (ReplyOp.Res BasicOp.Res (.base (.leave (.msg m)))))
    | .send i text =>
      (Prog.perform (ReplyOp.send i text) : Reply (ReplyOp.Res BasicOp.Res (.send i text)))

instance : MonadLift (Prog MsgOp.Res) (Prog (ReplyOp.Res MsgOp.Res)) := ⟨Query.ofMsg⟩

instance : MonadLift (Prog BasicOp.Res) (Prog (ReplyOp.Res BasicOp.Res)) := ⟨Reply.ofBasic⟩

instance : MonadLift (Prog (ReplyOp.Res MsgOp.Res)) (Prog (ReplyOp.Res BasicOp.Res)) :=
  ⟨Reply.ofQuery⟩

/-- The function a query stands for: `CONNECTED` at its end. -/
def Query.toMsg : Query Unit → Msg Bool
  | .done _ => .done connected
  | .call (.base m) next => .call m fun r => Query.toMsg (next r)
  | .call (.send i text) next => do
      if ← connWriteStr i text then Query.toMsg (next ()) else return disconnected

/-- The function a reply stands for. -/
def Reply.toBasic : Reply Unit → Basic Bool
  | .done _ => .done connected
  | .call (.base b) next => .call b fun r => Reply.toBasic (next r)
  | .call (.send i text) next => do
      if ← connWriteStr i text then Reply.toBasic (next ()) else return disconnected

/-- `if (!IRC_WriteStrClientPrefix(...)) return DISCONNECTED`. -/
def replyPrefix (client pfx : ClientRef) (text : Str) : Query Unit := do
  let (i, line) ← lineFor client pfx text
  Prog.perform (ReplyOp.send i line)

/-- `if (!IRC_WriteStrClient(...)) return DISCONNECTED`. -/
def reply (client : ClientRef) (text : Str) : Query Unit := do
  replyPrefix client (← thisServer) text

/-- `if (!IRC_WriteErrClient(...)) return DISCONNECTED`. -/
def replyErr (client : ClientRef) (text : Str) : Query Unit := do
  ircSetPenalty client 2
  replyPrefix client (← thisServer) text

/-! ## Channels -/

namespace World

/-- What the marking loops do with one member: the connection of its next hop
and the mark, or nothing when the member is passed over.  Without `remote` only
local users are served; `except` is the client the text came from. -/
def markOf (w : World) (except : ClientRef) (remote : Bool) (member : ClientRef) :
    Except DataFault (Option (ConnId × Mark)) :=
  match w.heap member with
  | none => .error (.freedClient member)
  | some m =>
    if !remote && (m.connId.isNone || m.type = .server) then .ok none
    else match w.nextHop member with
      | .error f => .error f
      | .ok hop =>
        if hop = except then .ok none
        else match w.heap hop with
          | none => .error (.freedClient hop)
          | some h =>
            match h.connId with
            | none => .error .assertion
            | some i => .ok (some (i, if h.type = .server then .toServer else .toUser))

/-- The members of a channel, in the order of `My_Cl2Chan`. -/
def membersOf (w : World) (ch : ChanRef) : List ClientRef :=
  (w.chans.cl2chan.filter fun e => e.channel = ch).map (·.client)

/-- The channels of a client, in the order of `My_Cl2Chan`. -/
def channelsOf (w : World) (cl : ClientRef) : List ChanRef :=
  (w.chans.cl2chan.filter fun e => e.client = cl).map (·.channel)

end World

/-- Mark the next hop of one member. -/
def markMember (except : ClientRef) (remote : Bool) (member : ClientRef) : Msg Unit := do
  match ← orFault ((← getWorld).markOf except remote member) with
  | some (i, m) => connSetFlag i m
  | none => pure ()

/-- The body of the loop of `Send_Marked_Connections`. -/
def sendMarked (pfx : ClientRef) (buffer : Str) (i : ConnId) : Msg Unit := do
  let c := (← getWorld).conns i
  if c.sock.isNone then return ()
  match c.flag with
  | some .toServer => let _ ← connWriteStr i (format ":%s %s" [← clientID pfx, buffer])
  | some .toUser => let _ ← connWriteStr i (format ":%s %s" [← clientMaskCloaked pfx, buffer])
  | none => return ()

/-- `Send_Marked_Connections`. -/
def sendMarkedConnections (pfx : ClientRef) (buffer : Str) : Msg Unit := do
  Prog.forEach (sendMarked pfx buffer) (List.range (← getWorld).poolSize)

/-- `IRC_WriteStrChannelPrefix`. -/
def ircWriteStrChannelPrefix (client : ClientRef) (chan : ChanRef) (pfx : ClientRef)
    (remote : Bool) (text : Str) : Msg Unit := do
  connClearFlags
  Prog.forEach (markMember client remote) ((← getWorld).membersOf chan)
  sendMarkedConnections pfx (text.take 999)

/-- `IRC_WriteStrRelatedPrefix`: everybody who shares a channel with a client. -/
def ircWriteStrRelatedPrefix (client pfx : ClientRef) (remote : Bool)
    (text : Str) : Msg Unit := do
  connClearFlags
  let w ← getWorld
  Prog.forEach (markMember client remote) ((w.channelsOf client).flatMap w.membersOf)
  sendMarkedConnections pfx (text.take 999)

/-- `IRC_SendWallops`. -/
def ircSendWallops (client source : ClientRef) (msg : Str) : Msg Unit :=
  forAllClients fun r => do
    let c ← deref r
    if c.connId.isNone then return ()
    let text := format "WALLOPS :%s" [msg.take 999]
    if (c.type = .user ∧ c.hasMode 'w') ∨ (c.type = .server ∧ r ≠ client) then
      let _ ← ircWriteStrClientPrefix r source text

/-! ## Log messages that reach users -/

/-- `Log_ServerNotice`. -/
def logServerNotice (userMode : Char) (msg : Str) : Msg Unit :=
  forAllClients fun r => do
    let c ← deref r
    if c.connId.isSome ∧ c.hasMode userMode then
      let _ ← ircWriteStrClient r (format "NOTICE %s :%s%s" [← clientID r, "", msg.take 1023])

namespace World

/-- `Channel_Search`. -/
def channelSearch (w : World) (name : Str) : Option ChanRef :=
  w.chans.order.find? fun ch =>
    match w.chans.heap ch with
    | some c => strcaseEq name c.name
    | none => false

end World

/-- `Channel_LogServer`: the server itself may always write to a channel. -/
def channelLogServer (msg : Str) : Msg Unit := do
  let w ← getWorld
  match w.channelSearch "&SERVER" with
  | none => return ()
  | some ch =>
    let name := ((w.chans.heap ch).map Channel.name).getD []
    ircWriteStrChannelPrefix w.thisServer ch w.thisServer true
      (format "%s %s :%s" ["PRIVMSG", name, msg])

/-- `Log` with the flag `LOG_snotice`.  Other log messages reach no client. -/
def logSnotice (msg : Str) : Msg Unit := do
  let msg := msg.take 1023
  logServerNotice 's' msg
  channelLogServer msg

end Ngircd
