import Ngircd.Channel

/-!
# Destroying clients and closing connections

`Client_Destroy` and `Conn_Close`.  Destroying a client tells other clients
about it; such a message can fail, which closes a further connection and
destroys its client while the first one is still being destroyed.
-/

namespace Ngircd

open Lib

/-! ## Clients -/

/-- `MAX_WHOWAS`. -/
def maxWhowas : Nat := 64

/-- `Client_RegisterWhowas`. -/
def clientRegisterWhowas (client : ClientRef) : Leave Unit := do
  let w ← getWorld
  if w.conf.morePrivacy then return ()
  let c ← deref client
  if w.now - c.starttime < 30 then return ()
  let entry : Whowas :=
    { time := w.now
      id := strlcpy (← clientID client) clientNickLen
      user := strlcpy c.userOrTilde clientUserLen
      host := strlcpy (← clientHostnameDisplayed client) clientHostLen
      info := strlcpy c.info clientInfoLen
      server := strlcpy (← clientID c.introducer) clientHostLen }
  let next := (w.misc.lastWhowas.map (· + 1)).getD 0
  let slot := if next ≥ maxWhowas then 0 else next
  editMisc fun m =>
    { m with whowas := Function.update m.whowas slot entry, lastWhowas := some slot }

/-- `Destroy_UserOrService`. -/
def destroyUserOrService (client : ClientRef) (txt : Str) (fwdMsg : Option Str)
    (sendQuit : Bool) : Leave Unit := do
  let c ← deref client
  let quit := format "QUIT :%s" [fwdMsg.getD []]
  if c.connId.isSome then
    logServerNotice 'c' (format "Client exiting: %s (%s@%s) [%s]"
      [← clientID client, c.userOrTilde, c.host, txt])
    if sendQuit then ircWriteStrServersPrefix none client quit
  else
    if sendQuit then
      ircWriteStrServersPrefix (some (← clientNextHop client)) client quit
  channelQuit client (fwdMsg.getD (← deref client).id)
  clientRegisterWhowas client

/-- The notice and the SQUIT of `Client_Destroy` for a server. -/
def announceServerGone (client : ClientRef) (txt : Str) (fwdMsg : Option Str) : Msg Unit := do
  let c ← deref client
  if client ≠ (← thisServer) then
    match c.connId with
    | some i =>
      logSnotice (format "Server \"%s\" unregistered (connection %d): %s." [c.id, natStr i, txt])
    | none => logSnotice (format "Server \"%s\" unregistered: %s." [c.id, txt])
  let w ← getWorld
  if !w.misc.signalQuit then
    let c ← deref client
    ircWriteStrServersPrefix (some (← clientNextHop client)) client
      (format "SQUIT %s :%s" [c.id, fwdMsg.getD []])

namespace World

/-- Where the walk of `Client_Destroy` stops next: at a client introduced by
the server that is to go, or at that client itself. -/
def destroyStop (w : World) (client : ClientRef) (isServer : Bool) : Option ClientRef :=
  w.order.find? fun r =>
    r == client ||
      (isServer && match w.heap r with
        | some c => c.introducer == client
        | none => false)

end World

/-- `Client_Destroy`.  The clients behind a server go first; after each of them
the walk starts again at the front of the list.  The bound is the one of that
recursion. -/
def clientDestroy : Nat → ClientRef → Option Str → Option Str → Bool → Shut Unit
  | 0, _, _, _, _ => (dataFault .endless : Leave Unit)
  | n + 1, client, logMsg, fwdMsg, sendQuit => do
      let w ← getWorld
      let c ← deref client
      let txt := (logMsg <|> fwdMsg).getD "Reason unknown"
      match w.destroyStop client (c.type == .server) with
      | none => return ()
      | some r =>
        if r ≠ client then do
          -- The netsplit message: this server and the one that is lost.
          let this ← deref w.thisServer
          let split := strlcat (strlcat (strlcpy this.id commandLen) " " commandLen) c.id commandLen
          clientDestroy n r none (some split) false
          clientDestroy n client logMsg fwdMsg sendQuit
        else do
          unlinkClient client
          match c.type with
          | .user | .service => destroyUserOrService client txt fwdMsg sendQuit
          | .server => announceServerGone client txt fwdMsg
          | _ => pure ()
          freeClient client

/-- A bound for `Client_Destroy`: every call of it on the stack is for another
client, and every new start of its walk follows the removal of one. -/
def World.destroyBound (w : World) : Nat := 2 * w.order.length + 1

/-! ## Connections -/

/-- A number of bytes in kilobytes, as `%.1f` prints it. -/
def kilobytes (bytes : Nat) : Str :=
  let tenths := bytes * 10 / 1024
  let rest := bytes * 10 % 1024
  let tenths := if 512 < rest ∨ (rest = 512 ∧ tenths % 2 = 1) then tenths + 1 else tenths
  natStr (tenths / 10) ++ "." ++ natStr (tenths % 10)

/-- The messages of `Conn_Close` to the client of the connection. -/
def informClosing (i : ConnId) (fwdMsg : Option Str) : Msg Unit := do
  let w ← getWorld
  match (w.conns i).client with
  | none => let _ ← connWriteStr i "ERROR :Closing connection"
  | some cl => do
      let c ← deref cl
      if c.type = .user then
        let _ ← connWriteStr i (format
          ":%s NOTICE %s :%sConnection statistics: client %s kb, server %s kb."
          [← clientID w.thisServer, ← clientID cl, "", kilobytes (w.conns i).bytesIn,
            kilobytes (w.conns i).bytesOut])
      let _ ← connWriteStr i (format "ERROR :Closing connection: %s[%s@%s] (%s)"
        [← clientID cl, c.userOrTilde, c.host, fwdMsg.getD "\"\""])

/-- `Conf_UnsetServer`. -/
def confUnsetServer (i : ConnId) : Leave Unit :=
  editServers fun l => l.map fun s =>
    if s.connId = some i then
      if s.once then {} else { s with connId := none }
    else s

/-- `Conn_Close` after its messages to the client: the socket is closed, the
client destroyed and the slot cleared. -/
def shutDown (i : ConnId) (logMsg fwdMsg : Option Str) : Shut Unit := do
  let w ← getWorld
  closeSocket i
  match (w.conns i).client with
  | some cl => clientDestroy w.destroyBound cl logMsg fwdMsg true
  | none => pure ()
  confUnsetServer i
  initConnStruct i w.now
  editMisc fun m => { m with numConnections := m.numConnections - 1 }

/-- `Conn_Close`.  The flush of the write buffer in it changes nothing that is
modelled: where it fails, the connection is already marked as closing. -/
def connClose (i : ConnId) (logMsg fwdMsg : Option Str) (informClient : Bool) : Shut Unit := do
  let w ← getWorld
  if (w.conns i).isClosing then return ()
  startClosing i
  if informClient then informClosing i fwdMsg
  shutDown i logMsg fwdMsg

/-- Run a shut program. -/
def execShut {α : Type} (close : Closer) (p : Shut α) : M α := p.run (stepShut close)

/-- Closing a connection.  Each connection that is closed while another one is
being closed uses one unit of the bound. -/
def closer : Nat → Closer
  | 0 => fun _ _ _ _ _ => .error .outOfFuel
  | n + 1 => fun i l f inf => execShut (closer n) (connClose i l f inf)

/-- Run a message program. -/
def execMsg {α : Type} (n : Nat) (p : Msg α) : M α := p.run (stepMsg (closer n))

/-- Run a basic program. -/
def execBasic {α : Type} (n : Nat) (p : Basic α) : M α := p.run (stepBasic (closer n))

/-- Run a plain program. -/
def execPlain {α : Type} (n : Nat) (p : Plain α) : M α := p.run (stepPlain (closer n))

/-- Run a full program. -/
def exec {α : Type} (n : Nat) (p : Full α) : M α := p.run (stepFull (closer n))

end Ngircd
