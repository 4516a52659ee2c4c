import Ngircd.Oper

/-!
# From the read buffer to the handlers

`parse.c`, and `Conn_Process_Buffer` of `conn.c`: lines are cut off the read
buffer of a connection, taken apart and given to the handler of their command.
-/

namespace Ngircd

open Lib

/-! ## Taking a line apart -/

/-- The terminator of a C string, where it stands in a buffer. -/
def nul : Char := '\x00'

/-- The parameters of a request, at most `n` of them, and what stands in the
buffer behind the last one; `after` is what follows the line. -/
def splitParams (after : Str) : Nat → Str → List Str × Str
  | 0, start => ([], start)
  | _ + 1, ':' :: text => ([text], after)
  | n + 1, start =>
    match cutAt ' ' start with
    | (arg, none) => ([arg], after)
    | (arg, some rest) =>
      if n = 0 then ([arg], rest)
      else
        let (args, beyond) := splitParams after n (rest.dropWhile (· == ' '))
        (arg :: args, beyond)

/-- Command and parameters. -/
def splitCommand (pfx : Option Str) (start after : Str) : Request :=
  match cutAt ' ' start with
  | (command, none) => { pfx, command, argv := [] }
  | (command, some rest) =>
    let (argv, beyond) := splitParams after 15 (rest.dropWhile (· == ' '))
    { pfx, command, argv, beyond }

/-- The request a line stands for; `none` is a prefix without a command. -/
def splitRequest (line after : Str) : Option Request :=
  match line with
  | ':' :: _ =>
    match cutAt ' ' line with
    | (_, none) => none
    | (pfx, some rest) =>
      some (splitCommand (some pfx.tail) (rest.dropWhile (· == ' ')) after)
  | _ => some (splitCommand none line after)

/-- What stands behind a line once `ngt_TrimStr` has moved it to the front of
its buffer. -/
def trimmedRest (line after : Str) : Str :=
  let blank : Char → Bool := fun c => c == ' ' || c == '\t' || c == '\n' || c == '\r'
  let lead := line.takeWhile blank
  let core := trimStr line
  let trail := line.drop (lead.length + core.length)
  let buffer := lead ++ core ++ nul :: (trail ++ nul :: after).tail
  (buffer.drop (core.length + 1)).takeWhile (· != nul)

/-- `ScrubCTCP`: CTCP commands other than ACTION are dropped. -/
def scrubCTCP (line : Str) : Bool :=
  let start := if line.head? = some ':' then line.tail else line
  match start.dropWhile (· != ':') with
  | _ :: c :: rest => c.toNat == 1 && rest.take 7 != ("ACTION " : Str)
  | _ => false

/-! ## Handlers -/

/-- The function of an entry of the command table. -/
def callHandler (client : ClientRef) (req : Request) : Handler → Full Bool
  | .admin => (ircAdmin client req).toMsg
  | .away => ircAway client req
  | .cap => ircCap client req
  | .connect => (ircConnect client req).toBasic
  | .die => (ircDie client req).toBasic
  | .disconnect => ircDisconnect client req
  | .error => ircError client req
  | .xLine => ircXline client req
  | .help => (ircHelp client req).toMsg
  | .info => (ircInfo client req).toMsg
  | .invite => (ircInvite client req).toBasic
  | .ison => (ircIson client req).toMsg
  | .join => ircJoin client req
  | .kick => (ircKick client req).toBasic
  | .kill => ircKill client req
  | .links => (ircLinks client req).toMsg
  | .list => (ircList client req).toMsg
  | .lusers => (ircLusers client req).toMsg
  | .metadata => (ircMetadata client req).toBasic
  | .mode => ircMode client req
  | .motd => (ircMotd client req).toMsg
  | .names => (ircNames client req).toMsg
  | .nick => ircNick client req
  | .njoin => ircNjoin client req
  | .notice => ircNotice client req
  | .oper => (ircOper client req).toBasic
  | .part => ircPart client req
  | .pass => ircPass client req
  | .ping => (ircPing client req).toMsg
  | .pong => ircPong client req
  | .privmsg => ircPrivmsg client req
  | .quit => ircQuit client req
  | .rehash => (ircRehash client req).toBasic
  | .restart => (ircRestart client req).toBasic
  | .server => ircServer client req
  | .service => ircService client req
  | .servlist => (ircServlist client req).toMsg
  | .squery => ircSquery client req
  | .squit => ircSquit client req
  | .stats => (ircStats client req).toMsg
  | .svsnick => ircSvsnick client req
  | .summon => (ircSummon client).toMsg
  | .time => (ircTime client req).toMsg
  | .topic => ircTopic client req
  | .trace => (ircTrace client req).toMsg
  | .user => ircUser client req
  | .userhost => (ircUserhost client req).toMsg
  | .users => (ircUsers client).toMsg
  | .version => (ircVersion client req).toMsg
  | .wallops => (ircWallops client req).toMsg
  | .webirc => ircWebirc client req
  | .who => (ircWho client req).toMsg
  | .whois => (ircWhois client req).toMsg
  | .whowas => (ircWhowas client req).toMsg
  | .chaninfo => ircChaninfo client req
  | .quitHttp => ircQuitHttp client req

/-- The client of a connection; `assert(client != NULL)`. -/
def clientOf (i : ConnId) : Msg ClientRef := do
  match ((← getWorld).conns i).client with
  | some r => pure r
  | none => dataFault .assertion

/-- `Validate_Prefix` where the prefix names nobody; the result of `Parse_Request`. -/
def unknownPrefix (i : ConnId) (client : ClientRef) (type : ClientType) (p : Str) : Msg Bool := do
  if type = .server then return true
  else
    let ok ← connWriteStr i (format "ERROR :Invalid prefix \"%s\"" [p])
    ircSetPenalty client 2
    return ok

/-- `Validate_Prefix` where the prefix names a client of another connection. -/
def spoofedPrefix (i : ConnId) (type : ClientType) : Plain Bool := do
  if type = .server then return true
  else
    callClose i none (some "Spoofed prefix") true
    return false

/-- `Validate_Prefix`: the request to be handled, or the result with which
`Parse_Request` returns without handling one. -/
def validatePrefix (i : ConnId) (req : Request) : Plain (Except Bool Request) := do
  let client ← clientOf i
  let c ← deref client
  let w ← getWorld
  match req.pfx with
  | none =>
    if c.type = .server ∧ !(w.conns i).rfc1459 ∧ !strcaseEq req.command "ERROR" ∧
        !strcaseEq req.command "PING" then
      return .error (← connWriteStr i "ERROR :Prefix missing")
    else return .ok req
  | some p =>
    match c.type with
    | .user | .server | .service =>
      match w.clientSearch p with
      | none => return .error (← unknownPrefix i client c.type p)
      | some origin =>
        if (← clientNextHop origin) = client then return .ok req
        else return .error (← spoofedPrefix i c.type)
    | _ => return .ok { req with pfx := none }

/-- The text with which a status code is forwarded. -/
def numericLine (command : Str) : List Str → Str
  | [] => command
  | [arg] => strlcat (strlcat command " :" commandLen) arg commandLen
  | arg :: rest => numericLine (strlcat (strlcat command " " commandLen) arg commandLen) rest

/-- `Handle_Numeric`. -/
def handleNumeric (client : ClientRef) (req : Request) : Full Bool := do
  let w ← getWorld
  let target := req.argv.head?.bind fun name =>
    if name = "*" then some w.thisServer else w.clientSearch name
  match target with
  | none => return true
  | some target =>
    if target = w.thisServer then
      match atoi req.command with
      | 5 => ircNumIsupport client req
      | 376 => ircNumEndofmotd client
      | _ => return connected
    else
      match req.pfx.bind w.clientSearch with
      | none => return true
      | some pfx =>
        ircWriteStrClientPrefix target pfx (numericLine (strlcpy req.command commandLen) req.argv)

/-- The counters of a command after its handler; `before` is the number of
lines that had been sent when it was called. -/
def countCommand (cmd : Command) (byServer : Bool) (before : Nat) : Basic Unit := do
  let bytes := (((← getWorld).sent.drop before).map fun l => l.2.length + 2).sum
  editMisc fun m =>
    let (lcount, b, rcount) := m.cmdCounts cmd.name
    let counts :=
      if byServer then (lcount, b + bytes, rcount + 1) else (lcount + 1, b + bytes, rcount)
    { m with cmdCounts := Function.update m.cmdCounts cmd.name counts }

/-- `Handle_Request` for a command of the table. -/
def handleCommand (client : ClientRef) (type : ClientType) (cmd : Command) (req : Request) :
    Full Bool := do
  if !cmd.mask.allows type then
    let msg :=
      if type = .user ∧ cmd.mask.allows .server then errNotregisteredserverMsg
      else errNotregisteredMsg
    ircWriteErrClient client (format msg [← clientID client])
  else
    if cmd.penalty ≠ 0 then ircSetPenalty client cmd.penalty
    if req.argc < cmd.minArgc ∨ cmd.maxArgc.any (· < req.argc) then
      needMoreParams client req
    else
      let before := (← getWorld).sent.length
      let result ← callHandler client req cmd.handler
      countCommand cmd (type == .server) before
      return result

/-- `Handle_Request`. -/
def handleRequest (i : ConnId) (req : Request) : Full Bool := do
  let client ← clientOf i
  let type ← clientType client
  if (type = .server ∨ type = .unknownServer) ∧ req.command.length = 3 ∧
      atoi req.command > 1 then
    handleNumeric client req
  else
    match findCommand req.command with
    | some cmd => handleCommand client type cmd req
    | none =>
      if type = .server then return connected
      else ircWriteErrClient client (format errUnknowncommandMsg [← clientID client, req.command])

/-- `Parse_Request` on a line and what follows it in the read buffer. -/
def parseRequest (i : ConnId) (line after : Str) : Full Bool := do
  let text := trimStr line
  if text.isEmpty then return true
  if (← getWorld).conf.scrubCTCP && scrubCTCP text then return true
  match splitRequest text (trimmedRest line after) with
  | none => connWriteStr i "ERROR :Prefix without command"
  | some req =>
    match ← validatePrefix i req with
    | .error result => return result
    | .ok req => handleRequest i req

/-! ## The read buffer -/

/-- A line at the front of a read buffer: its text, the length of its end mark
and what follows the byte that is replaced by a terminator. -/
structure BufferLine where
  text : Str
  delta : Nat
  after : Str
  deriving DecidableEq, Repr

/-- The length of a line with its end mark. -/
def BufferLine.len (line : BufferLine) : Nat := line.text.length + line.delta

/-- The first line of a read buffer, ended by CR and LF or one of them alone. -/
def nextLine (rbuf : Str) : Option BufferLine :=
  let text := rbuf.takeWhile fun c => !(c == nul || c == '\r' || c == '\n')
  match rbuf.drop text.length with
  | '\r' :: '\n' :: rest => some { text, delta := 2, after := '\n' :: rest }
  | '\r' :: rest | '\n' :: rest => some { text, delta := 1, after := rest }
  | _ => none

/-- `MAX_COMMANDS`, `MAX_COMMANDS_SERVER_MIN`, `MAX_COMMANDS_SERVICE`. -/
def maxCommands : Nat := 3

@[inherit_doc maxCommands] def maxCommandsServerMin : Nat := 10

@[inherit_doc maxCommands] def maxCommandsService : Nat := 10

/-- How many commands of a client are handled at once. -/
def commandLimit (w : World) (i : ConnId) (c : Client) : Nat :=
  match c.type with
  | .server =>
    let n := w.countType .user / 5 + maxCommandsServerMin
    if (w.conns i).lastping = 0 then n * 5 else n
  | .service => maxCommandsService
  | .user => if c.hasMode 'F' then maxCommandsService else maxCommands
  | _ => maxCommands

/-- `Throttle_Connection`. -/
def throttleConnection (i : ConnId) (client : ClientRef) : Msg Unit := do
  let c ← deref client
  match c.type with
  | .server | .unknownServer | .service => return ()
  | _ => if !c.hasMode 'F' then connSetPenalty i 1

/-- Remove bytes from the front of a read buffer. -/
def World.dropRead (w : World) (i : ConnId) (len : Nat) : World :=
  w.setConn i { w.conns i with rbuf := (w.conns i).rbuf.drop len }

/-- Count a line and overwrite its end mark by a terminator. -/
def World.cutRead (w : World) (i : ConnId) (line : BufferLine) : World :=
  w.setConn i { w.conns i with
    msgIn := (w.conns i).msgIn + 1, rbuf := line.text ++ nul :: line.after }

/-- What the loop of `Conn_Process_Buffer` has done: the lines it has handed to
`Parse_Request`, whether it has found a request that is too long, and the number
of bytes it has processed, `none` where the function returns zero at once. -/
structure Handled where
  lines : List Str := []
  tooLong : Bool := false
  processed : Option Nat
  deriving DecidableEq, Repr

/-- The loop of `Conn_Process_Buffer`; `n` bounds how deep closes nest. -/
def processLines (n : Nat) (i : ConnId) (starttime : Nat) : Nat → Nat → M Handled
  | 0, processed => pure { processed := some processed }
  | k + 1, processed => fun w =>
    let conn := w.conns i
    if conn.delaytime > starttime then .ok ({ processed := none }, w)
    else match nextLine conn.rbuf with
      | none => .ok ({ processed := some processed }, w)
      | some line =>
        if line.len > commandLen - 1 then
          (do
            closer n i none (some "Request too long") true
            pure { tooLong := true, processed := none } : M Handled) w
        else if line.text.isEmpty then
          (do
            update fun w => w.dropRead i line.len
            processLines n i starttime k (processed + line.len) : M Handled) w
        else
          (do
            update fun w => w.cutRead i line
            if ← exec n (parseRequest i line.text line.after) then
              update fun w => w.dropRead i line.len
              let h ← processLines n i starttime k (processed + line.len)
              pure { h with lines := line.text :: h.lines }
            else pure { lines := [line.text], processed := none } : M Handled) w

/-- `Conn_Process_Buffer`, with the trace of its loop. -/
def connProcessBuffer (n : Nat) (i : ConnId) : M (Handled × Nat) := fun w =>
  match (w.conns i).client with
  | none => .error (.data .assertion)
  | some client =>
    match w.heap client with
    | none => .error (.data (.freedClient client))
    | some c =>
      (do
        let h ← processLines n i w.now (commandLimit w i c) 0
        match h.processed with
        | none => pure (h, 0)
        | some processed =>
          let w ← (fun w => .ok (w, w) : M World)
          if processed ≠ 0 ∧ (w.conns i).rbuf.length > 2 then
            exec n (throttleConnection i client)
          pure (h, processed) : M (Handled × Nat)) w

end Ngircd
