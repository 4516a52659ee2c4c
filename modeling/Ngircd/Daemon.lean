import Ngircd.Parse

/-!
# The daemon

Beside the lines it reads, the daemon reacts to connections that are accepted,
to links it opens itself, to results of the resolver, to timeouts and errors
that close a connection, and to the passing of time, with PINGs for silent clients
and the end of bans that were set for a while.  A run is a sequence of such events
from the state in which the daemon starts.

Socket numbers are the indices of the connection pool.
-/

namespace Ngircd

open Lib

variable {w w' : World} {n : Nat}

/-! ## New connections -/

namespace World

/-- `Client_Init`: there is this server, and nobody else. -/
def start (conf : Conf) (env : Env) (host : Str) : World :=
  let id := strlcpy conf.serverName clientIdLen
  let this : Client :=
    { type := .server, introducer := 0, mytoken := 1, hops := 0, host, id
      user := if conf.cloakUserToNick then strlcpy conf.serverName clientUserLen else []
      info := strlcpy (if conf.cloakUserToNick then id else conf.serverInfo) clientInfoLen }
  { heap := Function.update (fun _ => none) 0 (some this)
    order := [0], nextRef := 1, thisServer := 0, conf, env }

/-- What is known of a client of the first state: it is this server. -/
structure FirstClient (conf : Conf) (r : ClientRef) (c : Client) : Prop where
  ref : r = 0
  type : c.type = .server
  introducer : c.introducer = 0
  connId : c.connId = none
  topserver : c.topserver = none
  mytoken : c.mytoken = 1
  id : c.id = strlcpy conf.serverName clientIdLen

theorem start_cell {conf : Conf} {env : Env} {host : Str} {r : ClientRef} {c : Client}
    (hc : (start conf env host).heap r = some c) : FirstClient conf r c := by
  by_cases hr : r = 0
  · subst hr
    obtain rfl := Option.some.inj hc
    exact ⟨rfl, rfl, rfl, rfl, rfl, rfl, rfl⟩
  · simp [start, hr] at hc

/-- `Socket2Index`: the pool has a slot for this socket. -/
def growPool (w : World) (i : ConnId) : World :=
  { w with
    conns := fun j => if w.poolSize ≤ j ∧ j ≤ i then newConn w.now else w.conns j
    poolSize := max w.poolSize (i + 1) }

/-- A new connection with its client structure, as `New_Connection` and
`New_Server` set them up. -/
def openConn (w : World) (i : ConnId) (c : Client) (conn : Conn) : World :=
  let w := w.growPool i
  let w' := w.addClient { c with starttime := w.now, connId := some i, hops := 0, token := 0 }
  w'.setConn i { conn with sock := some i, client := some w.nextRef }

end World

/-- `Account_Connection`. -/
def accountConnection : Leave Unit :=
  editMisc fun m =>
    { m with
      numConnections := m.numConnections + 1
      numConnectionsMax := max m.numConnectionsMax (m.numConnections + 1) }

/-- `Conn_StartLogin`.  The resolver runs unless the notice could not be sent. -/
def connStartLogin (i : ConnId) : Msg Unit := do
  let conf := (← getWorld).conf
  let ok ←
    if conf.noticeBeforeRegistration then
      connWriteStr i
        (if conf.dns then "NOTICE * :*** Looking up your hostname"
         else "NOTICE * :*** Processing your connection")
    else pure true
  if ok then editConn i { edit := fun c => { c with resolving := true } }

/-- `New_Connection`, once there is a socket and no limit is reached. -/
def newConnection (i : ConnId) (client : ClientRef) : Basic Unit := do
  editMisc fun m => { m with numConnectionsAccepted := m.numConnectionsAccepted + 1 }
  clientSetHostname client ((← getWorld).conns i).host
  accountConnection
  connStartLogin i

/-- `New_Server`, once there is a socket and `connect` is under way. -/
def newServer (k : Nat) (i : ConnId) (client : ClientRef) : Plain Unit := do
  editClient client { edit := fun c => { c with token := tokenOutbound } }
  accountConnection
  let _ ← confSetServer k i

/-- `server_login`, after `connect` has succeeded. -/
def serverLogin (i : ConnId) : Msg Unit := do
  editConn i { edit := fun c => { c with isConnecting := false } }
  let w ← getWorld
  let pwd := ((w.confGetServer i).map ConfServer.pwdOut).getD []
  let _ ← connWriteStr i (format "PASS %s %s" [pwd, w.conf.protoId])
  let _ ← connWriteStr i (format "SERVER %s :%s" [w.conf.serverName, w.conf.serverInfo])

/-- `cb_Read_Resolver_Result` with a host name, which may be empty. -/
def resolverResult (i : ConnId) (host : Str) : Plain Unit := do
  editConn i { edit := fun c => { c with resolving := false } }
  let client ← clientOf i
  if (← clientType client) = .unknown then
    let ok ←
      if host.isEmpty then pure true
      else do
        let host := strlcpy host clientHostLen
        editConn i { edit := fun c => { c with host } }
        clientSetHostname client host
        if (← getWorld).conf.noticeBeforeRegistration then
          connWriteStr i (format "NOTICE * :*** Found your hostname: %s" [host])
        else pure true
    if ok then
      let _ ← classHandleServerBans client

/-! ## Checks of the main loop -/

/-- The types of clients that have registered. -/
def ClientType.registered : ClientType → Bool
  | .user | .service | .server => true
  | _ => false

/-- What a check of a connection comes to. -/
inductive Verdict where
  | fine
  /-- A PING is sent. -/
  | pinged
  /-- The connection is closed: the PING was not answered. -/
  | pingTimeout
  /-- The connection is closed: the client has not registered. -/
  | timeout
  deriving DecidableEq, Repr

/-- The client of a connection has registered. -/
def World.hasRegistered (w : World) (i : ConnId) : Bool :=
  ((w.conns i).client.bind w.heap).any (·.type.registered)

/-- `Conn_Check_Connection_Status` with `Conn_Check_Connection_Timeout` for clients that have
registered and `Conn_Check_Server_Timeout` for others. -/
def World.checkConnectionStatus (w : World) (i : ConnId) : Verdict :=
  let conn := w.conns i
  if w.hasRegistered i then
    if conn.lastping > conn.lastdata then
      if (conn.lastping : Int) < w.now - w.conf.pongTimeout then .pingTimeout else .fine
    else if (conn.lastdata : Int) < w.now - w.conf.pingTimeout then .pinged else .fine
  else if (conn.lastdata : Int) < w.now - w.conf.pongTimeout then .timeout else .fine

/-- The PING of `Conn_Check_Connection_Timeout`. -/
def sendPing (i : ConnId) : Msg Unit := do
  let _ ← connWriteStr i (format "PING :%s" [← clientID (← thisServer)])

/-- `Lists_Expire` for the list of a class. -/
def listsExpire (cls : LineClass) : Basic Unit := do
  let w ← getWorld
  let expired (e : ListElem) : Bool := 0 < e.validUntil ∧ e.validUntil < w.now
  Prog.forEach (fun e => do
      logSnotice (format "Deleted \"%s\" (\"%s\") from %s-Line list (expired)."
        [e.mask, e.reason, cls.letter])
      editMisc fun m => cls.put ((cls.list m).erase e) m)
    ((cls.list w.misc).filter expired)

/-- `Class_Expire`. -/
def classExpire : Basic Unit := do
  listsExpire .gline
  listsExpire .kline

/-! ## Events -/

/-- What the main loop reacts to. -/
inductive Event where
  /-- A connection is accepted from an address. -/
  | accept (i : ConnId) (ip : Str)
  /-- The resolver of a connection is done. -/
  | resolved (i : ConnId) (host : Str)
  /-- A link to the configured server `k` is opened, to an address. -/
  | connect (k : Nat) (i : ConnId) (ip : Str)
  /-- The link is established. -/
  | linked (i : ConnId)
  /-- A line is at the front of a read buffer, with bytes that follow it. -/
  | line (i : ConnId) (text after : Str)
  /-- A connection is closed: a timeout, a read error, the end of its data. -/
  | close (i : ConnId) (logMsg fwdMsg : Option Str) (informClient : Bool)
  /-- A client that has been silent is sent a PING. -/
  | ping (i : ConnId)
  /-- G-Lines and K-Lines expire. -/
  | expire
  | clock (now : Nat)
  deriving DecidableEq, Repr

namespace Event

/-- When an event can happen. -/
def Enabled (w : World) : Event → Prop
  | accept i _ => (w.conns i).sock = none
  | connect k i _ =>
    (w.conns i).sock = none ∧ (w.conf.servers[k]?.map ConfServer.connId) = some none
  | resolved i _ => (w.conns i).sock ≠ none ∧ (w.conns i).resolving = true
  | linked i => (w.conns i).sock ≠ none ∧ (w.conns i).isConnecting = true
  | line i _ _ => (w.conns i).sock ≠ none
  | close i _ _ _ => (w.conns i).sock ≠ none
  | ping i => (w.conns i).sock ≠ none ∧ w.checkConnectionStatus i = .pinged
  | expire => True
  | clock now => w.now ≤ now

/-- The state in which the program for an event starts: a new connection has
its slot and its client, the time of a PING is noted (`Conn_UpdatePing`), and the clock shows
the new time. -/
def prepare (w : World) : Event → World
  | accept i ip =>
    w.openConn i { introducer := w.thisServer } { newConn w.now with host := ip, addr := ip }
  | connect k i ip =>
    let host := ((w.conf.servers[k]?).map ConfServer.host).getD []
    w.openConn i
      { introducer := w.nextRef, type := .unknownServer, host := w.conf.hostname [] ip }
      { newConn w.now with host, addr := ip, isConnecting := true }
  | ping i => w.setConn i { w.conns i with lastping := w.now }
  | clock now => { w with now }
  | _ => w

/-- What the daemon does about an event. -/
def program (w : World) : Event → Full Unit
  | accept i _ => newConnection i w.nextRef
  | resolved i host => resolverResult i host
  | connect k i _ => newServer k i w.nextRef
  | linked i => serverLogin i
  | line i text after => do
      let _ ← parseRequest i text after
  | close i l f inf => callClose i l f inf
  | ping i => sendPing i
  | expire => classExpire
  | clock _ => pure ()

/-- Handle an event; `n` bounds how deep closes nest. -/
def handle (n : Nat) (e : Event) : M Unit := fun w => exec n (e.program w) (e.prepare w)

/-- Events one after the other. -/
def handleAll (n : Nat) : List Event → M Unit
  | [] => pure ()
  | e :: es => do
      handle n e
      handleAll n es

end Event

/-- One event: with closes nested deep enough, its handling ends in `w'`. -/
def Step (w : World) (e : Event) (w' : World) : Prop :=
  e.Enabled w ∧ ∃ n, e.handle n w = .ok ((), w')

/-- The states of the daemon: those that events lead to from a start. -/
inductive Reachable : World → Prop where
  | start (conf : Conf) (env : Env) (host : Str) : Reachable (World.start conf env host)
  | step {w w' : World} {e : Event} : Reachable w → Step w e w' → Reachable w'

/-! ## Runs that can be computed -/

namespace Event

instance (w : World) : (e : Event) → Decidable (e.Enabled w)
  | accept i _ => inferInstanceAs (Decidable ((w.conns i).sock = none))
  | connect k i _ => inferInstanceAs (Decidable ((w.conns i).sock = none ∧
      (w.conf.servers[k]?.map ConfServer.connId) = some none))
  | resolved i _ =>
    inferInstanceAs (Decidable ((w.conns i).sock ≠ none ∧ (w.conns i).resolving = true))
  | linked i =>
    inferInstanceAs (Decidable ((w.conns i).sock ≠ none ∧ (w.conns i).isConnecting = true))
  | line i _ _ => inferInstanceAs (Decidable ((w.conns i).sock ≠ none))
  | close i _ _ _ => inferInstanceAs (Decidable ((w.conns i).sock ≠ none))
  | ping i => inferInstanceAs (Decidable ((w.conns i).sock ≠ none ∧
      w.checkConnectionStatus i = .pinged))
  | expire => inferInstanceAs (Decidable True)
  | clock now => inferInstanceAs (Decidable (w.now ≤ now))

/-- Events one after the other, as long as each is enabled and its handling ends. -/
def runAll (n : Nat) : List Event → World → Option World
  | [], w => some w
  | e :: es, w =>
    if e.Enabled w then
      match e.handle n w with
      | .ok ((), w') => runAll n es w'
      | .error _ => none
    else none

end Event

theorem Event.runAll_cons {e : Event} {es : List Event}
    (hrun : Event.runAll n (e :: es) w = some w') :
    ∃ w₁, Step w e w₁ ∧ Event.runAll n es w₁ = some w' := by
  simp only [Event.runAll] at hrun
  split_ifs at hrun with henabled
  cases hhandle : e.handle n w with
  | error f => simp [hhandle] at hrun
  | ok a =>
    obtain ⟨u, w₁⟩ := a
    simp only [hhandle] at hrun
    exact ⟨w₁, ⟨henabled, n, hhandle⟩, hrun⟩

theorem Event.step_of_runAll {e : Event}
    (hrun : Event.runAll n [e] w = some w') : Step w e w' := by
  obtain ⟨w₁, hstep, hnil⟩ := Event.runAll_cons hrun
  obtain rfl : w₁ = w' := Option.some.inj hnil
  exact hstep

theorem Reachable.runAll (h : Reachable w) {es : List Event}
    (hrun : Event.runAll n es w = some w') : Reachable w' := by
  induction es generalizing w with
  | nil =>
    obtain rfl : w = w' := Option.some.inj hrun
    exact h
  | cons e es ih =>
    obtain ⟨w₁, hstep, hrest⟩ := Event.runAll_cons hrun
    exact ih (h.step hstep) hrest

/-- What a computed run shows about the state it ends in. -/
theorem Reachable.exists_runAll (n : Nat) (es : List Event) (conf : Conf) (env : Env) (host : Str)
    {P : World → Prop} (hrun : ∃ w ∈ Event.runAll n es (World.start conf env host), P w) :
    ∃ w, Reachable w ∧ P w := by
  obtain ⟨w, hw, hP⟩ := hrun
  exact ⟨w, (Reachable.start conf env host).runAll hw, hP⟩

/-- The fault with which a run ends. -/
def faultOf {α : Type} : Except Fault (α × World) → Option Fault
  | .ok _ => none
  | .error f => some f

theorem faultOf_eq_some {α : Type} {f : Fault} {result : Except Fault (α × World)} :
    faultOf result = some f ↔ result = .error f := by
  cases result <;> simp [faultOf]

instance {α : Type} (result : Except Fault (α × World)) (f : Fault) :
    Decidable (result = .error f) :=
  decidable_of_iff _ faultOf_eq_some

end Ngircd
