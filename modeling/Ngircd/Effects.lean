import Ngircd.World

/-!
# What the code can do to the state

The functions of the daemon are programs over a few signatures of operations,
so that the type of a function tells what it cannot do.

* A *message* program reads the state, writes lines, changes the bookkeeping of
  connections (marks, penalties, counters) and computes cloaked host names.
* A *leave* program may also take members out of channels, delete channels and
  change what is kept beside clients and channels.
* A *basic* program may also change channels, add members and change the
  descriptive fields of clients.  It has no means of changing who a connection
  is: the fields `Client.type`, `id`, `connId`, `introducer` and
  `capabilities`, and the socket, client, password and pending AUTH PING of a
  connection are out of its reach.
* A *shut* program is a leave program that may also free client structures and
  clear connections.
* A *plain* program has all these operations, may close connections and create
  structures for remote clients.
* A *full* program may also change who a connection is.

A write can close the connection it is made on.  The interpretation therefore
takes what closing does as an argument of `write`; `closer` ties the knot.
-/

namespace Ngircd

open Lib

/-- A change of the descriptive fields of a client. -/
structure ClientEdit where
  edit : Client → Client
  type_eq : ∀ c, (edit c).type = c.type := by intro; rfl
  id_eq : ∀ c, (edit c).id = c.id := by intro; rfl
  connId_eq : ∀ c, (edit c).connId = c.connId := by intro; rfl
  introducer_eq : ∀ c, (edit c).introducer = c.introducer := by intro; rfl
  topserver_eq : ∀ c, (edit c).topserver = c.topserver := by intro; rfl
  capabilities_eq : ∀ c, (edit c).capabilities = c.capabilities := by intro; rfl

/-- A change of the bookkeeping fields of a connection. -/
structure ConnEdit where
  edit : Conn → Conn
  sock_eq : ∀ c, (edit c).sock = c.sock := by intro; rfl
  client_eq : ∀ c, (edit c).client = c.client := by intro; rfl
  pwd_eq : ∀ c, (edit c).pwd = c.pwd := by intro; rfl
  authPing_eq : ∀ c, (edit c).authPing = c.authPing := by intro; rfl
  isClosing_eq : ∀ c, (edit c).isClosing = c.isClosing := by intro; rfl
  rbuf_eq : ∀ c, (edit c).rbuf = c.rbuf := by intro; rfl
  lastdata_eq : ∀ c, (edit c).lastdata = c.lastdata := by intro; rfl
  lastping_eq : ∀ c, (edit c).lastping = c.lastping ∨ (edit c).lastping = 1 := by
    intro; exact .inl rfl

/-- `Conn_UpdatePing` with the value 1: no PONG is pending. -/
def noPongPending : ConnEdit where
  edit c := { c with lastping := 1 }
  lastping_eq _ := .inr rfl

/-! ## Signatures -/

/-- Operations of message programs. -/
inductive MsgOp where
  | get
  | fault (f : DataFault)
  | write (i : ConnId) (line : Str)
  | editConn (i : ConnId) (e : ConnEdit)
  | cloak (r : ClientRef) (host : Str)

/-- Answers to the message operations. -/
def MsgOp.Res : MsgOp → Type
  | .get => World
  | .fault _ => Empty
  | .write _ _ => Bool
  | _ => Unit

/-- Operations of leave programs. -/
inductive LeaveOp where
  | msg (m : MsgOp)
  | removeMember (ch : ChanRef) (cl : ClientRef)
  | deleteChannel (ch : ChanRef)
  | editMisc (f : Misc → Misc)
  | editServers (f : List ConfServer → List ConfServer)

/-- Answers to the leave operations. -/
def LeaveOp.Res : LeaveOp → Type
  | .msg m => m.Res
  | _ => Unit

/-- Operations of basic programs. -/
inductive BasicOp where
  | leave (l : LeaveOp)
  | editClient (r : ClientRef) (e : ClientEdit)
  | editChannel (ch : ChanRef) (f : Channel → Channel)
  | newChannel (c : Channel)
  | addMember (ch : ChanRef) (cl : ClientRef)
  | setMemberModes (ch : ChanRef) (cl : ClientRef) (f : Str → Str)
  | rand

/-- Answers to the basic operations. -/
def BasicOp.Res : BasicOp → Type
  | .leave l => l.Res
  | .newChannel _ => ChanRef
  | .rand => Int
  | _ => Unit

/-- Operations of shut programs. -/
inductive ShutOp where
  | leave (l : LeaveOp)
  | unlink (r : ClientRef)
  | free (r : ClientRef)
  | startClosing (i : ConnId)
  | closeSocket (i : ConnId)
  | initConn (i : ConnId) (now : Nat)

/-- Answers to the shut operations. -/
def ShutOp.Res : ShutOp → Type
  | .leave l => l.Res
  | _ => Unit

/-- Operations of plain programs. -/
inductive PlainOp where
  | basic (b : BasicOp)
  | shut (s : ShutOp)
  | close (i : ConnId) (logMsg fwdMsg : Option Str) (informClient : Bool)
  | absentParameter (i : Nat)
  | absentSender
  | newRemote (c : Client)

/-- Answers to the plain operations. -/
def PlainOp.Res : PlainOp → Type
  | .basic b => b.Res
  | .shut s => s.Res
  | .absentParameter _ | .absentSender => Empty
  | .newRemote _ => ClientRef
  | .close _ _ _ _ => Unit

/-- Operations of full programs. -/
inductive FullOp where
  | plain (p : PlainOp)
  | setType (r : ClientRef) (t : ClientType)
  | setId (r : ClientRef) (id : Str)
  | setCaps (r : ClientRef) (f : Caps → Caps)
  | ownIntroducer (r : ClientRef)
  | setPwd (i : ConnId) (pwd : Str)
  | setAuthPing (i : ConnId) (token : Int)

/-- Answers to the full operations. -/
def FullOp.Res : FullOp → Type
  | .plain p => p.Res
  | _ => Unit

/-- Programs that only send messages. -/
abbrev Msg (α : Type) := Prog MsgOp.Res α

/-- Programs that may take members out of channels. -/
abbrev Leave (α : Type) := Prog LeaveOp.Res α

/-- Programs that cannot change who a connection is. -/
abbrev Basic (α : Type) := Prog BasicOp.Res α

/-- Programs that remove clients and connections. -/
abbrev Shut (α : Type) := Prog ShutOp.Res α

/-- Programs that remove clients and connections and create remote clients. -/
abbrev Plain (α : Type) := Prog PlainOp.Res α

/-- Programs with every operation. -/
abbrev Full (α : Type) := Prog FullOp.Res α

/-- A message program is a leave program. -/
def Leave.ofMsg {α : Type} (p : Msg α) : Leave α :=
  p.run fun m => (Prog.perform (LeaveOp.msg m) : Leave (LeaveOp.Res (.msg m)))

/-- A leave program is a basic program. -/
def Basic.ofLeave {α : Type} (p : Leave α) : Basic α :=
  p.run fun l => (Prog.perform (BasicOp.leave l) : Basic (BasicOp.Res (.leave l)))

/-- A leave program is a shut program. -/
def Shut.ofLeave {α : Type} (p : Leave α) : Shut α :=
  p.run fun l => (Prog.perform (ShutOp.leave l) : Shut (ShutOp.Res (.leave l)))

/-- A shut program is a plain program. -/
def Plain.ofShut {α : Type} (p : Shut α) : Plain α :=
  p.run fun s => (Prog.perform (PlainOp.shut s) : Plain (PlainOp.Res (.shut s)))

/-- A basic program is a plain program. -/
def Plain.ofBasic {α : Type} (p : Basic α) : Plain α :=
  p.run fun b => (Prog.perform (PlainOp.basic b) : Plain (PlainOp.Res (.basic b)))

/-- A plain program is a full program. -/
def Full.ofPlain {α : Type} (p : Plain α) : Full α :=
  p.run fun op => (Prog.perform (FullOp.plain op) : Full (FullOp.Res (.plain op)))

instance : MonadLift (Prog MsgOp.Res) (Prog LeaveOp.Res) := ⟨Leave.ofMsg⟩

instance : MonadLift (Prog LeaveOp.Res) (Prog BasicOp.Res) := ⟨Basic.ofLeave⟩

instance : MonadLift (Prog LeaveOp.Res) (Prog ShutOp.Res) := ⟨Shut.ofLeave⟩

instance (priority := low) : MonadLift (Prog ShutOp.Res) (Prog PlainOp.Res) := ⟨Plain.ofShut⟩

instance : MonadLift (Prog BasicOp.Res) (Prog PlainOp.Res) := ⟨Plain.ofBasic⟩

instance : MonadLift (Prog PlainOp.Res) (Prog FullOp.Res) := ⟨Full.ofPlain⟩

/-! ## Programs of one operation -/

/-- The current state. -/
def getWorld : Msg World := Prog.perform MsgOp.get

/-- Write a line to a connection. -/
def writeTo (i : ConnId) (line : Str) : Msg Bool := Prog.perform (MsgOp.write i line)

/-- Change the bookkeeping of a connection. -/
def editConn (i : ConnId) (e : ConnEdit) : Msg Unit := Prog.perform (MsgOp.editConn i e)

/-- Store a cloaked host name. -/
def setCloaked (r : ClientRef) (host : Str) : Msg Unit := Prog.perform (MsgOp.cloak r host)

/-- Take the entry of a membership off `My_Cl2Chan`. -/
def unlinkCl2Chan (ch : ChanRef) (cl : ClientRef) : Leave Unit :=
  Prog.perform (LeaveOp.removeMember ch cl)

/-- Take a channel off `My_Channels` and free it. -/
def freeChannel (ch : ChanRef) : Leave Unit := Prog.perform (LeaveOp.deleteChannel ch)

/-- Change what is kept beside clients, channels and connections. -/
def editMisc (f : Misc → Misc) : Leave Unit := Prog.perform (LeaveOp.editMisc f)

/-- Change the table of configured servers. -/
def editServers (f : List ConfServer → List ConfServer) : Leave Unit :=
  Prog.perform (LeaveOp.editServers f)

/-- Change the descriptive fields of a client. -/
def editClient (r : ClientRef) (e : ClientEdit) : Basic Unit :=
  Prog.perform (BasicOp.editClient r e)

/-- Change a channel. -/
def editChannel (ch : ChanRef) (f : Channel → Channel) : Basic Unit :=
  Prog.perform (BasicOp.editChannel ch f)

/-- Put a new channel in front of `My_Channels`. -/
def newChannel (c : Channel) : Basic ChanRef := Prog.perform (BasicOp.newChannel c)

/-- `Add_Client`: put a new entry in front of `My_Cl2Chan`. -/
def addClient (ch : ChanRef) (client : ClientRef) : Basic Unit :=
  Prog.perform (BasicOp.addMember ch client)

/-- Change the modes of a membership. -/
def setUserModes (ch : ChanRef) (cl : ClientRef) (f : Str → Str) : Basic Unit :=
  Prog.perform (BasicOp.setMemberModes ch cl f)

/-- `rand`. -/
def drawRand : Basic Int := Prog.perform BasicOp.rand

/-- Take a client off `My_Clients`. -/
def unlinkClient (r : ClientRef) : Shut Unit := Prog.perform (ShutOp.unlink r)

/-- `Free_Client`. -/
def freeClient (r : ClientRef) : Shut Unit := Prog.perform (ShutOp.free r)

/-- Set `CONN_ISCLOSING`. -/
def startClosing (i : ConnId) : Shut Unit := Prog.perform (ShutOp.startClosing i)

/-- Close the socket of a connection. -/
def closeSocket (i : ConnId) : Shut Unit := Prog.perform (ShutOp.closeSocket i)

/-- `Init_Conn_Struct` on a slot. -/
def initConnStruct (i : ConnId) (now : Nat) : Shut Unit := Prog.perform (ShutOp.initConn i now)

/-- Close a connection: `Conn_Close`. -/
def callClose (i : ConnId) (logMsg fwdMsg : Option Str) (informClient : Bool) : Plain Unit :=
  Prog.perform (PlainOp.close i logMsg fwdMsg informClient)

/-- A new structure for a remote client, in front of `My_Clients`. -/
def newRemote (c : Client) : Plain ClientRef := Prog.perform (PlainOp.newRemote c)

/-- Store the type of a client. -/
def setType (r : ClientRef) (t : ClientType) : Full Unit := Prog.perform (FullOp.setType r t)

/-- Store the ID of a client. -/
def setId (r : ClientRef) (id : Str) : Full Unit := Prog.perform (FullOp.setId r id)

/-- Change the capabilities of a client. -/
def setCaps (r : ClientRef) (f : Caps → Caps) : Full Unit := Prog.perform (FullOp.setCaps r f)

/-- `Client_SetIntroducer` as it is always called: with the client itself, which
is a server at the other end of a link, as its introducer. -/
def clientSetIntroducer (r : ClientRef) : Full Unit := Prog.perform (FullOp.ownIntroducer r)

/-- `Conn_SetPassword`. -/
def connSetPassword (i : ConnId) (pwd : Str) : Full Unit := Prog.perform (FullOp.setPwd i pwd)

/-- `Conn_SetAuthPing`. -/
def connSetAuthPing (i : ConnId) (token : Int) : Full Unit :=
  Prog.perform (FullOp.setAuthPing i token)

/-! ## Effects of single operations -/

namespace World

/-- One more socket write has been decided. -/
def tickWrite (w : World) : World :=
  { w with env := { w.env with writes := w.env.writes + 1 } }

/-- Copy a line to the write buffer of a connection. -/
def queue (w : World) (i : ConnId) (line : Str) : World :=
  { w.setConn i { w.conns i with bytesOut := (w.conns i).bytesOut + line.length + 2 } with
    sent := w.sent ++ [(i, line)] }

/-- Replace the contents of one channel cell. -/
def setChannel (w : World) (ch : ChanRef) (c : Option Channel) : World :=
  { w with chans := { w.chans with heap := Function.update w.chans.heap ch c } }

/-- Put a new channel in front of `My_Channels`. -/
def addChannel (w : World) (c : Channel) : World :=
  { w with chans := { w.chans with
      heap := Function.update w.chans.heap w.chans.nextRef (some c)
      order := w.chans.nextRef :: w.chans.order
      nextRef := w.chans.nextRef + 1 } }

/-- Take a channel off `My_Channels` and free it. -/
def dropChannel (w : World) (ch : ChanRef) : World :=
  { w with chans := { w.chans with
      heap := Function.update w.chans.heap ch none
      order := w.chans.order.erase ch } }

/-- Replace the table of memberships. -/
def setMembers (w : World) (l : List Cl2Chan) : World :=
  { w with chans := { w.chans with cl2chan := l } }

/-- Link a new client structure at the front of `My_Clients`. -/
def addClient (w : World) (c : Client) : World :=
  { w.setHeap w.nextRef (some c) with order := w.nextRef :: w.order, nextRef := w.nextRef + 1 }

end World

/-- Is this the entry of `My_Cl2Chan` for a channel and a client? -/
def Cl2Chan.isFor (ch : ChanRef) (cl : ClientRef) (e : Cl2Chan) : Bool :=
  e.channel == ch && e.client == cl

/-- Computations on the state of the daemon. -/
abbrev M := Exec World Fault

/-- What closing a connection does, for the interpretation of a failing write. -/
abbrev Closer := ConnId → Option Str → Option Str → Bool → M Unit

/-- Change the state. -/
def update (f : World → World) : M Unit := fun w => .ok ((), f w)

/-- `Conn_Write`: a closed socket takes nothing, a write that fails closes the
connection it was made on. -/
def writeLine (close : Closer) (i : ConnId) (line : Str) : M Bool := fun w =>
  if (w.conns i).sock.isNone then .ok (false, w) else
    match w.env.outcome w.env.writes with
    | .taken => .ok (true, w.tickWrite.queue i line)
    | .sendError =>
      (do close i (some "Write error") none false; pure false) w.tickWrite
    | .exhausted =>
      (do close i (some "Write buffer space exhausted") none false; pure false) w.tickWrite

/-- Change a client structure that is in use. -/
def editHeap (r : ClientRef) (f : Client → Client) : M Unit := fun w =>
  match w.heap r with
  | some c => .ok ((), w.setHeap r (some (f c)))
  | none => .error (.data (.freedClient r))

/-- Change a connection slot. -/
def editSlot (i : ConnId) (f : Conn → Conn) : M Unit := update fun w => w.setConn i (f (w.conns i))

/-- Interpretation of the message operations. -/
def stepMsg (close : Closer) : (m : MsgOp) → M m.Res
  | .get => fun w => .ok (w, w)
  | .fault f => fun _ => .error (.data f)
  | .write i line => writeLine close i line
  | .editConn i e => editSlot i e.edit
  | .cloak r host => editHeap r fun c => { c with cloaked := some host }

/-- Interpretation of the leave operations. -/
def stepLeave (close : Closer) : (l : LeaveOp) → M l.Res
  | .msg m => stepMsg close m
  | .removeMember ch cl => update fun w => w.setMembers (w.chans.cl2chan.eraseP (·.isFor ch cl))
  | .deleteChannel ch => update fun w => w.dropChannel ch
  | .editMisc f => update fun w => { w with misc := f w.misc }
  | .editServers f => update fun w =>
    { w with conf := { w.conf with servers := f w.conf.servers } }

/-- Interpretation of the basic operations. -/
def stepBasic (close : Closer) : (b : BasicOp) → M b.Res
  | .leave l => stepLeave close l
  | .editClient r e => editHeap r e.edit
  | .editChannel ch f => fun w =>
    match w.chans.heap ch with
    | some c => .ok ((), w.setChannel ch (some (f c)))
    | none => .error (.data (.freedChannel ch))
  | .newChannel c => fun w => .ok (w.chans.nextRef, w.addChannel c)
  | .addMember ch cl => update fun w =>
    w.setMembers ({ client := cl, channel := ch } :: w.chans.cl2chan)
  | .setMemberModes ch cl f => update fun w => w.setMembers (w.chans.cl2chan.map fun e =>
    if e.isFor ch cl then { e with modes := f e.modes } else e)
  | .rand => fun w =>
    .ok (w.env.rand w.env.rands, { w with env := { w.env with rands := w.env.rands + 1 } })

/-- Interpretation of the shut operations. -/
def stepShut (close : Closer) : (s : ShutOp) → M s.Res
  | .leave l => stepLeave close l
  | .unlink r => update fun w => { w with order := w.order.erase r }
  | .free r => update fun w => w.setHeap r none
  | .startClosing i => editSlot i fun c => { c with isClosing := true }
  | .closeSocket i => editSlot i fun c => { c with sock := none }
  | .initConn i now => update fun w => w.setConn i (newConn now)

/-- Interpretation of the plain operations. -/
def stepPlain (close : Closer) : (p : PlainOp) → M p.Res
  | .basic b => stepBasic close b
  | .shut s => stepShut close s
  | .close i l f inf => close i l f inf
  | .absentParameter i => fun _ => .error (.absentParameter i)
  | .absentSender => fun _ => .error .absentSender
  | .newRemote c => fun w => .ok (w.nextRef, w.addClient { c with connId := none })

/-- Interpretation of the full operations. -/
def stepFull (close : Closer) : (op : FullOp) → M op.Res
  | .plain p => stepPlain close p
  | .setType r t => editHeap r fun c => { c with type := t }
  | .setId r id => editHeap r fun c => { c with id }
  | .setCaps r f => editHeap r fun c => { c with capabilities := f c.capabilities }
  | .ownIntroducer r => editHeap r fun c => { c with introducer := r }
  | .setPwd i pwd => editSlot i fun c => { c with pwd }
  | .setAuthPing i token => editSlot i fun c => { c with authPing := token }

end Ngircd
