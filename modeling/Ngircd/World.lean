import Ngircd.Lib.CString
import Ngircd.Lib.Prog

/-!
# The state of the daemon

One record holds everything the request handlers read and change: the
connection pool, the list of client structures, the channels and the table of
memberships, the configuration, and what the environment still has in store
(which socket writes fail, what `rand` returns).

Pointers to client and channel structures are reference numbers into a heap.
A reference whose cell is empty is a dangling pointer; reading through it is a
fault, not a value.  `NONE` (`-1`) is `none`.

The program is modelled as its Windows build compiles it: `IRCPLUS` is defined;
`STRICT_RFC`, `ZLIB`, `SSL_SUPPORT`, `PAM`, `ICONV` and `IDENTAUTH` are not.
-/

namespace Ngircd

open Lib

/-- Index of a slot of `My_Connections`. -/
abbrev ConnId := Nat

/-- Address of a `CLIENT` structure. -/
abbrev ClientRef := Nat

/-- Address of a `CHANNEL` structure. -/
abbrev ChanRef := Nat

/-- `CLIENT_xxx` types of `client.h`. -/
inductive ClientType where
  | unknown | gotPass | gotNick | gotUser | user | server | service
  | unknownServer | gotPass2813 | waitAuthPing | waitCapEnd
  deriving DecidableEq, Repr

/-- `CLIENT_CAP_xxx` bits of `client-cap.h`. -/
structure Caps where
  pending : Bool := false
  supported : Bool := false
  multiPrefix : Bool := false
  deriving DecidableEq, Repr

/-- `struct _CLIENT`, with the values `New_Client_Struct` gives its fields. -/
structure Client where
  starttime : Nat := 0
  id : Str := []
  type : ClientType := .unknown
  connId : Option ConnId := none
  introducer : ClientRef
  topserver : Option ClientRef := none
  host : Str := []
  cloaked : Option Str := none
  ipaText : Option Str := none
  user : Str := []
  info : Str := []
  modes : Str := []
  hops : Int := -1
  token : Int := -1
  mytoken : Int := -1
  away : Option Str := none
  flags : Str := []
  accountName : Option Str := none
  capabilities : Caps := {}
  deriving DecidableEq, Repr

/-- The marks `SEND_TO_USER` and `SEND_TO_SERVER` of `irc-write.c`. -/
inductive Mark where
  | toUser | toServer
  deriving DecidableEq, Repr

/-- `struct _Connection`, with the values of a cleared structure.
The write buffer is not here: every line it takes is recorded in `World.sent`. -/
structure Conn where
  sock : Option Nat := none
  /-- `proc_stat.pid != 0`: a resolver sub-process is still running. -/
  resolving : Bool := false
  host : Str := []
  addr : Str := []
  pwd : Str := []
  rbuf : Str := []
  signon : Nat := 0
  lastdata : Nat := 0
  lastping : Nat := 0
  lastprivmsg : Nat := 0
  delaytime : Nat := 0
  bytesIn : Nat := 0
  bytesOut : Nat := 0
  msgIn : Nat := 0
  msgOut : Nat := 0
  flag : Option Mark := none
  isClosing : Bool := false
  isConnecting : Bool := false
  rfc1459 : Bool := false
  bps : Nat := 0
  client : Option ClientRef := none
  authPing : Int := 0
  deriving DecidableEq, Repr

/-- `Init_Conn_Struct`. -/
def newConn (now : Nat) : Conn := { signon := now, lastdata := now, lastprivmsg := now }

/-- `struct list_elem` of `lists.c`. -/
structure ListElem where
  mask : Str
  reason : Str
  validUntil : Int
  onlyonce : Bool
  deriving DecidableEq, Repr

/-- `struct _CHANNEL`. -/
structure Channel where
  name : Str
  modes : Str := []
  topic : Str := []
  creationTime : Nat := 0
  topicTime : Nat := 0
  topicWho : Str := []
  key : Str := []
  maxusers : Nat := 0
  listBans : List ListElem := []
  listExcepts : List ListElem := []
  listInvites : List ListElem := []
  /-- The lines of the channel key file, `none` without one that can be read. -/
  keyfile : Option (List Str) := none
  deriving DecidableEq, Repr

/-- `struct _CLIENT2CHAN`: one membership. -/
structure Cl2Chan where
  client : ClientRef
  channel : ChanRef
  modes : Str := []
  deriving DecidableEq, Repr

/-- `My_Channels` and `My_Cl2Chan`, in list order. -/
structure Channels where
  heap : ChanRef → Option Channel := fun _ => none
  order : List ChanRef := []
  nextRef : ChanRef := 0
  cl2chan : List Cl2Chan := []

/-- `struct _Conf_Server`.  Empty entries have an empty name. -/
structure ConfServer where
  host : Str := []
  name : Str := []
  pwdIn : Str := []
  pwdOut : Str := []
  port : Nat := 0
  connId : Option ConnId := none
  once : Bool := false
  disabled : Bool := false
  svsMask : Str := []
  deriving DecidableEq, Repr

/-- `struct Conf_Oper`. -/
structure ConfOper where
  name : Str
  pwd : Str
  mask : Option Str
  deriving DecidableEq, Repr

/-- `struct Conf_Channel`. -/
structure ConfChannel where
  name : Str
  key : Str
  autojoin : Bool
  modes : List Str := []
  topic : Str := []
  maxusers : Nat := 0
  keyfile : Str := []
  /-- The lines of the key file, `none` if it cannot be read. -/
  keys : Option (List Str) := none
  deriving DecidableEq, Repr

/-- The configuration variables `Conf_xxx` that the handlers read, and the
texts the program fixes when it is built or started. -/
structure Conf where
  serverName : Str := "irc.example.net"
  serverInfo : Str := []
  serverPwd : Str := []
  serverAdmin1 : Str := []
  serverAdmin2 : Str := []
  serverAdminMail : Str := []
  network : Str := []
  motd : List Str := []
  helptext : List Str := []
  opers : List ConfOper := []
  servers : List ConfServer := []
  channels : List ConfChannel := []
  allowedChannelTypes : Str := "#&+"
  operCanMode : Bool := false
  operChanPAutoOp : Bool := true
  operServerMode : Bool := false
  allowRemoteOper : Bool := false
  cloakHost : Str := []
  cloakHostModeX : Str := []
  cloakHostSalt : Str := []
  cloakUserToNick : Bool := false
  morePrivacy : Bool := false
  scrubCTCP : Bool := false
  defaultChannelModes : Str := []
  defaultUserModes : Str := []
  maxJoins : Int := 10
  maxNickLength : Nat := 10
  maxListSize : Int := 100
  maxPenaltyTime : Int := -1
  pingTimeout : Int := 120
  pongTimeout : Int := 20
  authPing : Bool := false
  webircPwd : Str := []
  dns : Bool := true
  noticeBeforeRegistration : Bool := false
  /-- `PACKAGE_NAME` and `PACKAGE_VERSION`. -/
  packageName : Str := "ngIRCd"
  packageVersion : Str := "27-win32"
  /-- `NGIRCd_Version`, `NGIRCd_ProtoID`, `NGIRCd_VersionAddition`, `NGIRCd_DebugLevel`,
  `NGIRCd_StartStr`, `NGIRCd_Start` and the date of the build. -/
  ngircdVersion : Str := []
  protoId : Str := []
  versionAddition : Str := []
  debugLevel : Str := []
  startStr : Str := []
  start : Nat := 0
  birthDate : Str := []
  /-- `HOST_CPU`, `HOST_VENDOR` and `HOST_OS`. -/
  hostCpu : Str := []
  hostVendor : Str := []
  hostOs : Str := []
  /-- `strftime` in the time zone of the host. -/
  strftime : Str → Nat → Str := fun _ _ => []
  /-- What `vsnprintf` does at a percent sign that starts none of the conversions of `format`:
  the text that it prints for the characters behind, and their number. -/
  vsnprintf : Str → Option (Str × Nat) := fun _ => none

/-- `struct _WHOWAS`. -/
structure Whowas where
  time : Nat := 0
  id : Str := []
  host : Str := []
  user : Str := []
  info : Str := []
  server : Str := []
  deriving DecidableEq, Repr

/-- What the rest of the daemon keeps beside clients, channels and connections. -/
structure Misc where
  glines : List ListElem := []
  klines : List ListElem := []
  /-- The slots of `My_Whowas`, and `Last_Whowas` with `none` for `-1`. -/
  whowas : Nat → Whowas := fun _ => {}
  lastWhowas : Option Nat := none
  maxUsers : Nat := 0
  myMaxUsers : Nat := 0
  numConnections : Nat := 0
  numConnectionsMax : Nat := 0
  numConnectionsAccepted : Nat := 0
  signalQuit : Bool := false
  signalRestart : Bool := false
  signalRehash : Bool := false
  /-- `lcount`, `bytes` and `rcount` of each command. -/
  cmdCounts : Str → Nat × Nat × Nat := fun _ => (0, 0, 0)

/-- How a write to an open socket ends: `Handle_Write` meets a send error, or
the write buffer stays too full, or the data is taken. -/
inductive WriteOutcome where
  | taken | sendError | exhausted
  deriving DecidableEq, Repr

/-- What the environment decides: how the `n`-th write to a socket ends, and
what the `n`-th call of `rand` returns. -/
structure Env where
  outcome : Nat → WriteOutcome := fun _ => .taken
  writes : Nat := 0
  rand : Nat → Int := fun _ => 1
  rands : Nat := 0
  /-- `Conn_SendQ`: the bytes of a write buffer the network has not taken yet. -/
  sendQ : ConnId → Nat := fun _ => 0

/-- The whole state of the daemon. -/
structure World where
  conns : ConnId → Conn := fun _ => {}
  poolSize : Nat := 0
  heap : ClientRef → Option Client := fun _ => none
  /-- `My_Clients`, front first. -/
  order : List ClientRef := []
  nextRef : ClientRef := 0
  thisServer : ClientRef := 0
  chans : Channels := {}
  conf : Conf := {}
  misc : Misc := {}
  env : Env := {}
  now : Nat := 0
  /-- Every line copied to a write buffer, with its connection, oldest first. -/
  sent : List (ConnId × Str) := []

/-- Errors on the daemon's own data. -/
inductive DataFault where
  /-- A `CLIENT` structure is read after `Free_Client`. -/
  | freedClient (c : ClientRef)
  /-- A `CHANNEL` structure is read after `Free_Channel`. -/
  | freedChannel (c : ChanRef)
  /-- A null pointer or an index below zero is used.  The `assert` that would stop the
  program there is not compiled in without `DEBUG`. -/
  | assertion
  /-- A walk along `introducer` pointers runs in a circle. -/
  | endless
  deriving DecidableEq, Repr

/-- Ends of a computation that are no result of the source program. -/
inductive Fault where
  | data (f : DataFault)
  /-- `argv[i]` is used although the request has no parameter `i`. -/
  | absentParameter (i : Nat)
  /-- `Client` is used although there is none. -/
  | absentSender
  /-- The recursion bound of the interpretation is used up. -/
  | outOfFuel
  deriving DecidableEq, Repr

namespace World

/-- Replace one connection slot. -/
def setConn (w : World) (i : ConnId) (c : Conn) : World :=
  { w with conns := Function.update w.conns i c }

/-- Replace the contents of one client cell. -/
def setHeap (w : World) (r : ClientRef) (c : Option Client) : World :=
  { w with heap := Function.update w.heap r c }

@[simp] theorem setConn_conns_self (w : World) (i : ConnId) (c : Conn) :
    (w.setConn i c).conns i = c := by
  simp [setConn]

theorem setConn_conns_ne (w : World) {i j : ConnId} (h : j ≠ i) (c : Conn) :
    (w.setConn i c).conns j = w.conns j := by
  simp [setConn, h]

@[simp] theorem setHeap_heap_self (w : World) (r : ClientRef) (c : Option Client) :
    (w.setHeap r c).heap r = c := by
  simp [setHeap]

theorem setHeap_heap_ne (w : World) {r s : ClientRef} (h : s ≠ r) (c : Option Client) :
    (w.setHeap r c).heap s = w.heap s := by
  simp [setHeap, h]

theorem setHeap_heap_cases {w : World} {r s : ClientRef} {c d : Client}
    (h : (w.setHeap r (some c)).heap s = some d) : (s = r ∧ d = c) ∨ (s ≠ r ∧ w.heap s = some d) := by
  by_cases hs : s = r
  · subst hs
    rw [setHeap_heap_self] at h
    exact .inl ⟨rfl, (Option.some.inj h).symm⟩
  · rw [setHeap_heap_ne w hs] at h
    exact .inr ⟨hs, h⟩

theorem heap_of_free {w : World} {r s : ClientRef} {d : Client}
    (h : (w.setHeap r none).heap s = some d) : w.heap s = some d := by
  by_cases hs : s = r
  · subst hs
    rw [setHeap_heap_self] at h
    exact nomatch h
  · exact (setHeap_heap_ne w hs _).symm.trans h

end World

end Ngircd
