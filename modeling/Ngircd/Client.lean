import Ngircd.Effects
import Ngircd.Lists

/-!
# Reading client structures

The lookups and accessors of `client.c`.  Those that only read are functions of
the state; the programs below them add what reading through a dangling pointer
or violating an `assert` does.
-/

namespace Ngircd

open Lib

/-- `CLIENT_ID_LEN`, `CLIENT_USER_LEN`, `CLIENT_INFO_LEN`, `CLIENT_NICK_LEN`. -/
def clientIdLen : Nat := 64

@[inherit_doc clientIdLen] def clientUserLen : Nat := 20

@[inherit_doc clientIdLen] def clientInfoLen : Nat := 128

@[inherit_doc clientIdLen] def clientNickLen : Nat := 32

/-- `GETID_LEN`: room for `nick!user@host`. -/
def getidLen : Nat := (clientNickLen - 1) + 1 + (clientUserLen - 1) + 1 + (clientHostLen - 1) + 1

/-! ## Hash values -/

/-- One word of a hash key, least significant byte first. -/
def keyWord (k0 k1 k2 k3 : Char) : UInt32 :=
  k0.toNat.toUInt32 + (k1.toNat.toUInt32 <<< 8) + (k2.toNat.toUInt32 <<< 16) +
    (k3.toNat.toUInt32 <<< 24)

/-- The macro `rot` of `hash.c`. -/
def rotLeft (x k : UInt32) : UInt32 := (x <<< k) ||| (x >>> (32 - k))

/-- The macro `mix` of `hash.c`. -/
def hashMix (a b c : UInt32) : UInt32 × UInt32 × UInt32 :=
  let a := (a - c) ^^^ rotLeft c 4
  let c := c + b
  let b := (b - a) ^^^ rotLeft a 6
  let a := a + c
  let c := (c - b) ^^^ rotLeft b 8
  let b := b + a
  let a := (a - c) ^^^ rotLeft c 16
  let c := c + b
  let b := (b - a) ^^^ rotLeft a 19
  let a := a + c
  let c := (c - b) ^^^ rotLeft b 4
  let b := b + a
  (a, b, c)

/-- The macro `final` of `hash.c`, answering `c`. -/
def hashFinal (a b c : UInt32) : UInt32 :=
  let c := (c ^^^ b) - rotLeft b 14
  let a := (a ^^^ c) - rotLeft c 11
  let b := (b ^^^ a) - rotLeft a 25
  let c := (c ^^^ b) - rotLeft b 16
  let a := (a ^^^ c) - rotLeft c 4
  let b := (b ^^^ a) - rotLeft a 14
  (c ^^^ b) - rotLeft b 24

/-- The loop and the last block of `jenkins_hash`.  A short last block reads
zero bytes in place of the missing ones. -/
def jenkinsRounds (a b c : UInt32) : Str → UInt32
  | k0 :: k1 :: k2 :: k3 :: k4 :: k5 :: k6 :: k7 :: k8 :: k9 :: k10 :: k11 :: k12 :: rest =>
    let (a, b, c) := hashMix (a + keyWord k0 k1 k2 k3) (b + keyWord k4 k5 k6 k7)
      (c + keyWord k8 k9 k10 k11)
    jenkinsRounds a b c (k12 :: rest)
  | [] => c
  | k =>
    let byte (i : Nat) : Char := k.getD i '\x00'
    hashFinal (a + keyWord (byte 0) (byte 1) (byte 2) (byte 3))
      (b + keyWord (byte 4) (byte 5) (byte 6) (byte 7))
      (c + keyWord (byte 8) (byte 9) (byte 10) (byte 11))

/-- `Hash`. -/
def hash (s : Str) : UInt32 :=
  let key := lowerStr (strlcpy s commandLen)
  let init : UInt32 := 0xdeadbeef + key.length.toUInt32 + 42
  jenkinsRounds init init init key

/-! ## Accessors without a fault -/

namespace Client

/-- `Client_HasMode`. -/
def hasMode (c : Client) (m : Char) : Bool := c.modes.contains m

/-- `Client_HasFlag`. -/
def hasFlag (c : Client) (f : Char) : Bool := c.flags.contains f

/-- The value of `Client_ID`. -/
def nameOrStar (c : Client) : Str := if c.id.isEmpty then "*" else c.id

/-- `Client_User`. -/
def userOrTilde (c : Client) : Str := if c.user.isEmpty then "~" else c.user

/-- `Client_Mask`. -/
def mask (c : Client) : Str :=
  if c.type = .server then c.id
  else snprintf getidLen "%s!%s@%s" [c.id, c.user, c.host]

/-- `Client_TypeText`. -/
def typeText (c : Client) : Str :=
  match c.type with
  | .user => "User"
  | .service => "Service"
  | .server => "Server"
  | _ => "Client"

end Client

namespace World

/-- The clients on `My_Clients`, front first. -/
def listed (w : World) : List (ClientRef × Client) :=
  w.order.filterMap fun r => (w.heap r).map fun c => (r, c)

/-- `Client_Search`.  The hash of a structure without an ID is zero, which no
name has; so an empty ID is never found.  An ID that was set to the empty string
(by a SERVICE command for a name that starts with an at sign) is taken for none. -/
def clientSearch (w : World) (nick : Str) : Option ClientRef :=
  let searchId := (strlcpy nick clientIdLen).takeWhile (· != '!')
  (w.listed.find? fun rc => !rc.2.id.isEmpty && strcaseEq rc.2.id searchId).map (·.1)

/-- `Client_SearchServer`. -/
def clientSearchServer (w : World) (mask : Str) : Option ClientRef :=
  match w.heap w.thisServer with
  | none => none
  | some this =>
    if matchCaseInsensitive mask this.nameOrStar then some w.thisServer
    else (w.listed.find? fun rc =>
      rc.2.type = .server && matchCaseInsensitive mask rc.2.id).map (·.1)

/-- `Client_GetFromToken`. -/
def clientGetFromToken (w : World) (client : ClientRef) (token : Int) : Option ClientRef :=
  if token = 0 then none
  else (w.listed.find? fun rc =>
    rc.2.type = .server && rc.2.introducer = client && rc.2.token = token).map (·.1)

/-- The walk of `Client_NextHop`, at most `n` steps long. -/
def nextHopFrom (w : World) : Nat → ClientRef → Except DataFault ClientRef
  | 0, _ => .error .endless
  | n + 1, r =>
    match w.heap r with
    | none => .error (.freedClient r)
    | some c =>
      if c.introducer = r ∨ c.introducer = w.thisServer then .ok r
      else nextHopFrom w n c.introducer

/-- `Client_NextHop`. -/
def nextHop (w : World) (r : ClientRef) : Except DataFault ClientRef :=
  w.nextHopFrom (w.nextRef + 1) r

/-- `Conf_GetServer`. -/
def confGetServer (w : World) (i : ConnId) : Option ConfServer :=
  w.conf.servers.find? fun s => s.connId = some i

/-- `Conf_NickIsService`. -/
def confNickIsService (s : ConfServer) (nick : Str) : Bool :=
  matchCaseInsensitiveList s.svsMask nick ","

/-- `Conf_NickIsBlocked`. -/
def confNickIsBlocked (w : World) (nick : Str) : Bool :=
  w.conf.servers.any fun s => !s.name.isEmpty && confNickIsService s nick

/-- `Client_IsValidNick`.  `strchr` also finds the terminator, so the empty
name is refused with the names that start with one of the extra characters. -/
def clientIsValidNick (w : World) (nick : Str) : Bool :=
  let goodchars : Str := ";0123456789-"
  match nick with
  | [] => false
  | first :: _ =>
    !goodchars.contains first && decide (nick.length < w.conf.maxNickLength) &&
      nick.all fun ch => (decide ('A' ≤ ch) || goodchars.contains ch) && decide (ch ≤ '}')

end World

/-! ## Programs that read -/

/-- Stop with an error on the daemon's data. -/
def dataFault {α : Type} (f : DataFault) : Msg α :=
  .call (.fault f) fun e : Empty => nomatch e

/-- Go on with the value of a walk, or stop with its fault. -/
def orFault {α : Type} : Except DataFault α → Msg α
  | .ok a => pure a
  | .error f => dataFault f

/-- Read a client structure. -/
def deref (r : ClientRef) : Msg Client := do
  match (← getWorld).heap r with
  | some c => pure c
  | none => dataFault (.freedClient r)

/-- `Client_Type`. -/
def clientType (r : ClientRef) : Msg ClientType := do
  return (← deref r).type

/-- `Client_HasMode`. -/
def clientHasMode (r : ClientRef) (m : Char) : Msg Bool := do
  return (← deref r).hasMode m

/-- `Client_ID`. -/
def clientID (r : ClientRef) : Msg Str := do
  return (← deref r).nameOrStar

/-- `Client_NextHop`. -/
def clientNextHop (r : ClientRef) : Msg ClientRef := do
  orFault ((← getWorld).nextHop r)

/-- `Client_ThisServer`. -/
def thisServer : Msg ClientRef := do
  return (← getWorld).thisServer

/-- Visit the clients of `My_Clients` with `Client_Next`.  The walk is at the
structure it has just visited when it asks for the next one: if the visit freed
that structure, the pointer it reads is dangling. -/
def forClients (visit : ClientRef → Msg Unit) : List ClientRef → Msg Unit
  | [] => pure ()
  | r :: rest => do
      if (← getWorld).order.contains r then
        visit r
        if (← getWorld).order.contains r then forClients visit rest
        else dataFault (.freedClient r)
      else forClients visit rest

/-- Visit clients in the same way until a visit answers `false`. -/
def whileClients (visit : ClientRef → Msg Bool) : List ClientRef → Msg Bool
  | [] => pure true
  | r :: rest => do
      if (← getWorld).order.contains r then
        if !(← visit r) then return false
        if (← getWorld).order.contains r then whileClients visit rest
        else dataFault (.freedClient r)
      else whileClients visit rest

/-- Visit every client that is on `My_Clients` when the walk starts. -/
def forAllClients (visit : ClientRef → Msg Unit) : Msg Unit := do
  forClients visit (← getWorld).order

end Ngircd
