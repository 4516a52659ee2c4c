import Ngircd.Messages
import Ngircd.Write

/-!
# Channels and memberships

The functions of `channel.c`.
-/

namespace Ngircd

open Lib

/-- `CHANNEL_NAME_LEN`, `CHANNEL_MODE_LEN`, `CLIENT_PASS_LEN`. -/
def channelNameLen : Nat := 51

@[inherit_doc channelNameLen] def channelModeLen : Nat := 21

@[inherit_doc channelNameLen] def clientPassLen : Nat := 65

/-! ## Mode strings -/

/-- Append a mode character that is not there yet, as the `ModeAdd` functions
do: a full buffer stays as it is.  `CLIENT_MODE_LEN` has the same value. -/
def modesAdd (modes : Str) (m : Char) : Str :=
  if modes.contains m then modes else strlcat modes [m] channelModeLen

/-- Remove a mode character, as the `ModeDel` functions do. -/
def modesDel (modes : Str) (m : Char) : Str := modes.erase m

/-! ## Lookups -/

namespace World

/-- `Get_Cl2Chan`. -/
def getCl2Chan (w : World) (ch : ChanRef) (cl : ClientRef) : Option Cl2Chan :=
  w.chans.cl2chan.find? (·.isFor ch cl)

/-- `Channel_IsMemberOf`. -/
def channelIsMemberOf (w : World) (ch : ChanRef) (cl : ClientRef) : Bool :=
  (w.getCl2Chan ch cl).isSome

/-- `Channel_MemberCount`. -/
def channelMemberCount (w : World) (ch : ChanRef) : Nat :=
  (w.membersOf ch).length

/-- `Channel_CountForUser`. -/
def channelCountForUser (w : World) (cl : ClientRef) : Nat :=
  (w.channelsOf cl).length

end World

namespace Channel

/-- `Channel_HasMode`. -/
def hasMode (c : Channel) (m : Char) : Bool := c.modes.contains m

/-- `Channel_IsLocal`. -/
def isLocal (c : Channel) : Bool := c.name.head? == some '&'

/-- `Channel_IsModeless`. -/
def isModeless (c : Channel) : Bool := c.name.head? == some '+'

end Channel

/-- `Channel_IsValidName`. -/
def channelIsValidName (name : Str) : Bool :=
  -- `strchr` finds the terminator too, so the empty name passes the first test.
  (match name with
    | [] => true
    | first :: _ => first == '#' || first == '&' || first == '+') &&
  decide (name.length < channelNameLen) &&
  name.all fun c => !(c == ' ' || c == ',' || c == ':' || c.toNat == 7)

/-- Read a channel structure. -/
def derefChan (ch : ChanRef) : Msg Channel := do
  match (← getWorld).chans.heap ch with
  | some c => pure c
  | none => dataFault (.freedChannel ch)

/-- `Channel_Name`. -/
def channelName (ch : ChanRef) : Msg Str := do
  return (← derefChan ch).name

/-- `Channel_HasMode`. -/
def channelHasMode (ch : ChanRef) (m : Char) : Msg Bool := do
  return (← derefChan ch).hasMode m

/-- `Channel_UserModes`. -/
def channelUserModes (ch : ChanRef) (cl : ClientRef) : Msg Str := do
  match (← getWorld).getCl2Chan ch cl with
  | some e => pure e.modes
  | none => dataFault .assertion

/-- `Channel_UserHasMode`. -/
def channelUserHasMode (ch : ChanRef) (cl : ClientRef) (m : Char) : Msg Bool := do
  return (← channelUserModes ch cl).contains m

/-- Does the client have one of these modes in the channel? -/
def channelUserHasAnyMode (ch : ChanRef) (cl : ClientRef) (ms : Str) : Msg Bool := do
  let modes ← channelUserModes ch cl
  return ms.any modes.contains

/-! ## Changes -/

/-- `Channel_UserModeAdd`. -/
def channelUserModeAdd (ch : ChanRef) (cl : ClientRef) (m : Char) : Basic Bool := do
  let had ← channelUserHasMode ch cl m
  setUserModes ch cl fun s => modesAdd s m
  return !had

/-- `Channel_UserModeDel`. -/
def channelUserModeDel (ch : ChanRef) (cl : ClientRef) (m : Char) : Basic Bool := do
  let had ← channelUserHasMode ch cl m
  setUserModes ch cl fun s => modesDel s m
  return had

/-- `Channel_ModeAdd`. -/
def channelModeAdd (ch : ChanRef) (m : Char) : Basic Bool := do
  let had ← channelHasMode ch m
  editChannel ch fun c => { c with modes := modesAdd c.modes m }
  return !had

/-- `Channel_ModeDel`. -/
def channelModeDel (ch : ChanRef) (m : Char) : Basic Bool := do
  let had ← channelHasMode ch m
  editChannel ch fun c => { c with modes := modesDel c.modes m }
  return had

/-- `Channel_SetTopic`. -/
def channelSetTopic (ch : ChanRef) (client : Option ClientRef) (topic : Str) : Basic Unit := do
  let w ← getWorld
  let who ← match client with
    | none => pure ("-Server-" : Str)
    | some cl =>
      if (← clientType cl) = .server then pure ("-Server-" : Str) else clientID cl
  editChannel ch fun c =>
    { c with
      topic := if topic.length ≥ commandLen then c.topic else topic
      topicTime := w.now
      topicWho := strlcpy who clientNickLen }

/-- `Channel_Create`. -/
def channelCreate (name : Str) : Basic ChanRef := do
  let w ← getWorld
  newChannel { name := strlcpy name channelNameLen, creationTime := w.now }

/-- `Delete_Channel`. -/
def deleteChannel (ch : ChanRef) : Leave Unit := do
  if (← getWorld).chans.order.contains ch then freeChannel ch

/-- The last part of `Remove_Client`: an empty channel that is not persistent
is deleted. -/
def deleteIfEmpty (ch : ChanRef) : Leave Unit := do
  if !(← channelHasMode ch 'P') then
    if ((← getWorld).membersOf ch).isEmpty then deleteChannel ch

/-- The kinds of removal: `REMOVE_PART`, `REMOVE_QUIT`, `REMOVE_KICK`. -/
inductive Removal where
  | part | quit | kick
  deriving DecidableEq, Repr

/-- The messages of `Remove_Client` for a KICK.  Each of them reads the name of
the channel again. -/
def announceKick (ch : ChanRef) (client origin : ClientRef) (reason : Str)
    (informServer : Bool) : Msg Unit := do
  let text := do
    return format "KICK %s %s :%s" [← channelName ch, ← clientID client, reason]
  if informServer then
    ircWriteStrServersPrefix (some (← clientNextHop origin)) origin (← text)
  ircWriteStrChannelPrefix client ch origin false (← text)
  let c ← deref client
  if c.connId.isSome ∧ c.type = .user then
    let _ ← ircWriteStrClientPrefix client origin (← text)

/-- The messages of `Remove_Client` for a PART. -/
def announcePart (ch : ChanRef) (client origin : ClientRef) (reason : Str)
    (informServer : Bool) : Msg Unit := do
  let reason := if (← getWorld).conf.morePrivacy then [] else reason
  let text := do
    return format "PART %s :%s" [← channelName ch, reason]
  if informServer then ircWriteStrServersPrefix (some origin) client (← text)
  ircWriteStrChannelPrefix origin ch client false (← text)
  let o ← deref origin
  if o.connId.isSome ∧ o.type = .user then
    let _ ← ircWriteStrClientPrefix origin client (← text)

/-- The messages of `Remove_Client`. -/
def announceRemoval (kind : Removal) (ch : ChanRef) (client origin : ClientRef) (reason : Str)
    (informServer : Bool) : Msg Unit :=
  match kind with
  | .quit => pure ()
  | .kick => announceKick ch client origin reason informServer
  | .part => announcePart ch client origin reason informServer

/-- `Remove_Client`. -/
def removeClient (kind : Removal) (ch : ChanRef) (client origin : ClientRef) (reason : Str)
    (informServer : Bool) : Leave Bool := do
  let informServer ← if informServer then pure !(← derefChan ch).isLocal else pure false
  if !(← getWorld).channelIsMemberOf ch client then return false
  unlinkCl2Chan ch client
  announceRemoval kind ch client origin reason informServer
  deleteIfEmpty ch
  return true

/-- `Channel_Quit`. -/
def channelQuit (client : ClientRef) (reason : Str) : Leave Unit := do
  let reason := if (← getWorld).conf.morePrivacy then [] else reason
  ircWriteStrRelatedPrefix client client false (format "QUIT :%s" [reason])
  Prog.forEach (fun ch => do
      let _ ← removeClient .quit ch client client reason false)
    (← getWorld).chans.order

end Ngircd
