import Ngircd.Daemon

/-!
# Predefined channels and reloads

`Channel_InitPredefined` creates the channels of the configuration, when the daemon
starts and after each reload.  `Rehash` reads the configuration again: all settings are
replaced, and after a successful reload the name of the server and the length of
nicknames are put back.
-/

namespace Ngircd

open Lib

/-! ## Predefined channels -/

/-- `Set_KeyFile`. -/
def setKeyFile (ch : ChanRef) (keyfile : Str) (keys : Option (List Str)) : Basic Unit := do
  if keyfile.isEmpty then editChannel ch fun c => { c with keyfile := none }
  else
    editChannel ch fun c => { c with keyfile := keys }
    logSnotice (format "New local channel key file \"%s\" for %s activated."
      [keyfile, ← channelName ch])

/-- One string of channel modes, as a MODE command of this server.  The key and the limit
of the configuration are set beforehand, for strings that name the modes only. -/
def predefineModes (ch : ChanRef) (conf : ConfChannel) (modes : Str) : Basic Unit := do
  let args := (strtok (strlcpy modes commandLen) " ").take 14
  if args.isEmpty then return ()
  if (args.headD []).contains 'k' then
    editChannel ch fun c => { c with key := strlcpy conf.key clientPassLen }
    let _ ← channelModeAdd ch 'k'
  if (args.headD []).contains 'l' then
    editChannel ch fun c => { c with maxusers := conf.maxusers }
    let _ ← channelModeAdd ch 'l'
  let this ← thisServer
  let _ ← ircMode this
    { pfx := some (← clientID this), command := "MODE"
      argv := strlcpy conf.name channelNameLen :: args }

/-- The body of the loop of `Channel_InitPredefined`. -/
def predefineChannel (conf : ConfChannel) : Basic Unit := do
  if conf.name.isEmpty then return ()
  if !channelIsValidName conf.name then return ()
  match (← getWorld).channelSearch conf.name with
  | some ch => setKeyFile ch conf.keyfile conf.keys
  | none =>
    let ch ← channelCreate conf.name
    let _ ← channelModeAdd ch 'P'
    if !conf.topic.isEmpty then channelSetTopic ch none conf.topic
    Prog.forEach (fun modes => predefineModes ch conf modes) conf.modes
    setKeyFile ch conf.keyfile conf.keys

/-- The end of `Channel_InitPredefined`: there is a local channel `&SERVER`. -/
def predefineServerChannel : Basic Unit := do
  if ((← getWorld).channelSearch "&SERVER").isNone then
    let ch ← channelCreate "&SERVER"
    editChannel ch fun c => { c with modes := strlcpy "mnPt" channelModeLen }
    channelSetTopic ch (some (← thisServer)) "Server Messages"

/-- `Channel_InitPredefined`. -/
def channelInitPredefined : Basic Unit := do
  Prog.forEach predefineChannel (← getWorld).conf.channels
  predefineServerChannel

/-! ## Reloads -/

/-- `CLIENT_NICK_LEN_DEFAULT`. -/
def clientNickLenDefault : Nat := 10

/-- `Handle_MaxNickLength`; the sum is an `unsigned int`. -/
def handleMaxNickLength (arg : Str) : Nat :=
  let new := toULong (atoi arg + 1)
  if new > clientNickLen then clientNickLen else if new < 2 then 2 else new

/-- The configuration sets the length of nicknames as `Read_Config` does. -/
def Conf.IsRead (conf : Conf) : Prop :=
  conf.maxNickLength = clientNickLenDefault ∨ ∃ arg, conf.maxNickLength = handleMaxNickLength arg

/-- `Rehash`.  `new` are the settings that the configuration file leaves, with what is noted
about servers that are linked; `valid` is the answer of `Validate_Config`. -/
def rehash (n : Nat) (new : Conf) (valid : Bool) : M Unit := do
  execMsg n (logSnotice "Re-reading configuration NOW!")
  let old := (← get).conf
  update fun w => { w with conf := new }
  if valid then
    execBasic n (do clientSetInfo (← thisServer) new.serverInfo)
    update fun w => { w with conf :=
      { w.conf with serverName := old.serverName, maxNickLength := old.maxNickLength } }
    execBasic n channelInitPredefined
    execMsg n (logSnotice "Re-reading of configuration done.")

end Ngircd
