import Ngircd.Close

/-!
# Requests

A parsed line, and what the macros of `irc-macros.h` make of its prefix and
parameters.
-/

namespace Ngircd

open Lib

/-- `REQUEST`: prefix, command and the parameters `argv[0]` to `argv[argc - 1]`.
`beyond` is what stands in the read buffer after the terminator of the last
parameter; a pointer that is moved past the end of an empty parameter reads it. -/
structure Request where
  pfx : Option Str
  command : Str
  argv : List Str
  beyond : Str := []
  deriving DecidableEq, Repr

namespace Request

/-- `Req->argc`. -/
def argc (req : Request) : Nat := req.argv.length

/-- `Req->argv[i]` where the command table guarantees this parameter. -/
def arg (req : Request) (i : Nat) : Str := req.argv.getD i []

end Request

/-- `Req->argv[i]` where nothing guarantees that the parameter is there. -/
def param (req : Request) (i : Nat) : Plain Str :=
  match req.argv[i]? with
  | some s => pure s
  | none => .call (.absentParameter i) fun e : Empty => nomatch e

/-- The error `_IRC_ARGC_xxx_OR_RETURN_` answers with. -/
def needMoreParams (client : ClientRef) (req : Request) : Msg Bool := do
  ircWriteErrClient client (format errNeedmoreparamsMsg [← clientID client, req.command])

/-- `_IRC_GET_SENDER_OR_RETURN_`: the sender of a command, or the error text. -/
def senderOf (req : Request) (client : ClientRef) : Msg (Except Str ClientRef) := do
  if (← clientType client) = .server then
    match req.pfx with
    | none => return .error (format errNeedmoreparamsMsg [← clientID client, req.command])
    | some p =>
      match (← getWorld).clientSearch p with
      | some sender => return .ok sender
      | none => return .error (format errNosuchnickMsg [← clientID client, p])
  else return .ok client

/-- `_IRC_GET_TARGET_SERVER_OR_RETURN_`: the server a command is for, or the
error text for the sender. -/
def targetServerOf (req : Request) (argc : Nat) (sender : ClientRef) :
    Msg (Except Str ClientRef) := do
  let w ← getWorld
  if req.argc ≤ argc then return .ok w.thisServer
  match w.clientSearch (req.arg argc) <|> w.clientSearchServer (req.arg argc) with
  | none => return .error (format errNosuchserverMsg [← clientID sender, req.arg argc])
  | some target =>
    let t ← deref target
    return .ok (if t.type = .server then target else t.introducer)

/-- Go on with the sender of a command. -/
def withSender (req : Request) (client : ClientRef) (next : ClientRef → Basic Bool) :
    Basic Bool := do
  match ← senderOf req client with
  | .error text => ircWriteErrClient client text
  | .ok sender => next sender

section Replies

variable {m : Type → Type} [Monad m] [MonadLiftT (Prog (ReplyOp.Res MsgOp.Res)) m]

/-- Reply with the sender of a command. -/
def replySender (req : Request) (client : ClientRef) (next : ClientRef → m Unit) : m Unit := do
  match ← (senderOf req client : Query (Except Str ClientRef)) with
  | .error text => replyErr client text
  | .ok sender => next sender

/-- Reply with the server a command is for. -/
def replyTarget (req : Request) (argc : Nat) (sender : ClientRef)
    (next : ClientRef → m Unit) : m Unit := do
  match ← (targetServerOf req argc sender : Query (Except Str ClientRef)) with
  | .error text => replyErr sender text
  | .ok target => next target

end Replies

end Ngircd
