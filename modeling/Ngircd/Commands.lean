import Ngircd.Request

/-!
# The command table

`My_Commands` of `parse.c`: which commands there are, which types of client may
use them, and with how many parameters.
-/

namespace Ngircd

open Lib

/-- The handlers of the table; `xLine` and `quitHttp` stand in two entries. -/
inductive Handler where
  | admin | away | cap | connect | die | disconnect | error | xLine | help | info | invite |
  ison | join | kick | kill | links | list | lusers | metadata | mode | motd | names | nick
  | njoin | notice | oper | part | pass | ping | pong | privmsg | quit | rehash | restart |
  server | service | servlist | squery | squit | stats | svsnick | summon | time | topic |
  trace | user | userhost | users | version | wallops | webirc | who | whois | whowas |
  chaninfo | quitHttp
  deriving DecidableEq, Repr

/-- The type masks of the table. -/
inductive TypeMask where
  | any | user | server | userOrServer | unknown
  deriving DecidableEq, Repr

namespace TypeMask

/-- `client_type & cmd->type`. -/
def allows : TypeMask → ClientType → Bool
  | .any, _ => true
  | .user, t => t = .user
  | .server, t => t = .server
  | .userOrServer, t => t = .user || t = .server
  | .unknown, t => t = .unknown

end TypeMask

/-- `COMMAND`; no upper limit of parameters is `none`. -/
structure Command where
  name : Str
  handler : Handler
  mask : TypeMask
  minArgc : Nat
  maxArgc : Option Nat
  penalty : Nat
  deriving DecidableEq, Repr

/-- `My_Commands`. -/
def myCommands : List Command :=
  [ ⟨"ADMIN", .admin, .userOrServer, 0, some 1, 1⟩,
    ⟨"AWAY", .away, .user, 0, some 1, 0⟩,
    ⟨"CAP", .cap, .any, 1, some 2, 0⟩,
    ⟨"CONNECT", .connect, .userOrServer, 0, none, 0⟩,
    ⟨"DIE", .die, .user, 0, some 1, 0⟩,
    ⟨"DISCONNECT", .disconnect, .user, 1, some 1, 0⟩,
    ⟨"ERROR", .error, .any, 0, none, 0⟩,
    ⟨"GLINE", .xLine, .userOrServer, 0, none, 0⟩,
    ⟨"HELP", .help, .user, 0, some 1, 2⟩,
    ⟨"INFO", .info, .userOrServer, 0, some 1, 2⟩,
    ⟨"INVITE", .invite, .userOrServer, 2, some 2, 1⟩,
    ⟨"ISON", .ison, .user, 1, none, 0⟩,
    ⟨"JOIN", .join, .userOrServer, 1, some 2, 0⟩,
    ⟨"KICK", .kick, .userOrServer, 2, some 3, 0⟩,
    ⟨"KILL", .kill, .userOrServer, 2, some 2, 0⟩,
    ⟨"KLINE", .xLine, .userOrServer, 0, none, 0⟩,
    ⟨"LINKS", .links, .userOrServer, 0, some 2, 1⟩,
    ⟨"LIST", .list, .userOrServer, 0, some 2, 2⟩,
    ⟨"LUSERS", .lusers, .userOrServer, 0, some 2, 1⟩,
    ⟨"METADATA", .metadata, .server, 3, some 3, 0⟩,
    ⟨"MODE", .mode, .userOrServer, 1, none, 1⟩,
    ⟨"MOTD", .motd, .userOrServer, 0, some 1, 3⟩,
    ⟨"NAMES", .names, .userOrServer, 0, some 2, 1⟩,
    ⟨"NICK", .nick, .any, 0, none, 0⟩,
    ⟨"NJOIN", .njoin, .server, 2, some 2, 0⟩,
    ⟨"NOTICE", .notice, .any, 0, none, 0⟩,
    ⟨"OPER", .oper, .user, 2, some 2, 0⟩,
    ⟨"PART", .part, .userOrServer, 1, some 2, 0⟩,
    ⟨"PASS", .pass, .any, 0, none, 0⟩,
    ⟨"PING", .ping, .userOrServer, 0, none, 0⟩,
    ⟨"PONG", .pong, .any, 0, none, 0⟩,
    ⟨"PRIVMSG", .privmsg, .userOrServer, 0, some 2, 0⟩,
    ⟨"QUIT", .quit, .any, 0, some 1, 0⟩,
    ⟨"REHASH", .rehash, .user, 0, some 0, 0⟩,
    ⟨"RESTART", .restart, .user, 0, some 0, 0⟩,
    ⟨"SERVER", .server, .any, 0, none, 0⟩,
    ⟨"SERVICE", .service, .any, 6, some 6, 0⟩,
    ⟨"SERVLIST", .servlist, .user, 0, some 2, 1⟩,
    ⟨"SQUERY", .squery, .userOrServer, 0, some 2, 0⟩,
    ⟨"SQUIT", .squit, .userOrServer, 2, some 2, 0⟩,
    ⟨"STATS", .stats, .userOrServer, 0, some 2, 2⟩,
    ⟨"SVSNICK", .svsnick, .server, 2, some 2, 0⟩,
    ⟨"SUMMON", .summon, .userOrServer, 0, none, 0⟩,
    ⟨"TIME", .time, .userOrServer, 0, some 1, 1⟩,
    ⟨"TOPIC", .topic, .userOrServer, 1, some 2, 1⟩,
    ⟨"TRACE", .trace, .userOrServer, 0, some 1, 3⟩,
    ⟨"USER", .user, .any, 0, none, 0⟩,
    ⟨"USERHOST", .userhost, .user, 1, none, 1⟩,
    ⟨"USERS", .users, .userOrServer, 0, none, 0⟩,
    ⟨"VERSION", .version, .userOrServer, 0, some 1, 1⟩,
    ⟨"WALLOPS", .wallops, .userOrServer, 1, some 1, 0⟩,
    ⟨"WEBIRC", .webirc, .unknown, 4, some 5, 0⟩,
    ⟨"WHO", .who, .user, 0, some 2, 1⟩,
    ⟨"WHOIS", .whois, .userOrServer, 0, none, 1⟩,
    ⟨"WHOWAS", .whowas, .userOrServer, 0, none, 0⟩,
    ⟨"CHANINFO", .chaninfo, .server, 0, none, 0⟩,
    ⟨"GET", .quitHttp, .unknown, 0, none, 0⟩,
    ⟨"POST", .quitHttp, .unknown, 0, none, 0⟩ ]

/-- The entry of a command name, found as `Handle_Request` does. -/
def findCommand (name : Str) : Option Command :=
  myCommands.find? fun c => strcaseEq name c.name

end Ngircd
