import Ngircd.World

/-!
# Masks and lists of masks

Wildcard matching as `match.c` does it, and the lists of masks of `lists.c`:
ban, exception and invite lists of channels, and the G- and K-Lines.
-/

namespace Ngircd

open Lib

/-- `COMMAND_LEN`. -/
def commandLen : Nat := 513

/-- `CLIENT_HOST_LEN`. -/
def clientHostLen : Nat := 64

/-- `MASK_LEN`. -/
def maskLen : Nat := 2 * clientHostLen

/-- The `MATCH_xxx` results of `match.c`. -/
inductive MatchResult where
  | badPattern | literal | abort | endOfPattern | valid
  deriving DecidableEq, Repr

/-- Pass over the `?` and `*` at the front of a pattern, one character of text
for each `?`; `none` when the text ends before that. -/
def skipWildcards : Str → Str → Option (Str × Str)
  | '*' :: p, t => skipWildcards p t
  | '?' :: _, [] => none
  | '?' :: p, _ :: t => skipWildcards p t
  | p, t => some (p, t)

/-- The loop of `Matche_After_Star`: try the rest of the pattern at every
position of the text where its next character may match. -/
def scanText (next : Char) (matchHere : Str → MatchResult) : Str → MatchResult
  | [] => .abort
  | t :: ts =>
    let result := if next == t || next == '[' then matchHere (t :: ts) else .literal
    if result == .valid || result == .abort || result == .badPattern then result
    else scanText next matchHere ts

/-- `Matche` with `Matche_After_Star` inlined.  A `*` is left behind before the
function calls itself on the same text, so the length of the pattern bounds the
recursion. -/
def matche : Nat → Str → Str → MatchResult
  | 0, _, _ => .badPattern
  | _ + 1, [], t => if t.isEmpty then .valid else .endOfPattern
  | _ + 1, p :: ps, [] => if p == '*' && ps.isEmpty then .valid else .abort
  | n + 1, '?' :: ps, _ :: ts => matche n ps ts
  | n + 1, '*' :: ps, t :: ts =>
    match skipWildcards ps (t :: ts) with
    | none => .abort
    | some ([], _) => .valid
    | some (['\\'], _) => .badPattern
    | some ('\\' :: q :: qs, text) => scanText q (matche n ('\\' :: q :: qs)) text
    | some (q :: qs, text) => scanText q (matche n (q :: qs)) text
  | n + 1, p :: ps, t :: ts => if p != t then .literal else matche n ps ts

/-- `Match`. -/
def maskMatch (pattern text : Str) : Bool :=
  matche (pattern.length + 1) pattern text == .valid

/-- `MatchCaseInsensitive`. -/
def matchCaseInsensitive (pattern text : Str) : Bool :=
  maskMatch (lowerStr (strlcpy pattern commandLen)) (lowerStr (strlcpy text commandLen))

/-- `ngt_TrimStr`. -/
def trimStr (s : Str) : Str :=
  let blank : Char → Bool := fun c => c == ' ' || c == '\t' || c == '\n' || c == '\r'
  ((s.dropWhile blank).reverse.dropWhile blank).reverse

/-- `MatchCaseInsensitiveList`. -/
def matchCaseInsensitiveList (pattern text separator : Str) : Bool :=
  (strtok (strlcpy pattern commandLen) separator).any fun p =>
    matchCaseInsensitive (trimStr p) text

/-- `Lists_CheckDupeMask`. -/
def listsCheckDupeMask (l : List ListElem) (mask : Str) : Option ListElem :=
  l.find? fun e => strcaseEq e.mask mask

/-- `Lists_Add`: refresh an entry with the same mask, or put a new one in front. -/
def listsAdd (l : List ListElem) (mask : Str) (validUntil : Int) (reason : Str)
    (onlyonce : Bool) : List ListElem :=
  match listsCheckDupeMask l mask with
  | some e => l.replace e { e with validUntil, reason }
  | none => { mask := strlcpy mask maskLen, reason, validUntil, onlyonce } :: l

/-- `Lists_Del`. -/
def listsDel (l : List ListElem) (mask : Str) : List ListElem :=
  l.filter fun e => !strcaseEq e.mask mask

/-- `Lists_Count`. -/
def listsCount : List ListElem → Nat
  | [] => 0
  | _ :: l => listsCount l + 1

/-- `Lists_MakeMask`: fill up a pattern to a full `nick!user@host` mask. -/
def listsMakeMask (pattern : Str) : Str :=
  let at? := pattern.findIdx? (· == '@')
  let excl? := match at?, pattern.findIdx? (· == '!') with
    | some a, some e => if a < e then none else some e
    | _, e => e
  match at?, excl? with
  | none, none => strlcat (strlcpy pattern (maskLen - 5)) "!*@*" maskLen
  | none, some _ => strlcat (strlcpy pattern (maskLen - 3)) "@*" maskLen
  | some a, none =>
    strlcat (strlcat (strlcpy (pattern.take a) (maskLen - 5)) "!*@" maskLen)
      (pattern.drop (a + 1)) maskLen
  | some _, some _ => strlcpy pattern maskLen

/-- The entry `Lists_CheckReason` stops at: the first whose mask matches one of
the two masks of the client. -/
def listsMatch (l : List ListElem) (maskCloaked mask : Str) : Option ListElem :=
  l.find? fun e =>
    matchCaseInsensitive e.mask maskCloaked || matchCaseInsensitive e.mask mask

/-- The list after `Lists_CheckReason` has stopped at `e`: entries that are
valid only once go. -/
def listsUsed (l : List ListElem) (e : ListElem) : List ListElem :=
  if e.onlyonce then l.erase e else l

end Ngircd
