import Ngircd.Peers

/-!
# CTCP requests

`ScrubCTCP` looks for the text of a message on its own: it takes what follows the
first colon of the line, apart from one at its front.  `Parse_Request` finds the
text as the last parameter, which need not begin with a colon, and parameters
before it may have colons in them.
-/

namespace Ngircd

open Lib

/-- The first byte of a CTCP request. -/
def ctcpChar : Char := '\x01'

/-- A message with a CTCP request other than ACTION.  The text is the second parameter; NOTICE
takes it as its text also when there are more. -/
def Request.IsCtcp (req : Request) : Prop :=
  (strcaseEq req.command "PRIVMSG" ∨ strcaseEq req.command "NOTICE" ∨
    strcaseEq req.command "SQUERY") ∧
    ∃ rest, req.argv[1]? = some (ctcpChar :: rest) ∧ ¬"ACTION ".toList <+: rest

/-- The first colon of a line, apart from one at its front, stands before a CTCP request. -/
def CtcpAtColon (line : Str) : Prop :=
  ∃ front head rest, line = front ++ head ++ ':' :: ctcpChar :: rest ∧
    (front = [':'] ∨ front = [] ∧ line.head? ≠ some ':') ∧ ':' ∉ head ∧ ¬"ACTION ".toList <+: rest

/-- What follows the first colon. -/
theorem afterColon_iff (start : Str) : (match start.dropWhile (· != ':') with
    | _ :: c :: rest => c.toNat == 1 && rest.take 7 != ("ACTION " : Str)
    | _ => false) = true ↔
      ∃ head rest, start = head ++ ':' :: ctcpChar :: rest ∧ ':' ∉ head ∧
        ¬"ACTION ".toList <+: rest := by
  have haction (rest : Str) : rest.take 7 ≠ "ACTION ".toList ↔ ¬"ACTION ".toList <+: rest := by
    rw [List.prefix_iff_eq_take, eq_comm]
    rfl
  have hctcp (c : Char) : c.toNat = 1 ↔ c = ctcpChar :=
    ⟨fun h => Char.toNat_inj.mp h, fun h => by rw [h]; rfl⟩
  constructor
  · intro h
    split at h
    · rename_i colon c rest hdrop
      simp only [Bool.and_eq_true, beq_iff_eq, bne_iff_ne] at h
      obtain rfl : c = ctcpChar := (hctcp c).mp h.1
      have hcolon : colon = ':' := by
        have hhead := List.head?_dropWhile_not (· != ':') start
        rw [hdrop] at hhead
        simpa using hhead
      refine ⟨start.takeWhile (· != ':'), rest, ?_, fun hmem => ?_, (haction rest).mp h.2⟩
      · have hsplit := List.takeWhile_append_dropWhile (p := (· != ':')) (l := start)
        rw [hdrop, hcolon] at hsplit
        exact hsplit.symm
      · simpa using List.mem_takeWhile_imp hmem
    · exact nomatch h
  · rintro ⟨head, rest, rfl, hhead, hrest⟩
    have hdrop : (head ++ ':' :: ctcpChar :: rest).dropWhile (· != ':') = ':' :: ctcpChar :: rest := by
      rw [List.dropWhile_append_of_pos]
      · rfl
      · intro x hx
        rw [bne_iff_ne]
        rintro rfl
        exact hhead hx
    rw [hdrop]
    simp only [Bool.and_eq_true, beq_iff_eq, bne_iff_ne]
    exact ⟨rfl, (haction rest).mpr hrest⟩

theorem scrubCTCP_iff (line : Str) : scrubCTCP line = true ↔ CtcpAtColon line := by
  unfold scrubCTCP
  by_cases hcolon : line.head? = some ':'
  · obtain ⟨start, rfl⟩ := List.head?_eq_some_iff.mp hcolon
    simp only [List.head?_cons, if_true, List.tail_cons]
    refine (afterColon_iff start).trans ⟨?_, ?_⟩
    · rintro ⟨head, rest, rfl, hhead, hrest⟩
      exact ⟨[':'], head, rest, rfl, .inl rfl, hhead, hrest⟩
    · rintro ⟨front, head, rest, heq, rfl | ⟨-, hne⟩, hhead, hrest⟩
      · exact ⟨head, rest, by simpa using heq, hhead, hrest⟩
      · exact absurd rfl hne
  · simp only [hcolon, if_false]
    refine (afterColon_iff line).trans ⟨?_, ?_⟩
    · rintro ⟨head, rest, rfl, hhead, hrest⟩
      exact ⟨[], head, rest, rfl, .inr ⟨rfl, hcolon⟩, hhead, hrest⟩
    · rintro ⟨front, head, rest, heq, rfl | ⟨rfl, -⟩, hhead, hrest⟩
      · rw [heq] at hcolon
        exact absurd rfl hcolon
      · exact ⟨head, rest, heq, hhead, hrest⟩

/-- What is done with a line that is not dropped. -/
def handleLine (i : ConnId) (line after : Str) : Full Bool := do
  match requestOf line after with
  | none => connWriteStr i "ERROR :Prefix without command"
  | some req =>
    match ← validatePrefix i req with
    | .error result => return result
    | .ok req => handleRequest i req

/-- With `ScrubCTCP`, a line that stands for a CTCP request is dropped, and nothing is done, if
and only if the request stands behind the first colon of the line, apart from one at its front.
Every other such line is handled as if there were no `ScrubCTCP`. -/
theorem ctcp_dropped_iff {line after : Str} {req : Request} (hreq : requestOf line after = some req)
    (hctcp : req.IsCtcp) :
    (CtcpAtColon (trimStr line) ↔ ∀ (w : World) (i : ConnId) (n : Nat), w.conf.scrubCTCP = true →
      exec n (parseRequest i line after) w = .ok (true, w)) ∧
    (¬CtcpAtColon (trimStr line) → ∀ (w : World) (i : ConnId) (n : Nat),
      exec n (parseRequest i line after) w = exec n (handleLine i line after) w) := by
  have hline : trimStr line ≠ [] := by
    intro hnil
    unfold requestOf at hreq
    rw [hnil] at hreq
    cases hreq
    obtain ⟨-, rest, htext, -⟩ := hctcp
    cases htext
  have hempty : (trimStr line).isEmpty = false := by simpa using hline
  have hhandled (h : ¬CtcpAtColon (trimStr line)) (w : World) (i : ConnId) (n : Nat) :
      exec n (parseRequest i line after) w = exec n (handleLine i line after) w := by
    have hkept : ¬(w.conf.scrubCTCP && scrubCTCP (trimStr line)) = true := by
      rw [Bool.and_eq_true, scrubCTCP_iff]
      exact fun hscrub => h hscrub.2
    unfold parseRequest
    simp only [hempty, Bool.false_eq_true, if_false]
    rw [exec_bind_read (v := w) _ n (by simp), if_neg hkept]
    rfl
  refine ⟨⟨fun h w i n hscrub => exec_scrubbed (by rw [hscrub, (scrubCTCP_iff _).mpr h]; rfl) after n,
    fun h => ?_⟩, hhandled⟩
  by_contra hnot
  have hrun := h { conf := { scrubCTCP := true } } 0 0 rfl
  rw [hhandled hnot] at hrun
  -- Nobody is on the connection there, and this is noticed.
  have hfault : (handleLine 0 line after).wp (fullWp .never anyFault) (fun _ _ => False)
      { conf := { scrubCTCP := true } } := by
    unfold handleLine
    simp only [hreq, validatePrefix, clientOf, wp_msg, liftM_plain_full, wp_getWorld]
    trivial
  exact (exec_ends (Closing.never_rightAbout _) hfault).of_ok hrun

/-- A line with a CTCP request behind its first colon. -/
theorem ctcp_dropped_iff_version :
    (CtcpAtColon "PRIVMSG bob :\x01VERSION\x01" ↔ ∀ (w : World) (i : ConnId) (n : Nat),
      w.conf.scrubCTCP = true →
        exec n (parseRequest i "PRIVMSG bob :\x01VERSION\x01" []) w = .ok (true, w)) ∧
    (¬CtcpAtColon "PRIVMSG bob :\x01VERSION\x01" → ∀ (w : World) (i : ConnId) (n : Nat),
      exec n (parseRequest i "PRIVMSG bob :\x01VERSION\x01" []) w =
        exec n (handleLine i "PRIVMSG bob :\x01VERSION\x01" []) w) :=
  ctcp_dropped_iff (show requestOf "PRIVMSG bob :\x01VERSION\x01" [] =
      some { pfx := none, command := "PRIVMSG", argv := ["bob", "\x01VERSION\x01"] } by decide)
    ⟨.inl (by decide), "VERSION\x01", rfl, by decide⟩

/-- A server with two local users that scrubs CTCP requests. -/
def scrubbingServer : SmallNet where
  clients := [{ type := .server, id := "irc.a", introducer := 0 },
    { type := .user, id := "alice", user := "a", host := "h", connId := some 1, introducer := 0 },
    { type := .user, id := "bob", user := "b", host := "h", connId := some 2, introducer := 0 }]
  conf := { scrubCTCP := true }

/-- Without a colon before its text, a CTCP request is delivered, and so it is in a NOTICE with a
third parameter. -/
theorem ctcp_without_colon_delivered :
    linesOf (exec 0 (parseRequest 1 "PRIVMSG bob \x01VERSION\x01" []) scrubbingServer.world) =
        [(2, ":alice!a@h PRIVMSG bob :\x01VERSION\x01".toList)] ∧
      linesOf (exec 0 (parseRequest 1 "NOTICE bob \x01VERSION x" []) scrubbingServer.world) =
        [(2, ":alice!a@h NOTICE bob :\x01VERSION".toList)] := by
  decide +kernel

end Ngircd
