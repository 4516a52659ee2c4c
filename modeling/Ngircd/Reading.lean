import Ngircd.Dispatch
import Ngircd.LineFormat

/-!
# Lines on a server link

What a server makes of a line that another one has written to it.  The line is
taken apart into the words it was put together from; its prefix names a client
behind the link, so the handler of its command is called for the client of the
link.
-/

namespace Ngircd

open Lib

variable {ws : List Str} {s t body p name : Str} {r o : ClientRef} {req : Request} {cmd : Command}
  {Q : Bool → World → Prop}

/-! ## Taking lines apart -/

/-- Words with a space between them. -/
def unwords : List Str → Str
  | [] => []
  | [p] => p
  | p :: q :: rest => p ++ ' ' :: unwords (q :: rest)

theorem unwords_head (hne : ws ≠ []) (hmid : ∀ p ∈ ws, IsMiddle p) :
    (unwords ws).head? ≠ some ' ' ∧ unwords ws ≠ [] := by
  match ws with
  | [] => exact absurd rfl hne
  | [p] =>
    obtain ⟨hp, hspace, -⟩ := hmid p (by simp)
    refine ⟨fun h => hspace ?_, hp⟩
    exact List.mem_of_head? h
  | p :: q :: rest =>
    obtain ⟨hp, hspace, -⟩ := hmid p (by simp)
    obtain ⟨c, p', rfl⟩ := List.exists_cons_of_ne_nil hp
    have hc : c ≠ ' ' := fun hc => hspace (by simp [hc])
    simpa [unwords] using hc

/-- Words that could stand in the middle of a line are read as they are, whatever number of
them there is; only so many are taken. -/
theorem splitParams_unwords (after : Str) (hne : ws ≠ [])
    (hmid : ∀ p ∈ ws, IsMiddle p) {n : Nat} (hn : n ≠ 0) :
    (splitParams after n (unwords ws)).1 = ws.take n := by
  induction ws generalizing n with
  | nil => exact absurd rfl hne
  | cons p ws ih =>
    obtain ⟨n, rfl⟩ : ∃ m, n = m + 1 := ⟨n - 1, by omega⟩
    obtain ⟨hp, hspace, hcolon⟩ := hmid p (by simp)
    obtain ⟨c, p', rfl⟩ := List.exists_cons_of_ne_nil hp
    have hc : c ≠ ':' := fun hc => hcolon (by simp [hc])
    cases ws with
    | nil =>
      have hcut : cutAt ' ' (c :: p') = (c :: p', none) := cutAt_of_not_mem hspace
      rw [show unwords [c :: p'] = c :: p' from rfl, splitParams, hcut]
      · simp
      · intro text htext
        exact hc (List.cons.inj htext).1
    | cons q rest =>
      have hrest : ∀ r ∈ q :: rest, IsMiddle r := fun r hr => hmid r (.tail _ hr)
      have hcut : cutAt ' ' (c :: (p' ++ ' ' :: unwords (q :: rest))) =
          (c :: p', some (unwords (q :: rest))) := cutAt_append hspace
      rw [show unwords ((c :: p') :: q :: rest) = c :: (p' ++ ' ' :: unwords (q :: rest)) from rfl,
        splitParams, hcut]
      · by_cases hn0 : n = 0
        · simp [hn0]
        · have hskip := dropWhile_space_of_head (unwords_head (by simp) hrest).1
          simp only [hn0, if_false, hskip, List.take_succ_cons]
          rw [← ih (by simp) hrest hn0]
      · intro text htext
        exact hc (List.cons.inj htext).1

theorem mem_unwords {c : Char} (hc : c ≠ ' ') (h : c ∈ unwords ws) :
    ∃ p ∈ ws, c ∈ p := by
  induction ws with
  | nil => exact nomatch h
  | cons p ws ih =>
    cases ws with
    | nil => exact ⟨p, .head _, h⟩
    | cons q rest =>
      rw [unwords, List.mem_append, List.mem_cons] at h
      obtain h | h | h := h
      · exact ⟨p, .head _, h⟩
      · exact absurd h hc
      · obtain ⟨p', hp', hmem⟩ := ih h
        exact ⟨p', List.mem_cons_of_mem p hp', hmem⟩

/-- A text without the blanks at its end. -/
def trimEnd (s : Str) : Str := (s.reverse.dropWhile isBlank).reverse

theorem trimEnd_of_last (h : ∀ c ∈ s.getLast?, isBlank c = false) : trimEnd s = s := by
  unfold trimEnd
  rw [dropWhile_blank_of_head (by simpa using h), List.reverse_reverse]

theorem trimEnd_append (s : Str) (h : trimEnd t ≠ []) : trimEnd (s ++ t) = s ++ trimEnd t := by
  have hdrop : (t.reverse.dropWhile isBlank).isEmpty = false := by simpa [trimEnd] using h
  simp [trimEnd, List.dropWhile_append, hdrop]

theorem trimEnd_colon (s : Str) : trimEnd (':' :: s) = ':' :: trimEnd s := by
  by_cases h : trimEnd s = []
  · have hdrop : s.reverse.dropWhile isBlank = [] := by simpa [trimEnd] using h
    rw [h]
    simp [trimEnd, List.dropWhile_append, hdrop, isBlank]
  · exact trimEnd_append [':'] h

theorem trimEnd_isPrefix (s : Str) : trimEnd s <+: s := by
  rw [trimEnd, ← List.reverse_suffix, List.reverse_reverse]
  exact List.dropWhile_suffix _

instance : DecidablePred IsMiddle :=
  fun p => inferInstanceAs (Decidable (p ≠ [] ∧ ' ' ∉ p ∧ p.head? ≠ some ':'))

theorem isMiddle_natStr (n : Nat) : IsMiddle (natStr n) := by
  refine ⟨natStr_ne_nil n, fun hspace => ?_, fun hcolon => ?_⟩
  · exact absurd (isDigit_of_mem_natStr hspace) (by decide)
  · exact absurd (isDigit_of_mem_natStr (List.mem_of_mem_head? hcolon)) (by decide)

/-- A line with a prefix. -/
def prefixed (p body : Str) : Str := ':' :: (p ++ ' ' :: body)

theorem format_prefixed (p body : Str) : format ":%s %s" [p, body] = prefixed p body := by
  simp [format, prefixed]

theorem trimStr_prefixed (p : Str) (hne : trimEnd body ≠ []) :
    trimStr (prefixed p body) = prefixed p (trimEnd body) := by
  have hshape (t : Str) : prefixed p t = (':' :: p ++ [' ']) ++ t := by simp [prefixed]
  have hhead : (prefixed p body).dropWhile isBlank = prefixed p body :=
    dropWhile_blank_of_head fun c hc => by
      obtain rfl : ':' = c := by simpa [prefixed] using hc
      rfl
  rw [trimStr_eq, hhead]
  change trimEnd (prefixed p body) = prefixed p (trimEnd body)
  rw [hshape body, trimEnd_append _ hne, hshape]

theorem trimStr_prefixed_cons (p body : Str) :
    trimStr (prefixed p body) = ':' :: trimEnd (p ++ ' ' :: body) := by
  have hhead : (prefixed p body).dropWhile isBlank = prefixed p body :=
    dropWhile_blank_of_head fun c hc => by
      obtain rfl : ':' = c := by simpa [prefixed] using hc
      rfl
  rw [trimStr_eq, hhead, ← trimEnd_colon]
  rfl

theorem trimStr_prefixed_ne (p body : Str) : trimStr (prefixed p body) ≠ [] := by
  rw [trimStr_prefixed_cons]
  exact List.cons_ne_nil _ _

/-- A word that can stand anywhere in a line. -/
structure IsWord (s : Str) : Prop where
  ne : s ≠ []
  space : ' ' ∉ s
  colon : ':' ∉ s
  last : ∀ c ∈ s.getLast?, isBlank c = false

theorem IsWord.middle (h : IsWord s) : IsMiddle s :=
  ⟨h.ne, h.space, fun hhead => h.colon (List.mem_of_mem_head? hhead)⟩

/-- A word of letters from an alphabet. -/
theorem isWord_of_letters (letters : Str) (hne : s ≠ []) (h : ∀ x ∈ s, x ∈ letters)
    (hletters : ∀ x ∈ letters, x ≠ ' ' ∧ x ≠ ':' ∧ isBlank x = false) : IsWord s where
  ne := hne
  space hmem := (hletters _ (h _ hmem)).1 rfl
  colon hmem := (hletters _ (h _ hmem)).2.1 rfl
  last x hx := (hletters x (h x (List.mem_of_getLast? hx))).2.2

/-- Without a colon there is no CTCP command in a line. -/
theorem scrubCTCP_of_not_mem (hp : ':' ∉ p) (hbody : ':' ∉ body) :
    scrubCTCP (trimStr (prefixed p body)) = false := by
  have hcolon : ∀ c ∈ trimEnd (p ++ ' ' :: body), (c != ':') = true := by
    intro c hc
    have hmem := (trimEnd_isPrefix _).subset hc
    simp only [List.mem_append, List.mem_cons] at hmem
    obtain hmem | rfl | hmem := hmem
    · exact bne_iff_ne.mpr fun heq => hp (heq ▸ hmem)
    · decide
    · exact bne_iff_ne.mpr fun heq => hbody (heq ▸ hmem)
  have hdrop : (trimEnd (p ++ ' ' :: body)).dropWhile (· != ':') = [] :=
    List.dropWhile_eq_nil_iff.mpr hcolon
  rw [trimStr_prefixed_cons]
  simp [scrubCTCP, hdrop]

/-- A line is read as the prefix and the text it was put together from, but for blanks at its
end. -/
theorem requestOf_prefixed (hp : ' ' ∉ p) (hhead : body.head? ≠ some ' ')
    (hne : trimEnd body ≠ []) (after : Str) :
    ∃ rest, requestOf (prefixed p body) after =
      some (splitCommand (some p) (trimEnd body) rest) := by
  have hcut : cutAt ' ' (prefixed p (trimEnd body)) = (':' :: p, some (trimEnd body)) := by
    have hcolon : ' ' ∉ ':' :: p := by simpa using hp
    exact cutAt_append hcolon
  have hhead' : (trimEnd body).head? ≠ some ' ' := by
    obtain ⟨tail, htail⟩ := trimEnd_isPrefix body
    rwa [← htail, List.head?_append_of_ne_nil _ hne] at hhead
  refine ⟨trimmedRest (prefixed p body) after, ?_⟩
  unfold requestOf splitRequest
  rw [trimStr_prefixed p hne]
  simp only [prefixed] at hcut ⊢
  simp [hcut, dropWhile_space_of_head hhead']

section

variable {command : Str}

theorem command_body_head (hcommand : command ≠ [] ∧ ' ' ∉ command) (text : Str) :
    (command ++ ' ' :: text).head? ≠ some ' ' := by
  obtain ⟨hne, hspace⟩ := hcommand
  obtain ⟨c, rest, rfl⟩ := List.exists_cons_of_ne_nil hne
  have hc : c ≠ ' ' := fun hc => hspace (by simp [hc])
  simpa using hc

theorem unwords_getLast (hne : ws ≠ []) (hmid : ∀ p ∈ ws, IsMiddle p) :
    ∃ l, ws.getLast? = some l ∧ (unwords ws).getLast? = l.getLast? := by
  induction ws with
  | nil => exact absurd rfl hne
  | cons q ws ih =>
    cases ws with
    | nil => exact ⟨q, rfl, rfl⟩
    | cons r rest =>
      have hrest : ∀ s ∈ r :: rest, IsMiddle s := fun s hs => hmid s (.tail _ hs)
      obtain ⟨l, hl, hlast⟩ := ih (by simp) hrest
      have hne' := (unwords_head (by simp) hrest).2
      refine ⟨l, by simpa using hl, ?_⟩
      rw [unwords, List.getLast?_append_of_ne_nil _ (by simp),
        List.getLast?_cons_of_ne_nil hne', hlast]

/-- A command with words that could all stand in the middle of a line. -/
theorem requestOf_words (hp : ' ' ∉ p) (hcommand : command ≠ [] ∧ ' ' ∉ command) (hne : ws ≠ [])
    (hmid : ∀ q ∈ ws, IsMiddle q)
    (hlast : ∀ l ∈ ws.getLast?, ∀ c ∈ l.getLast?, isBlank c = false) (after : Str) :
    ∃ beyond, requestOf (prefixed p (command ++ ' ' :: unwords ws)) after =
      some { pfx := some p, command, argv := ws.take 15, beyond } := by
  have hwords := unwords_head hne hmid
  obtain ⟨l, hl, hend⟩ := unwords_getLast hne hmid
  have htrim : trimEnd (command ++ ' ' :: unwords ws) = command ++ ' ' :: unwords ws := by
    refine trimEnd_of_last fun c hc => hlast l hl c ?_
    rwa [List.getLast?_append_of_ne_nil _ (by simp), List.getLast?_cons_of_ne_nil hwords.2, hend] at hc
  obtain ⟨rest, hreq⟩ := requestOf_prefixed hp (command_body_head hcommand (unwords ws))
    (by rw [htrim]; simp) after
  refine ⟨(splitParams rest 15 (unwords ws)).2, ?_⟩
  rw [hreq, htrim, splitCommand, cutAt_append hcommand.2]
  simp only [dropWhile_space_of_head hwords.1, splitParams_unwords rest hne hmid (n := 15) (by simp)]

theorem renderParams_snoc (ws : List Str) (text : Str) :
    renderParams (ws ++ [text]) = ws.flatMap (· ++ [' ']) ++ ':' :: text := by
  induction ws with
  | nil => rfl
  | cons q ws ih =>
    have hne : ws ++ [text] ≠ [] := by simp
    obtain ⟨r, rest, hrest⟩ := List.exists_cons_of_ne_nil hne
    rw [List.cons_append, hrest, renderParams, ← hrest, ih]
    simp

/-- A command whose last parameter is marked by a colon. -/
theorem requestOf_trailing (hp : ' ' ∉ p) (hcommand : command ≠ [] ∧ ' ' ∉ command)
    (hmid : ∀ q ∈ ws, IsMiddle q) (hcount : ws.length < 15) (text after : Str) :
    ∃ beyond, requestOf (prefixed p (command ++ ' ' :: renderParams (ws ++ [text]))) after =
      some { pfx := some p, command, argv := ws ++ [trimEnd text], beyond } := by
  have htrim : trimEnd (command ++ ' ' :: renderParams (ws ++ [text])) =
      command ++ ' ' :: renderParams (ws ++ [trimEnd text]) := by
    have hsplit (t : Str) : command ++ ' ' :: renderParams (ws ++ [t]) =
        (command ++ ' ' :: ws.flatMap (· ++ [' '])) ++ ':' :: t := by
      simp [renderParams_snoc]
    rw [hsplit, trimEnd_append _ (by simp [trimEnd_colon]), trimEnd_colon, ← hsplit]
  have hne : ws ++ [trimEnd text] ≠ [] := by simp
  have hmid' : ∀ q ∈ (ws ++ [trimEnd text]).dropLast, IsMiddle q := by simpa using hmid
  have hlength : (ws ++ [trimEnd text]).length ≤ 15 := by
    simp only [List.length_append, List.length_singleton]
    omega
  obtain ⟨rest, hreq⟩ := requestOf_prefixed hp
    (command_body_head hcommand (renderParams (ws ++ [text]))) (by rw [htrim]; simp) after
  refine ⟨rest, ?_⟩
  rw [hreq, htrim, splitCommand, cutAt_append hcommand.2]
  simp only [dropWhile_space_of_head (renderParams_head hne hmid'),
    splitParams_renderParams rest hne hmid' hlength]

end

/-! ## Handling them -/

/-- The connection `i` is a link to a server, which is the client `r`. -/
structure World.ServerLink (w : World) (i : ConnId) (r : ClientRef) : Prop where
  has : ∃ c, w.Has i r c ∧ c.type = .server

/-- The client with this name is behind the link. -/
def World.BehindLink (w : World) (r : ClientRef) (name : Str) (o : ClientRef) : Prop :=
  w.clientSearch name = some o ∧ w.nextHop o = .ok r

/-- The state once a command has been counted. -/
def World.withCounts (w : World) (counts : Str → Nat × Nat × Nat) : World :=
  { w with misc := { w.misc with cmdCounts := counts } }

section

variable {K : Closing} {E : Fault → Prop} {w : World} {i : ConnId}

variable (hlink : w.ServerLink i r)
include hlink

theorem validatePrefix_link
    (hpfx : req.pfx = some name) (hbehind : w.BehindLink r name o)
    {Q : Except Bool Request → World → Prop} (hQ : Q (.ok req) w) :
    (validatePrefix i req).wp (plainWp K E) Q w := by
  obtain ⟨c, hhas, htype⟩ := hlink.has
  unfold validatePrefix
  simp only [wp_msg, wp_clientOf_of_some hhas.client, wp_deref, onClient_of_some hhas.cell,
    wp_getWorld, hpfx, htype, hbehind.1, wp_nextHop_of_ok hbehind.2, if_true]
  exact hQ

/-- A request with a prefix from behind the link is handled for the server of the link. -/
theorem handleRequest_link (hlength : req.command.length ≠ 3)
    (hfind : findCommand req.command = some cmd) (hmask : cmd.mask.allows .server = true)
    (hargc : cmd.minArgc ≤ req.argc ∧ ∀ m ∈ cmd.maxArgc, req.argc ≤ m)
    (hcall : (callHandler r req cmd.handler).wp (fullWp K E)
      (fun b w' => ∀ counts, Q b (w'.withCounts counts)) w) :
    (handleRequest i req).wp (fullWp K E) Q w := by
  obtain ⟨c, hhas, htype⟩ := hlink.has
  have hargs : ¬(req.argc < cmd.minArgc ∨ cmd.maxArgc.any (· < req.argc)) := by
    simp only [not_or, Nat.not_lt, Option.any_eq_true, decide_eq_true_eq, not_exists, not_and]
    exact ⟨hargc.1, fun m hm => hargc.2 m hm⟩
  -- A server gets no penalty.
  have hpenalty {Q' : Unit → World → Prop} (hQ' : Q' () w) :
      (ircSetPenalty r cmd.penalty).wp (msgWp K E) Q' w := by
    unfold ircSetPenalty
    simp only [Prog.wp_bind, wp_deref, onClient_of_some hhas.cell, htype, if_true]
    exact hQ'
  unfold handleRequest
  simp only [wp_msg, wp_clientOf_of_some hhas.client, wp_clientType, onClient_of_some hhas.cell,
    htype, hlength, false_and, and_false, if_false, hfind]
  unfold handleCommand
  rw [if_neg (by simp [hmask])]
  by_cases hpen : cmd.penalty ≠ 0
  on_goal 1 =>
    simp only [if_pos hpen, wp_msg]
    refine hpenalty ?_
  all_goals
    simp only [hpen, if_false, if_neg hargs, wp_msg, wp_getWorld, liftM_basic_full, countCommand,
      liftM_leave_basic]
    exact Prog.wp_mono (fun b w' h => h _) hcall

/-- What a line from behind the link is read as is what is handled. -/
theorem parseRequest_link {line after : Str}
    (hreq : requestOf line after = some req) (hnonempty : trimStr line ≠ [])
    (hscrub : (w.conf.scrubCTCP && scrubCTCP (trimStr line)) = false)
    (hpfx : req.pfx = some name) (hbehind : w.BehindLink r name o)
    (hlength : req.command.length ≠ 3) (hfind : findCommand req.command = some cmd)
    (hmask : cmd.mask.allows .server = true)
    (hargc : cmd.minArgc ≤ req.argc ∧ ∀ m ∈ cmd.maxArgc, req.argc ≤ m)
    (hcall : (callHandler r req cmd.handler).wp (fullWp K E)
      (fun b w' => ∀ counts, Q b (w'.withCounts counts)) w) :
    (parseRequest i line after).wp (fullWp K E) Q w := by
  have hempty : (trimStr line).isEmpty = false := by simpa using hnonempty
  have hsplit : splitRequest (trimStr line) (trimmedRest line after) = some req := hreq
  unfold parseRequest
  simp only [hempty, Bool.false_eq_true, if_false, wp_msg, wp_getWorld, hscrub, hsplit,
    liftM_plain_full]
  refine validatePrefix_link hlink hpfx hbehind ?_
  exact handleRequest_link hlink hlength hfind hmask hargc hcall

end

end Ngircd
