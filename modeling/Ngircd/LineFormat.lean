import Mathlib.Data.List.TakeWhile
import Ngircd.Daemon
import Ngircd.Logic

/-!
# The format of lines

A message is written as an optional prefix, a command and parameters, of which
the last one is marked by a colon.  Taking a line apart gives back the message
it was written from, and whatever line is taken apart, only the last parameter
can be empty, hold spaces or start with a colon.
-/

namespace Ngircd

open Lib

variable {c : Char} {s rest command a start : Str} {params : List Str}

/-! ## Writing messages -/

/-- A parameter that is not the last one. -/
def IsMiddle (p : Str) : Prop := p ≠ [] ∧ ' ' ∉ p ∧ p.head? ≠ some ':'

/-- A message that can be written as a line. -/
structure Message where
  pfx : Option Str
  command : Str
  params : List Str
  pfx_ok : ∀ p ∈ pfx, p ≠ [] ∧ ' ' ∉ p
  command_ok : command ≠ [] ∧ ' ' ∉ command ∧ '\t' ∉ command ∧ command.head? ≠ some ':'
  count_ok : params.length ≤ 15
  middle_ok : ∀ p ∈ params.dropLast, IsMiddle p
  last_ok : ∀ p ∈ params.getLast?, p.getLast? ≠ some ' ' ∧ p.getLast? ≠ some '\t'
  clean : ∀ s ∈ pfx.toList ++ command :: params, nul ∉ s ∧ '\r' ∉ s ∧ '\n' ∉ s

/-- The parameters of a line. -/
def renderParams : List Str → Str
  | [] => []
  | [p] => ':' :: p
  | p :: q :: rest => p ++ ' ' :: renderParams (q :: rest)

/-- Command and parameters. -/
def renderCommand (command : Str) (params : List Str) : Str :=
  if params.isEmpty then command else command ++ ' ' :: renderParams params

/-- A message as a line, without its end mark. -/
def Message.render (m : Message) : Str :=
  match m.pfx with
  | none => renderCommand m.command m.params
  | some p => ':' :: (p ++ ' ' :: renderCommand m.command m.params)

/-! ## Reading them back -/

theorem cutAt_of_not_mem (h : c ∉ s) : cutAt c s = (s, none) := by
  have hkeep : s.dropWhile (· != c) = [] := by
    rw [List.dropWhile_eq_nil_iff]
    intro x hx
    have hne : x ≠ c := fun hxc => h (hxc ▸ hx)
    simpa using hne
  simp [cutAt, hkeep]

theorem cutAt_append (h : c ∉ s) :
    cutAt c (s ++ c :: rest) = (s, some rest) := by
  have hall : ∀ x ∈ s, (x != c) = true := by
    intro x hx
    have hne : x ≠ c := fun hxc => h (hxc ▸ hx)
    simpa using hne
  have hdrop : (s ++ c :: rest).dropWhile (· != c) = c :: rest := by
    rw [List.dropWhile_append_of_pos hall]
    simp
  have htake : (s ++ c :: rest).takeWhile (· != c) = s := by
    rw [List.takeWhile_append_of_pos hall]
    simp
  simp [cutAt, hdrop, htake]

/-- A text that does not start with a space loses nothing. -/
theorem dropWhile_space_of_head (h : s.head? ≠ some ' ') :
    s.dropWhile (· == ' ') = s := by
  cases s with
  | nil => rfl
  | cons c s =>
    have hc : c ≠ ' ' := fun hc => h (by simp [hc])
    simp [hc]

/-- The text of parameters does not start with a space. -/
theorem renderParams_head (hne : params ≠ [])
    (hmid : ∀ p ∈ params.dropLast, IsMiddle p) :
    (renderParams params).head? ≠ some ' ' := by
  match params with
  | [] => exact absurd rfl hne
  | [p] => simp [renderParams]
  | p :: q :: rest =>
    obtain ⟨hp, hspace, -⟩ := hmid p (by simp)
    obtain ⟨c, p', rfl⟩ := List.exists_cons_of_ne_nil hp
    have hc : c ≠ ' ' := fun hc => hspace (by simp [hc])
    simpa [renderParams] using hc

theorem splitParams_renderParams (after : Str) (hne : params ≠ [])
    (hmid : ∀ p ∈ params.dropLast, IsMiddle p)
    {n : Nat} (hn : params.length ≤ n) :
    splitParams after n (renderParams params) = (params, after) := by
  induction params generalizing n with
  | nil => exact absurd rfl hne
  | cons p params ih =>
    obtain ⟨n, rfl⟩ : ∃ m, n = m + 1 := ⟨n - 1, by simp at hn; omega⟩
    cases params with
    | nil => simp [renderParams, splitParams]
    | cons q rest =>
      obtain ⟨hp, hspace, hcolon⟩ := hmid p (by simp)
      have hrest : ∀ r ∈ (q :: rest).dropLast, IsMiddle r :=
        fun r hr => hmid r (by simpa using Or.inr hr)
      have hcut : cutAt ' ' (renderParams (p :: q :: rest)) =
          (p, some (renderParams (q :: rest))) := cutAt_append hspace
      have hlength : (q :: rest).length ≤ n := by simpa using hn
      have hn0 : n ≠ 0 := by
        intro h0
        simp [h0] at hlength
      obtain ⟨c, p', rfl⟩ := List.exists_cons_of_ne_nil hp
      have hc : c ≠ ':' := fun hc => hcolon (by simp [hc])
      have hstart : renderParams ((c :: p') :: q :: rest) =
          c :: (p' ++ ' ' :: renderParams (q :: rest)) := rfl
      rw [hstart] at hcut ⊢
      rw [splitParams, hcut]
      · simp only [hn0, if_false]
        rw [dropWhile_space_of_head (renderParams_head (by simp) hrest), ih (by simp) hrest hlength]
      · intro text htext
        exact hc (List.cons.inj htext).1

theorem splitCommand_renderCommand (pfx : Option Str) (after : Str)
    (hcommand : ' ' ∉ command) (hcount : params.length ≤ 15)
    (hmid : ∀ p ∈ params.dropLast, IsMiddle p) :
    ∃ beyond, splitCommand pfx (renderCommand command params) after =
      { pfx, command, argv := params, beyond } := by
  by_cases hne : params = []
  · subst hne
    exact ⟨[], by simp [renderCommand, splitCommand, cutAt_of_not_mem hcommand]⟩
  · refine ⟨after, ?_⟩
    have hcut : cutAt ' ' (renderCommand command params) =
        (command, some (renderParams params)) := by
      simp [renderCommand, hne, cutAt_append hcommand]
    rw [splitCommand, hcut]
    dsimp only
    rw [dropWhile_space_of_head (renderParams_head hne hmid),
      splitParams_renderParams after hne hmid hcount]

/-! ### Trimming -/

/-- The characters `ngt_TrimStr` removes. -/
def isBlank (c : Char) : Bool := c == ' ' || c == '\t' || c == '\n' || c == '\r'

theorem trimStr_eq (s : Str) :
    trimStr s = ((s.dropWhile isBlank).reverse.dropWhile isBlank).reverse := rfl

theorem dropWhile_blank_of_head (h : ∀ c ∈ s.head?, isBlank c = false) :
    s.dropWhile isBlank = s := by
  cases s with
  | nil => rfl
  | cons c s => simp [h c rfl]

/-- A line that neither starts nor ends with a blank is left alone. -/
theorem trimStr_of_ends (hhead : ∀ c ∈ s.head?, isBlank c = false)
    (hlast : ∀ c ∈ s.getLast?, isBlank c = false) : trimStr s = s := by
  rw [trimStr_eq, dropWhile_blank_of_head hhead,
    dropWhile_blank_of_head (by simpa using hlast), List.reverse_reverse]

theorem isBlank_eq_false (h : c ≠ ' ' ∧ c ≠ '\t' ∧ c ≠ '\r' ∧ c ≠ '\n') :
    isBlank c = false := by
  simp [isBlank, h.1, h.2.1, h.2.2.1, h.2.2.2]

/-- The last character of parameters is the one of the last parameter, or its
colon. -/
theorem renderParams_getLast (hne : params ≠ []) :
    (renderParams params).getLast? = some ':' ∨
      ∃ p ∈ params.getLast?, (renderParams params).getLast? = p.getLast? ∧ p ≠ [] := by
  induction params with
  | nil => exact absurd rfl hne
  | cons p params ih =>
    cases params with
    | nil =>
      cases p with
      | nil => exact .inl rfl
      | cons c p => exact .inr ⟨c :: p, rfl, by simp [renderParams], by simp⟩
    | cons q rest =>
      have hlast : (renderParams (p :: q :: rest)).getLast? =
          (renderParams (q :: rest)).getLast? := by
        have hne' : renderParams (q :: rest) ≠ [] := by
          cases rest <;> simp [renderParams]
        rw [renderParams, List.getLast?_append_of_ne_nil _ (by simp),
          List.getLast?_cons_of_ne_nil hne']
      rw [hlast, List.getLast?_cons_of_ne_nil (by simp)]
      exact ih (by simp)

namespace Message

variable (m : Message)

theorem not_blank_of_mem (hs : s ∈ m.pfx.toList ++ m.command :: m.params)
    (hc : c ∈ s) (hspace : c ≠ ' ') (htab : c ≠ '\t') : isBlank c = false := by
  obtain ⟨-, hcr, hlf⟩ := m.clean s hs
  exact isBlank_eq_false ⟨hspace, htab, fun h => hcr (h ▸ hc), fun h => hlf (h ▸ hc)⟩

theorem command_not_blank (hc : c ∈ m.command) : isBlank c = false := by
  obtain ⟨-, hspace, htab, -⟩ := m.command_ok
  exact m.not_blank_of_mem (by simp) hc (fun h => hspace (h ▸ hc)) (fun h => htab (h ▸ hc))

/-- The text from the command on ends with no blank. -/
theorem renderCommand_getLast :
    ∀ c ∈ (renderCommand m.command m.params).getLast?, isBlank c = false := by
  intro c hc
  by_cases hne : m.params = []
  · simp only [renderCommand, hne, List.isEmpty_nil, if_true] at hc
    exact m.command_not_blank (List.mem_of_getLast? hc)
  · have hparams : renderParams m.params ≠ [] := by
      intro h
      rcases renderParams_getLast hne with hl | ⟨p, hp, hl, hp0⟩
      · simp [h] at hl
      · simp [h, eq_comm, hp0] at hl
    have hlast : (renderCommand m.command m.params).getLast? =
        (renderParams m.params).getLast? := by
      simp only [renderCommand, List.isEmpty_iff, hne, if_false]
      rw [List.getLast?_append_of_ne_nil _ (by simp), List.getLast?_cons_of_ne_nil hparams]
    rw [hlast] at hc
    rcases renderParams_getLast hne with hl | ⟨p, hp, hl, -⟩
    · rw [hl] at hc
      obtain rfl := Option.some.inj hc
      rfl
    · rw [hl] at hc
      obtain ⟨hspace, htab⟩ := m.last_ok p hp
      have hmem : p ∈ m.pfx.toList ++ m.command :: m.params := by
        simp [List.mem_of_getLast? hp]
      refine m.not_blank_of_mem hmem (List.mem_of_getLast? hc) ?_ ?_
      · rintro rfl
        exact hspace hc
      · rintro rfl
        exact htab hc

theorem renderCommand_ne_nil : renderCommand m.command m.params ≠ [] := by
  have h := m.command_ok.1
  unfold renderCommand
  split
  · exact h
  · simp

/-- A line that has been written needs no trimming. -/
theorem trimStr_render : trimStr m.render = m.render := by
  have hlast := m.renderCommand_getLast
  cases hp : m.pfx with
  | none =>
    have hrender : m.render = renderCommand m.command m.params := by simp [render, hp]
    rw [hrender]
    refine trimStr_of_ends (fun c hc => ?_) hlast
    obtain ⟨d, rest, hd⟩ := List.exists_cons_of_ne_nil m.command_ok.1
    have hcd : c = d := by
      unfold renderCommand at hc
      split at hc <;> simpa [hd, eq_comm] using hc
    exact m.command_not_blank (by simp [hd, hcd])
  | some p =>
    have hrender : m.render = ':' :: (p ++ ' ' :: renderCommand m.command m.params) := by
      simp [render, hp]
    rw [hrender]
    refine trimStr_of_ends (fun c hc => ?_) (fun c hc => ?_)
    · obtain rfl : ':' = c := by simpa using hc
      rfl
    · rw [List.getLast?_cons_of_ne_nil (by simp), List.getLast?_append_of_ne_nil _ (by simp),
        List.getLast?_cons_of_ne_nil m.renderCommand_ne_nil] at hc
      exact hlast c hc

/-- The text from the command on does not start with a space or a colon. -/
theorem renderCommand_head :
    (renderCommand m.command m.params).head? ≠ some ' ' ∧
      (renderCommand m.command m.params).head? ≠ some ':' := by
  obtain ⟨hne, hspace, -, hcolon⟩ := m.command_ok
  obtain ⟨d, rest, hd⟩ := List.exists_cons_of_ne_nil hne
  have hhead : (renderCommand m.command m.params).head? = some d := by
    unfold renderCommand
    split <;> simp [hd]
  rw [hhead]
  refine ⟨fun h => hspace ?_, fun h => hcolon ?_⟩
  · simp [hd, Option.some.inj h]
  · simp [hd, Option.some.inj h]

/-- Splitting a line gives back the message. -/
theorem splitRequest_render (after : Str) :
    ∃ beyond, splitRequest m.render after =
      some { pfx := m.pfx, command := m.command, argv := m.params, beyond } := by
  obtain ⟨hspace, hcolon⟩ := m.renderCommand_head
  have hsplit (pfx : Option Str) := splitCommand_renderCommand pfx after m.command_ok.2.1
    m.count_ok m.middle_ok
  cases hp : m.pfx with
  | none =>
    obtain ⟨beyond, hbeyond⟩ := hsplit none
    refine ⟨beyond, ?_⟩
    simp only [render, hp]
    unfold splitRequest
    split
    · rename_i rest hrest
      exact absurd (by rw [hrest]; rfl) hcolon
    · rw [hbeyond]
  | some p =>
    obtain ⟨beyond, hbeyond⟩ := hsplit (some p)
    refine ⟨beyond, ?_⟩
    have hcut : cutAt ' ' (':' :: (p ++ ' ' :: renderCommand m.command m.params)) =
        (':' :: p, some (renderCommand m.command m.params)) := by
      have hmem : ' ' ∉ ':' :: p := by
        simpa using (m.pfx_ok p hp).2
      exact cutAt_append hmem
    simp only [render, hp, splitRequest, hcut, List.tail_cons, dropWhile_space_of_head hspace,
      hbeyond]

end Message

/-! ## What is read -/

/-- A text that is left when spaces have been skipped in a trimmed line. -/
structure Trimmed (s : Str) : Prop where
  ne_nil : s ≠ []
  head : s.head? ≠ some ' '
  last : s.getLast? ≠ some ' '

theorem cutAt_some (h : cutAt c s = (a, some rest)) :
    s = a ++ c :: rest ∧ c ∉ a := by
  unfold cutAt at h
  split at h
  · exact nomatch (Prod.mk.inj h).2
  · rename_i d tail hdrop
    obtain ⟨ha, hrest⟩ := Prod.mk.inj h
    obtain rfl : tail = rest := Option.some.inj hrest
    have hd : d = c := by
      have hhead := List.head?_dropWhile_not (· != c) s
      rw [hdrop] at hhead
      simpa using hhead
    subst hd
    refine ⟨?_, fun hmem => ?_⟩
    · rw [← ha, ← hdrop, List.takeWhile_append_dropWhile]
    · rw [← ha] at hmem
      have hne := List.mem_takeWhile_imp hmem
      simp at hne

/-- After a space there is more text, for the line does not end with one. -/
theorem Trimmed.skip (hlast : (a ++ ' ' :: rest).getLast? ≠ some ' ') :
    Trimmed (rest.dropWhile (· == ' ')) := by
  have hsplit := List.takeWhile_append_dropWhile (p := (· == ' ')) (l := rest)
  have hne : rest.dropWhile (· == ' ') ≠ [] := by
    intro hnil
    apply hlast
    rw [List.dropWhile_eq_nil_iff] at hnil
    rw [List.getLast?_append_of_ne_nil _ (by simp)]
    cases hr : rest.getLast? with
    | none =>
      have hrest : rest = [] := by simpa using hr
      simp [hrest]
    | some c =>
      have hc : c = ' ' := by simpa using hnil c (List.mem_of_getLast? hr)
      have hrest : rest ≠ [] := by
        intro h0
        simp [h0] at hr
      rw [List.getLast?_cons_of_ne_nil hrest, hr, hc]
  refine ⟨hne, fun hhead => ?_, fun h => hlast ?_⟩
  · have hnot := List.head?_dropWhile_not (· == ' ') rest
    rw [hhead] at hnot
    simp at hnot
  · rw [List.getLast?_append_of_ne_nil _ (by simp), ← hsplit, ← List.cons_append,
      List.getLast?_append_of_ne_nil _ hne]
    exact h

/-- At most `n` parameters are read, and all but the last one are middle ones. -/
theorem splitParams_spec (after : Str) (n : Nat) (hstart : Trimmed start) :
    (splitParams after n start).1.length ≤ n ∧
      (n ≠ 0 → (splitParams after n start).1 ≠ []) ∧
      ∀ p ∈ (splitParams after n start).1.dropLast, IsMiddle p := by
  induction n generalizing start with
  | zero => simp [splitParams]
  | succ n ih =>
    obtain ⟨c, start', rfl⟩ := List.exists_cons_of_ne_nil hstart.ne_nil
    by_cases hcolon : c = ':'
    · subst hcolon
      simp [splitParams]
    · rw [splitParams]
      · cases hcut : cutAt ' ' (c :: start') with
        | mk arg rest =>
          cases rest with
          | none => simp
          | some rest =>
            obtain ⟨htext, hspace⟩ := cutAt_some hcut
            -- The parameter starts where the text starts.
            have hmiddle : IsMiddle arg := by
              cases arg with
              | nil =>
                have hc : c = ' ' := (List.cons.inj htext).1
                exact absurd (by rw [hc]; rfl) hstart.head
              | cons d arg =>
                have hc : c = d := (List.cons.inj htext).1
                exact ⟨by simp, hspace, by simpa [← hc] using hcolon⟩
            have hlast : (arg ++ ' ' :: rest).getLast? ≠ some ' ' := by
              rw [← htext]
              exact hstart.last
            by_cases hn : n = 0
            · simp [hn]
            · obtain ⟨hlength, hne, hargs⟩ := ih (Trimmed.skip hlast)
              simp only [hn, if_false, List.length_cons, Nat.add_le_add_iff_right, ne_eq,
                reduceCtorEq, not_false_eq_true, implies_true, true_and]
              refine ⟨hlength, fun p hp => ?_⟩
              rw [List.dropLast_cons_of_ne_nil (hne hn)] at hp
              rcases List.mem_cons.mp hp with rfl | hp
              · exact hmiddle
              · exact hargs p hp
      · intro text htext
        exact hcolon (List.cons.inj htext).1

theorem splitCommand_spec (pfx : Option Str) (hlast : start.getLast? ≠ some ' ')
    (after : Str) :
    (splitCommand pfx start after).argv.length ≤ 15 ∧
      ∀ p ∈ (splitCommand pfx start after).argv.dropLast, IsMiddle p := by
  unfold splitCommand
  cases hcut : cutAt ' ' start with
  | mk command rest =>
    cases rest with
    | none => simp
    | some rest =>
      obtain ⟨htext, -⟩ := cutAt_some hcut
      rw [htext] at hlast
      obtain ⟨hlength, -, hargs⟩ := splitParams_spec after 15 (Trimmed.skip hlast)
      exact ⟨hlength, hargs⟩

theorem trimStr_getLast (line : Str) : (trimStr line).getLast? ≠ some ' ' := by
  intro h
  have hnot := List.head?_dropWhile_not isBlank (line.dropWhile isBlank).reverse
  rw [trimStr_eq, List.getLast?_reverse] at h
  rw [h] at hnot
  simp [isBlank] at hnot

/-- The request a line stands for, as `Parse_Request` takes it apart. -/
def requestOf (line after : Str) : Option Request :=
  splitRequest (trimStr line) (trimmedRest line after)

theorem requestOf_spec {line after : Str} {req : Request} (h : requestOf line after = some req) :
    req.argc ≤ 15 ∧ ∀ p ∈ req.argv.dropLast, IsMiddle p := by
  have hlast := trimStr_getLast line
  unfold requestOf splitRequest at h
  split at h
  · rename_i tail hline
    cases hcut : cutAt ' ' (trimStr line) with
    | mk pfx rest =>
      cases rest with
      | none => simp [hcut] at h
      | some rest =>
        obtain ⟨htext, -⟩ := cutAt_some hcut
        rw [htext] at hlast
        simp only [hcut, Option.some.injEq] at h
        rw [← h]
        exact splitCommand_spec _ (Trimmed.skip hlast).last _
  · rw [← Option.some.inj h]
    exact splitCommand_spec _ hlast _

/-- What `Parse_Request` does with the request it has read. -/
def processRequest (i : ConnId) (req : Request) : Full Bool := do
  match ← validatePrefix i req with
  | .error result => return result
  | .ok req => handleRequest i req

theorem Message.render_ne_nil (m : Message) : m.render ≠ [] := by
  cases hp : m.pfx with
  | none => simpa [render, hp] using m.renderCommand_ne_nil
  | some p => simp [render, hp]

/-- Parsing inverts rendering: with no scrubbing of CTCP, the line of a message
is handled as the request with its prefix, command and parameters.  And whatever
line is read, there are at most fifteen parameters, and only the last one can be
empty, hold a space or start with a colon. -/
theorem parse_inverts_render :
    (∀ (m : Message) (after : Str), ∃ beyond,
      requestOf m.render after =
        some { pfx := m.pfx, command := m.command, argv := m.params, beyond } ∧
      ∀ (w : World) (i : ConnId) (n : Nat), w.conf.scrubCTCP = false →
        exec n (parseRequest i m.render after) w = exec n (processRequest i
          { pfx := m.pfx, command := m.command, argv := m.params, beyond }) w) ∧
    (∀ (line after : Str) (req : Request), requestOf line after = some req →
      req.argc ≤ 15 ∧ ∀ p ∈ req.argv.dropLast, p ≠ [] ∧ ' ' ∉ p ∧ p.head? ≠ some ':') := by
  refine ⟨fun m after => ?_, fun line after req h => requestOf_spec h⟩
  obtain ⟨beyond, hsplit⟩ := m.splitRequest_render (trimmedRest m.render after)
  refine ⟨beyond, by rw [requestOf, m.trimStr_render, hsplit], fun w i n hscrub => ?_⟩
  have hworld : (liftM getWorld : Full _).wp (fullWp .never noFault)
      (fun a w' => a = w ∧ w' = w) w := by
    simp
  have hne : (m.render.isEmpty = true) = False := by simp [m.render_ne_nil]
  simp only [parseRequest, m.trimStr_render, hne, if_false]
  rw [exec_bind_read _ n hworld]
  simp only [hscrub, Bool.false_and, Bool.false_eq_true, if_false, hsplit]
  rfl

/-- A change of nick, as a server passes it on. -/
def nickMessage : Message where
  pfx := some "alice"
  command := "NICK"
  params := ["bob"]
  pfx_ok := by simp
  command_ok := by decide
  count_ok := by decide
  middle_ok := by simp
  last_ok := by simp
  clean := by decide

theorem parse_inverts_render_nick :
    (∃ beyond, requestOf nickMessage.render [] =
        some { pfx := some "alice", command := "NICK", argv := ["bob"], beyond } ∧
      exec 0 (parseRequest 1 nickMessage.render []) (World.start {} {} "localhost") =
        exec 0 (processRequest 1 { pfx := some "alice", command := "NICK", argv := ["bob"], beyond })
          (World.start {} {} "localhost")) ∧
    nickMessage.params.length ≤ 15 := by
  obtain ⟨beyond, hreq, hrun⟩ := parse_inverts_render.1 nickMessage []
  exact ⟨⟨beyond, hreq, hrun _ 1 0 rfl⟩, (parse_inverts_render.2 _ [] _ hreq).1⟩

end Ngircd
