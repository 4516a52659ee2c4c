import Ngircd.Farewell
import Ngircd.Telling

/-!
# The other end of a link

What one server sends to another is read and handled there.  While no write
fails, the handlers for channels leave clients, connections and configuration
of the server alone, so that it is ready for the next line.
-/

namespace Ngircd

open Lib Prog

variable {α : Type} {w w' : World} {t : Channels} {r pfx : ClientRef} {c d : Client}
  {name line after command : Str} {cmd : Command} {Q : World → Prop}

/-! ## Handlers that only change channels -/

/-- Transformers for programs that neither fail nor close. -/
abbrev calmWp : Transformer BasicOp.Res World := basicWp .never noFault

/-- The channels are now `t`.  Clients, connections and configuration are as they were. -/
structure Holds (w : World) (t : Channels) (w' : World) : Prop extends Placid w w' where
  conf : w'.conf = w.conf
  chans : w'.chans = t

/-- A member of a channel can be reached. -/
def World.CanReach (w : World) (t : Channels) : Prop := ∀ e ∈ t.cl2chan, w.Reached e.client

namespace Holds

variable {w'' : World} {t' : Channels}

theorem refl (w : World) : Holds w w.chans w := ⟨Placid.refl w, rfl, rfl⟩

variable (h : Holds w t w')
include h

theorem quiet (hq : Quiet w' w'') : Holds w t w'' :=
  ⟨h.toPlacid.trans hq.toPlacid, hq.conf.trans h.conf, hq.chans.trans h.chans⟩

/-- A change of the channels. -/
theorem put (t' : Channels) : Holds w t' { w' with chans := t' } :=
  ⟨{ h.toPlacid with }, h.conf, rfl⟩

theorem withCounts (counts : Str → Nat × Nat × Nat) : Holds w t (w'.withCounts counts) :=
  ⟨{ h.toPlacid with }, h.conf, h.chans⟩

theorem trans (h' : Holds w' t' w'') : Holds w t' w'' :=
  ⟨h.toPlacid.trans h'.toPlacid, h'.conf.trans h.conf, h'.chans⟩

theorem healthy (ht : w.CanReach t) (hw : Healthy w) : Healthy w' :=
  h.healthy_of_reached (by rw [h.chans]; exact ht) hw

/-- A message changes nothing. -/
theorem message {p : Msg α} (hp : Tame p w') {Q : α → World → Prop}
    (hQ : ∀ a w'', Holds w t w'' → Q a w'') : p.wp quietWp Q w' :=
  wp_mono (fun a w'' hq => hQ a w'' (h.quiet hq)) hp

end Holds

/-- Names are found as before. -/
theorem Placid.clientSearch (h : Placid w w') (nick : Str) :
    w'.clientSearch nick = w.clientSearch nick := by
  unfold World.clientSearch World.listed
  rw [h.order]
  induction w.order with
  | nil => rfl
  | cons r rest ih =>
    cases hr : w.heap r with
    | none =>
      have hcell := h.cell r
      rw [hr, Option.map_none, Option.map_eq_none_iff] at hcell
      simpa [hr, hcell] using ih
    | some c =>
      obtain ⟨host, hc'⟩ := h.heap_some hr
      simp only [List.filterMap_cons, hr, hc', Option.map_some, List.find?_cons]
      split
      · rfl
      · exact ih

/-- Who can be reached could be reached before. -/
theorem Placid.reached_before (h : Placid w w') (hr : w'.Reached r) :
    w.Reached r := by
  obtain ⟨c, k, kc, hc, hnext, hkc, hconn⟩ := hr
  obtain ⟨c₀, host, hc₀, rfl⟩ := h.heap_some_before hc
  obtain ⟨k₀, khost, hk₀, rfl⟩ := h.heap_some_before hkc
  exact ⟨c₀, k, k₀, hc₀, by rw [← h.nextHop, hnext], hk₀, hconn⟩

/-! ## Messages that are sent -/

theorem ircSetPenalty_tame (hc : w.heap r = some c) (seconds : Nat) :
    Tame (ircSetPenalty r seconds) w := by
  unfold Tame ircSetPenalty
  simp only [wp_bind, wp_deref, onClient_of_some hc, wp_ite, wp_pure]
  refine ⟨fun _ => .refl w, fun _ => ?_⟩
  cases c.connId with
  | none => exact .refl w
  | some i =>
    simp only [connSetPenalty, wp_bind, wp_getWorld, wp_editConn]
    exact Quiet.setConn ⟨rfl, rfl, rfl, rfl, rfl⟩

theorem ircWriteErrClient_tame (hw : Healthy w) (hcalm : w.Calm) (hr : w.Reached r) (text : Str) :
    Tame (ircWriteErrClient r text) w := by
  obtain ⟨c, k, kc, hc, hrest⟩ := hr
  refine .bind (ircSetPenalty_tame hc 2) fun _ w₁ hq => ?_
  obtain ⟨this, hthis⟩ := (hq.healthy hw).this
  simp only [Tame, wp_bind, wp_thisServer]
  exact ircWriteStrClientPrefix_reached (hq.healthy hw) (hq.calm hcalm)
    (hq.reached ⟨c, k, kc, hc, hrest⟩) hthis text

theorem ircWriteStrChannelPrefix_tame (hw : Healthy w) (hcalm : w.Calm) (hp : w.heap pfx = some d)
    (except : ClientRef) (chan : ChanRef) (remote : Bool) (text : Str) :
    Tame (ircWriteStrChannelPrefix except chan pfx remote text) w :=
  .of_wp (ircWriteStrChannelPrefix_quiet hw hcalm hp except chan remote text)

/-- Calling back for every server is quiet if every call is. -/
theorem ircWriteStrServersPrefixFlagCB_tame (hw : Healthy w) (exceptOf : Option ClientRef)
    (flag : Option Char) {callback : ClientRef → Msg Unit}
    (hcall : ∀ r c w', Quiet w w' → w'.heap r = some c → c.type = .server → c.connId.isSome →
      Tame (callback r) w') : Tame (ircWriteStrServersPrefixFlagCB exceptOf flag callback) w := by
  unfold Tame
  simp only [ircWriteStrServersPrefixFlagCB, forAllClients, wp_bind, wp_getWorld]
  refine wp_forClients (I := Quiet w) (fun w' h => h.order) (fun r hr w' hq => ?_) _ (.refl w)
  obtain ⟨c, hc⟩ := (hq.healthy hw).listed r (by rw [hq.order]; exact hr)
  simp only [wp_bind, wp_deref, onClient_of_some hc, wp_thisServer, wp_ite, wp_pure]
  refine ⟨fun hcond => ⟨fun _ => ?_, fun _ => hq⟩, fun _ => hq⟩
  exact wp_mono (fun _ _ hq' => hq.trans hq') (hcall r c w' hq hc hcond.1 hcond.2.1)

/-! ## Queries that are answered -/

/-- Transformers for queries whose replies may be sent or not. -/
def answerWp : Transformer (ReplyOp.Res MsgOp.Res) World
  | .base m, Q, w => quietWp m Q w
  | .send _ _, Q, w => ∀ w', Quiet w w' → Q () w'

instance answerWp_mono : Prog.Monotone answerWp where
  mono op Q Q' w h hQ := by
    cases op with
    | base m => exact msgWp_mono.mono m Q Q' w h hQ
    | send i text => exact fun w' hq => h () w' (hQ w' hq)

/-- The query ends without a fault, and all it does is quiet. -/
def Query.Tame {α : Type} (q : Query α) (w : World) : Prop :=
  q.wp answerWp (fun _ w' => Quiet w w') w

section

variable {β σ : Type}

theorem Query.Tame.toMsg {q : Query Unit} (hcalm : w.Calm) (hq : q.Tame w) :
    Ngircd.Tame q.toMsg w := by
  have hrun (q : Query Unit) (w₁ : World) (hquiet : Quiet w w₁)
      (hq : q.wp answerWp (fun _ w' => Quiet w w') w₁) :
      q.toMsg.wp quietWp (fun _ w' => Quiet w w') w₁ := by
    induction q generalizing w₁ with
    | done a => exact hq
    | call op next ih =>
      cases op with
      | base m =>
        exact msgWp_mono.mono m _ _ w₁ (fun r w₂ hw₂ => ih r w₂ (hquiet.trans hw₂.2) hw₂.1)
          (Quiet.frame.keeps m _ w₁ hq)
      | send i text =>
        simp only [Query.toMsg, wp_bind]
        refine wp_quiet (connWriteStr_quiet (hquiet.calm hcalm) i text) fun ok w₂ _ hq₂ => ?_
        split
        · exact ih () w₂ (hquiet.trans hq₂) (hq w₂ hq₂)
        · exact hquiet.trans hq₂
  exact hrun q w (.refl w) hq

theorem Query.Tame.pure (a : α) : Query.Tame (pure a) w := Quiet.refl w

theorem Query.Tame.bind {q : Query α} {f : α → Query β} (hq : q.Tame w)
    (hf : ∀ a w', Quiet w w' → (f a).Tame w') : (q >>= f).Tame w := by
  unfold Query.Tame
  rw [wp_bind]
  refine wp_mono (fun a w' hquiet => ?_) hq
  exact wp_mono (fun _ _ hquiet' => hquiet.trans hquiet') (hf a w' hquiet)

/-- A query may read before it goes on. -/
theorem Query.Tame.read {p : Msg α} {f : α → Query β} {a : α}
    (hp : p.wp quietWp (fun a' w' => a' = a ∧ w' = w) w) (hf : (f a).Tame w) :
    ((liftM p : Query α) >>= f).Tame w := by
  unfold Query.Tame
  rw [wp_bind]
  refine wp_mono (fun a' w' h => ?_) ((Prog.wp_run _ p).mpr hp)
  obtain ⟨rfl, rfl⟩ := h
  exact hf

theorem Query.Tame.ite {b : Prop} [Decidable b] {q q' : Query α} (hq : q.Tame w) (hq' : q'.Tame w) :
    Query.Tame (if b then q else q') w := by
  split
  · exact hq
  · exact hq'

/-- A walk along a list. -/
theorem Query.Tame.replyFold {visit : σ → α → Query (Option σ)} (as : List α) (s : σ)
    (hvisit : ∀ s, ∀ a ∈ as, ∀ w', Quiet w w' → (visit s a).Tame w') :
    (Ngircd.replyFold visit s as).Tame w := by
  induction as generalizing s w with
  | nil => exact .pure s
  | cons a as ih =>
    refine (hvisit s a (.head _) w (.refl w)).bind fun next w₁ hq => ?_
    cases next with
    | none => exact .pure s
    | some s' =>
      exact ih s' fun s b hb w₂ hq₂ => hvisit s b (.tail a hb) w₂ (hq.trans hq₂)

/-- A reply to a client that can be reached. -/
theorem replyPrefix_tame (hw : Healthy w) (hcalm : w.Calm)
    (hr : w.Reached r) (hp : w.heap pfx = some d) (text : Str) : (replyPrefix r pfx text).Tame w := by
  have hline : Query.Tame (liftM (lineFor r pfx text)) w :=
    (Prog.wp_run _ _).mpr (lineFor_tame hw hcalm hr hp text)
  exact hline.bind fun _ _ _ _ hq => hq

theorem reply_tame (hw : Healthy w) (hcalm : w.Calm) (hr : w.Reached r) (text : Str) :
    (reply r text).Tame w := by
  obtain ⟨this, hthis⟩ := hw.this
  exact .read (by simp) (replyPrefix_tame hw hcalm hr hthis text)

end

/-! ## Lines that are handled -/

/-- A server that gets lines from the server `r` on the connection `j`. -/
structure World.Hears (w : World) (j : ConnId) (r : ClientRef) : Prop where
  healthy : Healthy w
  calm : w.Calm
  link : w.ServerLink j r
  back : w.Reached r

section

variable {j : ConnId} {o : ClientRef}

theorem World.Hears.placid (h : w.Hears j r) (hs : Placid w w') (hw' : Healthy w') :
    w'.Hears j r where
  healthy := hw'
  calm := hs.calm h.calm
  link := by
    obtain ⟨c, hhas, htype⟩ := h.link.has
    obtain ⟨host, hc'⟩ := hs.heap_some hhas.cell
    refine ⟨_, ⟨?_, ?_, hc'⟩, htype⟩
    · rw [(hs.link j).sock]
      exact hhas.sock
    · rw [(hs.link j).client]
      exact hhas.client
  back := hs.reached h.back

theorem World.Hears.holds (h : w.Hears j r) (ht : w.CanReach t) (hs : Holds w t w') :
    w'.Hears j r :=
  h.placid hs.toPlacid (hs.healthy ht h.healthy)

theorem World.BehindLink.placid (h : w.BehindLink r name o) (hs : Placid w w') :
    w'.BehindLink r name o :=
  ⟨by rw [hs.clientSearch, h.1], by rw [hs.nextHop, h.2]⟩

/-- Handle lines one after the other; each comes with what follows it in the buffer. -/
def readLines (n : Nat) (j : ConnId) : List (Str × Str) → World → Except Fault World
  | [], w => .ok w
  | (line, after) :: rest, w =>
    match exec n (parseRequest j line after) w with
    | .ok (_, w') => readLines n j rest w'
    | .error e => .error e

theorem readLines_cons {n : Nat} {rest : List (Str × Str)} {b : Bool}
    (h : exec n (parseRequest j line after) w = .ok (b, w')) :
    readLines n j ((line, after) :: rest) w = readLines n j rest w' := by
  rw [readLines, h]

/-- A line from behind the link is handled to its end. -/
theorem exec_parseRequest (h : w.Hears j r) {req : Request}
    (hreq : requestOf line after = some req) (hnonempty : trimStr line ≠ [])
    (hscrub : (w.conf.scrubCTCP && scrubCTCP (trimStr line)) = false) (hpfx : req.pfx = some name)
    (hbehind : w.BehindLink r name o) (hlength : req.command.length ≠ 3)
    (hfind : findCommand req.command = some cmd) (hmask : cmd.mask.allows .server = true)
    (hargc : cmd.minArgc ≤ req.argc ∧ ∀ m ∈ cmd.maxArgc, req.argc ≤ m) {handler : Plain Bool}
    (hhandler : callHandler r req cmd.handler = Full.ofPlain handler)
    (hQ : ∀ w' counts, Q w' → Q (w'.withCounts counts))
    (hcall : handler.wp (plainWp .never noFault) (fun _ => Q) w) (n : Nat) :
    ∃ b w', exec n (parseRequest j line after) w = .ok (b, w') ∧ Q w' := by
  refine (exec_ends (E := noFault) (Closing.never_rightAbout _) ?_).exists_ok
  refine parseRequest_link h.link hreq hnonempty hscrub hpfx hbehind hlength hfind hmask hargc ?_
  rw [hhandler, wp_ofPlain]
  exact wp_mono (fun _ w' hw' counts => hQ w' counts hw') hcall

/-- A line that is taken for a CTCP command is dropped. -/
theorem exec_scrubbed (hscrub : (w.conf.scrubCTCP && scrubCTCP (trimStr line)) = true)
    (after : Str) (n : Nat) : exec n (parseRequest j line after) w = .ok (true, w) := by
  have hline : trimStr line ≠ [] := by
    intro hnil
    rw [hnil] at hscrub
    exact absurd hscrub (by cases w.conf.scrubCTCP <;> decide)
  have hempty : (trimStr line).isEmpty = false := by simpa using hline
  have hdrop : (parseRequest j line after).wp (fullWp .never noFault)
      (fun b w' => b = true ∧ w' = w) w := by
    unfold parseRequest
    simp only [hempty, Bool.false_eq_true, if_false, wp_msg, wp_getWorld, hscrub, if_true]
    exact ⟨rfl, rfl⟩
  obtain ⟨b, w', hexec, rfl, rfl⟩ :=
    (exec_ends (n := n) (Closing.never_rightAbout _) hdrop).exists_ok
  exact hexec

/-- A line of words that could stand anywhere in it. -/
theorem exec_words (h : w.Hears j r) (hbehind : w.BehindLink r name o) (hname : IsWord name)
    {ws : List Str} (hcommand : command ≠ [] ∧ ' ' ∉ command ∧ ':' ∉ command)
    (hlength : command.length ≠ 3) (hne : ws ≠ []) (hws : ∀ q ∈ ws, IsWord q)
    (hshort : name.length + (command ++ ' ' :: unwords ws).length ≤ 508)
    (hfind : findCommand command = some cmd) (hmask : cmd.mask.allows .server = true)
    (hargc : cmd.minArgc ≤ (ws.take 15).length ∧ ∀ m ∈ cmd.maxArgc, (ws.take 15).length ≤ m)
    {handler : Request → Basic Bool}
    (hhandler : ∀ req, callHandler r req cmd.handler = Full.ofPlain (Plain.ofBasic (handler req)))
    (hQ : ∀ w' counts, Q w' → Q (w'.withCounts counts))
    (hcall : ∀ beyond, (handler { pfx := some name, command, argv := ws.take 15, beyond }).wp calmWp
      (fun _ => Q) w) (n : Nat) (after : Str) :
    ∃ b w', exec n (parseRequest j (serverText name (command ++ ' ' :: unwords ws)) after) w =
      .ok (b, w') ∧ Q w' := by
  have hcolon : ':' ∉ command ++ ' ' :: unwords ws := by
    rw [List.mem_append, List.mem_cons]
    rintro (hmem | hmem | hmem)
    · exact hcommand.2.2 hmem
    · exact absurd hmem (by decide)
    · obtain ⟨q, hq, hmem⟩ := mem_unwords (by decide) hmem
      exact (hws q hq).colon hmem
  obtain ⟨beyond, hreq⟩ := requestOf_words hname.space ⟨hcommand.1, hcommand.2.1⟩ hne
    (fun q hq => (hws q hq).middle) (fun l hl => (hws l (List.mem_of_getLast? hl)).last) after
  rw [serverText_of_short hshort]
  refine exec_parseRequest h hreq (trimStr_prefixed_ne _ _) ?_ rfl hbehind hlength hfind hmask hargc
    (hhandler _) hQ ?_ n
  · rw [scrubCTCP_of_not_mem hname.colon hcolon, Bool.and_false]
  · rw [wp_ofBasic]
    exact hcall beyond

end

end Ngircd
