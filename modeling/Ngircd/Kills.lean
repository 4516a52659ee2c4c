import Ngircd.Senders
import Ngircd.Tidy

/-!
# Kills without a sender

`IRC_KillClient` answers a kill of anything but a user, a service or a client that has sent a
nickname with an error reply to the client the command came from.  NJOIN calls it without
such a client, for a name that a server has sent and that may be the name of a server.
-/

namespace Ngircd

open Lib Prog

/-- Faults other than a reply to a sender that is not there. -/
def Fault.HasSender (f : Fault) : Prop := f ≠ .absentSender

variable {α : Type} {w w' : World} {client r : ClientRef} {req : Request} {nick : Str}

theorem hasSender_data (f : DataFault) : (Fault.data f).HasSender := by
  rintro ⟨⟩

/-! ## What closing a connection removes -/

/-- Clients, channels and memberships may have been removed, nothing more. -/
structure Sheds (w w' : World) : Prop where
  client : ∀ q c', w'.heap q = some c' →
    ∃ c, w.heap q = some c ∧ c'.type = c.type ∧ c'.id = c.id
  member : ∀ e' ∈ w'.chans.cl2chan,
    ∃ e ∈ w.chans.cl2chan, e.client = e'.client ∧ e.channel = e'.channel
  channel : ∀ ch d, w'.chans.heap ch = some d → w.chans.heap ch = some d
  next : w'.chans.nextRef = w.chans.nextRef

namespace Sheds

theorem of_eq (hheap : w'.heap = w.heap) (hchans : w'.chans = w.chans) : Sheds w w' where
  client _ c' hc' := ⟨c', hheap ▸ hc', rfl, rfl⟩
  member e' he' := ⟨e', hchans ▸ he', rfl, rfl⟩
  channel ch d hd := hchans ▸ hd
  next := by rw [hchans]

theorem of_members {l : List Cl2Chan}
    (h : ∀ e' ∈ l, ∃ e ∈ w.chans.cl2chan, e.client = e'.client ∧ e.channel = e'.channel) :
    Sheds w (w.setMembers l) where
  client _ c' hc' := ⟨c', hc', rfl, rfl⟩
  member := h
  channel _ _ hd := hd
  next := rfl

theorem trans {w₁ w₂ w₃ : World} (h₁ : Sheds w₁ w₂) (h₂ : Sheds w₂ w₃) : Sheds w₁ w₃ where
  client q c₃ hc₃ := by
    obtain ⟨c₂, hc₂, htype, hid⟩ := h₂.client q c₃ hc₃
    obtain ⟨c₁, hc₁, htype', hid'⟩ := h₁.client q c₂ hc₂
    exact ⟨c₁, hc₁, htype.trans htype', hid.trans hid'⟩
  member e₃ he₃ := by
    obtain ⟨e₂, he₂, hclient, hchannel⟩ := h₂.member e₃ he₃
    obtain ⟨e₁, he₁, hclient', hchannel'⟩ := h₁.member e₂ he₂
    exact ⟨e₁, he₁, hclient'.trans hclient, hchannel'.trans hchannel⟩
  channel ch d hd := h₁.channel ch d (h₂.channel ch d hd)
  next := h₂.next.trans h₁.next

theorem setHeap {c' : Option Client} (h : ∀ d, c' = some d →
      ∃ c, w.heap r = some c ∧ d.type = c.type ∧ d.id = c.id) :
    Sheds w (w.setHeap r c') where
  client q d hd := by
    by_cases hq : q = r
    · subst hq
      exact h d ((World.setHeap_heap_self w q c').symm.trans hd)
    · rw [World.setHeap_heap_ne w hq] at hd
      exact ⟨d, hd, rfl, rfl⟩
  member e he := ⟨e, he, rfl, rfl⟩
  channel _ _ hd := hd
  next := rfl

theorem dropChannel (w : World) (ch : ChanRef) : Sheds w (w.dropChannel ch) where
  client _ c hc := ⟨c, hc, rfl, rfl⟩
  member e he := ⟨e, he, rfl, rfl⟩
  channel ch' d hd := by
    have hheap : Function.update w.chans.heap ch none ch' = some d := hd
    by_cases hch : ch' = ch
    · simp [hch] at hheap
    · rwa [Function.update_of_ne hch] at hheap
  next := rfl

/-- Closing a connection does no more. -/
theorem frame : ShutFrame (fun _ => Sheds) Sheds where
  refl w := .of_eq rfl rfl
  trans _ _ _ := trans
  queue _ _ _ _ _ := .of_eq rfl rfl
  fail w _ _ _ _ h := (of_eq rfl rfl : Sheds w w.tickWrite).trans h
  editConn _ _ _ := .of_eq rfl rfl
  cloak _ _ _ c hc := setHeap fun _ hd => ⟨c, hc, Option.some.inj hd ▸ rfl,
    Option.some.inj hd ▸ rfl⟩
  removeMember _ _ _ := .of_members fun e he => ⟨e, List.mem_of_mem_eraseP he, rfl, rfl⟩
  dropChannel := dropChannel
  misc _ _ := .of_eq rfl rfl
  servers _ _ := .of_eq rfl rfl
  unlink _ _ := .of_eq rfl rfl
  free _ _ := setHeap fun _ h => by cases h
  startClosing _ _ := .of_eq rfl rfl
  closeSocket _ _ := .of_eq rfl rfl
  initConn _ _ _ := .of_eq rfl rfl

end Sheds

/-! ## The other commands pass the client the line came from -/

/-- No reply goes to a sender that is not there, while connections may be closed. -/
abbrev shedWp : Transformer PlainOp.Res World :=
  plainWp (.within fun _ => Sheds) Fault.HasSender

@[inherit_doc shedWp]
abbrev shedFullWp : Transformer FullOp.Res World :=
  fullWp (.within fun _ => Sheds) Fault.HasSender

/-- A plain program that never replies to a sender that is not there. -/
abbrev Replies (p : Plain α) : Prop := p.Stable shedWp fun _ => True

/-- A full program that never replies to a sender that is not there. -/
abbrev RepliesFull (p : Full α) : Prop := p.Stable shedFullWp fun _ => True

theorem replies_basic (p : Basic α) : Replies (liftM p : Plain α) := fun _ _ =>
  (wp_ofBasic p).mpr (anyChange_basicFrame.wp hasSender_data p fun _ _ _ => trivial)

theorem replies_msg (p : Msg α) : Replies (liftM p : Plain α) := replies_basic _

theorem replies_close (i : ConnId) (l f : Option Str) (inf : Bool) :
    Replies (callClose i l f inf) :=
  fun _ _ _ _ => trivial

theorem clientReject_replies (reason : Str) (inform : Bool) :
    Replies (clientReject client reason inform) :=
  .bind (replies_msg _) fun _ => .bind (replies_msg _) fun _ => replies_close _ _ _ _

theorem destroyClient_replies (r : ClientRef) (l f : Option Str) (sendQuit : Bool) :
    Replies (destroyClient r l f sendQuit) := by
  refine .bind (replies_msg _) fun w => fun w' _ => (wp_ofShut _).mpr ?_
  exact anyChange_shutFrame.wp hasSender_data _ fun _ _ _ => trivial

/-- A kill for a client has somebody to reply to. -/
theorem ircKillClient_replies (source : Option ClientRef) (nick reason : Str) :
    Replies (ircKillClient (some client) source nick reason) := by
  refine .bind (replies_msg _) fun w => ?_
  cases w.clientSearch nick with
  | none => exact .pure _
  | some r =>
    refine .bind (replies_msg _) fun c => .ite (.bind (replies_msg _) fun _ => replies_msg _) ?_
    refine .bind (replies_msg _) fun _ => .bind (replies_msg _) fun _ => .bind (.pure _) fun _ => ?_
    refine .bind (replies_msg _) fun d => ?_
    cases d.connId
    case' some i => refine .bind (replies_close _ _ _ _) fun _ => ?_
    case' none => refine .bind (destroyClient_replies _ _ _ _) fun _ => ?_
    all_goals exact .bind (replies_msg _) fun _ => .pure _

theorem killListed_replies (cls : LineClass) (reason : Str) (n : Nat) (next : Option ClientRef) :
    Replies (killListed client cls reason n next) := by
  induction n generalizing next with
  | zero =>
    cases next with
    | none => exact .pure _
    | some r => exact replies_basic _
  | succ n ih =>
    cases next with
    | none => exact .pure _
    | some r =>
      refine .bind (replies_msg _) fun next => .bind (replies_msg _) fun c => .ite ?_ (ih next)
      refine .bind (replies_basic _) fun _ => .ite (.bind (replies_msg _) fun nick => ?_) (ih next)
      exact .bind (ircKillClient_replies none nick reason) fun _ => ih next

theorem ircXline_replies : Replies (ircXline client req) := by
  refine .ite (replies_msg _) (.bind (replies_msg _) fun w => .bind (replies_msg _) fun type => ?_)
  refine .ite (replies_msg _) (.bind (replies_msg _) fun source => ?_)
  cases source with
  | none => exact replies_msg _
  | some source =>
    cases LineClass.ofCommand req.command with
    | none => exact .pure _
    | some cls =>
      refine .ite (.bind (replies_basic _) fun _ => .pure _) (.bind (replies_basic _) fun _ => ?_)
      refine .bind (replies_msg _) fun _ => .bind (replies_msg _) fun w => ?_
      exact .bind (killListed_replies cls _ _ _) fun _ => .pure _

theorem ircKill_replies : Replies (ircKill client req) := by
  refine .bind (replies_msg _) fun type => .opt ?_ fun hrest =>
    .bind (replies_msg _) fun _ => .ite (replies_msg _) hrest
  refine .bind (replies_msg _) fun w => .opt ?_ fun hkill =>
    .bind (replies_msg _) fun _ => .bind (replies_msg _) fun _ => hkill
  exact .bind (replies_msg _) fun _ => ircKillClient_replies _ _ _

theorem RepliesFull.plain {p : Plain α} (h : Replies p) : RepliesFull (liftM p : Full α) :=
  fun w hw => (wp_ofPlain p).mpr (h w hw)

theorem full_basic (p : Basic α) : RepliesFull (liftM p : Full α) :=
  RepliesFull.plain (replies_basic p)

theorem full_msg (p : Msg α) : RepliesFull (liftM p : Full α) := RepliesFull.plain (replies_msg p)

/-- A change of a client. -/
theorem full_edit {op : FullOp} (h : ∀ (P : op.Res → World → Prop) w, (∀ a w', P a w') →
    shedFullWp op P w) : RepliesFull (Prog.perform op) :=
  fun w _ => h _ w fun _ _ => trivial

theorem clientSetType_replies (t : ClientType) : RepliesFull (clientSetType r t) := by
  refine .bind (full_edit fun _ _ h => ⟨fun _ _ => h _ _, fun _ => hasSender_data _⟩) fun _ => ?_
  exact .opt (full_basic _) fun h => .bind (full_msg _) fun _ => .bind (full_basic _) fun _ => h

theorem clientSetID_replies (id : Str) : RepliesFull (clientSetID r id) := by
  refine .bind (full_edit fun _ _ h => ⟨fun _ _ => h _ _, fun _ => hasSender_data _⟩) fun _ => ?_
  exact .bind (full_msg _) fun _ => .ite (full_basic _) (.pure _)

theorem clientIntroduce_replies (source : Option ClientRef) (t : ClientType) :
    RepliesFull (clientIntroduce source r t) := by
  refine .bind (clientSetType_replies t) fun _ => .bind (full_msg _) fun w => ?_
  cases source with
  | none =>
    refine .bind (full_msg _) fun _ => .bind (full_msg _) fun _ => .bind (full_msg _) fun _ => ?_
    exact .bind (full_msg _) fun _ => full_msg _
  | some s =>
    refine .bind (full_msg _) fun _ => .bind (full_msg _) fun _ => .opt (full_msg _) fun h => ?_
    exact .bind (clientSetType_replies _) fun _ => h

theorem loginUser_replies : RepliesFull (loginUser client) := by
  have hban : Replies (classHandleServerBans client) := by
    refine .bind (replies_basic _) fun ban => ?_
    cases ban with
    | none => exact .pure _
    | some reason => exact .bind (clientReject_replies _ _) fun _ => .pure _
  have hpost : RepliesFull (loginUserPostAuth client) := by
    refine .bind (RepliesFull.plain hban) fun _ => .ite (.pure _) ?_
    exact .bind (clientIntroduce_replies none .user) fun _ => full_basic _
  refine .bind (full_msg _) fun _ => .bind (full_msg _) fun _ => .bind (full_msg _) fun w => ?_
  refine .ite (.bind (clientSetType_replies _) fun _ => .pure _) (.bind (full_msg _) fun _ => ?_)
  refine .opt (.ite (.bind (RepliesFull.plain (clientReject_replies _ _)) fun _ => .pure _)
    hpost) ?_
  exact fun h => .bind (full_edit fun _ _ h => ⟨fun _ _ => h _ _, fun _ => hasSender_data _⟩) fun _ => h

theorem ircNickUser_replies (target : ClientRef) (nick : Str) :
    RepliesFull (ircNickUser client target nick) := by
  have hping : RepliesFull (sendAuthPing client) := by
    refine .bind (full_msg _) fun _ => .bind (full_msg _) fun _ => .bind (full_basic _) fun _ => ?_
    exact .bind (full_edit fun _ _ h => h _ _) fun _ => .bind (full_msg _) fun _ => .pure _
  have hregister : RepliesFull (registerNick client target nick) := by
    refine .bind (clientSetID_replies _) fun _ => .bind (full_msg _) fun _ =>
      .opt ?_ fun h => .bind hping fun _ => h
    refine .bind (full_msg _) fun c => .bind (full_msg _) fun i => .bind (full_msg _) fun w => ?_
    dsimp only
    split
    · exact loginUser_replies
    · exact .bind (clientSetType_replies _) fun _ => .pure _
    · exact .pure _
  have hchange : RepliesFull (ircNickChange client target nick) := by
    refine .bind (full_msg _) fun w => .bind (full_msg _) fun c => ?_
    dsimp only
    split
    · exact .bind (full_msg _) fun _ => .bind (full_msg _) fun _ => full_msg _
    · refine .bind ?_ fun _ => .bind (full_msg _) fun _ => .pure _
      have hrest : RepliesFull (do
          ircWriteStrRelatedPrefix target target false (format "NICK :%s" [nick])
          clientRegisterWhowas target
          clientSetID target nick) :=
        .bind (full_msg _) fun _ => .bind (full_basic _) fun _ => clientSetID_replies nick
      refine .bind (full_basic _) fun _ => .ite ?_ (.bind (full_msg _) fun _ => hrest)
      exact .bind (full_msg _) fun _ => .bind (full_msg _) fun _ => hrest
  have hrest : RepliesFull (do
      let t ← clientType target
      if t ≠ .user ∧ t ≠ .service ∧ t ≠ .server then registerNick client target nick
      else ircNickChange client target nick) := .bind (full_msg _) fun _ => .ite hregister hchange
  refine .bind (full_msg _) fun _ => .ite (.pure _) (.opt hrest fun h => ?_)
  exact .bind (full_msg _) fun _ => .ite (.pure _) h

theorem newRemoteUser_replies {server : ClientRef} {hops token : Int}
    {nick user host modes info : Str} :
    Replies (clientNewRemoteUser server nick hops user host token modes info) := by
  refine .bind (replies_msg _) fun w => .bind (fun _ _ => trivial) fun r => ?_
  exact .bind (replies_basic _) fun _ => .pure r

theorem ircNick_replies : RepliesFull (ircNick client req) := by
  have herror (p : Msg Str) (f : Str → Msg Bool) : RepliesFull (do return ← f (← p) : Full Bool) :=
    .bind (full_msg _) fun _ => full_msg _
  have hintroduce : RepliesFull (ircNickIntroduce client req) := by
    refine .bind (full_msg _) fun w => .ite (RepliesFull.plain (ircKillClient_replies _ _ _)) ?_
    dsimp only
    split
    · exact RepliesFull.plain (ircKillClient_replies _ _ _)
    · refine .ite (.bind (RepliesFull.plain newRemoteUser_replies) fun _ => ?_) ?_
      · exact .bind (clientIntroduce_replies _ _) fun _ => .pure _
      · refine .bind (full_msg _) fun _ => .bind (RepliesFull.plain newRemoteUser_replies)
          fun _ => ?_
        exact .bind (clientSetType_replies _) fun _ => .pure _
  refine .bind (full_msg _) fun c => ?_
  split
  · refine .ite (full_msg _) (.ite ?_ (.ite (herror _ _) (ircNickUser_replies _ _)))
    split
    · exact full_msg _
    · refine .bind (full_msg _) fun w => ?_
      split
      · exact herror _ _
      · exact ircNickUser_replies _ _
  · exact hintroduce
  · exact herror _ _

theorem ircService_replies : RepliesFull (ircService client req) := by
  have herror (p : Msg Str) (f : Str → Msg Bool) : RepliesFull (do return ← f (← p) : Full Bool) :=
    .bind (full_msg _) fun _ => full_msg _
  refine .bind (full_msg _) fun t => .ite (herror _ _) (.ite (herror _ _) ?_)
  refine .bind (full_msg _) fun w => .ite (RepliesFull.plain (ircKillClient_replies _ _ _)) ?_
  dsimp only
  split
  · exact RepliesFull.plain (ircKillClient_replies _ _ _)
  · refine .bind (full_msg _) fun _ => .bind (RepliesFull.plain newRemoteUser_replies) fun _ => ?_
    exact .bind (clientIntroduce_replies _ _) fun _ => .pure _

variable {name : Str} {nicks : List Str} {q : ClientRef} {c : Client}

/-! ## The entries of NJOIN -/

/-- The kinds of clients that `IRC_KillClient` kills for everybody. -/
def Client.killable (c : Client) : Bool :=
  c.type == .user || c.type == .gotNick || c.type == .service

/-- `Client_Search` takes the client for the one with the name. -/
def Client.answersTo (c : Client) (nick : Str) : Bool :=
  !c.id.isEmpty && strcaseEq c.id ((strlcpy nick clientIdLen).takeWhile (· != '!'))

/-- Every client under one of the names that is not to be killed has this name once only,
the name of the channel is a valid one, and the channels it is on have other names. -/
def World.Admits (w : World) (name : Str) (nicks : List Str) : Prop :=
  ∀ q c, w.heap q = some c → c.killable = false → nicks.any c.answersTo = true →
    channelIsValidName name = true ∧ nicks.countP c.answersTo = 1 ∧
    ∀ e ∈ w.chans.cl2chan, e.client = q → e.channel < w.chans.nextRef ∧
      ∀ d, w.chans.heap e.channel = some d → strcaseEq name d.name = false

theorem Sheds.admits (h : Sheds w w') (hw : w.Admits name nicks) : w'.Admits name nicks := by
  intro q c' hc' hkind hnamed
  obtain ⟨c, hc, htype, hid⟩ := h.client q c' hc'
  have hsame : c'.answersTo = c.answersTo := funext fun _ => by simp only [Client.answersTo, hid]
  simp only [Client.killable, htype] at hkind
  rw [hsame] at hnamed ⊢
  obtain ⟨hvalid, honce, hapart⟩ := hw q c hc hkind hnamed
  refine ⟨hvalid, honce, fun e' he' hclient => ?_⟩
  obtain ⟨e, he, hclient', hchannel⟩ := h.member e' he'
  rw [← hchannel, h.next]
  obtain ⟨hlt, hother⟩ := hapart e he (hclient'.trans hclient)
  exact ⟨hlt, fun d hd => hother d (h.channel _ d hd)⟩

theorem World.Admits.tail (h : w.Admits name (nick :: nicks)) : w.Admits name nicks := by
  intro q c hc hkind hnamed
  obtain ⟨hvalid, honce, hapart⟩ := h q c hc hkind (by simp [hnamed])
  refine ⟨hvalid, ?_, hapart⟩
  have hpos : 0 < nicks.countP c.answersTo := by simpa [List.countP_pos_iff] using hnamed
  rw [List.countP_cons] at honce
  omega

theorem clientSearch_answers (h : w.clientSearch nick = some q) :
    ∃ c, w.heap q = some c ∧ c.answersTo nick = true := by
  obtain ⟨⟨_, c⟩, hfind, rfl⟩ := Option.map_eq_some_iff.mp h
  have hmem := List.mem_of_find?_eq_some hfind
  obtain ⟨r, -, hr⟩ := List.mem_filterMap.mp hmem
  obtain ⟨d, hd, heq⟩ := Option.map_eq_some_iff.mp hr
  obtain ⟨rfl, rfl⟩ := Prod.mk.inj heq
  have hanswers := List.find?_some hfind
  exact ⟨d, hd, hanswers⟩

/-- A client that is not on the channel, or one to be killed, has been let on it. -/
theorem World.Admits.joined {ch : ChanRef} {t : Channels} (h : w.Admits name (nick :: nicks))
    (hc : w.heap q = some c) (hnick : c.answersTo nick = true)
    (ht : t.cl2chan = w.chans.cl2chan) (hnext : w.chans.nextRef ≤ t.nextRef)
    (hheap : ∀ k, k < w.chans.nextRef → t.heap k = w.chans.heap k) :
    World.Admits { w with chans := { t with cl2chan := { client := q, channel := ch } ::
      t.cl2chan } }
      name nicks := by
  intro r d hd hkind hnamed
  obtain ⟨hvalid, honce, hapart⟩ := h r d hd hkind (by simp [hnamed])
  have hrest := h.tail r d hd hkind hnamed
  refine ⟨hvalid, hrest.2.1, fun e he hclient => ?_⟩
  rcases List.mem_cons.mp he with rfl | he
  · -- The client that joins has had its name.
    obtain rfl : q = r := hclient
    obtain rfl : c = d := Option.some.inj (hc.symm.trans hd)
    rw [List.countP_cons, if_pos hnick, hrest.2.1] at honce
    cases honce
  · obtain ⟨hlt, hother⟩ := hapart e (ht ▸ he) hclient
    refine ⟨Nat.lt_of_lt_of_le hlt hnext, fun d' hd' => hother d' ?_⟩
    exact (hheap _ hlt).symm.trans hd'

/-- Everybody who is found under a name is to be killed. -/
def World.Doomed (w : World) (nick : Str) : Prop :=
  ∀ q c, w.clientSearch nick = some q → w.heap q = some c → c.killable = true

/-- `Channel_Join` fails only if everybody under the name is to be killed. -/
theorem channelJoin_spares (h : w.Admits name (nick :: nicks))
    (hfound : w.clientSearch nick = some q) :
    (channelJoin q name).wp (basicWp (.within fun _ => Sheds) Fault.HasSender)
      (fun joined w' => w'.Admits name nicks ∧ (joined = false → w'.Doomed nick)) w := by
  obtain ⟨c, hc, hnick⟩ := clientSearch_answers hfound
  unfold channelJoin
  by_cases hvalid : channelIsValidName name = true
  swap
  · simp only [hvalid, Bool.not_false, if_true, wp_msg, wp_clientID, onClient_of_some hc]
    refine Sheds.frame.toMsgFrame.wp hasSender_data _ fun _ w' hw' => ?_
    have hw := hw'.admits h
    refine ⟨hw.tail, fun _ q' c' hfound' hc' => ?_⟩
    obtain ⟨d, hd, hnick'⟩ := clientSearch_answers hfound'
    obtain rfl : c' = d := Option.some.inj (hc'.symm.trans hd)
    by_contra hkind
    exact hvalid (hw q' c' hc' (by simpa using hkind) (by simp [hnick'])).1
  · simp only [hvalid, Bool.not_true, Bool.false_eq_true, if_false, wp_msg, wp_getWorld]
    cases hsearch : w.channelSearch name with
    | none =>
      simp only [channelCreate, wp_msg, wp_getWorld, wp_newChannel, wp_addClient, wp_bind]
      refine ⟨h.joined (t := (w.addChannel _).chans) hc hnick rfl (Nat.le_succ _) ?_, Bool.noConfusion⟩
      exact fun k hk => Function.update_of_ne (Nat.ne_of_lt hk) _ _
    | some ch =>
      simp only [Prog.wp_ite]
      refine ⟨fun hmember => ⟨h.tail, fun _ q' c' hfound' hc' => ?_⟩, fun _ => ⟨?_, Bool.noConfusion⟩⟩
      · obtain rfl : q = q' := Option.some.inj (hfound.symm.trans hfound')
        obtain rfl : c = c' := Option.some.inj (hc.symm.trans hc')
        by_contra hkind
        obtain ⟨-, -, hapart⟩ := h q c hc (by simpa using hkind) (by simp [hnick])
        obtain ⟨e, he, hfor⟩ := List.find?_isSome.mp hmember
        obtain ⟨hchannel, hclient⟩ : e.channel = ch ∧ e.client = q := by
          simpa [Cl2Chan.isFor] using hfor
        have hnamed := List.find?_some hsearch
        cases hd : w.chans.heap ch with
        | none => simp [hd] at hnamed
        | some d =>
          simp only [hd] at hnamed
          have hother := (hapart e he hclient).2 d (hchannel ▸ hd)
          exact absurd (hnamed.symm.trans hother) Bool.true_eq_false.mp
      · exact h.joined (t := w.chans) hc hnick rfl (Nat.le_refl _) fun _ _ => rfl

section

variable {J : World → Prop} (hJ : ∀ w w', Sheds w w' → J w → J w')
include hJ

theorem msg_sheds (p : Msg α) : (liftM p : Plain α).Stable shedWp J := fun w hw => by
  simp only [liftM_msg_plain, wp_msg]
  exact Sheds.frame.toMsgFrame.wp hasSender_data p fun _ w' h => hJ w w' h hw

/-- A kill without a sender of somebody who is to be killed. -/
theorem ircKillClient_sheds (reason : Str) (hdoomed : w.Doomed nick) (hw : J w) :
    (ircKillClient none none nick reason).wp shedWp (fun _ => J) w := by
  have hdestroy (r : ClientRef) (l f : Option Str) (sendQuit : Bool) :
      (destroyClient r l f sendQuit).Stable shedWp J := by
    refine .bind (msg_sheds hJ _) fun _ => fun w' hw' => (wp_ofShut _).mpr ?_
    exact Sheds.frame.wp hasSender_data _ fun _ w'' h => hJ w' w'' h hw'
  unfold ircKillClient
  simp only [wp_msg, wp_getWorld]
  cases hfound : w.clientSearch nick with
  | none => exact hw
  | some q =>
    obtain ⟨c, hc, -⟩ := clientSearch_answers hfound
    have hkind : c.type = .user ∨ c.type = .gotNick ∨ c.type = .service := by
      simpa [Client.killable, or_assoc] using hdoomed q c hfound hc
    simp only [wp_msg, wp_deref, onClient_of_some hc]
    rw [if_neg (by simp [hkind])]
    refine Stable.bind (msg_sheds hJ _) (fun _ => .bind (.pure _) fun _ => ?_) w hw
    refine .bind (msg_sheds hJ _) fun d => ?_
    cases d.connId
    case' some i => refine .bind (fun w₁ hw₁ w₂ h => hJ w₁ w₂ h hw₁) fun _ => ?_
    case' none => refine .bind (hdestroy _ _ _ _) fun _ => ?_
    all_goals exact .bind (msg_sheds hJ _) fun _ => .pure _

end

/-- The name in an entry. -/
def njoinNick (entry : Str) : Str := entry.dropWhile fun c => njoinModes.any fun p => p.1 == c

theorem njoinOne_spares (nickOut entry : Str) (h : w.Admits name (njoinNick entry :: nicks)) :
    (njoinOne client name nickOut entry).wp shedWp (fun _ w' => w'.Admits name nicks) w := by
  have hmsg {α : Type} (p : Msg α) := msg_sheds (J := (·.Admits name nicks))
    (fun _ _ => Sheds.admits) p
  unfold njoinOne
  dsimp only
  simp only [wp_msg, wp_getWorld]
  cases hfound : w.clientSearch (njoinNick entry) with
  | none =>
    unfold njoinNick at hfound
    rw [hfound]
    exact h.tail
  | some q =>
    have hfound' := hfound
    unfold njoinNick at hfound'
    rw [hfound']
    simp only [liftM_basic_plain, wp_bind, wp_ofBasic]
    refine wp_mono (fun joined w₁ hw₁ => ?_) (channelJoin_spares h hfound)
    cases joined with
    | false =>
      have hkill := ircKillClient_sheds (J := (·.Admits name nicks)) (fun _ _ => Sheds.admits)
        "Internal NJOIN error!" (hw₁.2 rfl) hw₁.1
      simp only [Bool.not_false, if_true, wp_bind]
      exact hkill
    | true =>
      simp only [Bool.not_true, Bool.false_eq_true, if_false]
      refine Stable.bind (hmsg _) (fun w' => ?_) w₁ hw₁.1
      split
      · exact hmsg _
      · rename_i ch _
        have hmode (p : Char × Char) : (do let _ ← channelUserModeAdd ch q p.2 : Basic Unit).Stable
            (basicWp (.within fun _ => Sheds) Fault.HasSender) (·.Admits name nicks) := by
          intro w hw
          simp only [channelUserModeAdd, wp_msg]
          refine Sheds.frame.toMsgFrame.wp hasSender_data _ fun _ w' h => ?_
          refine Sheds.admits (.of_members fun e he => ?_) (h.admits hw)
          obtain ⟨e', he', rfl⟩ := List.mem_map.mp he
          exact ⟨e', he', by split_ifs <;> exact ⟨rfl, rfl⟩⟩
        refine .bind (fun w hw => (wp_ofBasic _).mpr (Stable.forEach hmode _ w hw)) fun _ => ?_
        refine .bind (hmsg _) fun _ => .bind (hmsg _) fun d => .opt ?_ fun hmodes =>
          .bind (hmsg _) fun _ => hmodes
        refine .bind (hmsg _) fun modes => .ite (.bind (hmsg _) fun _ => ?_) (.pure _)
        exact .bind (hmsg _) fun _ => .pure _

/-- The entries one after the other. -/
theorem njoinEntries_spare (entries : List Str) (nickOut : Str)
    (h : w.Admits name (entries.map njoinNick)) :
    (entries.foldlM (njoinOne client name) nickOut).wp shedWp (fun _ w' => w'.Admits name [])
      w := by
  induction entries generalizing w nickOut with
  | nil => exact h
  | cons entry entries ih =>
    rw [List.foldlM_cons, wp_bind]
    exact wp_mono (fun out w' hw' => ih out hw') (njoinOne_spares nickOut entry h)

/-- The names in an NJOIN line. -/
def Request.njoinNicks (req : Request) : List Str :=
  (strtok (strlcpy (req.arg 1) commandLen) ",").map njoinNick

theorem ircNjoin_replies (h : w.Admits (req.arg 0) req.njoinNicks) :
    (ircNjoin client req).wp shedWp (fun _ _ => True) w := by
  unfold ircNjoin
  rw [wp_bind]
  refine wp_mono (fun nickOut w' _ => ?_) (njoinEntries_spare _ _ h)
  exact Stable.ite (.bind (replies_msg _) fun _ => .bind (replies_msg _) fun _ => .pure _) (.pure _)
    w' trivial

/-! ## Lines -/

/-- The references of channels are below the next one. -/
def World.FreshChannels (w : World) : Prop :=
  ∀ ch d, w.chans.heap ch = some d → ch < w.chans.nextRef

theorem World.FreshChannels.of_eq (h : w'.chans = w.chans) (hw : w.FreshChannels) :
    w'.FreshChannels := by
  unfold World.FreshChannels
  rw [h]
  exact hw

theorem fresh_update {heap : ChanRef → Option Channel} {n m : Nat} {ch : ChanRef}
    {d : Option Channel} (h : ∀ k c, heap k = some c → k < n) (hnm : n ≤ m)
    (hch : d.isSome = true → ch < m) : ∀ k c, Function.update heap ch d k = some c → k < m := by
  intro k c hc
  by_cases hk : k = ch
  · subst hk
    rw [Function.update_self] at hc
    exact hch (hc ▸ rfl)
  · rw [Function.update_of_ne hk] at hc
    exact Nat.lt_of_lt_of_le (h k c hc) hnm

theorem freshChannels_frame : FullFrame (fun _ w w' => w.FreshChannels → w'.FreshChannels)
    (fun w w' => w.FreshChannels → w'.FreshChannels) where
  refl _ h := h
  trans _ _ _ h₁ h₂ h := h₂ (h₁ h)
  queue _ _ _ _ _ := .of_eq rfl
  fail w _ _ _ _ h hw := h (.of_eq (w := w) rfl hw)
  editConn _ _ _ := .of_eq rfl
  cloak _ _ _ _ _ := .of_eq rfl
  removeMember _ _ _ h := h
  dropChannel _ _ h := fresh_update h (Nat.le_refl _) (d := none) nofun
  misc _ _ := .of_eq rfl
  servers _ _ := .of_eq rfl
  setChannel _ ch c _ hc h := fresh_update h (Nat.le_refl _) fun _ => h ch c hc
  addChannel _ _ h := fresh_update h (Nat.le_succ _) fun _ => Nat.lt_succ_self _
  addMember _ _ _ h := h
  setMemberModes _ _ _ _ h := h
  rand _ _ := .of_eq rfl
  editClient _ _ _ _ _ := .of_eq rfl
  unlink _ _ := .of_eq rfl
  free _ _ := .of_eq rfl
  startClosing _ _ := .of_eq rfl
  closeSocket _ _ := .of_eq rfl
  initConn _ _ _ := .of_eq rfl
  close _ _ _ h := h
  newRemote _ _ _ := .of_eq rfl
  setType _ _ _ _ _ := .of_eq rfl
  setId _ _ _ _ _ := .of_eq rfl
  setCaps _ _ _ _ _ := .of_eq rfl
  ownIntroducer _ _ _ _ := .of_eq rfl
  setPwd _ _ _ := .of_eq rfl
  setAuthPing _ _ _ := .of_eq rfl

theorem Reachable.freshChannels (h : Reachable w) : w.FreshChannels := by
  induction h with
  | start conf env host => exact fun ch d hd => nomatch hd
  | step hreach hstep ih =>
    obtain ⟨-, n, hrun⟩ := hstep
    refine freshChannels_frame.exec_ok hrun ?_
    rename_i e
    cases e <;> exact ih

/-- Every client under one of the names that is not to be killed has this name in one entry
only, the channel has a valid name, and the channels the client is on have other names. -/
def World.NjoinSafe (w : World) (name : Str) (nicks : List Str) : Prop :=
  ∀ rc ∈ w.listed, rc.2.killable = false → nicks.any rc.2.answersTo = true →
    channelIsValidName name = true ∧ nicks.countP rc.2.answersTo = 1 ∧
    ∀ e ∈ w.chans.cl2chan, e.client = rc.1 →
      (w.chans.heap e.channel).any (fun d => !strcaseEq name d.name) = true

instance (w : World) (name : Str) (nicks : List Str) : Decidable (w.NjoinSafe name nicks) :=
  inferInstanceAs (Decidable (∀ _ ∈ _, _))

theorem Reachable.admits (hw : Reachable w) (h : w.NjoinSafe name nicks) : w.Admits name nicks := by
  intro q c hc hkind hnamed
  obtain ⟨hvalid, honce, hapart⟩ := h (q, c) (World.mem_listed (hw.tidy q c hc) hc) hkind hnamed
  refine ⟨hvalid, honce, fun e he hclient => ?_⟩
  obtain ⟨d, hd, hother⟩ := (Option.any_eq_true _ _).mp (hapart e he hclient)
  refine ⟨hw.freshChannels _ d hd, fun d' hd' => ?_⟩
  obtain rfl : d = d' := Option.some.inj (hd.symm.trans hd')
  simpa using hother

/-- The handlers that call `IRC_KillClient`. -/
def Handler.kills : Handler → Bool
  | .nick | .service | .njoin | .kill | .xLine => true
  | _ => false

/-- Handling a NICK, SERVICE, KILL, GLINE or KLINE line never needs a sender that is not
there, and neither does an NJOIN line whose entries are safe. -/
theorem kills_have_sender {w₁ : World} {n : Nat} {i : ConnId} {line after : Str}
    {type : ClientType} {cmd : Command} (hw : Reachable w) (hi : w.Has i r c)
    (hrun : execPlain n (dispatchLine i line after) w = .ok (.command client type cmd req, w₁))
    (hkills : cmd.handler.kills = true)
    (hsafe : cmd.handler = .njoin → w.NjoinSafe (req.arg 0) req.njoinNicks) :
    exec n (parseRequest i line after) w ≠ .error .absentSender := by
  obtain ⟨argv, rfl, -, hpenalty, -, -, -⟩ :=
    (execPlain_ends (closer_settled n) (dispatchLine_known hw.linked hi line after)).of_ok hrun
  have hcall : (callHandler client req cmd.handler).wp shedFullWp (fun _ _ => True) w₁ := by
    cases hhandler : cmd.handler with
    | nick => exact ircNick_replies w₁ trivial
    | service => exact ircService_replies w₁ trivial
    | kill => exact RepliesFull.plain ircKill_replies w₁ trivial
    | xLine => exact RepliesFull.plain ircXline_replies w₁ trivial
    | njoin =>
      have hsame : Sheds w w₁ := by
        cases hpenalty with
        | none => exact .of_eq rfl rfl
        | edit e => exact .of_eq rfl rfl
      exact (wp_ofPlain _).mpr (ircNjoin_replies (hsame.admits (hw.admits (hsafe hhandler))))
    | _ =>
      rw [hhandler] at hkills
      cases hkills
  have hfinish : (Dispatch.finish (.command client type cmd req)).wp shedFullWp (fun _ _ => True)
      w₁ := by
    simp only [Dispatch.finish, wp_msg, wp_getWorld]
    refine wp_mono (fun _ w₂ _ => ?_) hcall
    exact Stable.bind (full_basic _) (fun _ => .pure _) w₂ trivial
  have hclose := Sheds.frame.rightAbout (E := Fault.HasSender) (by rintro ⟨⟩) hasSender_data n
  rw [parseRequest_of_dispatch hrun]
  intro hfault
  have hends := exec_ends hclose hfinish
  rw [Exec.Ends, hfault] at hends
  exact hends rfl

/-- An NJOIN line comes to its handler and is safe. -/
def njoinsSafely (line : Str) (w : World) : Bool :=
  match execPlain 1 (dispatchLine 1 line []) w with
  | .ok (.command _ _ cmd req, _) =>
    cmd.handler == .njoin && decide (w.NjoinSafe (req.arg 0) req.njoinNicks)
  | _ => false

theorem kills_have_sender_once : ∃ w, Reachable w ∧
    exec 1 (parseRequest 1 ":irc.b NJOIN #c :irc.b" []) w ≠ .error .absentSender := by
  obtain ⟨w, hw, hsock, hclient, ⟨c, hcell, -⟩, hline⟩ :
      ∃ w ∈ Event.runAll 1 peerLink (World.start peerConf {} "localhost"),
        (w.conns 1).sock = some 1 ∧ (w.conns 1).client = some 1 ∧
        (∃ c ∈ w.heap 1, c.type = .server) ∧ njoinsSafely ":irc.b NJOIN #c :irc.b" w = true := by
    decide +kernel
  unfold njoinsSafely at hline
  split at hline
  · rename_i cmd req w₁ hdispatch
    obtain ⟨hhandler, hsafe⟩ := Bool.and_eq_true_iff.mp hline
    have hnjoin : cmd.handler = .njoin := of_decide_eq_true hhandler
    have hreach := (Reachable.start peerConf {} "localhost").runAll hw
    have hi : w.Has 1 1 c := ⟨by simp [hsock], hclient, hcell⟩
    exact ⟨w, hreach, kills_have_sender hreach hi hdispatch (by rw [hnjoin]; rfl)
      fun _ => of_decide_eq_true hsafe⟩
  · exact absurd hline Bool.false_ne_true

/-- A server joins itself, or this server, to a channel twice. -/
theorem njoin_kills_server : ∃ w, Reachable w ∧
    exec 1 (parseRequest 1 ":irc.b NJOIN #c :irc.b,irc.b" []) w = .error .absentSender ∧
    exec 1 (parseRequest 1 ":irc.b NJOIN #c :irc.example.net,irc.example.net" []) w =
      .error .absentSender := by
  refine Reachable.exists_runAll 1 peerLink peerConf {} "localhost" ?_
  decide +kernel

end Ngircd
