import Ngircd.Identity

/-!
# Closes and lines uphold invariants

Closing a connection removes its client, and handling a line is the call of a
handler after a few checks.  An invariant that is upheld by the removal of clients
is upheld by closes, and one that is upheld by handlers is upheld by lines.
-/

namespace Ngircd

open Lib Prog

variable {C R R' : World → World → Prop} {w w' : World} {i : ConnId} {n : Nat} {after : Str}
  {b : Bool} {e : Event}

section

variable {J : World → Prop}

/-! ## Closing connections -/

/-- Clients can be removed and connections closed. -/
structure Shutting (J : World → Prop) (C : World → World → Prop) : Prop extends Upkeep J C where
  remove : ∀ w r c txt f q, w.heap r = some c → J w →
    (farewell r c.type txt f q).wp (leaveWp (closing C) anyFault)
      (fun _ w' => J (w'.setHeap r none)) { w with order := w.order.erase r }
  setConn : ∀ w i conn, conn.client = (w.conns i).client ∨ conn.client = none → J w →
    J (w.setConn i conn)

theorem Upkeep.parting (h : Upkeep J C) : Parting (closing C) J where
  msg _ p := h.message p
  quit ch client reason := h.removeClient .quit ch client client reason false
  whowas w _ _ hw := h.misc w _ hw (.same w.misc)

/-- Closing a connection upholds the invariant if the removal of its client does. -/
theorem Upkeep.connClose (h : Upkeep J C)
    (hconn : ∀ w i conn, conn.client = (w.conns i).client ∨ conn.client = none → J w →
      J (w.setConn i conn))
    (hdestroy : ∀ w i r n l f, J w → (w.conns i).client = some r →
      (clientDestroy n r l f true).wp (shutWp (closing C) anyFault) (fun _ => J) w)
    (i : ConnId) (l f : Option Str) (inf : Bool) :
    (Ngircd.connClose i l f inf).Stable (shutWp (closing C) anyFault) J := by
  have hreleased (w : World) (now : Nat) (hw : J w) : J (w.released i now) := by
    have hcleared := hconn w i (newConn now) (.inr rfl) hw
    exact h.misc _ (w.released i now).misc
      (h.servers _ (w.released i now).conf.servers hcleared) (.same w.misc)
  intro w hw
  refine wp_connClose (fun _ => hw) fun _ => ?_
  refine h.messages.wp (fun _ => trivial) _ fun _ w₁ hkeep => ?_
  have hw₁ := hkeep (hconn w i { w.conns i with isClosing := true } (.inl rfl) hw)
  have hsock := hconn w₁ i { w₁.conns i with sock := none } (.inl rfl) hw₁
  refine wp_shutDown (fun r hr => ?_) fun _ => hreleased _ _ hsock
  refine wp_mono (fun _ w₂ hw₂ => hreleased w₂ _ hw₂) (hdestroy _ i r _ l f hsock ?_)
  rw [World.setConn_conns_self]
  exact hr

/-- An invariant that does not mind which clients are on the list. -/
theorem Upkeep.shutting (h : Upkeep J C)
    (hunlink : ∀ w r, J w → J { w with order := w.order.erase r })
    (hfree : ∀ w r, J w → J (w.setHeap r none))
    (hconn : ∀ w i conn, conn.client = (w.conns i).client ∨ conn.client = none → J w →
      J (w.setConn i conn)) : Shutting J C where
  toUpkeep := h
  remove w r c txt f q _ hw :=
    wp_mono (fun _ w' hw' => hfree w' r hw')
      (h.parting.farewell r c.type txt f q _ (hunlink w r hw))
  setConn := hconn

namespace Shutting

variable (h : Shutting J C)
include h

theorem clientDestroy (n : Nat) (r : ClientRef) (l f : Option Str) (q : Bool) :
    (clientDestroy n r l f q).Stable (shutWp (closing C) anyFault) J := by
  induction n generalizing r l f q with
  | zero => exact fun _ _ => trivial
  | succ n ih =>
    intro w hw
    refine wp_clientDestroy.mpr
      ⟨fun c hc => ⟨fun _ => hw, fun _ => h.remove w r c _ f q hc hw, fun s _ _ => ?_⟩,
        fun _ => trivial⟩
    refine ⟨fun this _ => ?_, fun _ => trivial⟩
    exact wp_mono (fun _ w₁ hw₁ => ih r l f q w₁ hw₁) (ih s _ _ _ w hw)

theorem destroyClient (r : ClientRef) (l f : Option Str) (q : Bool) :
    Upholds J (destroyClient r l f q) C := by
  intro w hw
  unfold Ngircd.destroyClient
  simp only [wp_msg, liftM_shut_plain, wp_getWorld, wp_ofShut]
  exact h.clientDestroy _ r l f q w hw

/-- Everybody can be removed. -/
theorem removing : Removing J (fun _ => False) C where
  toUpkeep := h.toUpkeep
  destroy r l f q _ := h.destroyClient r l f q
  spare _ _ _ _ := nofun

theorem connClose (i : ConnId) (l f : Option Str) (inf : Bool) :
    (connClose i l f inf).Stable (shutWp (closing C) anyFault) J :=
  h.toUpkeep.connClose h.setConn (fun w _ r n l f hw _ => h.clientDestroy n r l f true w hw) i l f
    inf

end Shutting

/-! ## Closes that keep to a relation -/

/-- What happens while a connection is closed keeps to `R`, if nested closes keep to `C`.
A client is taken off the list and freed in one go, with its farewell in between. -/
structure CloseFrame (C R : World → World → Prop) : Prop extends LeaveFrame (fun _ => C) R where
  remove : ∀ w r c txt f q, w.heap r = some c →
    (farewell r c.type txt f q).wp (leaveWp (closing C) anyFault)
      (fun _ w' => R w (w'.setHeap r none)) { w with order := w.order.erase r }
  setConn : ∀ w i conn, conn.client = (w.conns i).client ∨ conn.client = none →
    R w (w.setConn i conn)

namespace CloseFrame

theorem clientDestroy (h : CloseFrame C R) (n : Nat) (r : ClientRef) (l f : Option Str) (q : Bool)
    (w : World) : (clientDestroy n r l f q).wp (shutWp (closing C) anyFault) (fun _ => R w) w := by
  induction n generalizing r l f q w with
  | zero => trivial
  | succ n ih =>
    refine wp_clientDestroy.mpr
      ⟨fun c hc => ⟨fun _ => h.refl w, fun _ => h.remove w r c _ f q hc, fun s _ _ => ?_⟩,
        fun _ => trivial⟩
    refine ⟨fun this _ => ?_, fun _ => trivial⟩
    refine wp_mono (fun _ w₁ h₁ => ?_) (ih s _ _ _ w)
    exact wp_mono (fun _ w₂ h₂ => h.trans _ _ _ h₁ h₂) (ih r l f q w₁)

theorem connClose (h : CloseFrame C R) (i : ConnId) (l f : Option Str) (inf : Bool) (w : World) :
    (connClose i l f inf).wp (shutWp (closing C) anyFault) (fun _ => R w) w := by
  have hreleased (w₁ : World) (now : Nat) (h₁ : R w w₁) : R w (w₁.released i now) := by
    have hcleared := h.trans _ _ _ h₁ (h.setConn w₁ i (newConn now) (.inr rfl))
    have hservers := h.trans _ _ _ hcleared (h.servers _ (w₁.released i now).conf.servers)
    exact h.trans _ _ _ hservers (h.misc _ (w₁.released i now).misc)
  refine wp_connClose (fun _ => h.refl w) fun _ => ?_
  refine h.toMsgFrame.wp (fun _ => trivial) _ fun _ w₁ hmsg => ?_
  have h₁ := h.trans _ _ _ (h.setConn w i { w.conns i with isClosing := true } (.inl rfl)) hmsg
  have hsock := h.trans _ _ _ h₁ (h.setConn w₁ i { w₁.conns i with sock := none } (.inl rfl))
  refine wp_shutDown (fun r hr => ?_) fun _ => hreleased _ _ hsock
  refine wp_mono (fun _ w₂ h₂ => ?_) (h.clientDestroy _ r l f true _)
  exact hreleased w₂ _ (h.trans _ _ _ hsock h₂)

theorem rightAbout (h : CloseFrame R R) (n : Nat) : (closing R).RightAbout anyFault (closer n) :=
  closer_sound trivial (fun i l f inf w => h.connClose i l f inf w) n

/-- An invariant that is upheld wherever the relation holds. -/
theorem shutting (h : CloseFrame C C) (hup : Upkeep J C) : Shutting J C where
  toUpkeep := hup
  remove w r c txt f q hc hw :=
    wp_mono (fun _ _ hC => (hup.closes _ _ hC).2 hw) (h.remove w r c txt f q hc)
  setConn w i conn hconn hw := (hup.closes _ _ (h.setConn w i conn hconn)).2 hw

theorem and (h : CloseFrame C R) (h' : CloseFrame C R') :
    CloseFrame C fun w w' => R w w' ∧ R' w w' where
  refl w := ⟨h.refl w, h'.refl w⟩
  trans w₁ w₂ w₃ h₁ h₂ := ⟨h.trans w₁ w₂ w₃ h₁.1 h₂.1, h'.trans w₁ w₂ w₃ h₁.2 h₂.2⟩
  queue w i line hs ht := ⟨h.queue w i line hs ht, h'.queue w i line hs ht⟩
  fail w w' i hs ht hk := ⟨h.fail w w' i hs ht hk, h'.fail w w' i hs ht hk⟩
  editConn w i e := ⟨h.editConn w i e, h'.editConn w i e⟩
  cloak w r host c hc := ⟨h.cloak w r host c hc, h'.cloak w r host c hc⟩
  removeMember w ch cl := ⟨h.removeMember w ch cl, h'.removeMember w ch cl⟩
  dropChannel w ch := ⟨h.dropChannel w ch, h'.dropChannel w ch⟩
  misc w m := ⟨h.misc w m, h'.misc w m⟩
  servers w l := ⟨h.servers w l, h'.servers w l⟩
  remove w r c txt f q hc :=
    Prog.wp_and leaveWp_and (h.remove w r c txt f q hc) (h'.remove w r c txt f q hc)
  setConn w i conn hconn := ⟨h.setConn w i conn hconn, h'.setConn w i conn hconn⟩

/-- Whatever happens while a connection is closed persists. -/
theorem persists (hC : ∀ w w', C w w' → Persists w w') : CloseFrame C Persists := by
  have hp := persists_frame
  have hframe : LeaveFrame (fun _ => C) Persists :=
    { hp.toLeaveFrame with fail := fun w w' i hs ht hk => hp.fail w w' i hs ht (hC _ _ hk) }
  refine { hframe with remove := fun w r c txt f q _ => ?_, setConn := fun w i conn _ => ?_ }
  · refine hframe.wp (fun _ => trivial) _ fun _ w' hw' => ?_
    exact hp.trans _ _ _ (hp.unlink w r) (hp.trans _ _ _ hw' (hp.free w' r))
  · exact ⟨⟨rfl, Nat.le_refl _, fun r c _ hc => ⟨c, hc, sameCells_order.refl r c⟩⟩, fun _ _ h => h⟩

end CloseFrame

/-! ## Closes that uphold an invariant -/

/-- Closes keep to `R` and uphold the invariant, if they keep to `R` anyway and the body
of `Conn_Close` upholds the invariant. -/
theorem closer_keeping
    (hR : ∀ n, (closing R).RightAbout anyFault (closer n))
    (hbody : ∀ i l f inf, (connClose i l f inf).Stable
      (shutWp (closing fun w w' => R w w' ∧ (J w → J w')) anyFault) J) (n : Nat) :
    (closing fun w w' => R w w' ∧ (J w → J w')).RightAbout anyFault (closer n) := by
  induction n with
  | zero =>
    intro i l f inf P w _
    trivial
  | succ n ih =>
    intro i l f inf P w hP
    have hkeeps : Exec.Ends anyFault (closer (n + 1) i l f inf) (fun _ => R w) w :=
      hR (n + 1) i l f inf (R w) w fun _ h => h
    have hkeep : Exec.Ends anyFault (closer (n + 1) i l f inf) (fun _ w' => J w → J w') w := by
      by_cases hw : J w
      · refine Exec.Ends.mono (fun _ _ hw' _ => hw') ?_
        exact Prog.wp_sound (stepShut_ends ih) (hbody i l f inf w hw)
      · exact Prog.wp_sound (stepShut_ends ih)
          (anyChange_shutFrame.wp (fun _ => trivial) _ fun _ _ _ h => absurd h hw)
    exact Exec.Ends.mono (fun _ w' h => hP w' h) (hkeeps.and hkeep)

/-- Closes uphold the invariant if the body of `Conn_Close` does. -/
theorem closer_upholds (hbody : ∀ i l f inf, (connClose i l f inf).Stable
      (shutWp (upholding J) anyFault) J) (n : Nat) :
    (upholding J).RightAbout anyFault (closer n) :=
  closer_keeping (persists_frame.toShutFrame.rightAbout (E := anyFault) trivial fun _ => trivial)
    hbody n

/-! ## Handlers that reach out -/

/-- No request removes a client that is to be spared. -/
structure RequestSpares (spared : ClientRef → Prop) (w : World) (client : ClientRef) (c : Client)
    (req : Request) (handler : Handler) : Prop where
  self : ¬spared client
  quit : ∀ target, c.type = .server → req.pfx.bind w.clientSearch = some target → ¬spared target
  squit : handler = .squit → c.type = .server → ∀ target source s,
    w.senderOf client req = some source → w.heap source = some s → s.type = .server →
    w.clientSearch (req.arg 0) = some target → ¬spared target

theorem RequestSpares.nobody (w : World) (client : ClientRef) (c : Client) (req : Request)
    (handler : Handler) : RequestSpares (fun _ => False) w client c req handler :=
  ⟨id, fun _ _ _ => id, fun _ _ _ _ _ _ _ _ _ => id⟩

/-- The handlers that create or remove other clients uphold an invariant that these clients may
be removed from. -/
theorem Removing.callHandler_out {client : ClientRef} {spared : ClientRef → Prop}
    (hremoving : Removing J spared C) {c : Client} {req : Request}
    {handler : Handler} (hw : J w) (hspares : RequestSpares spared w client c req handler)
    (hnick : handler = .nick → ∀ target,
      c.type ≠ .server ∧ nickCheckContext c.type req.argc = .userOrChange ∧ target = client ∨
        c.type = .server ∧ (∃ p, w.clientSearch p = some target) →
      (Ngircd.ircNickUser client target (req.arg 0)).wp (upFull C) (fun _ => J) w)
    (hc : w.heap client = some c) (hknown : client < w.nextRef) (hout : handler.reachesOut = true)
    (hjoin : handler = .njoin → ∀ target, UpholdsBasic J (channelJoin target (req.arg 0)) C)
    (hregister : handler = .server → c.type = .gotPass ∨ c.type = .gotPass2813 →
      (registerServer client req).wp (upFull C) (fun _ => J) w)
    (hremote : ∀ server token nick new, w.clientSearch (req.arg 0) = none →
      w.clientGetFromToken client token = some server →
      handler = .nick ∧ nickCheckContext c.type req.argc = .serverIntroduce ∧ nick = req.arg 0 ∨
        handler = .service ∧ c.type = .server ∧ new.type = .service ∧
          nick = (cutAt '!' (cutAt '@' (req.arg 0)).1).1 →
      RemoteUser server nick new → J (w.addClient new))
    (hserver : ∀ new, handler = .server → c.type = .server → NewServer w (req.arg 0) new →
      new.introducer = client → J (w.addClient new))
    (huser : handler = .user → c.type = .gotNick ∨ c.type = .unknown ∨ c.type = .gotPass →
      (Ngircd.registerUser client req).wp (upFull C) (fun _ => J) w)
    (hset : ∀ w r c t, J w → w.heap r = some c → c.type = .gotNick → t = .user ∨ t = .service →
      J (w.setHeap r (some { c with type := t }))) :
    (Ngircd.callHandler client req handler).wp (upFull C) (fun _ => J) w := by
  have hup := hremoving.toUpkeep
  have hkill (reason : Str) :
      Upholds J (Ngircd.ircKillClient (some client) none (req.arg 0) reason) C :=
    hremoving.ircKillClient_some hspares.self none (req.arg 0) reason
  have hquit (msg : Option Str) : (quitWith client req msg).wp (upPlain C) (fun _ => J) w :=
    hup.quitWith hw hc (fun target l f hserver htarget _ =>
      hremoving.destroy target l f true (hspares.quit target hserver htarget) w hw) msg
  rcases Handler.cases_of_reachesOut hout with
    rfl | rfl | rfl | rfl | rfl | rfl | rfl | rfl | rfl | rfl
  · exact UpholdsFull.plain (hremoving.ircXline hspares.self req) w hw
  · exact UpholdsFull.plain (hremoving.ircKill hspares.self req) w hw
  · exact hup.ircNick hw hc (fun htype hcontext => hnick rfl client (.inl ⟨htype, hcontext, rfl⟩))
      (fun p target htype _ hfound => hnick rfl target (.inr ⟨htype, p, hfound⟩)) fun hcontext =>
      hup.ircNickIntroduce hw hkill fun _ _ _ hfree htoken hnew =>
        hremote _ _ _ _ hfree htoken (.inl ⟨rfl, hcontext, rfl⟩) hnew
  · exact UpholdsFull.plain (hremoving.ircNjoin req (hjoin rfl)) w hw
  · exact (wp_ofPlain _).mpr (hquit _)
  · exact (wp_ofPlain _).mpr (hquit _)
  · exact hup.ircServer hw hc (hregister rfl) fun htype =>
      hup.introduceServer hw fun _ _ new hnew _ _ hintro _ => hserver new rfl htype hnew hintro
  · exact hup.ircService hw hc hkill fun _ _ _ _ htype hfree htoken hcut hnew_type hnew =>
      hremote _ _ _ _ hfree htoken (.inr ⟨rfl, htype, hnew_type, hcut⟩) hnew
  · refine (wp_ofPlain _).mpr (hup.ircSquit hw hc hknown ?_)
    intro target source s t l f htype hsender hs hs_type htarget _ _
    have htarget' := hspares.squit rfl htype target source s hsender hs hs_type htarget
    exact hremoving.destroy target l f false htarget' w hw
  · exact hup.ircUser hw hc (huser rfl) (hup.ircUserServer hset)

/-! ## Handling a line -/

/-- A line that is not answered at once is one of a client. -/
theorem dispatchLine_has (hsock : (w.conns i).sock ≠ none)
    (line after : Str) : (dispatchLine i line after).wp settledWp
      (fun d _ => (∃ b, d = .answered b) ∨ ∃ r c, w.Has i r c) w := by
  by_cases hhas : ∃ r c, w.Has i r c
  · exact plain_settled _ fun _ _ _ => .inr hhas
  unfold dispatchLine
  dsimp only
  split_ifs
  · exact .inl ⟨_, rfl⟩
  simp only [wp_msg, wp_getWorld]
  split_ifs
  · exact .inl ⟨_, rfl⟩
  cases splitRequest (trimStr line) (trimmedRest line after) with
  | none =>
    simp only [wp_msg]
    exact msg_settled _ fun _ _ _ => .inl ⟨_, rfl⟩
  | some req =>
    -- The prefix check asks for the client first.
    rw [wp_bind]
    unfold validatePrefix
    simp only [wp_msg, wp_clientOf, wp_deref]
    refine ⟨fun r hr => ⟨fun c hc => absurd ⟨r, c, hsock, hr, hc⟩ hhas, fun _ => trivial⟩, ?_⟩
    exact fun _ => trivial

/-- A line that has been handled was dispatched first. -/
theorem parseRequest_run {line : Str}
    (hrun : exec n (parseRequest i line after) w = .ok (b, w')) :
    ∃ d w₁, execPlain n (dispatchLine i line after) w = .ok (d, w₁) ∧
      exec n d.finish w₁ = .ok (b, w') := by
  have hplain := congrFun (exec_ofPlain n (dispatchLine i line after)) w
  rw [parseRequest_eq] at hrun
  simp only [exec] at hrun hplain ⊢
  rw [Prog.run_bind, Exec.bind_apply, hplain] at hrun
  cases hline : execPlain n (dispatchLine i line after) w with
  | error f =>
    rw [hline] at hrun
    cases hrun
  | ok a =>
    rw [hline] at hrun
    exact ⟨a.1, a.2, rfl, hrun⟩

theorem Event.handle_line {text : Str}
    (hrun : Event.handle n (.line i text after) w = .ok ((), w')) :
    ∃ b, exec n (parseRequest i text after) w = .ok (b, w') := by
  simp only [Event.handle, Event.program, Event.prepare, exec] at hrun ⊢
  rw [Prog.run_bind, Exec.bind_apply] at hrun
  cases hline : (parseRequest i text after).run (stepFull (closer n)) w with
  | error f =>
    rw [hline] at hrun
    cases hrun
  | ok a =>
    rw [hline] at hrun
    obtain rfl : a.2 = w' := congrArg Prod.snd (Except.ok.inj hrun)
    exact ⟨a.1, rfl⟩

/-- A line upholds the invariant if what is found to do about it does. -/
theorem Upkeep.line (h : Upkeep J C)
    (hclose : (closing C).RightAbout anyFault (closer n))
    (hl : Linked w) (hw : J w) (hsock : (w.conns i).sock ≠ none)
    {line : Str}
    (hfinish : ∀ r c (d : Dispatch) argv w₁,
      execPlain n (Ngircd.dispatchLine i line after) w = .ok (d, w₁) →
      w.Has i r c → d.Known w i r c argv w₁ → J w₁ →
      exec n d.finish w₁ = .ok (b, w') → J w')
    (hrun : exec n (parseRequest i line after) w = .ok (b, w')) : J w' := by
  obtain ⟨d, w₁, hline, hend⟩ := parseRequest_run hrun
  have hw₁ : J w₁ := (execPlain_ends hclose (h.dispatchLine i line after w hw)).of_ok hline
  have hhas := (execPlain_ends (closer_settled n) (dispatchLine_has hsock line after)).of_ok hline
  rcases hhas with ⟨b', rfl⟩ | ⟨r, c, hi⟩
  · exact (exec_ends hclose (UpholdsFull.pure b' w₁ hw₁)).of_ok hend
  · obtain ⟨argv, hknown⟩ :=
      (execPlain_ends (closer_settled n) (dispatchLine_known hl hi line after)).of_ok hline
    exact hfinish r c d argv w₁ hline hi hknown hw₁ hend

section

variable (h : Upkeep J C) (hclose : ∀ n, (closing C).RightAbout anyFault (closer n)) (hl : Linked w)
  (hw : J w) (hprepared : J (e.prepare w))
include h hclose hl hw hprepared

/-- An event upholds the invariant if its preparation does, and what is found to do about
a line. -/
theorem Upkeep.step
    (hfinish : ∀ n i text after r c (d : Dispatch) argv w₁ b, e = .line i text after →
      execPlain n (Ngircd.dispatchLine i text after) w = .ok (d, w₁) →
      w.Has i r c → d.Known w i r c argv w₁ → J w₁ →
      exec n d.finish w₁ = .ok (b, w') → J w') (hstep : Step w e w') : J w' := by
  obtain ⟨henabled, n, hrun⟩ := hstep
  have hruns (hp : UpholdsFull J (e.program w) C) : J w' :=
    (exec_ends (hclose n) (hp _ hprepared)).of_ok hrun
  cases e with
  | accept i ip => exact hruns (.basic (h.newConnection i _))
  | resolved i host => exact hruns (.plain (h.resolverResult i host))
  | connect k i ip => exact hruns (.plain (h.newServer k i _))
  | linked i => exact hruns (h.fullMsg _)
  | close i l f inf => exact hruns (.plain (h.close i l f inf))
  | ping i => exact hruns (h.fullMsg _)
  | expire => exact hruns (.basic h.classExpire)
  | clock now => exact hruns (.pure _)
  | line i text after =>
    obtain ⟨b, hparse⟩ := Event.handle_line hrun
    exact h.line (hclose n) hl hw henabled (fun r c d argv w₁ hdispatch hi hknown hw₁ hend =>
        hfinish n i text after r c d argv w₁ b rfl hdispatch hi hknown hw₁ hend) hparse

/-- An event upholds the invariant if its preparation does, and the handlers. -/
theorem Upkeep.step_of_handlers (hnumeric : ∀ n i text after r c req, e = .line i text after →
      execPlain n (Ngircd.dispatchLine i text after) w = .ok (.numeric r req, w) →
      w.Has i r c → PrefixFits w r req →
      (Ngircd.handleNumeric r req).wp (upFull C) (fun _ => J) w)
    (hcommand : ∀ n i text after r c cmd req w₁, e = .line i text after →
      execPlain n (Ngircd.dispatchLine i text after) w = .ok (.command r c.type cmd req, w₁) →
      w.Has i r c → Penalised w i w₁ → Dispatched w r c req cmd → PrefixFits w r req →
      w₁.heap r = some c → r < w₁.nextRef → J w₁ →
      (Ngircd.callHandler r req cmd.handler).wp (upFull C) (fun _ => J) w₁) (hstep :
    Step w e w') : J w' := by
  refine h.step hclose hl hw hprepared ?_ hstep
  intro n i text after r c d argv w₁ b he hdispatch hi hknown hw₁ hend
  refine (exec_ends (hclose n) (Q := fun _ => J) ?_).of_ok hend
  cases d with
  | answered result => exact hw₁
  | numeric client req =>
    obtain ⟨rfl, rfl, -, hfits, -⟩ := hknown
    exact hnumeric n i text after client c req he hdispatch hi hfits
  | command client type cmd req =>
    obtain ⟨rfl, rfl, hpenalty, hd, hfits, -⟩ := hknown
    obtain ⟨hheap, hnextRef⟩ : w₁.heap = w.heap ∧ w₁.nextRef = w.nextRef := by
      cases hpenalty <;> exact ⟨rfl, rfl⟩
    refine h.finish_command (hcommand n i text after client c cmd req w₁ he hdispatch hi hpenalty
      hd hfits ?_ ?_ hw₁)
    · rw [hheap, hi.cell]
    · rw [hnextRef]
      exact hl.cell client c hi.cell

end

/-- An event upholds an invariant that lets every client change on its own and be removed. -/
theorem Indifferent.step_of_personal (hind : Indifferent J C) (hpersonal : ∀ r, Personal J r C)
    (hremoving : Removing J (fun _ => False) C)
    (hclose : ∀ n, (closing C).RightAbout anyFault (closer n))
    (hl : Linked w) (hw : J w) (hprepared : J (e.prepare w))
    (hremote : ∀ w server nick new, J w → RemoteUser server nick new → J (w.addClient new))
    (hserver : ∀ w name new, J w → NewServer w name new → J (w.addClient new))
    (hset : ∀ w r c t, J w → w.heap r = some c → c.type = .gotNick → t = .user ∨ t = .service →
      J (w.setHeap r (some { c with type := t }))) (hstep : Step w e w') : J w' := by
  refine hind.toUpkeep.step_of_handlers hclose hl hw hprepared ?_ ?_ hstep
  · intro n i text after r c req _ _ _ _
    exact (hpersonal r).handleNumeric req w hw
  · intro n i text after r c cmd req w₁ _ _ _ _ _ _ hcell hlive hw₁
    have hself := hpersonal r
    by_cases hout : cmd.handler.reachesOut = false
    · exact hself.entry.callHandler hind (hself.ircSvsnick req) hw₁ hcell hlive hout
    · exact hremoving.callHandler_out hw₁ (.nobody ..)
        (fun _ target _ => hself.ircNickUser target _ w₁ hw₁) hcell hlive (by simpa using hout)
        (fun _ target => hind.join target _) (fun _ _ => hself.registerServer req w₁ hw₁)
        (fun _ _ _ _ _ _ _ hnew => hremote w₁ _ _ _ hw₁ hnew)
        (fun _ _ _ hnew _ => hserver w₁ _ _ hw₁ hnew)
        (fun _ _ => hself.entry.registerUser req w₁ hw₁) hset

end

end Ngircd
