import Ngircd.Netsplit
import Ngircd.Senders
import Ngircd.Tidy

/-!
# The record of this server

The structure of `This_Server` is made when the daemon starts and should stay on
the client list until it ends.  Closes and almost all commands cannot remove it:
it has no connection, it cannot be killed, and nobody can speak in its name.  The
exception is SQUIT: a server can name this server in it.
-/

namespace Ngircd

open Lib Prog

variable {T r client source target : ClientRef} {w w' w₁ : World} {c s : Client} {i : ConnId}
  {req : Request} {text after : Str} {cmd : Command} {e : Event}

/-! ## The invariant -/

/-- `T` is this server, and its record is in use. -/
structure Anchored (T : ClientRef) (w : World) : Prop where
  this : w.thisServer = T
  known : T < w.nextRef
  listed : T ∈ w.order
  cell : ∃ c, w.heap T = some c ∧ c.type = .server ∧ c.introducer = T
  slot : ∀ i, (w.conns i).client ≠ some T

namespace Anchored

variable {c' : Client}

section

variable (h : Anchored T w)
include h

/-- A change that leaves the record alone. -/
theorem of_same (hthis : w'.thisServer = w.thisServer) (hnext : w.nextRef ≤ w'.nextRef)
    (horder : T ∈ w.order → T ∈ w'.order) (hheap : w'.heap T = w.heap T)
    (hslot : ∀ i, (w'.conns i).client = some T → (w.conns i).client = some T) :
    Anchored T w' where
  this := hthis.trans h.this
  known := Nat.lt_of_lt_of_le h.known hnext
  listed := horder h.listed
  cell := by
    rw [hheap]
    exact h.cell
  slot i hi := h.slot i (hslot i hi)

theorem setConn {conn : Conn} (hconn : conn.client ≠ some T) :
    Anchored T (w.setConn i conn) := by
  refine h.of_same rfl (Nat.le_refl _) id rfl fun j hj => ?_
  by_cases hji : j = i
  · subst hji
    rw [World.setConn_conns_self] at hj
    exact absurd hj hconn
  · rwa [World.setConn_conns_ne w hji] at hj

theorem setHeap_ne (hr : r ≠ T) (o : Option Client) : Anchored T (w.setHeap r o) :=
  h.of_same rfl (Nat.le_refl _) id (World.setHeap_heap_ne w hr.symm _) fun _ hi => hi

/-- An edit of a structure, possibly of this one. -/
theorem setHeap (hc : w.heap r = some c) (htype : c'.type = c.type)
    (hintro : c'.introducer = c.introducer) : Anchored T (w.setHeap r (some c')) := by
  by_cases hr : r = T
  · subst hr
    obtain ⟨d, hd, hd_type, hd_intro⟩ := h.cell
    obtain rfl : c = d := Option.mem_unique hc hd
    refine ⟨h.this, h.known, h.listed, ⟨c', World.setHeap_heap_self w r _, ?_, ?_⟩, h.slot⟩
    · rw [htype, hd_type]
    · rw [hintro, hd_intro]
  · exact h.setHeap_ne hr _

/-- A new client. -/
theorem addClient (c : Client) : Anchored T (w.addClient c) := by
  have hne : T ≠ w.nextRef := Nat.ne_of_lt h.known
  refine h.of_same rfl (Nat.le_succ _) (.tail _) ?_ fun _ hi => hi
  simp only [World.addClient, World.setHeap_heap_ne w hne]

theorem ne_of_type (hc : w.heap r = some c) (htype : c.type ≠ .server) : r ≠ T := by
  rintro rfl
  obtain ⟨d, hd, hserver, -⟩ := h.cell
  obtain rfl : c = d := Option.mem_unique hc hd
  exact htype hserver

theorem tickWrite : Anchored T w.tickWrite :=
  h.of_same rfl (Nat.le_refl _) id rfl fun _ hi => hi

end

theorem frame (T : ClientRef) : BasicFrame (fun _ => Keeps (Anchored T))
    fun w w' => Anchored T w → Anchored T w' where
  refl _ h := h
  trans _ _ _ h₁ h₂ h := h₂ (h₁ h)
  queue w i line _ _ h := by
    have hslot := h.tickWrite.slot i
    have hconn : Anchored T (w.tickWrite.setConn i { w.tickWrite.conns i with
        bytesOut := (w.tickWrite.conns i).bytesOut + line.length + 2 }) := h.tickWrite.setConn hslot
    exact hconn.of_same rfl (Nat.le_refl _) id rfl fun _ hi => hi
  fail w w' i _ _ hk h := hk.2 h.tickWrite
  editConn w i e h := h.setConn ((e.client_eq _).symm ▸ h.slot i)
  cloak w r host c hc h := h.setHeap hc rfl rfl
  __ := BasicAside.of_rest (R := fun w w' => Anchored T w → Anchored T w') fun _ _ _ _ _ h =>
    h.of_same rfl (Nat.le_refl _) id rfl fun _ hi => hi
  editClient w r e c hc h := h.setHeap hc (e.type_eq c) (e.introducer_eq c)

theorem indifferent (T : ClientRef) : Indifferent (Anchored T) (Keeps (Anchored T)) :=
  .of_frame (fun _ _ hk => hk) (Anchored.frame T) (fun _ _ _ _ hc h => h.setHeap hc rfl rfl)
    (fun _ i _ h => h.setConn (h.slot i)) fun _ i _ h => h.setConn (h.slot i)

theorem upkeep (T : ClientRef) : Upkeep (Anchored T) (Keeps (Anchored T)) :=
  (Anchored.indifferent T).toUpkeep

end Anchored

/-! ## Removing clients -/

section

variable {l f : Option Str} {sendQuit : Bool}

/-- `Client_Destroy` for another client does not come to this one: only clients that
the other one has introduced go with it. -/
theorem clientDestroy_anchored (n : Nat) (hw : Anchored T w) (hr : r ≠ T) :
    (clientDestroy n r l f sendQuit).wp (shutWp (upholding (Anchored T)) anyFault)
      (fun _ => Anchored T) w := by
  induction n generalizing r l f sendQuit w with
  | zero => trivial
  | succ n ih =>
    refine wp_clientDestroy.mpr
      ⟨fun c _ => ⟨fun _ => hw, fun _ => ?_, fun s hs hne => ?_⟩, fun _ => trivial⟩
    · have hunlinked : Anchored T { w with order := w.order.erase r } :=
        hw.of_same rfl (Nat.le_refl _) (List.mem_erase_of_ne hr.symm).mpr rfl fun _ hi => hi
      refine (Anchored.frame T).toLeaveFrame.wp (fun _ => trivial) _ fun _ w' hkeep => ?_
      exact (hkeep hunlinked).setHeap_ne hr none
    · -- A client introduced by `r` is not `T`, which is introduced by itself.
      refine ⟨fun this _ => ?_, fun _ => trivial⟩
      have hsT : s ≠ T := by
        rintro rfl
        obtain ⟨d, hd, -, hintro⟩ := hw.cell
        have hup := (child_of_destroyStop hs hne).2
        rw [World.up_of_some hd, hintro] at hup
        exact hne (Option.some.inj hup)
      exact wp_mono (fun _ w₁ hw₁ => ih hw₁ hr) (ih hw hsT)

theorem destroyClient_anchored (hw : Anchored T w) (hr : r ≠ T) :
    (destroyClient r l f sendQuit).wp (plainWp (upholding (Anchored T)) anyFault)
      (fun _ => Anchored T) w := by
  unfold destroyClient
  simp only [wp_msg, liftM_shut_plain, wp_getWorld, wp_ofShut]
  exact clientDestroy_anchored _ hw hr

theorem closer_anchored (T : ClientRef) (n : Nat) :
    (upholding (Anchored T)).RightAbout anyFault (closer n) := by
  refine closer_upholds ((Anchored.upkeep T).connClose (fun w i conn hconn hw => ?_) ?_) n
  · refine hw.setConn fun hself => ?_
    rcases hconn with hconn | hconn
    · exact hw.slot i (hconn.symm.trans hself)
    · exact nomatch hconn.symm.trans hself
  · intro w i r n l f hw hr
    have hrT : r ≠ T := fun h => hw.slot i (h ▸ hr)
    exact clientDestroy_anchored n hw hrT

end

/-! ## Commands -/

theorem Anchored.personal (hne : client ≠ T) :
    Personal (Anchored T) client (Keeps (Anchored T)) where
  upkeep := Anchored.upkeep T
  setType _ _ _ _ h := h.setHeap_ne hne _
  setId _ _ _ _ _ hc h := h.setHeap hc rfl rfl
  ownIntroducer _ _ _ h := h.setHeap_ne hne _
  greet := (Anchored.indifferent T).greetUser client

/-- This server is spared: it is a server. -/
theorem Anchored.removing (T : ClientRef) :
    Removing (Anchored T) (· = T) (Keeps (Anchored T)) where
  toUpkeep := Anchored.upkeep T
  destroy _ _ _ _ hr _ hw := destroyClient_anchored hw hr
  spare w r c hw hr hc := by
    subst hr
    obtain ⟨d, hd, htype, -⟩ := hw.cell
    obtain rfl : c = d := Option.mem_unique hc hd
    exact ⟨htype, hw.this⟩

/-! ## SQUIT lines -/

/-- A line is a SQUIT with which a linked server, or a server behind it, names a
client. -/
structure SquitLine (w : World) (i : ConnId) (text after : Str) (r : ClientRef) (req : Request)
    (source target : ClientRef) : Prop where
  peer : ∃ c, w.Has i r c ∧ c.type = .server
  nonempty : trimStr text ≠ []
  kept : (w.conf.scrubCTCP && scrubCTCP (trimStr text)) = false
  split : splitRequest (trimStr text) (trimmedRest text after) = some req
  command : strcaseEq req.command "SQUIT" = true
  argc : req.argc = 2
  prefixed : req.pfx = none → (w.conns i).rfc1459 = true
  sender : w.senderOf r req = some source
  behind : w.nextHop source = .ok r
  server : ∃ s, w.heap source = some s ∧ s.type = .server
  names : w.clientSearch (req.arg 0) = some target

/-- A line on which a server is removed that is `target`. -/
def World.Squits (w : World) (i : ConnId) (text after : Str) (target : ClientRef) : Prop :=
  ∃ r req source, SquitLine w i text after r req source target

section

theorem findCommand_congr {a b : Str} (h : strcaseEq a b = true) :
    findCommand a = findCommand b := by
  have hlower : lowerStr a = lowerStr b := by simpa [strcaseEq] using h
  simp only [findCommand, strcaseEq, hlower]

/-- The entry of the table that calls `IRC_SQUIT`. -/
theorem squit_entry (hcmd : findCommand req.command = some cmd)
    (hsquit : cmd.handler = .squit) :
    cmd = ⟨"SQUIT", .squit, .userOrServer, 2, some 2, 0⟩ ∧
      strcaseEq req.command "SQUIT" = true := by
  have honly : ∀ cmd ∈ myCommands, cmd.handler = .squit →
      cmd = ⟨"SQUIT", .squit, .userOrServer, 2, some 2, 0⟩ := by decide
  obtain rfl := honly cmd (List.mem_of_find?_eq_some hcmd) hsquit
  exact ⟨rfl, by simpa using List.find?_some hcmd⟩

/-- Where `IRC_SQUIT` is called for a server and finds a server as the sender, the
line was a SQUIT. -/
theorem SquitLine.of_dispatched
    (hw : Linked w) (hi : w.Has i r c) (hserver : c.type = .server)
    (hline : ServerLine w i text after req) (hd : Dispatched w r c req cmd)
    (hsquit : cmd.handler = .squit) (hfits : PrefixFits w r req)
    (hsender : w.senderOf r req = some source) (hs : w.heap source = some s)
    (hs_type : s.type = .server) (htarget : w.clientSearch (req.arg 0) = some target) :
    SquitLine w i text after r req source target := by
  obtain ⟨rfl, hcommand⟩ := squit_entry hd.found hsquit
  have hlower : lowerStr req.command = lowerStr "SQUIT" := by
    simpa [strcaseEq] using hcommand
  refine
    { peer := ⟨c, hi, hserver⟩
      nonempty := hline.nonempty
      kept := hline.kept
      split := hline.split
      command := hcommand
      argc := Nat.le_antisymm (hd.notMore 2 rfl) hd.enough
      prefixed := fun hpfx => ?_
      sender := hsender
      behind := ?_
      server := ⟨s, hs, hs_type⟩
      names := htarget }
  · rcases hline.prefixed hpfx with h | h | h
    · exact h
    all_goals
      simp only [strcaseEq, hlower] at h
      exact absurd h (by decide)
  · cases hpfx : req.pfx with
    | none =>
      simp only [World.senderOf, hpfx, Option.elim_none, Option.some.injEq] at hsender
      subst hsender
      exact hw.nextHop_eq hi.cell (hw.link i r c hi.client hi.cell)
    | some p =>
      simp only [World.senderOf, hpfx, Option.elim_some] at hsender
      obtain ⟨o, ho, hnext⟩ := hfits p hpfx
      obtain rfl : o = source := Option.mem_unique ho hsender
      exact hnext

variable (h : SquitLine w i text after r req source target)
include h

/-- A SQUIT line of a server is given to `IRC_SQUIT`. -/
theorem dispatchLine_squit :
    (dispatchLine i text after).wp (plainWp .never noFault) (fun d w' => w' = w ∧
      d = .command r .server ⟨"SQUIT", .squit, .userOrServer, 2, some 2, 0⟩ req) w := by
  obtain ⟨c, hi, hserver⟩ := h.peer
  have hfind : findCommand req.command = some ⟨"SQUIT", .squit, .userOrServer, 2, some 2, 0⟩ := by
    rw [findCommand_congr h.command]
    decide
  have hlen : req.command.length ≠ 3 := by
    have hlower : lowerStr req.command = lowerStr "SQUIT" := by
      simpa [strcaseEq] using h.command
    have hlength := congrArg List.length hlower
    simp only [lowerStr, List.length_map] at hlength
    rw [hlength]
    decide
  refine dispatchLine_line hi hserver
    ⟨h.nonempty, h.kept, h.split, fun hpfx => .inl (h.prefixed hpfx)⟩ (fun p hpfx => ?_) ?_
  · have hsender := h.sender
    simp only [World.senderOf, hpfx, Option.elim_some] at hsender
    exact ⟨source, hsender, h.behind⟩
  unfold dispatchRequest
  simp only [wp_msg, wp_clientOf_of_some hi.client, wp_clientType, onClient_of_some hi.cell,
    hserver, hlen, hfind]
  simp only [dispatchCommand, TypeMask.allows, h.argc]
  exact ⟨rfl, rfl⟩

/-- A SQUIT for a server without a connection takes it off the list. -/
theorem ircSquit_unlists (hnodup : w.order.Nodup)
    (htarget : ∀ t, w.heap target = some t → t.connId = none) :
    (ircSquit r req).wp (plainWp (.within Unlists) anyFault) (fun _ w' => target ∉ w'.order) w := by
  obtain ⟨c, hi, hserver⟩ := h.peer
  obtain ⟨s, hs, hsource⟩ := h.server
  have hsquit : (squit r source req).wp (plainWp (.within Unlists) anyFault)
      (fun _ w' => target ∉ w'.order) w := by
    unfold squit
    simp only [wp_msg, wp_clientType, onClient_of_some hi.cell, wp_clientID, onClient_of_some hs,
      hserver]
    rw [if_neg (show ¬ClientType.server = ClientType.user by decide)]
    simp only [wp_msg, wp_getWorld, h.names]
    rw [if_neg fun hne => hne.1 rfl]
    simp only [wp_msg, wp_deref, wp_nextHop_of_ok h.behind, wp_clientID, onClient_of_some hs,
      onClient_anyFault]
    intro t ht
    rw [htarget t ht]
    simp only [wp_msg, wp_clientType, onClient_of_some hs]
    rw [if_neg (not_not.mpr hsource)]
    simp only [destroyClient, wp_msg, liftM_shut_plain, wp_clientID, onClient_of_some hs,
      wp_getWorld, wp_ofShut]
    exact wp_mono (fun _ _ hgone => hgone.2 hnodup) (clientDestroy_unlists w _ target _ _ _)
  have hsender := h.sender
  unfold ircSquit
  simp only [wp_msg, wp_deref, onClient_of_some hi.cell, hserver]
  rw [if_neg fun hne => hne.1 rfl]
  cases hpfx : req.pfx with
  | none =>
    simp only [World.senderOf, hpfx, Option.elim_none, Option.some.injEq] at hsender
    subst hsender
    exact hsquit
  | some p =>
    simp only [World.senderOf, hpfx, Option.elim_some] at hsender
    simp only [wp_msg, wp_getWorld, hsender, wp_clientType, onClient_of_some hs]
    refine Upkeep.opCheck_reads fun a => ?_
    rw [if_neg fun hne => hne.1 hsource]
    exact hsquit

end

/-! ## The client list is in order -/

/-- The client list has the newest client first, and no client twice. -/
structure Listed (w : World) : Prop where
  desc : w.order.Pairwise (· > ·)
  fresh : ∀ r ∈ w.order, r < w.nextRef

theorem Listed.of_same (h : Listed w) (horder : w'.order = w.order)
    (hnext : w'.nextRef = w.nextRef) : Listed w' := by
  refine ⟨?_, ?_⟩
  · rw [horder]
    exact h.desc
  · rw [horder, hnext]
    exact h.fresh

theorem Listed.addClient (h : Listed w) (c : Client) : Listed (w.addClient c) where
  desc := List.pairwise_cons.mpr ⟨h.fresh, h.desc⟩
  fresh r hr := by
    rcases List.mem_cons.mp hr with rfl | hr
    · exact Nat.lt_succ_self _
    · exact Nat.lt_succ_of_lt (h.fresh r hr)

theorem Listed.erase (h : Listed w) (r : ClientRef) :
    Listed { w with order := w.order.erase r } where
  desc := h.desc.sublist List.erase_sublist
  fresh s hs := h.fresh s (List.mem_of_mem_erase hs)

theorem Listed.nodup (h : Listed w) : w.order.Nodup :=
  h.desc.imp fun hlt => Nat.ne_of_gt hlt

/-- Programs only add new clients, and at the front. -/
theorem listed_frame :
    FullFrame (fun _ w w' => Listed w → Listed w') fun w w' => Listed w → Listed w' where
  refl _ h := h
  trans _ _ _ h₁ h₂ h := h₂ (h₁ h)
  queue _ _ _ _ _ h := h.of_same rfl rfl
  fail _ _ _ _ _ hc h := hc (h.of_same rfl rfl)
  editConn _ _ _ h := h.of_same rfl rfl
  cloak _ _ _ _ _ h := h.of_same rfl rfl
  __ := BasicAside.of_rest (R := fun w w' => Listed w → Listed w') fun _ _ _ _ _ h =>
    h.of_same rfl rfl
  editClient _ _ _ _ _ h := h.of_same rfl rfl
  unlink _ r h := h.erase r
  free _ _ h := h.of_same rfl rfl
  startClosing _ _ h := h.of_same rfl rfl
  closeSocket _ _ h := h.of_same rfl rfl
  initConn _ _ _ h := h.of_same rfl rfl
  close _ _ _ hc h := hc h
  newRemote _ c _ h := h.addClient c
  setType _ _ _ _ _ h := h.of_same rfl rfl
  setId _ _ _ _ _ h := h.of_same rfl rfl
  setCaps _ _ _ _ _ h := h.of_same rfl rfl
  ownIntroducer _ _ _ _ h := h.of_same rfl rfl
  setPwd _ _ _ h := h.of_same rfl rfl
  setAuthPing _ _ _ h := h.of_same rfl rfl

theorem Listed.prepare (h : Listed w) (e : Event) : Listed (e.prepare w) := by
  have hopen (i : ConnId) (c : Client) (conn : Conn) : Listed (w.openConn i c conn) := by
    have hgrown : Listed (w.growPool i) := h.of_same rfl rfl
    exact (hgrown.addClient c).of_same rfl rfl
  cases e with
  | accept | connect => exact hopen _ _ _
  | ping | clock => exact h.of_same rfl rfl
  | resolved | linked | line | close | expire => exact h

theorem Reachable.inListOrder (h : Reachable w) : Listed w := by
  induction h with
  | start conf env host =>
    refine ⟨List.pairwise_singleton _ _, fun r hr => ?_⟩
    obtain rfl := List.mem_singleton.mp hr
    exact Nat.zero_lt_one
  | @step w w' e _ hstep ih =>
    obtain ⟨-, n, hrun⟩ := hstep
    exact listed_frame.exec_ok hrun (ih.prepare e)

/-! ## Whole runs -/

/-- The states to which those runs lead in which every event meets a condition. -/
inductive ReachableBy (P : World → Event → Prop) : World → Prop where
  | start (conf : Conf) (env : Env) (host : Str) : ReachableBy P (World.start conf env host)
  | step {w w' : World} {e : Event} : ReachableBy P w → P w e → Step w e w' → ReachableBy P w'

theorem ReachableBy.reachable {P : World → Event → Prop} (h : ReachableBy P w) :
    Reachable w := by
  induction h with
  | start conf env host => exact .start conf env host
  | step _ _ hstep ih => exact ih.step hstep

/-- No line is a SQUIT for this server. -/
def Event.SparesThis (w : World) : Event → Prop
  | .line i text after => ¬w.Squits i text after w.thisServer
  | _ => True

/-- What is found to do about a line leaves this server where it is. -/
theorem finish_anchored {d : Dispatch} {argv : List Str} (hw : Reachable w)
    (hi : w.Has i r c) (hspares : ¬w.Squits i text after w.thisServer)
    (hthis : w.thisServer = T) (hknown : d.Known w i r c argv w₁)
    (hline : ∀ client type cmd req, c.type = .server → d = .command client type cmd req →
      ServerLine w i text after req) (hw₁ : Anchored T w₁) :
    d.finish.wp (fullWp (upholding (Anchored T)) anyFault) (fun _ => Anchored T) w₁ := by
  have h := Anchored.upkeep T
  have hremoving := Anchored.removing T
  have hne : r ≠ T := hthis ▸ hw.ownRecord.ne_client hw.linked hi
  have hself := Anchored.personal hne
  cases d with
  | answered result => exact hw₁
  | numeric client req =>
    obtain ⟨rfl, -⟩ := hknown
    exact hself.handleNumeric req w₁ hw₁
  | command client type cmd req =>
    obtain ⟨rfl, rfl, hpenalty, hd, hfits, -⟩ := hknown
    obtain ⟨hheap, hthis₁, hsearch, hnext⟩ := hpenalty.same_clients
    have hcell : w₁.heap client = some c := by rw [hheap, hi.cell]
    have hnextRef : w₁.nextRef = w.nextRef := by cases hpenalty <;> rfl
    have hlive : client < w₁.nextRef := hnextRef ▸ hw.linked.cell client c hi.cell
    refine h.finish_command ?_
    by_cases hout : cmd.handler.reachesOut = false
    · exact hself.entry.callHandler (Anchored.indifferent T) (hself.ircSvsnick req) hw₁ hcell
          hlive hout
    refine hremoving.callHandler_out hw₁ ⟨hne, ?_, ?_⟩
      (fun _ target _ => hself.ircNickUser target _ w₁ hw₁) hcell hlive (by simpa using hout)
      (fun _ target => (Anchored.indifferent T).join target _)
      (fun _ _ => hself.registerServer req w₁ hw₁) (fun _ _ _ _ _ _ _ _ => hw₁.addClient _)
      (fun _ _ _ _ _ => hw₁.addClient _) (fun _ _ => hself.entry.registerUser req w₁ hw₁) ?_
    · rintro target - htarget rfl
      rw [hsearch, ← hthis] at htarget
      exact hfits.ne_thisServer hw.ownRecord hw.linked hi htarget
    · rintro hhandler hserver target source s hsender hs hs_type htarget rfl
      refine hspares ⟨client, req, source, ?_⟩
      have hreq := hline client c.type cmd req hserver rfl
      rw [hheap] at hs
      refine .of_dispatched hw.linked hi hserver hreq hd hhandler hfits ?_ hs hs_type ?_
      · rw [← hsender]
        simp only [World.senderOf, hsearch]
      · rw [← hsearch, htarget, hthis]
    · intro w r c t hw hc htype _
      exact hw.setHeap_ne (hw.ne_of_type hc (by simp [htype])) _

theorem Anchored.prepare (hw : Anchored T w) (e : Event) : Anchored T (e.prepare w) := by
  have hopen (i : ConnId) (c : Client) (conn : Conn) : Anchored T (w.openConn i c conn) := by
    have hgrown : Anchored T (w.growPool i) := by
      refine hw.of_same rfl (Nat.le_refl _) id rfl fun j hj => ?_
      simp only [World.growPool] at hj
      split_ifs at hj with hnew
      · cases hj
      · exact hj
    refine (hgrown.addClient _).setConn fun hself => ?_
    exact (Nat.ne_of_lt hw.known).symm (Option.some.inj hself)
  cases e with
  | accept | connect => exact hopen _ _ _
  | ping i => exact hw.setConn (hw.slot i)
  | clock now => exact hw.of_same rfl (Nat.le_refl _) id rfl fun _ hi => hi
  | resolved | linked | line | close | expire => exact hw

/-- An event that is no SQUIT for this server leaves it where it is. -/
theorem Anchored.step (hw : Reachable w) (hanchor : Anchored T w)
    (hspares : e.SparesThis w) (hstep : Step w e w') : Anchored T w' := by
  refine (Anchored.upkeep T).step (closer_anchored T) hw.linked hanchor (hanchor.prepare e) ?_ hstep
  rintro n i text after r c d argv w₁ b rfl hline hi hknown hw₁ hend
  refine (exec_ends (closer_anchored T n)
    (finish_anchored hw hi hspares hanchor.this hknown ?_ hw₁)).of_ok hend
  intro client type cmd req hserver
  exact (execPlain_ends (closer_settled n)
    (dispatchLine_of_server hw.linked hi hserver text after)).of_ok hline client type cmd req

theorem Anchored.start (conf : Conf) (env : Env) (host : Str) :
    Anchored 0 (World.start conf env host) where
  this := rfl
  known := Nat.zero_lt_one
  listed := List.mem_singleton.mpr rfl
  cell := ⟨_, rfl, rfl, rfl⟩
  slot := nofun

theorem ReachableBy.anchored (h : ReachableBy (fun w e => e.SparesThis w) w) :
    Anchored w.thisServer w := by
  induction h with
  | start conf env host => exact .start conf env host
  | @step w w' e hreach hspares hstep ih =>
    have hanchor := Anchored.step hreach.reachable ih hspares hstep
    rw [hanchor.this]
    exact hanchor

theorem Step.thisServer (hstep : Step w e w') : w'.thisServer = w.thisServer := by
  obtain ⟨-, n, hrun⟩ := hstep
  have hsame := (steady_fullFrame.exec_ok_of_closing (closer_settled n) hrun).thisServer
  rw [hsame]
  cases e <;> rfl

/-- A SQUIT for this server removes it. -/
theorem squit_removes_this (hw : Reachable w) (hsquits : w.Squits i text after w.thisServer)
    (hstep : Step w (.line i text after) w') : w'.thisServer ∉ w'.order := by
  have hsame := Step.thisServer hstep
  obtain ⟨-, n, hrun⟩ := hstep
  obtain ⟨r, req, source, hline⟩ := hsquits
  obtain ⟨b, hparse⟩ := Event.handle_line hrun
  obtain ⟨d, w₁, hdispatch, hfinish⟩ := parseRequest_run hparse
  obtain ⟨d', w₂, hdispatch', rfl, rfl⟩ :=
    (execPlain_ends (n := n) (Closing.never_rightAbout _) (dispatchLine_squit hline)).exists_ok
  obtain ⟨rfl, rfl⟩ := Prod.mk.inj (Except.ok.inj (hdispatch.symm.trans hdispatch'))
  have hsquit := ircSquit_unlists hline hw.inListOrder.nodup hw.ownRecord.connId
  refine hsame ▸ (exec_ends (closer_unlists n)
    (Q := fun _ w'' => w₁.thisServer ∉ w''.order) ?_).of_ok hfinish
  simp only [Dispatch.finish, callHandler, countCommand, wp_msg, liftM_plain_full, liftM_basic_full,
    wp_getWorld]
  refine wp_mono (fun b w₃ hgone => ?_) hsquit
  simpa using hgone

/-- In a run without a SQUIT for this server, its record stays on the client list;
and every line leaves it there unless the line is such a SQUIT. -/
theorem this_server_kept (h : ReachableBy (fun w e => e.SparesThis w) w) :
    w.thisServer ∈ w.order ∧ ∀ i text after w', Step w (.line i text after) w' →
      (w'.thisServer ∈ w'.order ↔ ¬w.Squits i text after w.thisServer) := by
  have hanchor := h.anchored
  refine ⟨hanchor.listed, fun i text after w' hstep => ⟨fun hmem hsquits => ?_, fun hspares => ?_⟩⟩
  · exact squit_removes_this h.reachable hsquits hstep hmem
  · have hevent : Event.SparesThis w (.line i text after) := hspares
    have hanchor' := Anchored.step h.reachable hanchor hevent hstep
    rw [hanchor'.this]
    exact hanchor'.listed

theorem this_server_kept_nick : ∃ w,
    ReachableBy (fun w e => e.SparesThis w) w ∧ (∃ c ∈ w.heap 1, c.id = "ann") ∧
      w.thisServer ∈ w.order := by
  obtain ⟨w, hw, hnick⟩ : ∃ w ∈ Event.runAll 1 [.accept 1 "127.0.0.1", .line 1 "NICK ann" []]
      (World.start peerConf {} "localhost"), ∃ c ∈ w.heap 1, c.id = "ann" := by decide +kernel
  obtain ⟨w₁, haccept, hrest⟩ := Event.runAll_cons hw
  have hspares : Event.SparesThis w₁ (.line 1 "NICK ann" []) := by
    rintro ⟨r, req, source, h⟩
    have hreq : splitRequest (trimStr "NICK ann") (trimmedRest "NICK ann" []) =
        some { pfx := none, command := "NICK", argv := ["ann"] } := by decide
    obtain rfl := Option.some.inj (hreq.symm.trans h.split)
    exact absurd h.command (by decide)
  have hfirst : ReachableBy (fun w e => e.SparesThis w) w₁ :=
    .step (e := .accept 1 "127.0.0.1") (.start peerConf {} "localhost") trivial haccept
  have hreach : ReachableBy (fun w e => e.SparesThis w) w :=
    hfirst.step hspares (Event.step_of_runAll hrest)
  exact ⟨w, hreach, hnick, (this_server_kept hreach).1⟩

/-- The other server, once linked, sends a SQUIT for this one. -/
theorem this_server_removed_by_squit : ∃ w w', Reachable w ∧ w.thisServer ∈ w.order ∧
    Step w (.line 1 ":irc.b SQUIT irc.example.net :bye" []) w' ∧ w'.thisServer ∉ w'.order := by
  obtain ⟨w, hw, hlisted, w', hw', hgone⟩ :
      ∃ w ∈ Event.runAll 1 peerLink (World.start peerConf {} "localhost"), w.thisServer ∈ w.order ∧
        ∃ w' ∈ Event.runAll 1 [.line 1 ":irc.b SQUIT irc.example.net :bye" []] w,
          w'.thisServer ∉ w'.order := by decide +kernel
  exact ⟨w, w', (Reachable.start peerConf {} "localhost").runAll hw, hlisted,
    Event.step_of_runAll hw', hgone⟩

end Ngircd
