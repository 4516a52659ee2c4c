import Ngircd.MessageSafety

/-!
# Clients leave the list

Destroying a client takes it off `My_Clients`, whatever happens on the way: the
messages about it can close further connections, which only takes more clients
off the list.  Closing a connection does the same to its client.
-/

namespace Ngircd

open Lib Prog

variable {K : Closing} {E : Fault → Prop} {r : ClientRef} {sendQuit inf : Bool} {w w' : World}
  {i : ConnId}

/-! ## `Client_Destroy`, one turn of its walk at a time -/

/-- What `Client_Destroy` says about a client that is off the list. -/
def farewell (client : ClientRef) (type : ClientType) (txt : Str) (fwdMsg : Option Str)
    (sendQuit : Bool) : Leave Unit :=
  match type with
  | .user | .service => destroyUserOrService client txt fwdMsg sendQuit
  | .server => announceServerGone client txt fwdMsg
  | _ => pure ()

/-- The message for the clients behind a server that is lost: this server and
the one that is lost. -/
def netsplitMsg (this lost : Client) : Str :=
  strlcat (strlcat (strlcpy this.id commandLen) " " commandLen) lost.id commandLen

section

variable {n : Nat} {l f : Option Str} {Q : Unit → World → Prop}

theorem wp_farewell {type : ClientType} {txt : Str} {next : Shut Unit} :
    (match type with
      | .user => do destroyUserOrService r txt f sendQuit; next
      | .service => do destroyUserOrService r txt f sendQuit; next
      | .server => do announceServerGone r txt f; next
      | _ => next : Shut Unit).wp (shutWp K E) Q w ↔
      (farewell r type txt f sendQuit).wp (leaveWp K E) (fun _ => next.wp (shutWp K E) Q) w := by
  cases type <;> simp [farewell]

/-- What one turn of the walk of `Client_Destroy` does. -/
theorem wp_clientDestroy :
    (clientDestroy (n + 1) r l f sendQuit).wp (shutWp K E) Q w ↔ OnClient E w r fun c =>
      (w.destroyStop r (c.type == .server) = none → Q () w) ∧
      (w.destroyStop r (c.type == .server) = some r →
        (farewell r c.type ((l <|> f).getD "Reason unknown") f sendQuit).wp (leaveWp K E)
          (fun _ w' => Q () (w'.setHeap r none)) { w with order := w.order.erase r }) ∧
      ∀ s, w.destroyStop r (c.type == .server) = some s → s ≠ r →
        OnClient E w w.thisServer fun this =>
          (clientDestroy n s none (some (netsplitMsg this c)) false).wp (shutWp K E)
            (fun _ => (clientDestroy n r l f sendQuit).wp (shutWp K E) Q) w := by
  simp only [clientDestroy, liftM_msg_shut, wp_msg, wp_shut_ofLeave, wp_getWorld, wp_deref]
  refine iff_of_eq (congrArg _ (funext fun c => propext ?_))
  cases hstop : w.destroyStop r (c.type == .server) with
  | none => simp
  | some s =>
    by_cases hs : s = r
    · subst hs
      simp only [ne_eq, not_true_eq_false, if_false, wp_bind, wp_unlinkClient]
      refine ⟨fun h => ⟨fun hnone => ?_, fun _ => wp_farewell.mp h, fun s' hs' hne => ?_⟩,
        fun h => wp_farewell.mpr (h.2.1 trivial)⟩
      · cases hnone
      · exact absurd (Option.some.inj hs').symm hne
    · simp [hs, netsplitMsg]

/-- `Conn_Close` has let go of a slot. -/
def World.released (w : World) (i : ConnId) (now : Nat) : World :=
  let servers := w.conf.servers.map fun s =>
    if s.connId = some i then
      if s.once then {} else { s with connId := none }
    else s
  { w.setConn i (newConn now) with
    conf := { w.conf with servers }
    misc := { w.misc with numConnections := w.misc.numConnections - 1 } }

/-- The last part of `Conn_Close`: the client is destroyed, then the slot is released. -/
theorem wp_shutDown
    (hsome : ∀ r, (w.conns i).client = some r →
      (clientDestroy w.destroyBound r l f true).wp (shutWp K E)
        (fun _ w' => Q () (w'.released i w.now)) (w.setConn i { w.conns i with sock := none }))
    (hnone : (w.conns i).client = none →
      Q () ((w.setConn i { w.conns i with sock := none }).released i w.now)) :
    (shutDown i l f).wp (shutWp K E) Q w := by
  simp only [shutDown, liftM_msg_shut, liftM_leave_shut, wp_msg, wp_shut_ofLeave, wp_getWorld,
    wp_closeSocket]
  split
  · rename_i r hr
    rw [wp_bind]
    refine wp_mono (fun _ w' h => ?_) (hsome r hr)
    simp only [confUnsetServer, wp_bind, wp_shut_ofLeave, wp_editServers, wp_initConnStruct,
      wp_editMisc]
    exact h
  · rename_i hr
    simp only [confUnsetServer, wp_bind, wp_shut_ofLeave, wp_editServers, wp_initConnStruct,
      wp_editMisc]
    exact hnone hr

/-- `Conn_Close`: nothing for a connection that is being closed already, otherwise
messages to the client and the rest. -/
theorem wp_connClose (hbusy : (w.conns i).isClosing = true → Q () w)
    (hidle : (w.conns i).isClosing = false →
      (if inf then informClosing i f else pure () : Msg Unit).wp (msgWp K E)
        (fun _ => (shutDown i l f).wp (shutWp K E) Q)
        (w.setConn i { w.conns i with isClosing := true })) :
    (connClose i l f inf).wp (shutWp K E) Q w := by
  simp only [connClose, liftM_msg_shut, wp_msg, wp_shut_ofLeave, wp_getWorld]
  cases hclosing : (w.conns i).isClosing with
  | true => exact hbusy hclosing
  | false =>
    simp only [Bool.false_eq_true, if_false, wp_bind, wp_startClosing]
    have h := hidle hclosing
    cases inf with
    | false => exact h
    | true =>
      simp only [if_true, wp_msg, wp_shut_ofLeave]
      exact h

end

/-! ## The frame of `Client_Destroy` -/

section

variable {C : ConnId → World → World → Prop} {R : World → World → Prop}

/-- The effects of `Client_Destroy` keep to `R`, when closes keep to `C`. -/
structure DropFrame (C : ConnId → World → World → Prop) (R : World → World → Prop) : Prop
    extends LeaveFrame C R where
  unlink : ∀ w r, R w { w with order := w.order.erase r }
  free : ∀ w r, R w (w.setHeap r none)

/-- The frame rule for `Client_Destroy`. -/
theorem DropFrame.destroys (h : DropFrame C R) (hE : ∀ f, E (.data f)) (n : Nat)
    (r : ClientRef) (l f : Option Str) (sendQuit : Bool) (w : World) :
    (clientDestroy n r l f sendQuit).wp (shutWp (.within C) E) (fun _ => R w) w := by
  induction n generalizing r l f sendQuit w with
  | zero => exact hE .endless
  | succ n ih =>
    refine wp_clientDestroy.mpr ⟨fun c _ => ⟨fun _ => h.refl w, fun _ => ?_, fun s _ _ => ?_⟩,
      fun _ => hE _⟩
    · refine h.toLeaveFrame.wp hE _ fun _ w' hw' => ?_
      exact h.trans _ _ _ (h.unlink w r) (h.trans _ _ _ hw' (h.free w' r))
    · refine ⟨fun this _ => ?_, fun _ => hE _⟩
      refine wp_mono (fun _ w₁ h₁ => ?_) (ih s _ _ _ w)
      exact wp_mono (fun _ w₂ h₂ => h.trans _ _ _ h₁ h₂) (ih r _ _ _ w₁)

end

/-! ## Invariants of the removal of clients -/

section

variable {J : World → Prop}

theorem stable_ofMsg {α : Type} {p : Msg α} (hp : p.Stable (msgWp K anyFault) J) :
    (Leave.ofMsg p).Stable (leaveWp K anyFault) J := by
  intro w hw
  rw [wp_ofMsg]
  exact hp w hw

section

variable (hmsg : ∀ (α : Type) (p : Msg α), p.Stable (msgWp K anyFault) J)
include hmsg

theorem deleteIfEmpty_stable (hdrop : ∀ w ch, J w → J (w.dropChannel ch)) (ch : ChanRef) :
    (deleteIfEmpty ch).Stable (leaveWp K anyFault) J := by
  have hread {α : Type} (p : Msg α) : (Leave.ofMsg p).Stable (leaveWp K anyFault) J :=
    stable_ofMsg (hmsg α p)
  refine .bind (hread _) fun _ => .ite ?_ (.pure ())
  refine .bind (hread _) fun _ => .ite ?_ (.pure ())
  exact .bind (hread _) fun _ => .ite (fun w hw => hdrop w ch hw) (.pure ())

/-- Taking a client out of a channel keeps an invariant that does not mind who is a
member. -/
theorem removeClient_stable (hmembers : ∀ w l, J w → J (w.setMembers l))
    (hdelete : ∀ ch, (deleteIfEmpty ch).Stable (leaveWp K anyFault) J) (kind : Removal)
    (ch : ChanRef) (client origin : ClientRef) (reason : Str) (informServer : Bool) :
    (removeClient kind ch client origin reason informServer).Stable (leaveWp K anyFault) J := by
  have hread {α : Type} (p : Msg α) : (Leave.ofMsg p).Stable (leaveWp K anyFault) J :=
    stable_ofMsg (hmsg α p)
  unfold removeClient
  refine .ite (.bind (hread _) fun _ => .bind (.pure _) fun _ => ?_) (.bind (.pure _) fun _ => ?_)
  all_goals
    refine .bind (hread _) fun _ => .ite (.pure false) ?_
    refine .bind (fun w hw => hmembers w _ hw) fun _ => ?_
    refine .bind (hread _) fun _ => .bind (hdelete ch) fun _ => ?_
    exact .pure true

theorem clientRegisterWhowas_stable (hwhowas : ∀ w f last, J w →
      J { w with misc := { w.misc with whowas := f, lastWhowas := last } }) (client : ClientRef) :
    (clientRegisterWhowas client).Stable (leaveWp K anyFault) J := by
  have hread {α : Type} (p : Msg α) : (Leave.ofMsg p).Stable (leaveWp K anyFault) J :=
    stable_ofMsg (hmsg α p)
  refine .bind (hread _) fun _ => .ite (.pure ()) ?_
  refine .bind (hread _) fun _ => .ite (.pure ()) ?_
  refine .bind (hread _) fun _ => .bind (hread _) fun _ => ?_
  exact .bind (hread _) fun _ => fun w hw => hwhowas w _ _ hw

end

/-- What the farewell of a client is made of keeps an invariant. -/
structure Parting (K : Closing) (J : World → Prop) : Prop where
  msg : ∀ (α : Type) (p : Msg α), p.Stable (msgWp K anyFault) J
  quit : ∀ ch client reason,
    (removeClient .quit ch client client reason false).Stable (leaveWp K anyFault) J
  whowas : ∀ w f last, J w → J { w with misc := { w.misc with whowas := f, lastWhowas := last } }

/-- What `Client_Destroy` says about a client keeps the invariant. -/
theorem Parting.farewell (h : Parting K J) (client : ClientRef) (type : ClientType) (txt : Str)
    (fwdMsg : Option Str) (sendQuit : Bool) :
    (farewell client type txt fwdMsg sendQuit).Stable (leaveWp K anyFault) J := by
  have hread {α : Type} (p : Msg α) : (Leave.ofMsg p).Stable (leaveWp K anyFault) J :=
    stable_ofMsg (h.msg α p)
  have hquit (reason : Str) : (channelQuit client reason).Stable (leaveWp K anyFault) J := by
    refine .bind (hread _) fun _ => .bind (hread _) fun _ => ?_
    refine .bind (hread _) fun w => .forEach (fun ch => ?_) _
    exact .bind (h.quit ch client _) fun _ => .pure ()
  have hdestroy : (destroyUserOrService client txt fwdMsg sendQuit).Stable
      (leaveWp K anyFault) J := by
    refine .bind (hread _) fun _ => .ite (.bind (hread _) fun _ => .bind (hread _) fun _ => ?_)
      (.ite (.bind (hread _) fun _ => .bind (hread _) fun _ => ?_) ?_)
    on_goal 1 => refine .ite (.bind (hread _) fun _ => ?_) ?_
    all_goals
      refine .bind (hread _) fun _ => .bind (hquit _) fun _ => ?_
      exact clientRegisterWhowas_stable h.msg h.whowas client
  cases type with
  | user | service => exact hdestroy
  | server => exact hread _
  | _ => exact .pure ()

/-- What closing a connection is made of keeps an invariant. -/
structure Departing (K : Closing) (J : World → Prop) : Prop extends Parting K J where
  unlink : ∀ w r, J w → J { w with order := w.order.erase r }
  free : ∀ w r, J w → J (w.setHeap r none)
  setConn : ∀ w i conn, J w → J (w.setConn i conn)
  release : ∀ w servers n, J w → J { w with
    conf := { w.conf with servers }, misc := { w.misc with numConnections := n } }

namespace Departing

variable (h : Departing K J)
include h

theorem clientDestroy (n : Nat) (r : ClientRef) (l f : Option Str) (sendQuit : Bool) :
    (clientDestroy n r l f sendQuit).Stable (shutWp K anyFault) J := by
  induction n generalizing r l f sendQuit with
  | zero => exact fun _ _ => trivial
  | succ n ih =>
    intro w hw
    refine wp_clientDestroy.mpr
      ⟨fun d _ => ⟨fun _ => hw, fun _ => ?_, fun s _ _ => ?_⟩, fun _ => trivial⟩
    · exact wp_mono (fun _ w' hw' => h.free w' r hw')
        (h.farewell r d.type _ f sendQuit _ (h.unlink w r hw))
    · refine ⟨fun this _ => ?_, fun _ => trivial⟩
      exact wp_mono (fun _ w₁ h₁ => ih r l f sendQuit w₁ h₁) (ih s _ _ _ w hw)

theorem connClose (i : ConnId) (l f : Option Str) (inf : Bool) :
    (connClose i l f inf).Stable (shutWp K anyFault) J := by
  intro w hw
  refine wp_connClose (fun _ => hw) fun _ => ?_
  refine wp_mono (fun _ w₁ hw₁ => ?_) (h.msg Unit _ _ (h.setConn w i _ hw))
  have hsock := h.setConn w₁ i { w₁.conns i with sock := none } hw₁
  have hreleased (w₂ : World) (hw₂ : J w₂) : J (w₂.released i w₁.now) :=
    h.release _ _ _ (h.setConn w₂ i (newConn w₁.now) hw₂)
  refine wp_shutDown (fun r _ => ?_) fun _ => hreleased _ hsock
  exact wp_mono (fun _ w₂ hw₂ => hreleased w₂ hw₂) (h.clientDestroy _ r l f true _ hsock)

end Departing

/-- Closing a connection keeps an invariant that its parts keep. -/
theorem closer_departing (h : Departing (.within fun _ w w' => J w → J w') J) (n : Nat) :
    (Closing.within fun _ w w' => J w → J w').RightAbout anyFault (closer n) := by
  refine closer_sound trivial (fun i l f inf w => ?_) n
  by_cases hw : J w
  · exact wp_mono (fun _ w' hw' _ => hw') (h.connClose i l f inf w hw)
  · exact anyChange_shutFrame.wp (fun _ => trivial) _ fun _ _ _ h => absurd h hw

end

/-! ## The client list gets shorter -/

/-- Clients may have left the list; connections that were being closed still
are, and have kept their client. -/
structure Thins (w w' : World) : Prop where
  order : w'.order.Sublist w.order
  closing : ∀ i, (w.conns i).isClosing = true →
    (w'.conns i).isClosing = true ∧ (w'.conns i).client = (w.conns i).client

/-- What closing a connection does to the client list. -/
structure Unlists (i : ConnId) (w w' : World) : Prop extends Thins w w' where
  busy : (w.conns i).isClosing = true → w' = w
  gone : (w.conns i).isClosing = false → ∀ r, (w.conns i).client = some r → w.order.Nodup →
    r ∉ w'.order

namespace Thins

variable {w₁ w₂ w₃ : World}

theorem of_eq (horder : w'.order = w.order) (hconns : w'.conns = w.conns) :
    Thins w w' := by
  refine ⟨by rw [horder], fun i hi => ?_⟩
  rw [hconns]
  exact ⟨hi, rfl⟩

theorem trans (h₁ : Thins w₁ w₂) (h₂ : Thins w₂ w₃) : Thins w₁ w₃ where
  order := h₂.order.trans h₁.order
  closing i hi := by
    obtain ⟨hi₂, hclient₂⟩ := h₁.closing i hi
    obtain ⟨hi₃, hclient₃⟩ := h₂.closing i hi₂
    exact ⟨hi₃, hclient₃.trans hclient₂⟩

/-- A change of one slot. -/
theorem setConn {c : Conn}
    (h : (w.conns i).isClosing = true → c.isClosing = true ∧ c.client = (w.conns i).client) :
    Thins w (w.setConn i c) := by
  refine ⟨List.Sublist.refl _, fun j hj => ?_⟩
  by_cases hji : j = i
  · subst hji
    simpa using h hj
  · rw [World.setConn_conns_ne w hji]
    exact ⟨hj, rfl⟩

/-- Every effect of `Client_Destroy` keeps to it. -/
theorem frame : DropFrame Unlists Thins where
  refl _ := of_eq rfl rfl
  trans _ _ _ := trans
  queue w i line _ _ :=
    have h : Thins w (w.setConn i
        { w.conns i with bytesOut := (w.conns i).bytesOut + line.length + 2 }) :=
      setConn fun h => ⟨h, rfl⟩
    ⟨h.order, h.closing⟩
  fail w _ _ _ _ h := (of_eq rfl rfl : Thins w w.tickWrite).trans h.toThins
  editConn _ _ e := setConn fun h => ⟨(e.isClosing_eq _).trans h, e.client_eq _⟩
  cloak _ _ _ _ _ := of_eq rfl rfl
  __ := BasicAside.of_rest fun _ _ _ _ _ => of_eq rfl rfl
  unlink _ _ := ⟨List.erase_sublist, fun _ h => ⟨h, rfl⟩⟩
  free _ _ := of_eq rfl rfl

theorem not_mem (h : Thins w₁ w₂) (hr : r ∉ w₁.order) : r ∉ w₂.order :=
  fun hmem => hr (h.order.subset hmem)

end Thins

/-- A client that has been destroyed is not on the list. -/
theorem clientDestroy_unlists (w : World) (n : Nat) (r : ClientRef) (l f : Option Str)
    (sendQuit : Bool) :
    (clientDestroy n r l f sendQuit).wp (shutWp (.within Unlists) anyFault)
      (fun _ w' => Thins w w' ∧ (w.order.Nodup → r ∉ w'.order)) w := by
  induction n generalizing w with
  | zero => trivial
  | succ n ih =>
    refine wp_clientDestroy.mpr
      ⟨fun c _ => ⟨fun hstop => ?_, fun _ => ?_, fun s _ _ => ?_⟩, fun _ => trivial⟩
    · -- The walk has passed every client on the list, and none of them is this one.
      refine ⟨Thins.frame.refl w, fun _ hmem => ?_⟩
      simpa using List.find?_eq_none.mp hstop r hmem
    · refine Thins.frame.toLeaveFrame.wp (fun _ => trivial) _ fun _ w' hw' => ?_
      have hthin := hw'.trans (Thins.frame.free w' r)
      have hgone (hnodup : w.order.Nodup) : r ∉ w.order.erase r := hnodup.not_mem_erase
      exact ⟨(Thins.frame.unlink w r).trans hthin, fun hnodup => hthin.not_mem (hgone hnodup)⟩
    · refine ⟨fun this _ => ?_, fun _ => trivial⟩
      refine wp_mono (fun _ w₁ h₁ => ?_) (Thins.frame.destroys (fun _ => trivial) n s _ _ _ w)
      refine wp_mono (fun _ w₂ h₂ => ?_) (ih w₁)
      exact ⟨h₁.trans h₂.1, fun hnodup => h₂.2 (hnodup.sublist h₁.order)⟩

/-- The last part of `Conn_Close` takes the client of the connection off the list. -/
theorem shutDown_unlists (w : World) (i : ConnId) (l f : Option Str) :
    (shutDown i l f).wp (shutWp (.within Unlists) anyFault)
      (fun _ w' => w'.order.Sublist w.order ∧
        (w.order.Nodup → ∀ r, (w.conns i).client = some r → r ∉ w'.order) ∧
        ∀ j, j ≠ i → (w.conns j).isClosing = true →
          (w'.conns j).isClosing = true ∧ (w'.conns j).client = (w.conns j).client) w := by
  have hsock : Thins w (w.setConn i { w.conns i with sock := none }) :=
    Thins.setConn fun h => ⟨h, rfl⟩
  have hother (w₁ : World) (h₁ : Thins w w₁) (j : ConnId) (hj : j ≠ i)
      (hclosing : (w.conns j).isClosing = true) :
      ((w₁.released i w.now).conns j).isClosing = true ∧
        ((w₁.released i w.now).conns j).client = (w.conns j).client := by
    have hslot : (w₁.released i w.now).conns j = w₁.conns j := World.setConn_conns_ne w₁ hj _
    rw [hslot]
    exact h₁.closing j hclosing
  refine wp_shutDown (fun r hr => ?_) fun hnone =>
    ⟨List.Sublist.refl _, fun _ r hr => ?_, hother _ hsock⟩
  · refine wp_mono (fun _ w₁ h₁ => ?_)
      (clientDestroy_unlists _ w.destroyBound r l f true)
    have hthin := hsock.trans h₁.1
    refine ⟨hthin.order, fun hnodup s hs => ?_, hother w₁ hthin⟩
    rw [hr] at hs
    rw [← Option.some.inj hs]
    exact h₁.2 hnodup
  · rw [hnone] at hr
    exact nomatch hr

/-- What `Conn_Close` does to the client list. -/
theorem closer_unlists (n : Nat) : (Closing.within Unlists).RightAbout anyFault (closer n) := by
  refine closer_sound trivial (fun i l f inf w => ?_) n
  refine wp_connClose (fun hbusy => ?_) fun hidle => ?_
  · exact { Thins.frame.refl w with
      busy := fun _ => rfl
      gone := fun h => absurd hbusy (by simp [h]) }
  · have hstart : Thins w (w.setConn i { w.conns i with isClosing := true }) :=
      Thins.setConn fun h => ⟨rfl, rfl⟩
    refine Thins.frame.toMsgFrame.wp (fun _ => trivial) _ fun _ w₁ h₁ => ?_
    refine wp_mono (fun _ w₂ h₂ => ?_) (shutDown_unlists w₁ i l f)
    obtain ⟨horder, hgone, hother⟩ := h₂
    have hthin := hstart.trans h₁
    refine
      { order := horder.trans hthin.order
        closing := fun j hj => ?_
        busy := fun h => absurd h (by simp [hidle])
        gone := ?_ }
    · have hne : j ≠ i := by
        rintro rfl
        rw [hidle] at hj
        exact nomatch hj
      obtain ⟨hj₁, hclient⟩ := hthin.closing j hj
      obtain ⟨hj₂, hclient₂⟩ := hother j hne hj₁
      exact ⟨hj₂, hclient₂.trans hclient⟩
    · -- The slot has been marked, so it has kept its client through the messages.
      intro _ r hr hnodup
      obtain ⟨-, hclient⟩ := h₁.closing i (by simp)
      refine hgone (hnodup.sublist hthin.order) r ?_
      rw [hclient]
      simpa using hr

/-- The first write fails. -/
def firstFails (k : Nat) : WriteOutcome := if k = 0 then .sendError else .taken

end Ngircd
