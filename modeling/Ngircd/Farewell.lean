import Ngircd.Broadcast
import Ngircd.Removal
import Ngircd.Tree

/-!
# Saying goodbye

What `Client_Destroy` does about one client that is off the list: notices, QUIT
or SQUIT to the servers, QUIT to everybody on its channels, the end of its
memberships and an entry for WHOWAS.  While no write fails all this ends, and
apart from the memberships it leaves clients and connections as they are.
-/

namespace Ngircd

open Lib Prog

variable {α : Type} {w : World} {pfx r : ClientRef} {d c : Client}

/-! ## Messages that are sent -/

/-- The program ends without a fault, and all it did is quiet. -/
def Tame {α : Type} (p : Msg α) (w : World) : Prop := p.wp quietWp (fun _ w' => Quiet w w') w

section Tame

variable {β : Type} {p : Msg α}

theorem Tame.of_wp {Q : α → World → Prop} (h : p.wp quietWp Q w) : Tame p w :=
  wp_quiet h fun _ _ _ hq => hq

theorem Tame.pure (a : α) : Tame (pure a) w := Quiet.refl w

theorem Tame.bind {f : α → Msg β} (hp : Tame p w)
    (hf : ∀ a w', Quiet w w' → Tame (f a) w') : Tame (p >>= f) w := by
  unfold Tame
  rw [wp_bind]
  refine wp_mono (fun a w' hq => ?_) hp
  exact wp_mono (fun _ _ hq' => hq.trans hq') (hf a w' hq)

/-- A program may read before it goes on. -/
theorem Tame.read {f : α → Msg β} {a : α} (hp : p.wp quietWp (fun a' w' => a' = a ∧ w' = w) w)
    (hf : Tame (f a) w) : Tame (p >>= f) w := by
  unfold Tame
  rw [wp_bind]
  refine wp_mono (fun a' w' h => ?_) hp
  obtain ⟨rfl, rfl⟩ := h
  exact hf

theorem Tame.ite {b : Prop} [Decidable b] {q : Msg α} (hp : Tame p w) (hq : Tame q w) :
    Tame (if b then p else q) w := by
  split
  · exact hp
  · exact hq

variable (hw : Healthy w) (hcalm : w.Calm)
include hw hcalm

section

variable (hr : w.Reached r) (hp : w.heap pfx = some d) (text : Str)
include hr hp text

/-- The line for a client that can be reached. -/
theorem lineFor_tame :
    Tame (lineFor r pfx text) w := by
  obtain ⟨c, k, kc, hc, hnext, hkc, hconn⟩ := hr
  obtain ⟨i, hi⟩ := Option.ne_none_iff_exists'.mp hconn
  unfold Tame
  simp only [lineFor, wp_bind, wp_nextHop_of_ok hnext, wp_deref, onClient_of_some hkc, hi,
    wp_connOf_some, getPrefix, wp_clientType, wp_ite, wp_clientID, onClient_of_some hp,
    wp_pure]
  refine ⟨fun _ => .refl w, fun _ => ?_⟩
  exact wp_quiet (clientMaskCloaked_quiet hw hcalm hp) fun _ _ _ hq => hq

/-- A message to a client that can be reached. -/
theorem ircWriteStrClientPrefix_reached :
    Tame (ircWriteStrClientPrefix r pfx text) w :=
  .bind (lineFor_tame hw hcalm hr hp text) fun line _ hq =>
    .of_wp (connWriteStr_quiet (hq.calm hcalm) line.1 line.2)

end

/-- A message to a client with a connection. -/
theorem ircWriteStrClientPrefix_tame {i : ConnId}
    (hc : w.heap r = some c) (hi : c.connId = some i) (hp : w.heap pfx = some d) (text : Str) :
    Tame (ircWriteStrClientPrefix r pfx text) w := by
  have hr : w.Reached r := ⟨c, r, c, hc, hw.home r c i hc hi, hc, by simp [hi]⟩
  exact ircWriteStrClientPrefix_reached hw hcalm hr hp text

theorem ircWriteStrServersPrefix_tame (hp : w.heap pfx = some d) (exceptOf : Option ClientRef)
    (text : Str) :
    Tame (ircWriteStrServersPrefix exceptOf pfx text) w :=
  .of_wp (ircWriteStrServersPrefixFlag_quiet hw hcalm hp exceptOf none text)

/-- `Log_ServerNotice` reaches the local users that want to read it. -/
theorem logServerNotice_tame (mode : Char) (msg : Str) : Tame (logServerNotice mode msg) w := by
  unfold Tame
  simp only [logServerNotice, forAllClients, wp_bind, wp_getWorld]
  refine wp_forClients (I := Quiet w) (fun w' h => h.order) (fun r hr w' hq => ?_) _ (.refl w)
  have hw' := hq.healthy hw
  obtain ⟨c, hc⟩ := hw'.listed r (by rw [hq.order]; exact hr)
  obtain ⟨this, hthis⟩ := hw'.this
  simp only [wp_bind, wp_deref, onClient_of_some hc, wp_ite, wp_clientID, ircWriteStrClient,
    wp_thisServer, wp_pure]
  refine ⟨fun hcond => ?_, fun _ => hq⟩
  obtain ⟨i, hi⟩ := Option.isSome_iff_exists.mp hcond.1
  exact wp_mono (fun _ _ hq' => hq.trans hq')
    (ircWriteStrClientPrefix_tame hw' (hq.calm hcalm) hc hi hthis _)

theorem channelLogServer_tame (msg : Str) : Tame (channelLogServer msg) w := by
  obtain ⟨this, hthis⟩ := hw.this
  unfold Tame
  simp only [channelLogServer, wp_bind, wp_getWorld]
  cases w.channelSearch "&SERVER" with
  | none => exact Quiet.refl w
  | some ch =>
    exact Tame.of_wp (ircWriteStrChannelPrefix_quiet hw hcalm hthis w.thisServer ch true _)

theorem logSnotice_tame (msg : Str) : Tame (logSnotice msg) w :=
  (logServerNotice_tame hw hcalm 's' _).bind fun _ _ hq =>
    channelLogServer_tame (hq.healthy hw) (hq.calm hcalm) _

end Tame

/-! ## Programs that take members out of channels -/

/-- Transformers for leave programs that neither fail nor close. -/
abbrev placidWp : Transformer LeaveOp.Res World := leaveWp .never noFault

section PlacidWp

theorem placid_keeps : Prog.Keeps Placid placidWp := by
  intro op Q w hQ
  cases op with
  | msg m =>
    have hmsg := Quiet.frame.keeps m Q w hQ
    exact msgWp_mono.mono m _ _ w (fun a w' h => ⟨h.1, h.2.toPlacid⟩) hmsg
  | removeMember | deleteChannel | editMisc | editServers => exact ⟨hQ, { Placid.refl w with }⟩

/-- Whatever else a leave program guarantees, clients and connections stay. -/
theorem wp_placid {p : Leave α} {Q Q' : α → World → Prop} (hp : p.wp placidWp Q w)
    (h : ∀ a w', Q a w' → Placid w w' → Q' a w') : p.wp placidWp Q' w :=
  wp_mono (fun a w' ha => h a w' ha.1 ha.2)
    (Prog.wp_and_of_keeps Placid.refl (fun _ _ _ => Placid.trans) placid_keeps p hp)

end PlacidWp

/-! ## Memberships -/

/-- Taking out the first of at most one hit is taking out all hits. -/
theorem eraseP_eq_filter {p : α → Bool} {l : List α}
    (h : l.Pairwise fun a b => p a = true → p b = false) : l.eraseP p = l.filter (!p ·) := by
  induction l with
  | nil => rfl
  | cons a l ih =>
    obtain ⟨ha, hl⟩ := List.pairwise_cons.mp h
    cases hp : p a with
    | false =>
      rw [List.eraseP_cons_of_neg (by simp [hp]), ih hl, List.filter_cons_of_pos (by simp [hp])]
    | true =>
      have hrest : l.filter (!p ·) = l := List.filter_eq_self.mpr fun b hb => by
        simp [ha b hb hp]
      rw [List.eraseP_cons_of_pos hp, List.filter_cons_of_neg (by simp [hp]), hrest]

/-- A client has left the channels that are not among the remaining ones. -/
structure Quitting (r : ClientRef) (t : Channels) (rest : List ChanRef) (t' : Channels) : Prop where
  inOrder : t'.InOrder
  subset : rest ⊆ t'.order
  members : t'.cl2chan = t.cl2chan.filter fun e => e.client != r || rest.contains e.channel

section Quitting

variable {t : Channels} {ch : ChanRef} {rest : List ChanRef}

theorem Quitting.start (ht : t.InOrder) : Quitting r t t.order t where
  inOrder := ht
  subset := fun _ h => h
  members := (List.filter_eq_self.mpr fun e he => by simp [ht.channel e he]).symm

/-- An empty channel goes, and the table is in order again. -/
theorem deleteIfEmpty_placid (ht : w.chans.InOrder) (hch : ch ∈ w.chans.order) (hnew : ch ∉ rest)
    (hrest : rest ⊆ w.chans.order) :
    (deleteIfEmpty ch).wp placidWp (fun _ w' => w'.chans.InOrder ∧ rest ⊆ w'.chans.order ∧
      w'.chans.cl2chan = w.chans.cl2chan) w := by
  obtain ⟨c, hc⟩ := ht.cell ch hch
  have hkeep : w.chans.InOrder ∧ rest ⊆ w.chans.order ∧ True := ⟨ht, hrest, trivial⟩
  simp only [deleteIfEmpty, deleteChannel, channelHasMode, wp_msg, wp_derefChan,
    onChannel_of_some hc, wp_getWorld, wp_pure, wp_ite, wp_freeChannel]
  refine ⟨fun _ => ⟨fun hempty => ⟨fun _ => ?_, fun _ => hkeep⟩, fun _ => hkeep⟩, fun _ => hkeep⟩
  have hmem (x : ChanRef) (hx : x ≠ ch) : x ∈ (w.dropChannel ch).chans.order ↔ x ∈ w.chans.order :=
    List.mem_erase_of_ne hx
  refine ⟨⟨ht.nodup.erase ch, fun x hx => ?_, fun e he => ?_, ht.distinct⟩, fun x hx => ?_, rfl⟩
  · obtain ⟨hne, hx'⟩ := (ht.nodup.mem_erase_iff).mp hx
    obtain ⟨d, hd⟩ := ht.cell x hx'
    refine ⟨d, ?_⟩
    show Function.update w.chans.heap ch none x = some d
    rw [Function.update_of_ne hne, hd]
  · -- The channel had no members, so every entry is about another one.
    have hne : e.channel ≠ ch := by
      rintro rfl
      have hmember : e.client ∈ w.membersOf e.channel :=
        List.mem_map_of_mem (List.mem_filter.mpr ⟨he, by simp⟩)
      rw [List.isEmpty_iff.mp hempty] at hmember
      exact absurd hmember List.not_mem_nil
    exact (hmem e.channel hne).mpr (ht.channel e he)
  · have hne : x ≠ ch := fun h => hnew (h ▸ hx)
    exact (hmem x hne).mpr (hrest hx)

/-- One turn of the loop of `Channel_Quit`. -/
theorem removeClient_quitting (hnodup : (ch :: rest).Nodup)
    (h : Quitting r t (ch :: rest) w.chans) (origin : ClientRef) (reason : Str) :
    (removeClient .quit ch r origin reason false).wp placidWp
      (fun _ w' => Quitting r t rest w'.chans) w := by
  have hnew : ch ∉ rest := (List.nodup_cons.mp hnodup).1
  have hch : ch ∈ w.chans.order := h.subset (.head _)
  have hrest : rest ⊆ w.chans.order := fun x hx => h.subset (.tail ch hx)
  -- The entries that are left once the one for this channel is gone.
  have hmembers : w.chans.cl2chan.filter (!Cl2Chan.isFor ch r ·) =
      t.cl2chan.filter fun e => e.client != r || rest.contains e.channel := by
    rw [h.members, List.filter_filter]
    refine List.filter_congr fun e _ => ?_
    by_cases hclient : e.client = r
    · by_cases hchannel : e.channel = ch
      · simp [Cl2Chan.isFor, hclient, hchannel, hnew]
      · simp [Cl2Chan.isFor, hclient, hchannel]
    · have hother : (e.client == r) = false := by simpa using hclient
      simp [Cl2Chan.isFor, bne, hother]
  have herase : w.chans.cl2chan.eraseP (Cl2Chan.isFor ch r ·) =
      w.chans.cl2chan.filter (!Cl2Chan.isFor ch r ·) := by
    refine eraseP_eq_filter (List.Pairwise.imp (fun {e e'} hne he => ?_) h.inOrder.distinct)
    simp only [Cl2Chan.isFor, Bool.and_eq_true, beq_iff_eq] at he
    by_contra hboth
    simp only [Cl2Chan.isFor, Bool.not_eq_false, Bool.and_eq_true, beq_iff_eq] at hboth
    exact hne ⟨he.1.trans hboth.1.symm, he.2.trans hboth.2.symm⟩
  simp only [removeClient, announceRemoval, wp_msg, Bool.false_eq_true, if_false, wp_pure,
    wp_getWorld, wp_ite, wp_unlinkCl2Chan, herase]
  refine ⟨fun hnot => ?_, fun _ => ?_⟩
  · -- Without an entry there is nothing to take out.
    have hnone : w.chans.cl2chan.filter (!Cl2Chan.isFor ch r ·) = w.chans.cl2chan := by
      refine List.filter_eq_self.mpr fun e he => ?_
      have hfind : w.getCl2Chan ch r = none := by
        simpa [World.channelIsMemberOf] using hnot
      have hfor := List.find?_eq_none.mp hfind e he
      simpa using hfor
    exact ⟨h.inOrder, hrest, hnone ▸ hmembers⟩
  · have ht : ({ w.chans with
        cl2chan := w.chans.cl2chan.filter (!Cl2Chan.isFor ch r ·) } : Channels).InOrder :=
      ⟨h.inOrder.nodup, h.inOrder.cell,
        fun e he => h.inOrder.channel e (List.mem_filter.mp he).1,
        h.inOrder.distinct.filter _⟩
    refine wp_mono (fun _ w' hw' => ?_)
      (deleteIfEmpty_placid (w := w.setMembers _) ht hch hnew hrest)
    exact ⟨hw'.1, hw'.2.1, hw'.2.2.trans hmembers⟩

/-- `Channel_Quit` ends all memberships of a client. -/
theorem channelQuit_placid (hw : Healthy w) (hcalm : w.Calm) (ht : w.chans.InOrder)
    (hc : w.heap r = some c) (reason : Str) :
    (channelQuit r reason).wp placidWp (fun _ w' => Quitting r w.chans [] w'.chans) w := by
  have hloop (reason : Str) (l : List ChanRef) (hl : l.Nodup) (w' : World)
      (h : Quitting r w.chans l w'.chans) :
      (Prog.forEach (fun ch => do
          let _ ← removeClient .quit ch r r reason false) l : Leave Unit).wp placidWp
        (fun _ w'' => Quitting r w.chans [] w''.chans) w' := by
    induction l generalizing w' with
    | nil => exact h
    | cons ch rest ih =>
      simp only [Prog.forEach, wp_bind]
      refine wp_mono (fun _ w₁ h₁ => ?_) (removeClient_quitting hl h r reason)
      exact ih (List.nodup_cons.mp hl).2 w₁ h₁
  simp only [channelQuit, wp_msg, wp_getWorld]
  refine wp_quiet (ircWriteStrRelatedPrefix_quiet hw hcalm hc r false _) fun _ w' _ hq => ?_
  simp only [wp_msg, wp_getWorld]
  rw [hq.chans]
  refine hloop _ _ ht.nodup w' ?_
  rw [hq.chans]
  exact .start ht

/-- A client without memberships has left all channels. -/
theorem Quitting.of_no_member (ht : t.InOrder) (h : ∀ e ∈ t.cl2chan, e.client ≠ r) :
    Quitting r t [] t where
  inOrder := ht
  subset := List.nil_subset _
  members := (List.filter_eq_self.mpr fun e he => by simp [h e he]).symm

end Quitting

/-! ## The whole farewell -/

section

variable (hw : Healthy w) (hcalm : w.Calm)
include hw hcalm

theorem clientRegisterWhowas_placid (hc : w.heap r = some c) :
    (clientRegisterWhowas r).wp placidWp (fun _ w' => w'.chans = w.chans) w := by
  obtain ⟨i, hi⟩ := hw.introducer r c hc
  simp only [clientRegisterWhowas, wp_msg, wp_getWorld, wp_ite, wp_pure, wp_deref,
    onClient_of_some hc, wp_clientID]
  refine ⟨fun _ => trivial, fun _ => ⟨fun _ => trivial, fun _ => ?_⟩⟩
  refine wp_quiet (clientHostnameDisplayed_quiet hw hcalm hc) fun host w' _ hq => ?_
  obtain ⟨ihost, hi'⟩ := hq.heap_some hi
  simp only [wp_msg, wp_clientID, onClient_of_some hi', wp_editMisc, hq.chans]

/-- A user or a service has quit. -/
theorem destroyUserOrService_placid (ht : w.chans.InOrder) (hc : w.heap r = some c) (txt : Str)
    (fwdMsg : Option Str) (sendQuit : Bool) :
    (destroyUserOrService r txt fwdMsg sendQuit).wp placidWp
      (fun _ w' => Quitting r w.chans [] w'.chans) w := by
  -- Once the messages to the servers are out.
  have hrest (w' : World) (hq : Quiet w w') : (do
      channelQuit r (fwdMsg.getD (← deref r).id)
      clientRegisterWhowas r : Leave Unit).wp placidWp
        (fun _ w'' => Quitting r w.chans [] w''.chans) w' := by
    obtain ⟨host, hc'⟩ := hq.heap_some hc
    have hw' := hq.healthy hw
    simp only [wp_msg, wp_deref, onClient_of_some hc']
    refine wp_placid (channelQuit_placid hw' (hq.calm hcalm) (by rw [hq.chans]; exact ht) hc' _) ?_
    intro _ w₁ hquit hp
    have hmembers : w₁.chans.cl2chan ⊆ w'.chans.cl2chan := by
      rw [hquit.members]
      exact List.filter_subset_self _
    obtain ⟨host₁, hc₁⟩ := hp.heap_some hc'
    refine wp_mono (fun _ w₂ hsame => ?_)
      (clientRegisterWhowas_placid (hp.healthy hmembers hw') (hp.calm (hq.calm hcalm)) hc₁)
    rw [hsame, ← hq.chans]
    exact hquit
  have hstart := hrest w (.refl w)
  simp only [liftM_msg_leave] at hrest
  simp only [wp_msg, wp_deref, onClient_of_some hc] at hstart
  obtain ⟨hop, hopc, hnext, -⟩ := hw.hop r c hc
  simp only [destroyUserOrService, wp_msg, wp_deref, onClient_of_some hc, wp_ite, wp_clientID,
    wp_nextHop_of_ok hnext]
  refine ⟨fun _ => ?_, fun _ => ⟨fun _ => ?_, fun _ => hstart⟩⟩
  · refine wp_mono (fun _ w₁ hq => ?_) (logServerNotice_tame hw hcalm 'c' _)
    obtain ⟨host, hc₁⟩ := hq.heap_some hc
    rw [wp_ite]
    refine ⟨fun _ => ?_, fun _ => hrest w₁ hq⟩
    rw [wp_bind, wp_ofMsg]
    exact wp_mono (fun _ w₂ hq' => hrest w₂ (hq.trans hq'))
      (ircWriteStrServersPrefix_tame (hq.healthy hw) (hq.calm hcalm) hc₁ none _)
  · exact wp_mono (fun _ w₂ hq' => hrest w₂ hq')
      (ircWriteStrServersPrefix_tame hw hcalm hc (some hop) _)

/-- A server has gone. -/
theorem announceServerGone_tame (hc : w.heap r = some c) (txt : Str) (fwdMsg : Option Str) :
    Tame (announceServerGone r txt fwdMsg) w := by
  unfold announceServerGone
  have hq := Quiet.refl w
  refine .read (a := c) (by simp [onClient_of_some hc])
    (.read (a := w.thisServer) (by simp) (.ite ?_ ?_))
  on_goal 1 =>
    cases c.connId
    all_goals
      refine .bind (logSnotice_tame hw hcalm _) fun _ w' hq' => ?_
      replace hq := hq'
  all_goals
    obtain ⟨host, hc'⟩ := hq.heap_some hc
    obtain ⟨hop, hopc, hnext, -⟩ := (hq.healthy hw).hop r _ hc'
    simp only [Tame, wp_bind, wp_getWorld, wp_ite, wp_deref, onClient_of_some hc',
      wp_nextHop_of_ok hnext, wp_pure]
    refine ⟨fun _ => ?_, fun _ => .refl _⟩
    exact ircWriteStrServersPrefix_tame (hq.healthy hw) (hq.calm hcalm) hc' _ _

/-- Whatever is said about a client, in the end it is on no channel. -/
theorem farewell_placid (ht : w.chans.InOrder) (hc : w.heap r = some c)
    (hmember : ∀ e ∈ w.chans.cl2chan, e.client = r → c.type = .user ∨ c.type = .service) (txt : Str)
    (fwdMsg : Option Str) (sendQuit : Bool) :
    (farewell r c.type txt fwdMsg sendQuit).wp placidWp
      (fun _ w' => Placid w w' ∧ Quitting r w.chans [] w'.chans) w := by
  suffices h : (farewell r c.type txt fwdMsg sendQuit).wp placidWp
      (fun _ w' => Quitting r w.chans [] w'.chans) w from
    wp_placid h fun _ _ hquit hp => ⟨hp, hquit⟩
  have hnobody (huser : c.type ≠ .user) (hservice : c.type ≠ .service) :
      Quitting r w.chans [] w.chans := by
    refine .of_no_member ht fun e he heq => ?_
    rcases hmember e he heq with h | h
    · exact huser h
    · exact hservice h
  have hquit := destroyUserOrService_placid hw hcalm ht hc txt fwdMsg sendQuit
  cases htype : c.type with
  | user => exact hquit
  | service => exact hquit
  | server =>
    have hsquit := announceServerGone_tame hw hcalm hc txt fwdMsg
    simp only [farewell, liftM_msg_leave, wp_ofMsg]
    refine wp_mono (fun _ w' hq => ?_) hsquit
    rw [hq.chans]
    exact hnobody (by simp [htype]) (by simp [htype])
  | _ => exact hnobody (by simp [htype]) (by simp [htype])

end

end Ngircd
