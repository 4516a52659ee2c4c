import Ngircd.Quiet
import Ngircd.Removal

/-!
# Leaving a channel

`Remove_Client` takes a client off a channel, announces that, and then deletes
the channel if nobody is left on it.  The announcement can close connections,
and the QUIT of their clients leaves the same channel: if the last members go
that way, the channel is gone when the outer call looks at it again.
-/

namespace Ngircd

open Lib

/-- The channel is on `My_Channels`, and its structure is there. -/
structure World.Alive (w : World) (ch : ChanRef) (c : Channel) : Prop where
  listed : ch ∈ w.chans.order
  cell : w.chans.heap ch = some c

/-- `Remove_Client` has taken the client off the channel. -/
def World.unlinked (w : World) (ch : ChanRef) (client : ClientRef) : World :=
  w.setMembers (w.chans.cl2chan.eraseP (·.isFor ch client))

/-- `Remove_Client` has deleted the channel, with the structure `c`, if that had to be. -/
def World.swept (w : World) (ch : ChanRef) (c : Channel) : World :=
  if c.hasMode 'P' = false ∧ w.membersOf ch = [] ∧ ch ∈ w.chans.order then w.dropChannel ch else w

variable {K : Closing} {E : Fault → Prop} {n : Nat} {kind : Removal} {ch ch' : ChanRef}
  {c chan : Channel} {client origin : ClientRef} {reason : Str} {informServer : Bool}
  {w w₁ : World}

/-! ## The parts of `Remove_Client` -/

theorem wp_deleteIfEmpty {Q : Unit → World → Prop} :
    (deleteIfEmpty ch).wp (leaveWp K E) Q w ↔ OnChannel E w ch fun c => Q () (w.swept ch c) := by
  simp only [deleteIfEmpty, deleteChannel, channelHasMode, wp_msg, wp_derefChan, wp_getWorld,
    Prog.wp_pure, Prog.wp_ite, wp_freeChannel, World.swept]
  refine iff_of_eq (congrArg _ (funext fun c => propext ?_))
  by_cases hP : c.hasMode 'P' <;> by_cases hm : w.membersOf ch = [] <;>
    by_cases ho : ch ∈ w.chans.order <;> simp [hP, hm, ho]

/-- The QUIT of a member, which is not announced. -/
theorem wp_removeClient_quit {Q : Bool → World → Prop} :
    (removeClient .quit ch client client reason false).wp (leaveWp K E) Q w ↔
      (w.channelIsMemberOf ch client = false → Q false w) ∧
      (w.channelIsMemberOf ch client = true → OnChannel E (w.unlinked ch client) ch fun c =>
        Q true ((w.unlinked ch client).swept ch c)) := by
  cases hm : w.channelIsMemberOf ch client <;>
    simp [removeClient, announceRemoval, hm, wp_deleteIfEmpty, World.unlinked]

theorem execLeave_bind {α β : Type} (p : Leave α) (f : α → Leave β) :
    execBasic n (Basic.ofLeave (p >>= f)) =
      execBasic n (Basic.ofLeave p) >>= fun a => execBasic n (Basic.ofLeave (f a)) := by
  have hleave : Basic.ofLeave (p >>= f) = Basic.ofLeave p >>= fun a => Basic.ofLeave (f a) :=
    Prog.run_bind _ p f
  rw [hleave]
  exact Prog.run_bind _ _ _

theorem execLeave_of_msg {α β : Type} {p : Msg α} {a : α} (hp : execMsg n p w = .ok (a, w₁))
    (f : α → Leave β) :
    execBasic n (Basic.ofLeave (Leave.ofMsg p >>= f)) w = execBasic n (Basic.ofLeave (f a)) w₁ := by
  rw [execLeave_bind, Exec.bind_apply, execBasic_ofMsg, hp]

/-- Once its announcement has ended in the state `w₁`, `Remove_Client` goes on in that
state: it consults the modes of the channel, looks for members and deletes the channel. -/
theorem exec_removeClient (hchan : w.chans.heap ch = some chan)
    (hmember : w.channelIsMemberOf ch client = true)
    (hannounced : execMsg n (announceRemoval kind ch client origin reason
      (informServer && !chan.isLocal)) (w.unlinked ch client) = .ok ((), w₁)) :
    execBasic n (Basic.ofLeave (removeClient kind ch client origin reason informServer)) w =
      execBasic n (Basic.ofLeave (deleteIfEmpty ch >>= fun _ => pure true)) w₁ := by
  have hworld : execMsg n getWorld w = .ok (w, w) := rfl
  unfold removeClient
  cases informServer with
  | false =>
    refine (execLeave_of_msg hworld _).trans ?_
    rw [hmember]
    exact execLeave_of_msg hannounced _
  | true =>
    obtain ⟨_, _, hderef, rfl, rfl⟩ := execMsg_of_wp (p := derefChan ch) (w := w)
      (Q := fun c w' => c = chan ∧ w' = w) (by simp [onChannel_of_some hchan]) n
    refine (execLeave_of_msg hderef _).trans ((execLeave_of_msg hworld _).trans ?_)
    rw [hmember]
    exact execLeave_of_msg hannounced _

/-! ## Closes while something is announced

The channels change only when a close makes clients leave them. -/

section

variable {J : World → Prop} (hsame : ∀ w w', w'.chans = w.chans → J w → J w')
include hsame

/-- Messages keep what the channels decide when closes do. -/
theorem chans_msgFrame : MsgFrame (fun _ w w' => J w → J w') (fun w w' => J w → J w') where
  refl _ h := h
  trans _ _ _ h₁ h₂ h := h₂ (h₁ h)
  queue w _ _ _ _ := hsame w _ rfl
  fail w _ _ _ _ h hw := h (hsame w _ rfl hw)
  editConn w _ _ := hsame w _ rfl
  cloak w _ _ _ _ := hsame w _ rfl

variable (hquit : ∀ w ch client c, J w → w.channelIsMemberOf ch client = true →
  w.chans.heap ch = some c → J ((w.unlinked ch client).swept ch c))
include hquit

/-- Closing a connection keeps what the QUITs of members keep. -/
theorem quits_departing : Departing (.within fun _ w w' => J w → J w') J where
  msg _ p w hw := (chans_msgFrame hsame).wp (fun _ => trivial) p fun _ _ h => h hw
  quit ch client reason w hw := by
    apply wp_removeClient_quit.mpr
    refine ⟨fun _ => hw, fun hmember => ?_⟩
    exact onChannel_anyFault.mpr fun c hc => hquit w ch client c hw hmember hc
  whowas w _ _ := hsame w _ rfl
  unlink w _ := hsame w _ rfl
  free w _ := hsame w _ rfl
  setConn w _ _ := hsame w _ rfl
  release w _ _ := hsame w _ rfl

theorem announced_keeps {p : Msg Unit} (hrun : execMsg n p w = .ok ((), w₁)) (hw : J w) : J w₁ :=
  (chans_msgFrame hsame).exec_ok (closer_departing (quits_departing hsame hquit) n) hrun hw

end

/-! ## What a QUIT from another channel leaves alone -/

theorem filter_eraseP_of_disjoint {α : Type} {p q : α → Bool}
    (h : ∀ a, p a = true → q a = false) (l : List α) : (l.eraseP p).filter q = l.filter q := by
  induction l with
  | nil => rfl
  | cons a l ih =>
    by_cases ha : p a = true
    · rw [List.eraseP_cons_of_pos ha, List.filter_cons_of_neg (by simp [h a ha])]
    · rw [List.eraseP_cons_of_neg ha, List.filter_cons, List.filter_cons, ih]

section

variable (hne : ch ≠ ch')
include hne

theorem membersOf_unlinked_ne : (w.unlinked ch' client).membersOf ch = w.membersOf ch := by
  have hother (e : Cl2Chan) (he : e.isFor ch' client = true) : decide (e.channel = ch) = false := by
    simp only [Cl2Chan.isFor, Bool.and_eq_true, beq_iff_eq] at he
    rw [he.1]
    exact decide_eq_false hne.symm
  show ((w.chans.cl2chan.eraseP (·.isFor ch' client)).filter _).map _ = _
  rw [filter_eraseP_of_disjoint hother]
  rfl

theorem quits_elsewhere (w : World) (client : ClientRef) (c' : Channel) :
    ((w.unlinked ch' client).swept ch' c').membersOf ch = w.membersOf ch ∧
    ((w.unlinked ch' client).swept ch' c').chans.heap ch = w.chans.heap ch ∧
    (ch ∈ w.chans.order → ch ∈ ((w.unlinked ch' client).swept ch' c').chans.order) := by
  unfold World.swept
  split
  · refine ⟨membersOf_unlinked_ne hne, Function.update_of_ne hne _ _, fun h => ?_⟩
    exact (List.mem_erase_of_ne hne).mpr h
  · exact ⟨membersOf_unlinked_ne hne, rfl, fun h => h⟩

end

/-! ## Channels that nothing deletes, and channels with members -/

/-- The channel is there, and persistent or without members. -/
structure World.Held (w : World) (ch : ChanRef) (c : Channel) : Prop extends w.Alive ch c where
  reason : c.hasMode 'P' = true ∨ w.membersOf ch = []

/-- The channel is there exactly as long as it has members. -/
def World.Peopled (w : World) (ch : ChanRef) (c : Channel) : Prop :=
  w.Alive ch c ∧ w.membersOf ch ≠ [] ∨ w.chans.heap ch = none ∧ w.membersOf ch = []

theorem membersOf_ne_nil (h : w.channelIsMemberOf ch client = true) : w.membersOf ch ≠ [] := by
  obtain ⟨e, he, hfor⟩ := List.find?_isSome.mp h
  simp only [Cl2Chan.isFor, Bool.and_eq_true, beq_iff_eq] at hfor
  have hmem : e.client ∈ w.membersOf ch :=
    List.mem_map_of_mem (List.mem_filter.mpr ⟨he, decide_eq_true hfor.1⟩)
  exact List.ne_nil_of_mem hmem

theorem alive_same {w w' : World} (h : w'.chans = w.chans) (hw : w.Alive ch c) :
    w'.Alive ch c := by
  refine ⟨?_, ?_⟩
  · rw [h]
    exact hw.listed
  · rw [h]
    exact hw.cell

theorem held_same (w w' : World) (h : w'.chans = w.chans) (hw : w.Held ch c) : w'.Held ch c := by
  refine ⟨alive_same h hw.toAlive, ?_⟩
  simpa only [World.membersOf, h] using hw.reason

theorem peopled_same (w w' : World) (h : w'.chans = w.chans) (hw : w.Peopled ch c) :
    w'.Peopled ch c := by
  have hmembers : w'.membersOf ch = w.membersOf ch := by simp only [World.membersOf, h]
  unfold World.Peopled
  rw [hmembers, h]
  exact hw.imp_left (And.imp_left (alive_same h))

theorem held_quit (w : World) (ch' : ChanRef) (client : ClientRef) (c' : Channel)
    (hw : w.Held ch c) (hmember : w.channelIsMemberOf ch' client = true)
    (hc' : w.chans.heap ch' = some c') : ((w.unlinked ch' client).swept ch' c').Held ch c := by
  by_cases hch : ch = ch'
  · subst hch
    obtain rfl : c = c' := Option.some.inj (hw.cell.symm.trans hc')
    rcases hw.reason with hP | hnone
    · have hkept : (w.unlinked ch client).swept ch c = w.unlinked ch client := by
        simp [World.swept, hP]
      rw [hkept]
      exact ⟨⟨hw.listed, hw.cell⟩, .inl hP⟩
    · exact absurd hnone (membersOf_ne_nil hmember)
  · obtain ⟨hmembers, hcell, hlisted⟩ := quits_elsewhere hch w client c'
    refine ⟨⟨hlisted hw.listed, hcell.trans hw.cell⟩, ?_⟩
    rw [hmembers]
    exact hw.reason

theorem peopled_quit (hP : c.hasMode 'P' = false) (w : World) (ch' : ChanRef) (client : ClientRef)
    (c' : Channel) (hw : w.Peopled ch c) (hmember : w.channelIsMemberOf ch' client = true)
    (hc' : w.chans.heap ch' = some c') : ((w.unlinked ch' client).swept ch' c').Peopled ch c := by
  by_cases hch : ch = ch'
  · subst hch
    obtain ⟨halive, -⟩ | ⟨hgone, -⟩ := hw
    · obtain rfl : c = c' := Option.some.inj (halive.cell.symm.trans hc')
      have hlisted : ch ∈ (w.unlinked ch client).chans.order := halive.listed
      by_cases hlast : (w.unlinked ch client).membersOf ch = []
      · -- The last member takes the channel along.
        simp only [World.swept, hP, hlast, hlisted, and_self, if_true]
        exact .inr ⟨Function.update_self _ _ _, hlast⟩
      · simp only [World.swept, hlast, false_and, and_false, if_false]
        exact .inl ⟨⟨hlisted, halive.cell⟩, hlast⟩
    · rw [hgone] at hc'
      cases hc'
  · obtain ⟨hmembers, hcell, hlisted⟩ := quits_elsewhere hch w client c'
    unfold World.Peopled
    rw [hmembers, hcell]
    exact hw.imp (fun h => ⟨⟨hlisted h.1.listed, hcell.trans h.1.cell⟩, h.2⟩) fun h => h

/-- A channel that has been freed stays so: nothing is deleted twice. -/
theorem freed_swept (hw : w.chans.heap ch = none) : (w.swept ch' c).chans.heap ch = none := by
  unfold World.swept
  split
  · by_cases hch : ch = ch'
    · subst hch
      exact Function.update_self _ _ _
    · exact (Function.update_of_ne hch _ _).trans hw
  · exact hw

/-! ## `Remove_Client` -/

theorem exec_deleteIfEmpty (hc : w.chans.heap ch = some c) :
    execBasic n (Basic.ofLeave (deleteIfEmpty ch >>= fun _ => pure true)) w =
      .ok (true, w.swept ch c) := by
  have hwp : (deleteIfEmpty ch >>= fun _ => pure true).wp (leaveWp .never noFault)
      (fun a w' => a = true ∧ w' = w.swept ch c) w := by
    rw [Prog.wp_bind, wp_deleteIfEmpty, onChannel_of_some hc]
    exact ⟨rfl, rfl⟩
  obtain ⟨a, w', hrun, rfl, rfl⟩ :=
    (execBasic_ends (n := n) (Closing.never_rightAbout _) ((wp_ofLeave _).mpr hwp)).exists_ok
  exact hrun

theorem exec_deleteIfEmpty_freed (hc : w.chans.heap ch = none) :
    execBasic n (Basic.ofLeave (deleteIfEmpty ch >>= fun _ => pure true)) w =
      .error (.data (.freedChannel ch)) := by
  have hwp : (deleteIfEmpty ch >>= fun _ => pure true).wp
      (leaveWp .never (· = .data (.freedChannel ch))) (fun _ _ => False) w := by
    rw [Prog.wp_bind, wp_deleteIfEmpty]
    exact ⟨fun c hsome => by simp [hc] at hsome, fun _ => rfl⟩
  exact (execBasic_ends (n := n) (Closing.never_rightAbout _) ((wp_ofLeave _).mpr hwp)).error_eq

/-- How the announcement leaves the channel: one that nothing deletes is there, any other
one as long as it has members. -/
theorem announced_cases (hchan : w.Alive ch chan)
    (hannounced : execMsg n (announceRemoval kind ch client origin reason informServer)
      (w.unlinked ch client) = .ok ((), w₁)) :
    (kind = .quit ∨ chan.hasMode 'P' = true ∨ (w.unlinked ch client).membersOf ch = []) ∧
        w₁.Alive ch chan ∨
      ¬(kind = .quit ∨ chan.hasMode 'P' = true ∨ (w.unlinked ch client).membersOf ch = []) ∧
        w₁.Peopled ch chan := by
  have hunlinked : (w.unlinked ch client).Alive ch chan := ⟨hchan.listed, hchan.cell⟩
  by_cases h : kind = .quit ∨ chan.hasMode 'P' = true ∨ (w.unlinked ch client).membersOf ch = []
  · refine .inl ⟨h, ?_⟩
    rcases h with rfl | hreason
    · -- Nothing is announced.
      obtain rfl : w.unlinked ch client = w₁ := (Prod.mk.inj (Except.ok.inj hannounced)).2
      exact hunlinked
    · exact (announced_keeps held_same held_quit hannounced ⟨hunlinked, hreason⟩).toAlive
  · refine .inr ⟨h, ?_⟩
    simp only [not_or, Bool.not_eq_true] at h
    obtain ⟨-, hP, hothers⟩ := h
    exact announced_keeps peopled_same (peopled_quit hP) hannounced (.inl ⟨hunlinked, hothers⟩)

/-- This server, a linked one, a user here and two there. -/
def partingClient : ClientRef → Option Client
  | 0 => some { id := "irc.example.net", type := .server, introducer := 0 }
  | 1 => some { id := "irc.b", type := .server, connId := some 1, introducer := 1 }
  | 2 => some { id := "a", type := .user, connId := some 2, introducer := 0 }
  | 3 => some { id := "b", type := .user, introducer := 1 }
  | 4 => some { id := "c", type := .user, introducer := 1 }
  | _ => none

/-- The channel `#a` with its members. -/
def parting (members : List ClientRef) : World where
  conns i := if 1 ≤ i ∧ i ≤ 2 then { sock := some i, client := some i } else {}
  poolSize := 3
  heap := partingClient
  order := [4, 3, 2, 1, 0]
  nextRef := 5
  chans :=
    { heap := fun ch => if ch = 0 then some { name := "#a" } else none
      order := [0]
      nextRef := 1
      cl2chan := members.map (⟨·, 0, []⟩) }
  misc := { numConnections := 2 }
  env := { outcome := firstFails }

theorem parting_alive (members : List ClientRef) :
    (parting members).Alive 0 { name := "#a" } :=
  ⟨List.mem_singleton.mpr rfl, rfl⟩

/-- The announcement of the PART of the first remote user. -/
def partAnnounced (members : List ClientRef) : Except Fault (Unit × World) :=
  execMsg 2 (announceRemoval .part 0 3 1 [] true) ((parting members).unlinked 0 3)

end Ngircd
