import Ngircd.Lib.Wp
import Ngircd.Parse

/-!
# A program logic for the daemon

Weakest preconditions for the programs of each signature.  The operations
are described exactly, but for one: what closing a connection does is a
parameter, since a write can close the connection it is made on and a close
writes.  A description of closing that the body of `Conn_Close` itself meets,
with closes inside it described in the same way, is right (`closer_sound`).
-/

namespace Ngircd

open Lib Prog

variable {E : Fault → Prop} {w w' : World} {r cl : ClientRef} {ch : ChanRef} {P P' : Channel → Prop}
  {C C' : ConnId → World → World → Prop} {α β : Type} {close : Closer} {i : ConnId}
  {line host id : Str} {n now : Nat} {R R' : World → World → Prop} {c : Client}
  {Q : ClientRef → World → Prop}

/-! ## Transformers -/

/-- What is known about closing a connection. -/
structure Closing where
  wp : ConnId → (World → Prop) → World → Prop
  mono : ∀ i {P P' : World → Prop} {w}, (∀ w', P w' → P' w') → wp i P w → wp i P' w

namespace Closing

/-- Closing keeps within a relation. -/
def within (C : ConnId → World → World → Prop) : Closing where
  wp i P w := ∀ w', C i w w' → P w'
  mono _ _ _ _ h hw w' hc := h w' (hw w' hc)

/-- Nothing is closed. -/
def never : Closing where
  wp _ _ _ := False
  mono _ _ _ _ _ h := h

end Closing

/-- All faults. -/
abbrev anyFault : Fault → Prop := fun _ => True

/-- No fault. -/
abbrev noFault : Fault → Prop := fun _ => False

section Transformers

variable (K : Closing) (E : Fault → Prop)

/-- `P` of the client structure at `r`, or the fault of reading a freed one. -/
def OnClient (w : World) (r : ClientRef) (P : Client → Prop) : Prop :=
  (∀ c, w.heap r = some c → P c) ∧ (w.heap r = none → E (.data (.freedClient r)))

/-- `P` of the channel structure at `ch`, or the fault of reading a freed one. -/
def OnChannel (w : World) (ch : ChanRef) (P : Channel → Prop) : Prop :=
  (∀ c, w.chans.heap ch = some c → P c) ∧ (w.chans.heap ch = none → E (.data (.freedChannel ch)))

/-- Transformers of the message operations. -/
def msgWp : Transformer MsgOp.Res World
  | .get, Q, w => Q w w
  | .fault f, _, _ => E (.data f)
  | .write i line, Q, w =>
    if (w.conns i).sock.isNone then Q false w
    else if w.env.outcome w.env.writes = .taken then Q true (w.tickWrite.queue i line)
    else K.wp i (Q false) w.tickWrite
  | .editConn i e, Q, w => Q () (w.setConn i (e.edit (w.conns i)))
  | .cloak r host, Q, w =>
    OnClient E w r fun c => Q () (w.setHeap r (some { c with cloaked := some host }))

/-- Transformers of the leave operations. -/
def leaveWp : Transformer LeaveOp.Res World
  | .msg m, Q, w => msgWp K E m Q w
  | .removeMember ch cl, Q, w =>
    Q () (w.setMembers (w.chans.cl2chan.eraseP (·.isFor ch cl)))
  | .deleteChannel ch, Q, w => Q () (w.dropChannel ch)
  | .editMisc f, Q, w => Q () { w with misc := f w.misc }
  | .editServers f, Q, w => Q () { w with conf := { w.conf with servers := f w.conf.servers } }

/-- Transformers of the basic operations. -/
def basicWp : Transformer BasicOp.Res World
  | .leave l, Q, w => leaveWp K E l Q w
  | .editClient r e, Q, w => OnClient E w r fun c => Q () (w.setHeap r (some (e.edit c)))
  | .editChannel ch f, Q, w => OnChannel E w ch fun c => Q () (w.setChannel ch (some (f c)))
  | .newChannel c, Q, w => Q w.chans.nextRef (w.addChannel c)
  | .addMember ch cl, Q, w =>
    Q () (w.setMembers ({ client := cl, channel := ch } :: w.chans.cl2chan))
  | .setMemberModes ch cl f, Q, w => Q () (w.setMembers (w.chans.cl2chan.map fun e =>
    if e.isFor ch cl then { e with modes := f e.modes } else e))
  | .rand, Q, w =>
    Q (w.env.rand w.env.rands) { w with env := { w.env with rands := w.env.rands + 1 } }

/-- Transformers of the shut operations. -/
def shutWp : Transformer ShutOp.Res World
  | .leave l, Q, w => leaveWp K E l Q w
  | .unlink r, Q, w => Q () { w with order := w.order.erase r }
  | .free r, Q, w => Q () (w.setHeap r none)
  | .startClosing i, Q, w => Q () (w.setConn i { w.conns i with isClosing := true })
  | .closeSocket i, Q, w => Q () (w.setConn i { w.conns i with sock := none })
  | .initConn i now, Q, w => Q () (w.setConn i (newConn now))

/-- Transformers of the plain operations. -/
def plainWp : Transformer PlainOp.Res World
  | .basic b, Q, w => basicWp K E b Q w
  | .shut s, Q, w => shutWp K E s Q w
  | .close i _ _ _, Q, w => K.wp i (Q ()) w
  | .absentParameter i, _, _ => E (.absentParameter i)
  | .absentSender, _, _ => E .absentSender
  | .newRemote c, Q, w => Q w.nextRef (w.addClient { c with connId := none })

/-- Transformers of the full operations. -/
def fullWp : Transformer FullOp.Res World
  | .plain p, Q, w => plainWp K E p Q w
  | .setType r t, Q, w => OnClient E w r fun c => Q () (w.setHeap r (some { c with type := t }))
  | .setId r id, Q, w => OnClient E w r fun c => Q () (w.setHeap r (some { c with id }))
  | .setCaps r f, Q, w => OnClient E w r fun c =>
    Q () (w.setHeap r (some { c with capabilities := f c.capabilities }))
  | .ownIntroducer r, Q, w => OnClient E w r fun c =>
    Q () (w.setHeap r (some { c with introducer := r }))
  | .setPwd i pwd, Q, w => Q () (w.setConn i { w.conns i with pwd })
  | .setAuthPing i token, Q, w => Q () (w.setConn i { w.conns i with authPing := token })

end Transformers

/-! ## Monotonicity -/

section Monotone

variable {K : Closing}

theorem OnClient.mono {P P' : Client → Prop} (h : ∀ c, P c → P' c)
    (hP : OnClient E w r P) : OnClient E w r P' :=
  ⟨fun c hc => h c (hP.1 c hc), hP.2⟩

theorem OnChannel.mono (h : ∀ c, P c → P' c)
    (hP : OnChannel E w ch P) : OnChannel E w ch P' :=
  ⟨fun c hc => h c (hP.1 c hc), hP.2⟩

instance msgWp_mono : Prog.Monotone (msgWp K E) where
  mono op Q Q' w h hQ := by
    cases op with
    | get => exact h _ _ hQ
    | fault f => exact hQ
    | write i line =>
      simp only [msgWp] at hQ ⊢
      split_ifs at hQ ⊢
      · exact h _ _ hQ
      · exact h _ _ hQ
      · exact K.mono i (fun w' => h false w') hQ
    | editConn i e => exact h _ _ hQ
    | cloak r host => exact OnClient.mono (fun c => h _ _) hQ

instance leaveWp_mono : Prog.Monotone (leaveWp K E) where
  mono op Q Q' w h hQ := by
    cases op with
    | msg m => exact msgWp_mono.mono m Q Q' w h hQ
    | _ => exact h _ _ hQ

instance basicWp_mono : Prog.Monotone (basicWp K E) where
  mono op Q Q' w h hQ := by
    cases op with
    | leave l => exact leaveWp_mono.mono l Q Q' w h hQ
    | editClient r e => exact OnClient.mono (fun c => h _ _) hQ
    | editChannel ch f => exact OnChannel.mono (fun c => h _ _) hQ
    | _ => exact h _ _ hQ

instance shutWp_mono : Prog.Monotone (shutWp K E) where
  mono op Q Q' w h hQ := by
    cases op with
    | leave l => exact leaveWp_mono.mono l Q Q' w h hQ
    | _ => exact h _ _ hQ

instance plainWp_mono : Prog.Monotone (plainWp K E) where
  mono op Q Q' w h hQ := by
    cases op with
    | basic b => exact basicWp_mono.mono b Q Q' w h hQ
    | shut s => exact shutWp_mono.mono s Q Q' w h hQ
    | close i l f inf => exact K.mono i (fun w' => h () w') hQ
    | absentParameter i => exact hQ
    | absentSender => exact hQ
    | newRemote c => exact h _ _ hQ

instance fullWp_mono : Prog.Monotone (fullWp K E) where
  mono op Q Q' w h hQ := by
    cases op with
    | plain p => exact plainWp_mono.mono p Q Q' w h hQ
    | setType r t => exact OnClient.mono (fun c => h _ _) hQ
    | setId r id => exact OnClient.mono (fun c => h _ _) hQ
    | setCaps r f => exact OnClient.mono (fun c => h _ _) hQ
    | ownIntroducer r => exact OnClient.mono (fun c => h _ _) hQ
    | _ => exact h _ _ hQ

end Monotone

/-! ## Conjunction -/

section Conjunction

theorem OnClient.and {P P' : Client → Prop} (h : OnClient E w r P)
    (h' : OnClient E w r P') : OnClient E w r fun c => P c ∧ P' c :=
  ⟨fun c hc => ⟨h.1 c hc, h'.1 c hc⟩, h.2⟩

theorem OnChannel.and (h : OnChannel E w ch P)
    (h' : OnChannel E w ch P') : OnChannel E w ch fun c => P c ∧ P' c :=
  ⟨fun c hc => ⟨h.1 c hc, h'.1 c hc⟩, h.2⟩

theorem msgWp_and : Prog.Conjunctive (msgWp (.within C) E) := by
  intro op Q Q' w h h'
  cases op with
  | get => exact ⟨h, h'⟩
  | fault f => exact h
  | write i line =>
    simp only [msgWp] at h h' ⊢
    split_ifs at h h' ⊢
    · exact ⟨h, h'⟩
    · exact ⟨h, h'⟩
    · exact fun w' hc => ⟨h w' hc, h' w' hc⟩
  | editConn i e => exact ⟨h, h'⟩
  | cloak r host => exact OnClient.and h h'

theorem leaveWp_and : Prog.Conjunctive (leaveWp (.within C) E) := by
  intro op Q Q' w h h'
  cases op with
  | msg m => exact msgWp_and m Q Q' w h h'
  | _ => exact ⟨h, h'⟩

theorem basicWp_and : Prog.Conjunctive (basicWp (.within C) E) := by
  intro op Q Q' w h h'
  cases op with
  | leave l => exact leaveWp_and l Q Q' w h h'
  | editClient r e => exact OnClient.and h h'
  | editChannel ch f => exact OnChannel.and h h'
  | _ => exact ⟨h, h'⟩

theorem shutWp_and : Prog.Conjunctive (shutWp (.within C) E) := by
  intro op Q Q' w h h'
  cases op with
  | leave l => exact leaveWp_and l Q Q' w h h'
  | _ => exact ⟨h, h'⟩

theorem plainWp_and : Prog.Conjunctive (plainWp (.within C) E) := by
  intro op Q Q' w h h'
  cases op with
  | basic b => exact basicWp_and b Q Q' w h h'
  | shut s => exact shutWp_and s Q Q' w h h'
  | close i l f inf => exact fun w' hc => ⟨h w' hc, h' w' hc⟩
  | absentParameter i => exact h
  | absentSender => exact h
  | newRemote c => exact ⟨h, h'⟩

theorem fullWp_and : Prog.Conjunctive (fullWp (.within C) E) := by
  intro op Q Q' w h h'
  cases op with
  | plain p => exact plainWp_and p Q Q' w h h'
  | setType r t => exact OnClient.and h h'
  | setId r id => exact OnClient.and h h'
  | setCaps r f => exact OnClient.and h h'
  | ownIntroducer r => exact OnClient.and h h'
  | _ => exact ⟨h, h'⟩

end Conjunction

/-! ## Closes that keep to less -/

section Narrow

variable {Q : α → World → Prop}

variable (hC : ∀ i w w', C' i w w' → C i w w')
include hC

theorem msgWp_narrow (op : MsgOp) (Q : op.Res → World → Prop) (w : World)
    (h : msgWp (.within C) E op Q w) :
    msgWp (.within C') E op Q w := by
  cases op with
  | write i line =>
    simp only [msgWp] at h ⊢
    split_ifs at h ⊢
    · exact h
    · exact h
    · exact fun w' hw' => h w' (hC _ _ _ hw')
  | _ => exact h

theorem leaveWp_narrow (op : LeaveOp) (Q : op.Res → World → Prop) (w : World)
    (h : leaveWp (.within C) E op Q w) :
    leaveWp (.within C') E op Q w := by
  cases op with
  | msg m => exact msgWp_narrow hC m Q w h
  | _ => exact h

theorem shutWp_narrow (op : ShutOp) (Q : op.Res → World → Prop) (w : World)
    (h : shutWp (.within C) E op Q w) :
    shutWp (.within C') E op Q w := by
  cases op with
  | leave l => exact leaveWp_narrow hC l Q w h
  | _ => exact h

end Narrow

/-! ## Soundness -/

section Sound

variable {K : Closing}

/-- A description of closing is right about a way to close. -/
def Closing.RightAbout (K : Closing) (E : Fault → Prop) (close : Closer) : Prop :=
  ∀ i l f inf P w, K.wp i P w → Exec.Ends E (close i l f inf) (fun _ => P) w

theorem writeLine_ends (hK : K.RightAbout E close)
    {Q : Bool → World → Prop} (h : msgWp K E (.write i line) Q w) :
    Exec.Ends E (writeLine close i line) Q w := by
  have hfail (msg : Str) (hk : K.wp i (Q false) w.tickWrite) :
      Exec.Ends E (do close i (some msg) none false; pure false) Q w.tickWrite :=
    Exec.Ends.bind (hK i _ _ _ _ _ hk)
  simp only [msgWp] at h
  unfold Exec.Ends writeLine
  split_ifs at h ⊢ with hsock htaken
  · exact h
  · rw [htaken]
    exact h
  · cases hout : w.env.outcome w.env.writes with
    | taken => exact absurd hout htaken
    | sendError => exact hfail _ h
    | exhausted => exact hfail _ h

theorem editHeap_ends {f : Client → Client} {Q : Unit → World → Prop}
    (h : OnClient E w r fun c => Q () (w.setHeap r (some (f c)))) :
    Exec.Ends E (editHeap r f) Q w := by
  unfold Exec.Ends editHeap
  cases hr : w.heap r with
  | none => exact h.2 hr
  | some c => exact h.1 c hr

section

variable (hK : K.RightAbout E close)
include hK

theorem stepMsg_ends : ∀ op Q w, msgWp K E op Q w → Exec.Ends E (stepMsg close op) Q w := by
  intro op Q w h
  cases op with
  | get => exact h
  | fault f => exact h
  | write i line => exact writeLine_ends hK h
  | editConn i e => exact h
  | cloak r host => exact editHeap_ends h

theorem stepLeave_ends : ∀ op Q w, leaveWp K E op Q w → Exec.Ends E (stepLeave close op) Q w := by
  intro op Q w h
  cases op with
  | msg m => exact stepMsg_ends hK m Q w h
  | _ => exact h

theorem stepBasic_ends : ∀ op Q w, basicWp K E op Q w → Exec.Ends E (stepBasic close op) Q w := by
  intro op Q w h
  cases op with
  | leave l => exact stepLeave_ends hK l Q w h
  | editClient r e => exact editHeap_ends h
  | editChannel ch f =>
    unfold Exec.Ends
    simp only [stepBasic]
    cases hch : w.chans.heap ch with
    | none => exact h.2 hch
    | some c => exact h.1 c hch
  | _ => exact h

theorem stepShut_ends : ∀ op Q w, shutWp K E op Q w → Exec.Ends E (stepShut close op) Q w := by
  intro op Q w h
  cases op with
  | leave l => exact stepLeave_ends hK l Q w h
  | _ => exact h

theorem stepPlain_ends : ∀ op Q w, plainWp K E op Q w → Exec.Ends E (stepPlain close op) Q w := by
  intro op Q w h
  cases op with
  | basic b => exact stepBasic_ends hK b Q w h
  | shut s => exact stepShut_ends hK s Q w h
  | close i l f inf => exact hK i l f inf _ w h
  | _ => exact h

theorem stepFull_ends : ∀ op Q w, fullWp K E op Q w → Exec.Ends E (stepFull close op) Q w := by
  intro op Q w h
  cases op with
  | plain p => exact stepPlain_ends hK p Q w h
  | setType r t => exact editHeap_ends h
  | setId r id => exact editHeap_ends h
  | setCaps r f => exact editHeap_ends h
  | ownIntroducer r => exact editHeap_ends h
  | _ => exact h

end

section

variable (hK : K.RightAbout E (closer n))
include hK

theorem execMsg_ends {p : Msg α} {Q : α → World → Prop} (h : p.wp (msgWp K E) Q w) :
    Exec.Ends E (execMsg n p) Q w :=
  Prog.wp_sound (stepMsg_ends hK) h

theorem execBasic_ends {p : Basic α} {Q : α → World → Prop} (h : p.wp (basicWp K E) Q w) :
    Exec.Ends E (execBasic n p) Q w :=
  Prog.wp_sound (stepBasic_ends hK) h

theorem execPlain_ends {p : Plain α} {Q : α → World → Prop} (h : p.wp (plainWp K E) Q w) :
    Exec.Ends E (execPlain n p) Q w :=
  Prog.wp_sound (stepPlain_ends hK) h

theorem exec_ends {p : Full α} {Q : α → World → Prop} (h : p.wp (fullWp K E) Q w) :
    Exec.Ends E (exec n p) Q w :=
  Prog.wp_sound (stepFull_ends hK) h

end

/-- Closes keep to two relations. -/
theorem Closing.RightAbout.and
    (h : (Closing.within C).RightAbout E close) (h' : (Closing.within C').RightAbout E close) :
    (Closing.within fun i w w' => C i w w' ∧ C' i w w').RightAbout E close := by
  intro i l f inf P w hP
  exact Exec.Ends.mono (fun _ w' hw' => hP w' hw')
    ((h i l f inf (C i w) w fun _ hc => hc).and (h' i l f inf (C' i w) w fun _ hc => hc))

/-- Nothing is claimed about a close that does not happen. -/
theorem Closing.never_rightAbout (close : Closer) : Closing.never.RightAbout E close :=
  fun _ _ _ _ _ _ h => h.elim

/-- A description of closing is right if the body of `Conn_Close` meets it. -/
theorem closer_sound (hfuel : E .outOfFuel)
    (hbody : ∀ i l f inf w,
      (connClose i l f inf).wp (shutWp (.within C) E) (fun _ w' => C i w w') w) :
    ∀ n, (Closing.within C).RightAbout E (closer n) := by
  intro n
  induction n with
  | zero =>
    intro i l f inf P w _
    exact hfuel
  | succ n ih =>
    intro i l f inf P w hP
    exact Exec.Ends.mono (fun _ w' hc => hP w' hc)
      (Prog.wp_sound (stepShut_ends ih) (hbody i l f inf w))

/-- Closes are known to keep to one relation; they keep to another if the body of
`Conn_Close` does. -/
theorem closer_adding {R : ConnId → World → World → Prop}
    (hR : ∀ n, (Closing.within R).RightAbout anyFault (closer n))
    (hbody : ∀ i l f inf w, (connClose i l f inf).wp
      (shutWp (.within fun i w w' => R i w w' ∧ C i w w') anyFault) (fun _ => C i w) w) (n : Nat) :
    (Closing.within fun i w w' => R i w w' ∧ C i w w').RightAbout anyFault (closer n) := by
  induction n with
  | zero =>
    intro i l f inf P w _
    trivial
  | succ n ih =>
    refine (hR (n + 1)).and fun i l f inf P w hP => ?_
    exact Exec.Ends.mono (fun _ w' hc => hP w' hc)
      (Prog.wp_sound (stepShut_ends ih) (hbody i l f inf w))

end Sound

/-! ## Frames

A relation that every single effect keeps to is kept by every program. -/

section Frames

variable {Q : α → World → Prop}

/-- The effects of message operations keep to `R`, when closes keep to `C`. -/
structure MsgFrame (C : ConnId → World → World → Prop) (R : World → World → Prop) : Prop where
  refl : ∀ w, R w w
  trans : ∀ w₁ w₂ w₃, R w₁ w₂ → R w₂ w₃ → R w₁ w₃
  queue : ∀ w i line, (w.conns i).sock ≠ none → w.env.outcome w.env.writes = .taken →
    R w (w.tickWrite.queue i line)
  fail : ∀ w w' i, (w.conns i).sock ≠ none → w.env.outcome w.env.writes ≠ .taken →
    C i w.tickWrite w' → R w w'
  editConn : ∀ w i (e : ConnEdit), R w (w.setConn i (e.edit (w.conns i)))
  cloak : ∀ w r host c, w.heap r = some c → R w (w.setHeap r (some { c with cloaked := some host }))

/-- The effects of leave operations that are not on clients or connections keep to `R`. -/
structure LeaveAside (R : World → World → Prop) : Prop where
  removeMember : ∀ w ch cl, R w (w.setMembers (w.chans.cl2chan.eraseP (·.isFor ch cl)))
  dropChannel : ∀ w ch, R w (w.dropChannel ch)
  misc : ∀ w m, R w { w with misc := m }
  servers : ∀ w l, R w { w with conf := { w.conf with servers := l } }

/-- The effects of leave operations keep to `R`, when closes keep to `C`. -/
structure LeaveFrame (C : ConnId → World → World → Prop) (R : World → World → Prop) : Prop
    extends MsgFrame C R, LeaveAside R

/-- The effects of basic operations that are not on clients or connections keep to `R`. -/
structure BasicAside (R : World → World → Prop) : Prop extends LeaveAside R where
  setChannel : ∀ w ch c c', w.chans.heap ch = some c → R w (w.setChannel ch (some c'))
  addChannel : ∀ w c, R w (w.addChannel c)
  addMember : ∀ w ch cl, R w (w.setMembers ({ client := cl, channel := ch } :: w.chans.cl2chan))
  setMemberModes : ∀ w ch cl (f : Str → Str), R w (w.setMembers (w.chans.cl2chan.map fun e =>
    if e.isFor ch cl then { e with modes := f e.modes } else e))
  rand : ∀ w n, R w { w with env := { w.env with rands := n } }

/-- The effects of basic operations keep to `R`, when closes keep to `C`. -/
structure BasicFrame (C : ConnId → World → World → Prop) (R : World → World → Prop) : Prop
    extends LeaveFrame C R, BasicAside R where
  editClient : ∀ w r (e : ClientEdit) c, w.heap r = some c → R w (w.setHeap r (some (e.edit c)))

/-- Such effects change these parts of the world only. -/
theorem BasicAside.of_rest (h : ∀ (w : World) chans misc servers rands, R w { w with
    chans, misc, conf := { w.conf with servers }, env := { w.env with rands } }) : BasicAside R where
  removeMember w _ _ := h w _ _ _ _
  dropChannel w _ := h w _ _ _ _
  misc w m := h w _ m _ _
  servers w l := h w _ _ l _
  setChannel w _ _ _ _ := h w _ _ _ _
  addChannel w _ := h w _ _ _ _
  addMember w _ _ := h w _ _ _ _
  setMemberModes w _ _ _ := h w _ _ _ _
  rand w n := h w _ _ _ n

/-- The effects of shut operations keep to `R`, when closes keep to `C`. -/
structure ShutFrame (C : ConnId → World → World → Prop) (R : World → World → Prop) : Prop
    extends LeaveFrame C R where
  unlink : ∀ w r, R w { w with order := w.order.erase r }
  free : ∀ w r, R w (w.setHeap r none)
  startClosing : ∀ w i, R w (w.setConn i { w.conns i with isClosing := true })
  closeSocket : ∀ w i, R w (w.setConn i { w.conns i with sock := none })
  initConn : ∀ w i now, R w (w.setConn i (newConn now))

/-- The effects of plain operations keep to `R`, when closes keep to `C`. -/
structure PlainFrame (C : ConnId → World → World → Prop) (R : World → World → Prop) : Prop
    extends BasicFrame C R, ShutFrame C R where
  close : ∀ w w' i, C i w w' → R w w'
  newRemote : ∀ w (c : Client), c.connId = none → R w (w.addClient c)

/-- The effects of full operations keep to `R`, when closes keep to `C`. -/
structure FullFrame (C : ConnId → World → World → Prop) (R : World → World → Prop) : Prop
    extends PlainFrame C R where
  setType : ∀ w r c t, w.heap r = some c → R w (w.setHeap r (some { c with type := t }))
  setId : ∀ w r c id, w.heap r = some c → R w (w.setHeap r (some { c with id }))
  setCaps : ∀ w r c caps, w.heap r = some c →
    R w (w.setHeap r (some { c with capabilities := caps }))
  ownIntroducer : ∀ w r c, w.heap r = some c → R w (w.setHeap r (some { c with introducer := r }))
  setPwd : ∀ w i pwd, R w (w.setConn i { w.conns i with pwd })
  setAuthPing : ∀ w i token, R w (w.setConn i { w.conns i with authPing := token })

theorem MsgFrame.within (h : MsgFrame C R) (hE : ∀ f, E (.data f)) :
    Prog.Within R (msgWp (.within C) E) := by
  intro op Q w hQ
  cases op with
  | get => exact hQ w w (h.refl w)
  | fault f => exact hE f
  | write i line =>
    simp only [msgWp]
    split_ifs with hsock htaken
    · exact hQ _ _ (h.refl w)
    · exact hQ _ _ (h.queue w i line (by simpa using hsock) htaken)
    · exact fun w' hc => hQ _ _ (h.fail w w' i (by simpa using hsock) htaken hc)
  | editConn i e => exact hQ _ _ (h.editConn w i e)
  | cloak r host => exact ⟨fun c hc => hQ _ _ (h.cloak w r host c hc), fun _ => hE _⟩

theorem LeaveFrame.within (h : LeaveFrame C R) (hE : ∀ f, E (.data f)) :
    Prog.Within R (leaveWp (.within C) E) := by
  intro op Q w hQ
  cases op with
  | msg m => exact h.toMsgFrame.within hE m Q w hQ
  | removeMember ch cl => exact hQ _ _ (h.removeMember w ch cl)
  | deleteChannel ch => exact hQ _ _ (h.dropChannel w ch)
  | editMisc f => exact hQ _ _ (h.misc w _)
  | editServers f => exact hQ _ _ (h.servers w _)

theorem BasicFrame.within (h : BasicFrame C R) (hE : ∀ f, E (.data f)) :
    Prog.Within R (basicWp (.within C) E) := by
  intro op Q w hQ
  cases op with
  | leave l => exact h.toLeaveFrame.within hE l Q w hQ
  | editClient r e => exact ⟨fun c hc => hQ _ _ (h.editClient w r e c hc), fun _ => hE _⟩
  | editChannel ch f =>
    exact ⟨fun c hc => hQ _ _ (h.setChannel w ch c (f c) hc), fun _ => hE _⟩
  | newChannel c => exact hQ _ _ (h.addChannel w c)
  | addMember ch cl => exact hQ _ _ (h.addMember w ch cl)
  | setMemberModes ch cl f => exact hQ _ _ (h.setMemberModes w ch cl f)
  | rand => exact hQ _ _ (h.rand w _)

theorem ShutFrame.within (h : ShutFrame C R) (hE : ∀ f, E (.data f)) :
    Prog.Within R (shutWp (.within C) E) := by
  intro op Q w hQ
  cases op with
  | leave l => exact h.toLeaveFrame.within hE l Q w hQ
  | unlink r => exact hQ _ _ (h.unlink w r)
  | free r => exact hQ _ _ (h.free w r)
  | startClosing i => exact hQ _ _ (h.startClosing w i)
  | closeSocket i => exact hQ _ _ (h.closeSocket w i)
  | initConn i now => exact hQ _ _ (h.initConn w i now)

theorem PlainFrame.within (h : PlainFrame C R) (hE : ∀ f, E f) :
    Prog.Within R (plainWp (.within C) E) := by
  intro op Q w hQ
  cases op with
  | basic b => exact h.toBasicFrame.within (fun f => hE (.data f)) b Q w hQ
  | shut s => exact h.toShutFrame.within (fun f => hE (.data f)) s Q w hQ
  | close i l f inf => exact fun w' hc => hQ _ _ (h.close w w' i hc)
  | absentParameter k => exact hE _
  | absentSender => exact hE _
  | newRemote c => exact hQ _ _ (h.newRemote w _ rfl)

theorem FullFrame.within (h : FullFrame C R) (hE : ∀ f, E f) :
    Prog.Within R (fullWp (.within C) E) := by
  intro op Q w hQ
  cases op with
  | plain p => exact h.toPlainFrame.within hE p Q w hQ
  | setType r t => exact ⟨fun c hc => hQ _ _ (h.setType w r c t hc), fun _ => hE _⟩
  | setId r id => exact ⟨fun c hc => hQ _ _ (h.setId w r c id hc), fun _ => hE _⟩
  | setCaps r f => exact ⟨fun c hc => hQ _ _ (h.setCaps w r c _ hc), fun _ => hE _⟩
  | ownIntroducer r => exact ⟨fun c hc => hQ _ _ (h.ownIntroducer w r c hc), fun _ => hE _⟩
  | setPwd i pwd => exact hQ _ _ (h.setPwd w i pwd)
  | setAuthPing i token => exact hQ _ _ (h.setAuthPing w i token)

/-- A frame for a relation is one for every wider preorder. -/
theorem LeaveFrame.weaken (h : LeaveFrame C R)
    (himp : ∀ w w', R w w' → R' w w') (hrefl : ∀ w, R' w w)
    (htrans : ∀ w₁ w₂ w₃, R' w₁ w₂ → R' w₂ w₃ → R' w₁ w₃) : LeaveFrame C R' where
  refl := hrefl
  trans := htrans
  queue w i line hsock htaken := himp _ _ (h.queue w i line hsock htaken)
  fail w w' i hsock htaken hc := himp _ _ (h.fail w w' i hsock htaken hc)
  editConn w i e := himp _ _ (h.editConn w i e)
  cloak w r host c hc := himp _ _ (h.cloak w r host c hc)
  removeMember w ch cl := himp _ _ (h.removeMember w ch cl)
  dropChannel w ch := himp _ _ (h.dropChannel w ch)
  misc w m := himp _ _ (h.misc w m)
  servers w l := himp _ _ (h.servers w l)

@[inherit_doc LeaveFrame.weaken]
theorem BasicFrame.weaken (h : BasicFrame C R)
    (himp : ∀ w w', R w w' → R' w w') (hrefl : ∀ w, R' w w)
    (htrans : ∀ w₁ w₂ w₃, R' w₁ w₂ → R' w₂ w₃ → R' w₁ w₃) : BasicFrame C R' where
  __ := h.toLeaveFrame.weaken himp hrefl htrans
  editClient w r e c hc := himp _ _ (h.editClient w r e c hc)
  setChannel w ch c c' hc := himp _ _ (h.setChannel w ch c c' hc)
  addChannel w c := himp _ _ (h.addChannel w c)
  addMember w ch cl := himp _ _ (h.addMember w ch cl)
  setMemberModes w ch cl f := himp _ _ (h.setMemberModes w ch cl f)
  rand w n := himp _ _ (h.rand w n)

@[inherit_doc LeaveFrame.weaken]
theorem PlainFrame.weaken (h : PlainFrame C R)
    (himp : ∀ w w', R w w' → R' w w') (hrefl : ∀ w, R' w w)
    (htrans : ∀ w₁ w₂ w₃, R' w₁ w₂ → R' w₂ w₃ → R' w₁ w₃) : PlainFrame C R' where
  __ := h.toBasicFrame.weaken himp hrefl htrans
  unlink w r := himp _ _ (h.unlink w r)
  free w r := himp _ _ (h.free w r)
  startClosing w i := himp _ _ (h.startClosing w i)
  closeSocket w i := himp _ _ (h.closeSocket w i)
  initConn w i now := himp _ _ (h.initConn w i now)
  close w w' i hc := himp _ _ (h.close w w' i hc)
  newRemote w c hc := himp _ _ (h.newRemote w c hc)

/-- Two relations are kept to together. -/
theorem MsgFrame.and
    (h : MsgFrame C R) (h' : MsgFrame C' R') :
    MsgFrame (fun i w w' => C i w w' ∧ C' i w w') fun w w' => R w w' ∧ R' w w' where
  refl w := ⟨h.refl w, h'.refl w⟩
  trans w₁ w₂ w₃ h₁ h₂ := ⟨h.trans w₁ w₂ w₃ h₁.1 h₂.1, h'.trans w₁ w₂ w₃ h₁.2 h₂.2⟩
  queue w i line hs ht := ⟨h.queue w i line hs ht, h'.queue w i line hs ht⟩
  fail w w' i hs ht hk := ⟨h.fail w w' i hs ht hk.1, h'.fail w w' i hs ht hk.2⟩
  editConn w i e := ⟨h.editConn w i e, h'.editConn w i e⟩
  cloak w r host c hc := ⟨h.cloak w r host c hc, h'.cloak w r host c hc⟩

@[inherit_doc MsgFrame.and]
theorem LeaveFrame.and
    (h : LeaveFrame C R) (h' : LeaveFrame C' R') :
    LeaveFrame (fun i w w' => C i w w' ∧ C' i w w') fun w w' => R w w' ∧ R' w w' where
  __ := h.toMsgFrame.and h'.toMsgFrame
  removeMember w ch cl := ⟨h.removeMember w ch cl, h'.removeMember w ch cl⟩
  dropChannel w ch := ⟨h.dropChannel w ch, h'.dropChannel w ch⟩
  misc w m := ⟨h.misc w m, h'.misc w m⟩
  servers w l := ⟨h.servers w l, h'.servers w l⟩

/-- The frame rule for message programs. -/
theorem MsgFrame.wp (h : MsgFrame C R) (hE : ∀ f, E (.data f)) (p : Msg α)
    (hQ : ∀ a w', R w w' → Q a w') : p.wp (msgWp (.within C) E) Q w :=
  Prog.wp_of_within h.refl h.trans (h.within hE) p hQ

/-- The frame rule for leave programs. -/
theorem LeaveFrame.wp (h : LeaveFrame C R) (hE : ∀ f, E (.data f)) (p : Leave α)
    (hQ : ∀ a w', R w w' → Q a w') : p.wp (leaveWp (.within C) E) Q w :=
  Prog.wp_of_within h.refl h.trans (h.within hE) p hQ

/-- The frame rule for basic programs. -/
theorem BasicFrame.wp (h : BasicFrame C R) (hE : ∀ f, E (.data f)) (p : Basic α)
    (hQ : ∀ a w', R w w' → Q a w') : p.wp (basicWp (.within C) E) Q w :=
  Prog.wp_of_within h.refl h.trans (h.within hE) p hQ

/-- The frame rule for shut programs. -/
theorem ShutFrame.wp (h : ShutFrame C R) (hE : ∀ f, E (.data f)) (p : Shut α)
    (hQ : ∀ a w', R w w' → Q a w') : p.wp (shutWp (.within C) E) Q w :=
  Prog.wp_of_within h.refl h.trans (h.within hE) p hQ

/-- The frame rule for plain programs. -/
theorem PlainFrame.wp (h : PlainFrame C R) (hE : ∀ f, E f) (p : Plain α)
    (hQ : ∀ a w', R w w' → Q a w') : p.wp (plainWp (.within C) E) Q w :=
  Prog.wp_of_within h.refl h.trans (h.within hE) p hQ

/-- The frame rule for full programs. -/
theorem FullFrame.wp (h : FullFrame C R) (hE : ∀ f, E f) (p : Full α)
    (hQ : ∀ a w', R w w' → Q a w') : p.wp (fullWp (.within C) E) Q w :=
  Prog.wp_of_within h.refl h.trans (h.within hE) p hQ

/-- What the effects of shut operations keep to, closing a connection keeps to. -/
theorem ShutFrame.rightAbout (h : ShutFrame (fun _ => R) R) (hfuel : E .outOfFuel)
    (hE : ∀ f, E (.data f)) : ∀ n, (Closing.within fun _ => R).RightAbout E (closer n) :=
  closer_sound hfuel fun i l f inf _ => h.wp hE (connClose i l f inf) fun _ _ hR => hR

section

variable {a : α}

/-- What the effects of message operations keep to, when closes keep to `C`, every
run that ends keeps to. -/
theorem MsgFrame.exec_ok (hC : (Closing.within C).RightAbout anyFault (closer n))
    (h : MsgFrame C R) {p : Msg α} (hrun : execMsg n p w = .ok (a, w')) : R w w' :=
  (execMsg_ends hC (h.wp (fun _ => trivial) p fun _ _ hR => hR)).of_ok hrun

/-- What the effects of full operations keep to, when closes keep to `C`, every
run that ends keeps to. -/
theorem FullFrame.exec_ok_of_closing (hC : (Closing.within C).RightAbout anyFault (closer n))
    (h : FullFrame C R) {p : Full α} (hrun : exec n p w = .ok (a, w')) : R w w' :=
  (exec_ends hC (h.wp (fun _ => trivial) p fun _ _ hR => hR)).of_ok hrun

/-- What the effects of full operations keep to, every run that ends keeps to. -/
theorem FullFrame.exec_ok (h : FullFrame (fun _ => R) R) {p : Full α}
    (hrun : exec n p w = .ok (a, w')) : R w w' :=
  h.exec_ok_of_closing (h.toShutFrame.rightAbout trivial (fun _ => trivial) n) hrun

end

/-- What holds between a connection before and after any effect on it. -/
structure SlotOrder (P : Conn → Conn → Prop) : Prop where
  refl : ∀ c, P c c
  trans : ∀ c₁ c₂ c₃, P c₁ c₂ → P c₂ c₃ → P c₁ c₃
  bytesOut : ∀ c n, P c { c with bytesOut := n }
  edit : ∀ c (e : ConnEdit), P c (e.edit c)
  startClosing : ∀ c, P c { c with isClosing := true }
  closeSocket : ∀ c, P c { c with sock := none }
  initConn : ∀ c now, P c (newConn now)
  pwd : ∀ c pwd, P c { c with pwd }
  authPing : ∀ c token, P c { c with authPing := token }

/-- A relation on connections, on all slots of the pool. -/
def EachSlot (P : Conn → Conn → Prop) (w w' : World) : Prop := ∀ i, P (w.conns i) (w'.conns i)

section

variable {P : Conn → Conn → Prop}

theorem SlotOrder.of_conns_eq (h : SlotOrder P) (hconns : w'.conns = w.conns) :
    EachSlot P w w' := by
  intro i
  rw [hconns]
  exact h.refl _

theorem SlotOrder.setConn (h : SlotOrder P) {c : Conn}
    (hc : P (w.conns i) c) : EachSlot P w (w.setConn i c) := by
  intro j
  by_cases hj : j = i
  · subst hj
    simpa using hc
  · rw [World.setConn_conns_ne w hj]
    exact h.refl _

/-- What holds across every effect on a connection holds across every program. -/
theorem SlotOrder.frame (h : SlotOrder P) :
    FullFrame (fun _ => EachSlot P) (EachSlot P) where
  refl _ := h.of_conns_eq rfl
  trans _ _ _ h₁ h₂ i := h.trans _ _ _ (h₁ i) (h₂ i)
  queue _ _ _ _ _ := h.setConn (h.bytesOut _ _)
  fail _ _ _ _ _ h := h
  editConn _ _ e := h.setConn (h.edit _ e)
  cloak _ _ _ _ _ := h.of_conns_eq rfl
  __ := BasicAside.of_rest fun _ _ _ _ _ => h.of_conns_eq rfl
  editClient _ _ _ _ _ := h.of_conns_eq rfl
  unlink _ _ := h.of_conns_eq rfl
  free _ _ := h.of_conns_eq rfl
  startClosing _ _ := h.setConn (h.startClosing _)
  closeSocket _ _ := h.setConn (h.closeSocket _)
  initConn _ _ _ := h.setConn (h.initConn _ _)
  close _ _ _ h := h
  newRemote _ _ _ := h.of_conns_eq rfl
  setType _ _ _ _ _ := h.of_conns_eq rfl
  setId _ _ _ _ _ := h.of_conns_eq rfl
  setCaps _ _ _ _ _ := h.of_conns_eq rfl
  ownIntroducer _ _ _ _ := h.of_conns_eq rfl
  setPwd _ _ _ := h.setConn (h.pwd _ _)
  setAuthPing _ _ _ := h.setConn (h.authPing _ _)

end

/-- What holds between a client structure before and after any effect of a plain
program on it. -/
structure CellOrder (P : ClientRef → Client → Client → Prop) : Prop where
  refl : ∀ r c, P r c c
  trans : ∀ r c₁ c₂ c₃, P r c₁ c₂ → P r c₂ c₃ → P r c₁ c₃
  cloak : ∀ r c host, P r c { c with cloaked := some host }
  edit : ∀ r c (e : ClientEdit), P r c (e.edit c)

/-- The same for full programs. -/
structure FullCellOrder (P : ClientRef → Client → Client → Prop) : Prop
    extends CellOrder P where
  type : ∀ r c t, P r c { c with type := t }
  id : ∀ r c id, P r c { c with id }
  caps : ∀ r c caps, P r c { c with capabilities := caps }
  ownIntroducer : ∀ r c, P r c { c with introducer := r }

/-- A relation on client structures, on all that there were already. -/
structure EachCell (P : ClientRef → Client → Client → Prop) (w w' : World) : Prop where
  thisServer : w'.thisServer = w.thisServer
  nextRef : w.nextRef ≤ w'.nextRef
  cell : ∀ r c', r < w.nextRef → w'.heap r = some c' → ∃ c, w.heap r = some c ∧ P r c c'

section

variable {P : ClientRef → Client → Client → Prop}

section

variable (h : CellOrder P)
include h

theorem CellOrder.of_heap_eq (hthis : w'.thisServer = w.thisServer) (hnext : w'.nextRef = w.nextRef)
    (hheap : w'.heap = w.heap) : EachCell P w w' where
  thisServer := hthis
  nextRef := Nat.le_of_eq hnext.symm
  cell r c' _ hc' := ⟨c', hheap ▸ hc', h.refl r c'⟩

theorem CellOrder.setHeap {c' : Client} (hc : w.heap r = some c) (hP : P r c c') :
    EachCell P w (w.setHeap r (some c')) where
  thisServer := rfl
  nextRef := Nat.le_refl _
  cell s d hs hd := by
    rcases World.setHeap_heap_cases hd with ⟨rfl, rfl⟩ | ⟨-, hd⟩
    · exact ⟨c, hc, hP⟩
    · exact ⟨d, hd, h.refl s d⟩

theorem CellOrder.free (r : ClientRef) : EachCell P w (w.setHeap r none) where
  thisServer := rfl
  nextRef := Nat.le_refl _
  cell s d _ hd := ⟨d, World.heap_of_free hd, h.refl s d⟩

theorem CellOrder.addClient (c : Client) : EachCell P w (w.addClient c) where
  thisServer := rfl
  nextRef := Nat.le_succ _
  cell s d hs hd := by
    have hne : s ≠ w.nextRef := Nat.ne_of_lt hs
    simp only [World.addClient, World.setHeap_heap_ne w hne] at hd
    exact ⟨d, hd, h.refl s d⟩

theorem CellOrder.each_trans {w₁ w₂ w₃ : World} (h₁ : EachCell P w₁ w₂) (h₂ : EachCell P w₂ w₃) :
    EachCell P w₁ w₃ where
  thisServer := h₂.thisServer.trans h₁.thisServer
  nextRef := Nat.le_trans h₁.nextRef h₂.nextRef
  cell r c₃ hr hc₃ := by
    obtain ⟨c₂, hc₂, hP₂⟩ := h₂.cell r c₃ (Nat.lt_of_lt_of_le hr h₁.nextRef) hc₃
    obtain ⟨c₁, hc₁, hP₁⟩ := h₁.cell r c₂ hr hc₂
    exact ⟨c₁, hc₁, h.trans r c₁ c₂ c₃ hP₁ hP₂⟩

theorem CellOrder.tickWrite (w : World) : EachCell P w w.tickWrite :=
  h.of_heap_eq rfl rfl rfl

/-- What holds across every effect on a client structure holds across every
plain program. -/
theorem CellOrder.plainFrame :
    PlainFrame (fun _ => EachCell P) (EachCell P) where
  refl _ := h.of_heap_eq rfl rfl rfl
  trans _ _ _ := h.each_trans
  queue _ _ _ _ _ := h.of_heap_eq rfl rfl rfl
  fail w _ _ _ _ h' := h.each_trans (h.tickWrite w) h'
  editConn _ _ _ := h.of_heap_eq rfl rfl rfl
  cloak _ _ _ _ hc := h.setHeap hc (h.cloak _ _ _)
  __ := BasicAside.of_rest fun _ _ _ _ _ => h.of_heap_eq rfl rfl rfl
  editClient _ _ _ _ hc := h.setHeap hc (h.edit _ _ _)
  unlink _ _ := h.of_heap_eq rfl rfl rfl
  free _ r := h.free r
  startClosing _ _ := h.of_heap_eq rfl rfl rfl
  closeSocket _ _ := h.of_heap_eq rfl rfl rfl
  initConn _ _ _ := h.of_heap_eq rfl rfl rfl
  close _ _ _ h' := h'
  newRemote _ c _ := h.addClient c

end

@[inherit_doc CellOrder.plainFrame]
theorem FullCellOrder.frame (h : FullCellOrder P) : FullFrame (fun _ => EachCell P) (EachCell P) :=
  { h.toCellOrder.plainFrame with
    setType := fun _ _ _ _ hc => h.setHeap hc (h.type _ _ _)
    setId := fun _ _ _ _ hc => h.setHeap hc (h.id _ _ _)
    setCaps := fun _ _ _ _ hc => h.setHeap hc (h.caps _ _ _)
    ownIntroducer := fun _ _ _ hc => h.setHeap hc (h.ownIntroducer _ _)
    setPwd := fun _ _ _ => h.of_heap_eq rfl rfl rfl
    setAuthPing := fun _ _ _ => h.of_heap_eq rfl rfl rfl }

end

end Frames

/-! ## Programs that only read

These lemmas execute the reading parts of a program; the state stays as it is. -/

section Reads

variable {K : Closing}

@[simp] theorem onClient_anyFault {P : Client → Prop} :
    OnClient anyFault w r P ↔ ∀ c, w.heap r = some c → P c := by
  simp [OnClient]

@[simp] theorem onChannel_anyFault :
    OnChannel anyFault w ch P ↔ ∀ c, w.chans.heap ch = some c → P c := by
  simp [OnChannel]

theorem onClient_of_some {P : Client → Prop}
    (hc : w.heap r = some c) : OnClient E w r P ↔ P c := by
  simp [OnClient, hc]

theorem onChannel_of_some {c : Channel}
    (hc : w.chans.heap ch = some c) : OnChannel E w ch P ↔ P c := by
  simp [OnChannel, hc]

@[simp] theorem wp_ofMsg (p : Msg α) {Q : α → World → Prop} :
    (Leave.ofMsg p).wp (leaveWp K E) Q w ↔ p.wp (msgWp K E) Q w :=
  Prog.wp_run _ p

@[simp] theorem wp_ofLeave (p : Leave α) {Q : α → World → Prop} :
    (Basic.ofLeave p).wp (basicWp K E) Q w ↔ p.wp (leaveWp K E) Q w :=
  Prog.wp_run _ p

@[simp] theorem wp_shut_ofLeave (p : Leave α) {Q : α → World → Prop} :
    (Shut.ofLeave p).wp (shutWp K E) Q w ↔ p.wp (leaveWp K E) Q w :=
  Prog.wp_run _ p

@[simp] theorem wp_ofBasic (p : Basic α) {Q : α → World → Prop} :
    (Plain.ofBasic p).wp (plainWp K E) Q w ↔ p.wp (basicWp K E) Q w :=
  Prog.wp_run _ p

@[simp] theorem wp_ofShut (p : Shut α) {Q : α → World → Prop} :
    (Plain.ofShut p).wp (plainWp K E) Q w ↔ p.wp (shutWp K E) Q w :=
  Prog.wp_run _ p

@[simp] theorem wp_ofPlain (p : Plain α) {Q : α → World → Prop} :
    (Full.ofPlain p).wp (fullWp K E) Q w ↔ p.wp (plainWp K E) Q w :=
  Prog.wp_run _ p

@[simp] theorem liftM_msg_leave (p : Msg α) : (liftM p : Leave α) = Leave.ofMsg p := rfl

@[simp] theorem liftM_leave_basic (p : Leave α) : (liftM p : Basic α) = Basic.ofLeave p := rfl

@[simp] theorem liftM_msg_basic (p : Msg α) :
    (liftM p : Basic α) = Basic.ofLeave (Leave.ofMsg p) := rfl

@[simp] theorem liftM_leave_shut (p : Leave α) : (liftM p : Shut α) = Shut.ofLeave p := rfl

@[simp] theorem liftM_msg_shut (p : Msg α) :
    (liftM p : Shut α) = Shut.ofLeave (Leave.ofMsg p) := rfl

@[simp] theorem liftM_basic_plain (p : Basic α) : (liftM p : Plain α) = Plain.ofBasic p := rfl

@[simp] theorem liftM_shut_plain (p : Shut α) : (liftM p : Plain α) = Plain.ofShut p := rfl

@[simp] theorem liftM_msg_plain (p : Msg α) :
    (liftM p : Plain α) = Plain.ofBasic (Basic.ofLeave (Leave.ofMsg p)) := rfl

@[simp] theorem liftM_plain_full (p : Plain α) : (liftM p : Full α) = Full.ofPlain p := rfl

@[simp] theorem liftM_basic_full (p : Basic α) :
    (liftM p : Full α) = Full.ofPlain (Plain.ofBasic p) := rfl

@[simp] theorem liftM_msg_full (p : Msg α) :
    (liftM p : Full α) = Full.ofPlain (Plain.ofBasic (Basic.ofLeave (Leave.ofMsg p))) := rfl

/-- The rules that take a program apart and judge the messages in it. -/
theorem wp_msg :
    (∀ {Op : Type} {Res : Op → Type} {σ α β : Type} {t : Transformer Res σ} {s : σ}
      (p : Prog Res α) (f : α → Prog Res β) (Q : β → σ → Prop),
      (p >>= f).wp t Q s ↔ p.wp t (fun a => (f a).wp t Q) s) ∧
    (∀ {α : Type} (p : Msg α), (liftM p : Leave α) = Leave.ofMsg p ∧
      (liftM p : Basic α) = Basic.ofLeave (Leave.ofMsg p) ∧
      (liftM p : Plain α) = Plain.ofBasic (Basic.ofLeave (Leave.ofMsg p)) ∧
      (liftM p : Full α) = Full.ofPlain (Plain.ofBasic (Basic.ofLeave (Leave.ofMsg p)))) ∧
    (∀ {α : Type} {K : Closing} {E : Fault → Prop} {w : World} {Q : α → World → Prop},
      (∀ p : Msg α, (Leave.ofMsg p).wp (leaveWp K E) Q w ↔ p.wp (msgWp K E) Q w) ∧
      (∀ p : Leave α, (Basic.ofLeave p).wp (basicWp K E) Q w ↔ p.wp (leaveWp K E) Q w) ∧
      (∀ p : Basic α, (Plain.ofBasic p).wp (plainWp K E) Q w ↔ p.wp (basicWp K E) Q w) ∧
      ∀ p : Plain α, (Full.ofPlain p).wp (fullWp K E) Q w ↔ p.wp (plainWp K E) Q w) :=
  ⟨wp_bind, fun _ => ⟨rfl, rfl, rfl, rfl⟩, fun p => wp_ofMsg p, fun p => wp_ofLeave p,
    fun p => wp_ofBasic p, fun p => wp_ofPlain p⟩

/-- Plain programs become full ones part by part. -/
theorem Full.ofPlain_bind (p : Plain α) (f : α → Plain β) :
    Full.ofPlain (p >>= f) = Full.ofPlain p >>= fun a => Full.ofPlain (f a) :=
  Prog.run_bind _ p f

@[simp] theorem exec_ofPlain (n : Nat) (p : Plain α) : exec n (Full.ofPlain p) = execPlain n p := by
  have hstep : (fun op : PlainOp => (Prog.perform (FullOp.plain op) : Full _).run
      (stepFull (closer n))) = stepPlain (closer n) :=
    funext fun op => Prog.run_perform (stepFull (closer n)) (FullOp.plain op)
  exact (Prog.run_run (stepFull (closer n)) _ p).trans (congrArg (fun step => p.run step) hstep)

@[simp] theorem execPlain_ofBasic (n : Nat) (p : Basic α) :
    execPlain n (Plain.ofBasic p) = execBasic n p := by
  have hstep : (fun op : BasicOp => (Prog.perform (PlainOp.basic op) : Plain _).run
      (stepPlain (closer n))) = stepBasic (closer n) :=
    funext fun op => Prog.run_perform (stepPlain (closer n)) (PlainOp.basic op)
  exact (Prog.run_run (stepPlain (closer n)) _ p).trans (congrArg (fun step => p.run step) hstep)

@[simp] theorem execBasic_ofMsg (n : Nat) (p : Msg α) :
    execBasic n (Basic.ofLeave (Leave.ofMsg p)) = execMsg n p := by
  have hleave (op : LeaveOp) : (Prog.perform (BasicOp.leave op) : Basic _).run
      (stepBasic (closer n)) = stepLeave (closer n) op :=
    Prog.run_perform (stepBasic (closer n)) (BasicOp.leave op)
  have hmsg (op : MsgOp) : (Prog.perform (LeaveOp.msg op) : Leave _).run
      (stepLeave (closer n)) = stepMsg (closer n) op :=
    Prog.run_perform (stepLeave (closer n)) (LeaveOp.msg op)
  have houter := Prog.run_run (stepBasic (closer n))
    (fun op => (Prog.perform (BasicOp.leave op) : Basic _)) (Leave.ofMsg p)
  have hinner := Prog.run_run (stepLeave (closer n))
    (fun op => (Prog.perform (LeaveOp.msg op) : Leave _)) p
  simp only [hleave] at houter
  simp only [hmsg] at hinner
  exact houter.trans hinner

/-- A program that only reads can be executed first. -/
theorem execPlain_bind_read {p : Plain α} {v : α} (f : α → Plain β) (n : Nat)
    (hp : p.wp (plainWp .never noFault) (fun a w' => a = v ∧ w' = w) w) :
    execPlain n (p >>= f) w = execPlain n (f v) w := by
  obtain ⟨a, w', hrun, rfl, rfl⟩ :=
    (execPlain_ends (n := n) (Closing.never_rightAbout _) hp).exists_ok
  simp only [execPlain] at hrun ⊢
  rw [Prog.run_bind, Exec.bind_apply, hrun]

@[inherit_doc execPlain_bind_read]
theorem exec_bind_read {p : Full α} {v : α} (f : α → Full β) (n : Nat)
    (hp : p.wp (fullWp .never noFault) (fun a w' => a = v ∧ w' = w) w) :
    exec n (p >>= f) w = exec n (f v) w := by
  obtain ⟨a, w', hrun, rfl, rfl⟩ :=
    (exec_ends (n := n) (Closing.never_rightAbout _) hp).exists_ok
  simp only [exec] at hrun ⊢
  rw [Prog.run_bind, Exec.bind_apply, hrun]

@[simp] theorem wp_getWorld {Q : World → World → Prop} :
    getWorld.wp (msgWp K E) Q w ↔ Q w w := Iff.rfl

@[simp] theorem wp_dataFault {f : DataFault} {Q : α → World → Prop} :
    (dataFault f : Msg α).wp (msgWp K E) Q w ↔ E (.data f) := Iff.rfl

@[simp] theorem wp_deref {Q : Client → World → Prop} :
    (deref r).wp (msgWp K E) Q w ↔ OnClient E w r fun c => Q c w := by
  simp only [deref, wp_bind, wp_getWorld, OnClient]
  cases w.heap r <;> simp

@[simp] theorem wp_clientType {Q : ClientType → World → Prop} :
    (clientType r).wp (msgWp K E) Q w ↔ OnClient E w r fun c => Q c.type w := by
  simp [clientType]

@[simp] theorem wp_clientHasMode {m : Char} {Q : Bool → World → Prop} :
    (clientHasMode r m).wp (msgWp K E) Q w ↔ OnClient E w r fun c => Q (c.hasMode m) w := by
  simp [clientHasMode]

@[simp] theorem wp_thisServer :
    thisServer.wp (msgWp K E) Q w ↔ Q w.thisServer w := by
  simp [thisServer]

@[simp] theorem wp_clientID {Q : Str → World → Prop} :
    (clientID r).wp (msgWp K E) Q w ↔ OnClient E w r fun c => Q c.nameOrStar w := by
  simp [clientID]

@[simp] theorem wp_connOf {i : Option ConnId} {Q : ConnId → World → Prop} :
    (connOf i).wp (msgWp K E) Q w ↔
      (∀ j, i = some j → Q j w) ∧ (i = none → E (.data .assertion)) := by
  cases i <;> simp [connOf]

@[simp] theorem wp_derefChan {Q : Channel → World → Prop} :
    (derefChan ch).wp (msgWp K E) Q w ↔ OnChannel E w ch fun c => Q c w := by
  simp only [derefChan, wp_bind, wp_getWorld, OnChannel]
  cases w.chans.heap ch <;> simp

@[simp] theorem wp_clientOf :
    (clientOf i).wp (msgWp K E) Q w ↔
      (∀ r, (w.conns i).client = some r → Q r w) ∧
        ((w.conns i).client = none → E (.data .assertion)) := by
  simp only [clientOf, wp_bind, wp_getWorld]
  cases (w.conns i).client <;> simp

theorem wp_clientOf_of_some (h : (w.conns i).client = some r)
    : (clientOf i).wp (msgWp K E) Q w ↔ Q r w := by
  simp [h]

@[simp] theorem wp_nextHop :
    (clientNextHop r).wp (msgWp K E) Q w ↔
      (∀ h, w.nextHop r = .ok h → Q h w) ∧ (∀ f, w.nextHop r = .error f → E (.data f)) := by
  simp only [clientNextHop, wp_bind, wp_getWorld]
  cases w.nextHop r <;> simp [orFault]

theorem wp_nextHop_of_ok {h : ClientRef} (hr : w.nextHop r = .ok h)
    : (clientNextHop r).wp (msgWp K E) Q w ↔ Q h w := by
  simp [hr]

@[simp] theorem wp_connOf_some {Q : ConnId → World → Prop} :
    (connOf (some i)).wp (msgWp K E) Q w ↔ Q i w := Iff.rfl

end Reads

/-! ## Programs of one operation -/

section Operations

variable {K : Closing} {Q : Unit → World → Prop}

@[simp] theorem wp_writeTo {Q : Bool → World → Prop} :
    (writeTo i line).wp (msgWp K E) Q w ↔ msgWp K E (.write i line) Q w := Iff.rfl

@[simp] theorem wp_editConn {e : ConnEdit} :
    (editConn i e).wp (msgWp K E) Q w ↔ Q () (w.setConn i (e.edit (w.conns i))) := Iff.rfl

@[simp] theorem wp_setCloaked :
    (setCloaked r host).wp (msgWp K E) Q w ↔
      OnClient E w r fun c => Q () (w.setHeap r (some { c with cloaked := some host })) := Iff.rfl

@[simp] theorem wp_unlinkCl2Chan :
    (unlinkCl2Chan ch cl).wp (leaveWp K E) Q w ↔
      Q () (w.setMembers (w.chans.cl2chan.eraseP (·.isFor ch cl))) := Iff.rfl

@[simp] theorem wp_freeChannel :
    (freeChannel ch).wp (leaveWp K E) Q w ↔ Q () (w.dropChannel ch) := Iff.rfl

@[simp] theorem wp_editMisc {f : Misc → Misc} :
    (editMisc f).wp (leaveWp K E) Q w ↔ Q () { w with misc := f w.misc } := Iff.rfl

@[simp] theorem wp_editServers {f : List ConfServer → List ConfServer} :
    (editServers f).wp (leaveWp K E) Q w ↔
      Q () { w with conf := { w.conf with servers := f w.conf.servers } } := Iff.rfl

@[simp] theorem wp_editClient {e : ClientEdit} :
    (editClient r e).wp (basicWp K E) Q w ↔
      OnClient E w r fun c => Q () (w.setHeap r (some (e.edit c))) := Iff.rfl

@[simp] theorem wp_editChannel {f : Channel → Channel} :
    (editChannel ch f).wp (basicWp K E) Q w ↔
      OnChannel E w ch fun c => Q () (w.setChannel ch (some (f c))) := Iff.rfl

@[simp] theorem wp_newChannel {c : Channel} {Q : ChanRef → World → Prop} :
    (newChannel c).wp (basicWp K E) Q w ↔ Q w.chans.nextRef (w.addChannel c) := Iff.rfl

@[simp] theorem wp_addClient :
    (addClient ch cl).wp (basicWp K E) Q w ↔
      Q () (w.setMembers ({ client := cl, channel := ch } :: w.chans.cl2chan)) := Iff.rfl

@[simp] theorem wp_setUserModes {f : Str → Str} :
    (setUserModes ch cl f).wp (basicWp K E) Q w ↔ Q () (w.setMembers (w.chans.cl2chan.map fun e =>
      if e.isFor ch cl then { e with modes := f e.modes } else e)) := Iff.rfl

@[simp] theorem wp_drawRand {Q : Int → World → Prop} :
    drawRand.wp (basicWp K E) Q w ↔
      Q (w.env.rand w.env.rands) { w with env := { w.env with rands := w.env.rands + 1 } } :=
  Iff.rfl

@[simp] theorem wp_unlinkClient :
    (unlinkClient r).wp (shutWp K E) Q w ↔ Q () { w with order := w.order.erase r } := Iff.rfl

@[simp] theorem wp_freeClient :
    (freeClient r).wp (shutWp K E) Q w ↔ Q () (w.setHeap r none) := Iff.rfl

@[simp] theorem wp_startClosing :
    (startClosing i).wp (shutWp K E) Q w ↔
      Q () (w.setConn i { w.conns i with isClosing := true }) := Iff.rfl

@[simp] theorem wp_closeSocket :
    (closeSocket i).wp (shutWp K E) Q w ↔
      Q () (w.setConn i { w.conns i with sock := none }) := Iff.rfl

@[simp] theorem wp_initConnStruct :
    (initConnStruct i now).wp (shutWp K E) Q w ↔ Q () (w.setConn i (newConn now)) := Iff.rfl

@[simp] theorem wp_newRemote {Q : ClientRef → World → Prop} :
    (newRemote c).wp (plainWp K E) Q w ↔ Q w.nextRef (w.addClient { c with connId := none }) :=
  Iff.rfl

@[simp] theorem wp_setType {t : ClientType} :
    (setType r t).wp (fullWp K E) Q w ↔
      OnClient E w r fun c => Q () (w.setHeap r (some { c with type := t })) := Iff.rfl

@[simp] theorem wp_setId :
    (setId r id).wp (fullWp K E) Q w ↔
      OnClient E w r fun c => Q () (w.setHeap r (some { c with id })) := Iff.rfl

@[simp] theorem wp_setCaps {f : Caps → Caps} :
    (setCaps r f).wp (fullWp K E) Q w ↔ OnClient E w r fun c =>
      Q () (w.setHeap r (some { c with capabilities := f c.capabilities })) := Iff.rfl

@[simp] theorem wp_connSetAuthPing {token : Int} :
    (connSetAuthPing i token).wp (fullWp K E) Q w ↔
      Q () (w.setConn i { w.conns i with authPing := token }) := Iff.rfl

end Operations

end Ngircd
