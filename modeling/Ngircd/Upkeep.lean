import Ngircd.Dispatch
import Ngircd.MaskLists
import Ngircd.Removal

/-!
# Invariants that basic programs uphold

An invariant is upheld by a program if it is upheld by the few kinds of effects
that the program is made of.  The lemmas here go through the basic programs
once, for every invariant and every description of closing: what they do to
client and channel structures, to the table of memberships and to everything
else is a matter of the fields of `Upkeep`.

Five things can matter to one invariant and not to another, so they are not part
of `Upkeep`: the user mode `a`, arbitrary modes of channels, joining a channel,
creating one, and changing its lists of masks.  An invariant that does not mind them
is `Indifferent`.
-/

namespace Ngircd

open Lib

variable {J F : World → Prop} {C R : World → World → Prop} {K : ConnId → World → World → Prop}
  {c : Prop} {w : World} {p : Reply Unit} {f : Channel → Channel}

section

variable {α β : Type}

/-! ## What upholds an invariant -/

/-- Client structures that are kept stand for the same clients, and no client comes
back to the list. -/
structure Persists (w w' : World) : Prop extends
    EachCell (fun _ c c' => c.Same c' ∧ c'.topserver = c.topserver) w w' where
  gone : ∀ r, r < w.nextRef → r ∉ w.order → r ∉ w'.order

/-- What effects do that uphold the invariant. -/
abbrev Keeps (J : World → Prop) (w w' : World) : Prop := Persists w w' ∧ (J w → J w')

/-- Closing a connection keeps to a relation. -/
abbrev closing (C : World → World → Prop) : Closing := .within fun _ => C

/-- Closing a connection upholds the invariant. -/
abbrev upholding (J : World → Prop) : Closing := closing (Keeps J)

/-- What is asked of a basic program whose closes keep to `C`, and which may fail. -/
abbrev upBasic (C : World → World → Prop) := basicWp (closing C) anyFault

@[inherit_doc upBasic]
abbrev upPlain (C : World → World → Prop) := plainWp (closing C) anyFault

@[inherit_doc upBasic]
abbrev upFull (C : World → World → Prop) := fullWp (closing C) anyFault

/-- A leave program upholds the invariant, if closes keep to `C`. -/
def UpholdsLeave (J : World → Prop) (p : Leave α) (C : World → World → Prop := Keeps J) : Prop :=
  p.Stable (leaveWp (closing C) anyFault) J

/-- A basic program upholds the invariant, if closes keep to `C`. -/
def UpholdsBasic (J : World → Prop) (p : Basic α) (C : World → World → Prop := Keeps J) : Prop :=
  p.Stable (basicWp (closing C) anyFault) J

/-- A plain program upholds the invariant, if closes keep to `C`. -/
def Upholds (J : World → Prop) (p : Plain α) (C : World → World → Prop := Keeps J) : Prop :=
  p.Stable (plainWp (closing C) anyFault) J

/-- A full program upholds the invariant, if closes keep to `C`. -/
def UpholdsFull (J : World → Prop) (p : Full α) (C : World → World → Prop := Keeps J) : Prop :=
  p.Stable (fullWp (closing C) anyFault) J

/-- An edit of a client that leaves its modes, its away text and its token alone. -/
structure ClientEdit.Mild (e : ClientEdit) : Prop where
  modes : ∀ c, (e.edit c).modes = c.modes := by intro; rfl
  away : ∀ c, (e.edit c).away = c.away := by intro; rfl
  mytoken : ∀ c, (e.edit c).mytoken = c.mytoken := by intro; rfl

/-- An edit of a channel that leaves its name and its modes alone, and looks up its lists at
most. -/
structure Channel.MildEdit (f : Channel → Channel) : Prop where
  name : ∀ c, (f c).name = c.name
  modes : ∀ c, (f c).modes = c.modes
  lists : ∀ c : Channel, c.Lookup (f c)

/-- The lists of a channel are edited and nothing else. -/
structure Channel.Relisted (w : World) (c d : Channel) : Prop where
  name : d.name = c.name
  modes : d.modes = c.modes
  lists : c.ListsEdit w.Storable d

/-- A channel as `Channel_Create` makes it. -/
structure NewChannel (name : Str) (c : Channel) : Prop where
  name : c.name = strlcpy name channelNameLen
  modes : c.modes = []
  listBans : c.listBans = []
  listExcepts : c.listExcepts = []
  listInvites : c.listInvites = []

/-- What happens to a channel that is there upholds the invariant, if closes keep to `C`. -/
structure ChannelCare (J : World → Prop) (C : World → World → Prop := Keeps J) : Prop where
  closes : ∀ w w', C w w' → Keeps J w w'
  editChannel : ∀ w ch f c, Channel.MildEdit f → w.chans.heap ch = some c → J w →
    J (w.setChannel ch (some (f c)))
  chanModeAdd : ∀ w ch c m, w.chans.heap ch = some c → J w →
    J (w.setChannel ch (some { c with modes := modesAdd c.modes m }))
  chanModeDel : ∀ w ch c m, m ≠ 'P' → w.chans.heap ch = some c → J w →
    J (w.setChannel ch (some { c with modes := modesDel c.modes m }))
  memberModes : ∀ w ch cl (f : Str → Str), J w → J (w.setMembers (w.chans.cl2chan.map fun e =>
    if e.isFor ch cl then { e with modes := f e.modes } else e))
  removeClient : ∀ kind ch client origin reason informServer,
    UpholdsLeave J (removeClient kind ch client origin reason informServer) C

/-- The effects of basic programs uphold the invariant, if closes keep to `C`. -/
structure Upkeep (J : World → Prop) (C : World → World → Prop := Keeps J) : Prop
    extends ChannelCare J C where
  messages : MsgFrame (fun _ => C) fun w w' => J w → J w'
  misc : ∀ w m, J w → w.misc.ListsEdit m → J { w with misc := m }
  servers : ∀ w l, J w → J { w with conf := { w.conf with servers := l } }
  editClient : ∀ w r (e : ClientEdit) c, e.Mild → w.heap r = some c → J w →
    J (w.setHeap r (some (e.edit c)))
  userModeAdd : ∀ w r c m, m ≠ 'a' → w.heap r = some c → J w →
    J (w.setHeap r (some { c with modes := modesAdd c.modes m }))
  userModeDel : ∀ w r c m, w.heap r = some c → J w →
    J (w.setHeap r (some { c with modes := modesDel c.modes m }))
  setAway : ∀ w r c txt, w.heap r = some c → J w →
    J (w.setHeap r (some { c with away := some txt }))
  rand : ∀ w n, J w → J { w with env := { w.env with rands := n } }
  setCaps : ∀ w r c caps, w.heap r = some c → J w →
    J (w.setHeap r (some { c with capabilities := caps }))
  setPwd : ∀ w i pwd, J w → J (w.setConn i { w.conns i with pwd })
  setAuthPing : ∀ w i token, J w → J (w.setConn i { w.conns i with authPing := token })

/-- The invariant does not mind edits of lists. -/
abbrev MindsNoLists (J : World → Prop) : Prop :=
  ∀ w ch c d, Channel.Relisted w c d → w.chans.heap ch = some c → J w → J (w.setChannel ch (some d))

/-- The invariant does not depend on user modes, on modes and lists of channels, and on who
joins or creates a channel. -/
structure Indifferent (J : World → Prop) (C : World → World → Prop := Keeps J) : Prop
    extends Upkeep J C where
  away : ∀ w r c, w.heap r = some c → J w →
    J (w.setHeap r (some { c with modes := modesAdd c.modes 'a' }))
  channelModes : ∀ w ch c modes, w.chans.heap ch = some c → J w →
    J (w.setChannel ch (some { c with modes }))
  join : ∀ client name, UpholdsBasic J (channelJoin client name) C
  create : ∀ w c name, NewChannel name c → J w → J (w.addChannel c)
  lists : MindsNoLists J

theorem sameCells_order :
    CellOrder fun _ c c' => c.Same c' ∧ c'.topserver = c.topserver where
  refl _ c := ⟨.refl c, rfl⟩
  trans _ _ _ _ h h' := ⟨h.1.trans h'.1, h'.2.trans h.2⟩
  cloak _ _ _ := ⟨⟨rfl, rfl, rfl, rfl, rfl⟩, rfl⟩
  edit _ c e := ⟨⟨e.type_eq c, e.id_eq c, e.connId_eq c, e.introducer_eq c,
    e.capabilities_eq c⟩, e.topserver_eq c⟩

/-- Every plain program persists: what it adds to the list is new. -/
theorem persists_frame : PlainFrame (fun _ => Persists) Persists :=
  have hc := sameCells_order.plainFrame
  { refl := fun w => ⟨hc.refl w, fun _ _ h => h⟩
    trans := fun w₁ w₂ w₃ h₁ h₂ => ⟨hc.trans w₁ w₂ w₃ h₁.toEachCell h₂.toEachCell,
      fun r hr h => h₂.gone r (Nat.lt_of_lt_of_le hr h₁.nextRef) (h₁.gone r hr h)⟩
    queue := fun w i line hs ht => ⟨hc.queue w i line hs ht, fun _ _ h => h⟩
    fail := fun w w' i hs ht hk => ⟨hc.fail w w' i hs ht hk.toEachCell, hk.gone⟩
    editConn := fun w i e => ⟨hc.editConn w i e, fun _ _ h => h⟩
    cloak := fun w r host c hr => ⟨hc.cloak w r host c hr, fun _ _ h => h⟩
    __ := BasicAside.of_rest fun _ _ _ _ _ =>
      ⟨sameCells_order.of_heap_eq rfl rfl rfl, fun _ _ h => h⟩
    editClient := fun w r e c hr => ⟨hc.editClient w r e c hr, fun _ _ h => h⟩
    unlink := fun w r => ⟨hc.unlink w r, fun _ _ h hmem => h (List.mem_of_mem_erase hmem)⟩
    free := fun w r => ⟨hc.free w r, fun _ _ h => h⟩
    startClosing := fun w i => ⟨hc.startClosing w i, fun _ _ h => h⟩
    closeSocket := fun w i => ⟨hc.closeSocket w i, fun _ _ h => h⟩
    initConn := fun w i now => ⟨hc.initConn w i now, fun _ _ h => h⟩
    close := fun _ _ _ h => h
    newRemote := fun w c hconn => ⟨hc.newRemote w c hconn, fun _ hr h hmem =>
      (List.mem_cons.mp hmem).elim (Nat.ne_of_lt hr) h⟩ }

/-- The rest holds anyway, so it is enough to look at the invariant. -/
theorem keeps_frame (hC : ∀ w w', C w w' → Persists w w')
    (h : BasicFrame (fun _ => C) fun w w' => J w → J w') : BasicFrame (fun _ => C) (Keeps J) :=
  have hc := persists_frame
  { hc.toLeaveFrame.and h.toLeaveFrame with
    fail := fun w w' i hs ht hk => ⟨hc.fail w w' i hs ht (hC _ _ hk), h.fail w w' i hs ht hk⟩
    editClient := fun w r e c hr => ⟨hc.editClient w r e c hr, h.editClient w r e c hr⟩
    setChannel := fun w ch c c' hr => ⟨hc.setChannel w ch c c' hr, h.setChannel w ch c c' hr⟩
    addChannel := fun w c => ⟨hc.addChannel w c, h.addChannel w c⟩
    addMember := fun w ch cl => ⟨hc.addMember w ch cl, h.addMember w ch cl⟩
    setMemberModes := fun w ch cl f => ⟨hc.setMemberModes w ch cl f, h.setMemberModes w ch cl f⟩
    rand := fun w n => ⟨hc.rand w n, h.rand w n⟩ }

/-- An invariant that is upheld wherever the relation of a frame holds. -/
theorem LeaveFrame.upholds
    (h : LeaveFrame K R) (hJ : ∀ w w', R w w' → J w → J w') :
    LeaveFrame K fun w w' => J w → J w' :=
  h.weaken hJ (fun _ hw => hw) fun _ _ _ h₁ h₂ hw => h₂ (h₁ hw)

@[inherit_doc LeaveFrame.upholds]
theorem BasicFrame.upholds
    (h : BasicFrame K R) (hJ : ∀ w w', R w w' → J w → J w') :
    BasicFrame K fun w w' => J w → J w' :=
  h.weaken hJ (fun _ hw => hw) fun _ _ _ h₁ h₂ hw => h₂ (h₁ hw)

/-- An invariant that every effect of basic programs upholds. -/
theorem Indifferent.of_frame (hC : ∀ w w', C w w' → Keeps J w w')
    (h : BasicFrame (fun _ => C) fun w w' => J w → J w')
    (hcaps : ∀ w r c caps, w.heap r = some c → J w →
      J (w.setHeap r (some { c with capabilities := caps })))
    (hpwd : ∀ w i pwd, J w → J (w.setConn i { w.conns i with pwd }))
    (hping : ∀ w i token, J w → J (w.setConn i { w.conns i with authPing := token })) :
    Indifferent J C where
  closes := hC
  messages := h.toMsgFrame
  misc w m hw _ := h.misc w m hw
  servers := h.servers
  editClient w r e c _ hc := h.editClient w r e c hc
  userModeAdd w r c m _ hc :=
    h.editClient w r { edit := fun c => { c with modes := modesAdd c.modes m } } c hc
  userModeDel w r c m hc :=
    h.editClient w r { edit := fun c => { c with modes := modesDel c.modes m } } c hc
  setAway w r c txt hc := h.editClient w r { edit := fun c => { c with away := some txt } } c hc
  editChannel w ch f c _ hc := h.setChannel w ch c (f c) hc
  chanModeAdd w ch c m hc := h.setChannel w ch c _ hc
  chanModeDel w ch c m _ hc := h.setChannel w ch c _ hc
  memberModes := h.setMemberModes
  rand := h.rand
  setCaps := hcaps
  setPwd := hpwd
  setAuthPing := hping
  removeClient _ _ _ _ _ _ w hw := h.toLeaveFrame.wp (fun _ => trivial) _ fun _ _ hJ => hJ hw
  away w r c hc :=
    h.editClient w r { edit := fun c => { c with modes := modesAdd c.modes 'a' } } c hc
  channelModes w ch c modes hc := h.setChannel w ch c _ hc
  join _ _ w hw := h.wp (fun _ => trivial) _ fun _ _ hJ => hJ hw
  create w c _ _ := h.addChannel w c
  lists w ch c d _ := h.setChannel w ch c d

/-! ## Rules -/

namespace UpholdsBasic

theorem pure (a : α) : UpholdsBasic J (pure a : Basic α) C := Prog.Stable.pure a

theorem bind {p : Basic α} {f : α → Basic β} (hp : UpholdsBasic J p C)
    (hf : ∀ a, UpholdsBasic J (f a) C) : UpholdsBasic J (p >>= f) C :=
  Prog.Stable.bind hp hf

theorem ite [Decidable c] {p q : Basic α} (hp : UpholdsBasic J p C)
    (hq : UpholdsBasic J q C) : UpholdsBasic J (if c then p else q) C :=
  Prog.Stable.ite hp hq

/-- Something that is done only under a condition, before the rest. -/
theorem opt [Decidable c] {p rest : Basic α} (hrest : UpholdsBasic J rest C)
    (hp : UpholdsBasic J rest C → UpholdsBasic J p C) : UpholdsBasic J (if c then p else rest) C :=
  .ite (hp hrest) hrest

theorem forEach {f : β → Basic Unit} (hf : ∀ b, UpholdsBasic J (f b) C) (l : List β) :
    UpholdsBasic J (Prog.forEach f l) C :=
  Prog.Stable.forEach hf l

theorem bind_returns {P : α → Prop} {p : Basic α} {f : α → Basic β} (hret : p.Returns P)
    (hp : UpholdsBasic J p C) (hf : ∀ a, P a → UpholdsBasic J (f a) C) :
    UpholdsBasic J (p >>= f) C :=
  Prog.Stable.bind_returns hret hp hf

theorem leave {p : Leave α} (hp : UpholdsLeave J p C) : UpholdsBasic J (liftM p : Basic α) C := by
  intro w hw
  rw [liftM_leave_basic, wp_ofLeave]
  exact hp w hw

end UpholdsBasic

namespace Upholds

theorem pure (a : α) : Upholds J (pure a : Plain α) C := Prog.Stable.pure a

theorem bind {p : Plain α} {f : α → Plain β} (hp : Upholds J p C)
    (hf : ∀ a, Upholds J (f a) C) : Upholds J (p >>= f) C :=
  Prog.Stable.bind hp hf

theorem ite [Decidable c] {p q : Plain α} (hp : Upholds J p C)
    (hq : Upholds J q C) : Upholds J (if c then p else q) C :=
  Prog.Stable.ite hp hq

theorem opt [Decidable c] {p rest : Plain α} (hrest : Upholds J rest C)
    (hp : Upholds J rest C → Upholds J p C) : Upholds J (if c then p else rest) C :=
  .ite (hp hrest) hrest

theorem basic {p : Basic α} (hp : UpholdsBasic J p C) : Upholds J (liftM p : Plain α) C := by
  intro w hw
  rw [liftM_basic_plain, wp_ofBasic]
  exact hp w hw

theorem param (req : Request) (i : Nat) : Upholds J (param req i) C := by
  intro w hw
  unfold Ngircd.param
  cases req.argv[i]? with
  | some s => exact hw
  | none => trivial

end Upholds

namespace UpholdsFull

theorem pure (a : α) : UpholdsFull J (pure a : Full α) C := Prog.Stable.pure a

theorem bind {p : Full α} {f : α → Full β} (hp : UpholdsFull J p C)
    (hf : ∀ a, UpholdsFull J (f a) C) : UpholdsFull J (p >>= f) C :=
  Prog.Stable.bind hp hf

theorem ite [Decidable c] {p q : Full α} (hp : UpholdsFull J p C)
    (hq : UpholdsFull J q C) : UpholdsFull J (if c then p else q) C :=
  Prog.Stable.ite hp hq

theorem opt [Decidable c] {p rest : Full α} (hrest : UpholdsFull J rest C)
    (hp : UpholdsFull J rest C → UpholdsFull J p C) : UpholdsFull J (if c then p else rest) C :=
  .ite (hp hrest) hrest

theorem plain {p : Plain α} (hp : Upholds J p C) : UpholdsFull J (liftM p : Full α) C := by
  intro w hw
  rw [liftM_plain_full, wp_ofPlain]
  exact hp w hw

theorem basic {p : Basic α} (hp : UpholdsBasic J p C) : UpholdsFull J (liftM p : Full α) C :=
  .plain (.basic hp)

end UpholdsFull

/-! ## Replies -/

/-- Transformers of reply programs; `F` is what holds where a failing `send` ends the
program. -/
def replyWp (K : Closing) (E : Fault → Prop) (F : World → Prop) :
    Transformer (ReplyOp.Res BasicOp.Res) World
  | .base b, Q, w => basicWp K E b Q w
  | .send i text, Q, w =>
    (connWriteStr i text).wp (msgWp K E) (fun ok w' => if ok then Q () w' else F w') w

instance replyWp_mono {K : Closing} {E : Fault → Prop} {F : World → Prop} :
    Prog.Monotone (replyWp K E F) where
  mono op Q Q' w h hQ := by
    cases op with
    | base b => exact basicWp_mono.mono b Q Q' w h hQ
    | send i text =>
      refine Prog.wp_mono (fun ok w' hw' => ?_) hQ
      cases ok with
      | true => exact h () w' hw'
      | false => exact hw'

section

variable {K : Closing} {E : Fault → Prop}

theorem wp_reply_ofBasic (p : Basic α) {Q : α → World → Prop} :
    (liftM p : Reply α).wp (replyWp K E F) Q w ↔ p.wp (basicWp K E) Q w :=
  Prog.wp_run _ p

theorem wp_reply_ofMsg (p : Msg α) {Q : α → World → Prop} :
    (liftM p : Reply α).wp (replyWp K E F) Q w ↔ p.wp (msgWp K E) Q w :=
  (Prog.wp_run _ (Query.ofMsg p)).trans (Prog.wp_run _ p)

end

/-- A reply program upholds the invariant, also where it ends early. -/
def UpholdsReply (J : World → Prop) (p : Reply α) (C : World → World → Prop := Keeps J) : Prop :=
  p.Stable (replyWp (closing C) anyFault J) J

namespace UpholdsReply

theorem pure (a : α) : UpholdsReply J (pure a : Reply α) C := Prog.Stable.pure a

theorem bind {p : Reply α} {f : α → Reply β} (hp : UpholdsReply J p C)
    (hf : ∀ a, UpholdsReply J (f a) C) : UpholdsReply J (p >>= f) C :=
  Prog.Stable.bind hp hf

theorem ite [Decidable c] {p q : Reply α} (hp : UpholdsReply J p C)
    (hq : UpholdsReply J q C) : UpholdsReply J (if c then p else q) C :=
  Prog.Stable.ite hp hq

theorem opt [Decidable c] {p rest : Reply α} (hrest : UpholdsReply J rest C)
    (hp : UpholdsReply J rest C → UpholdsReply J p C) : UpholdsReply J (if c then p else rest) C :=
  .ite (hp hrest) hrest

theorem forEach {f : β → Reply Unit} (hf : ∀ b, UpholdsReply J (f b) C) (l : List β) :
    UpholdsReply J (Prog.forEach f l) C :=
  Prog.Stable.forEach hf l

theorem basic {p : Basic α} (hp : UpholdsBasic J p C) : UpholdsReply J (liftM p : Reply α) C :=
  fun w hw => (Prog.wp_run _ p).mpr (hp w hw)

theorem wp_toBasic
    (hp : p.wp (replyWp (closing C) anyFault J) (fun _ => J) w) :
    (Reply.toBasic p).wp (upBasic C) (fun _ => J) w := by
  induction p generalizing w with
  | done a => exact hp
  | call op next ih =>
    cases op with
    | base b => exact basicWp_mono.mono b _ _ w (fun r w' hw' => ih r hw') hp
    | send i text =>
      simp only [Reply.toBasic, wp_msg]
      refine Prog.wp_mono (fun ok w' hw' => ?_) hp
      cases ok with
      | true => exact ih () hw'
      | false => exact hw'

theorem toBasic (hp : UpholdsReply J p C) : UpholdsBasic J (Reply.toBasic p) C :=
  fun w hw => wp_toBasic (hp w hw)

end UpholdsReply

namespace Upkeep

variable (h : Upkeep J C)
include h

/-- Message programs keep to the invariant and persist. -/
theorem msgFrame : MsgFrame (fun _ => C) (Keeps J) :=
  { persists_frame.toMsgFrame.and h.messages with
    fail := fun w w' i hs ht hk => ⟨persists_frame.fail w w' i hs ht (h.closes _ _ hk).1,
      h.messages.fail w w' i hs ht hk⟩ }

theorem message (p : Msg α) : p.Stable (msgWp (closing C) anyFault) J :=
  fun _ hw => h.messages.wp (fun _ => trivial) p fun _ _ hJ => hJ hw

theorem leaveMsg (p : Msg α) : UpholdsLeave J (liftM p : Leave α) C :=
  stable_ofMsg (h.message p)

theorem basicMsg (p : Msg α) : UpholdsBasic J (liftM p : Basic α) C := .leave (h.leaveMsg p)

/-- A message program comes first. -/
theorem past {p : Msg α} {f : α → Basic β} (hf : ∀ a, UpholdsBasic J (f a) C) :
    UpholdsBasic J ((liftM p : Basic α) >>= f) C :=
  .bind (h.basicMsg p) hf

theorem msg (p : Msg α) : Upholds J (liftM p : Plain α) C := .basic (h.basicMsg p)

theorem fullMsg (p : Msg α) : UpholdsFull J (liftM p : Full α) C := .plain (h.msg p)

theorem close (i : ConnId) (l f : Option Str) (inf : Bool) : Upholds J (callClose i l f inf) C :=
  fun _ hw _ hc => (h.closes _ _ hc).2 hw

/-- A query writes, and may end early. -/
theorem query (p : Query α) : UpholdsReply J (liftM p : Reply α) C := by
  intro w hw
  refine (Prog.wp_run _ p).mpr ?_
  induction p generalizing w with
  | done a => exact hw
  | call op next ih =>
    cases op with
    | base m =>
      exact h.messages.within (fun _ => trivial) m _ w fun r w' hJ => ih r w' (hJ hw)
    | send i text =>
      refine h.messages.wp (fun _ => trivial) (connWriteStr i text) fun ok w' hJ => ?_
      cases ok with
      | true => exact ih () w' (hJ hw)
      | false => exact hJ hw

theorem replyMsg (p : Msg α) : UpholdsReply J (liftM p : Reply α) C := h.query (Query.ofMsg p)

/-! ## Single effects -/

theorem editMisc {f : Misc → Misc} (hf : ∀ m : Misc, m.ListsEdit (f m)) :
    UpholdsBasic J (liftM (editMisc f) : Basic Unit) C :=
  fun w hw => h.misc w _ hw (hf w.misc)

theorem editServers (f : List ConfServer → List ConfServer) :
    UpholdsBasic J (liftM (editServers f) : Basic Unit) C :=
  fun w hw => h.servers w _ hw

theorem edit (r : ClientRef) {e : ClientEdit} (he : e.Mild) :
    UpholdsBasic J (Ngircd.editClient r e) C :=
  fun w hw => ⟨fun c hc => h.editClient w r e c he hc hw, fun _ => trivial⟩

theorem editChan (ch : ChanRef)
    (hf : Channel.MildEdit f) :
    UpholdsBasic J (Ngircd.editChannel ch f) C :=
  fun w hw => ⟨fun c hc => h.editChannel w ch f c hf hc hw, fun _ => trivial⟩

/-- An edit that keeps the name, the modes and the lists. -/
theorem editPlain (ch : ChanRef) (hname : ∀ c, (f c).name = c.name)
    (hmodes : ∀ c, (f c).modes = c.modes) (hlists : ∀ c : Channel, c.Lookup (f c)) :
    UpholdsBasic J (Ngircd.editChannel ch f) C :=
  h.editChan ch ⟨hname, hmodes, hlists⟩

theorem removal (kind : Removal) (ch : ChanRef) (client origin : ClientRef) (reason : Str)
    (inform : Bool) :
    UpholdsBasic J (liftM (Ngircd.removeClient kind ch client origin reason inform) : Basic Bool) C :=
  .leave (h.removeClient kind ch client origin reason inform)

theorem clientRegisterWhowas (client : ClientRef) :
    UpholdsLeave J (clientRegisterWhowas client) C :=
  clientRegisterWhowas_stable (fun _ p => h.message p) (fun w _ _ hw =>
    h.misc w _ hw (.same w.misc)) client

theorem drawRand : UpholdsBasic J drawRand C := fun w hw => h.rand w _ hw

theorem userModes (ch : ChanRef) (cl : ClientRef) (f : Str → Str) :
    UpholdsBasic J (setUserModes ch cl f) C :=
  fun w hw => h.memberModes w ch cl f hw

end Upkeep

end

end Ngircd
