import Ngircd.Lib.Twin
import Ngircd.Quiet
import Ngircd.Seats

/-!
# Two tables of memberships

The same program runs in two states that differ in the table of memberships only.  As
long as it does not look into the table, and no write fails, it does the same in both.
A write that fails closes a connection, and who hears of that depends on who is in which
channel; from then on nothing is known about the two runs but that they are over for the
connection that was closed.
-/

namespace Ngircd

open Lib

variable {i j : ConnId} {w w' v : World} {n : Nat} {α β σ : Type} {l : List Cl2Chan} {c : Prop}
  {line text : Str} {r : ClientRef}

/-! ## Connections that are over -/

/-- The lines queued on a connection. -/
def World.linesTo (w : World) (i : ConnId) : List Str := (w.sent.filter (·.1 = i)).map (·.2)

/-- Nothing is queued on a connection whose socket is closed. -/
def Hushed (i : ConnId) (w w' : World) : Prop :=
  (w.conns i).sock = none → (w'.conns i).sock = none ∧ w'.linesTo i = w.linesTo i

theorem Hushed.of_eq (hsock : (w'.conns i).sock = (w.conns i).sock)
    (hsent : w'.sent = w.sent) : Hushed i w w' := by
  intro h
  refine ⟨hsock.trans h, ?_⟩
  unfold World.linesTo
  rw [hsent]

theorem Hushed.setConn {conn : Conn}
    (h : conn.sock = (w.conns j).sock ∨ conn.sock = none) : Hushed i w (w.setConn j conn) := by
  intro hsock
  refine ⟨?_, rfl⟩
  by_cases hi : i = j
  · subst hi
    rw [World.setConn_conns_self]
    exact h.elim (fun h => h.trans hsock) id
  · rw [World.setConn_conns_ne w hi]
    exact hsock

theorem Hushed.frame (i : ConnId) : ShutFrame (fun _ => Hushed i) (Hushed i) where
  refl _ h := ⟨h, rfl⟩
  trans w₁ w₂ w₃ h₁ h₂ h := by
    obtain ⟨hsock, hlines⟩ := h₁ h
    obtain ⟨hsock', hlines'⟩ := h₂ hsock
    exact ⟨hsock', hlines'.trans hlines⟩
  queue w j line hopen _ := by
    intro h
    have hne : j ≠ i := by
      rintro rfl
      exact hopen h
    refine ⟨?_, ?_⟩
    · have hslot : ((w.tickWrite.queue j line).conns i) = w.conns i :=
        World.setConn_conns_ne w.tickWrite (Ne.symm hne) _
      rw [hslot]
      exact h
    · simp [World.linesTo, World.queue, World.tickWrite, World.setConn, hne]
  fail _ _ _ _ _ h := h
  editConn w j e := Hushed.setConn (.inl (e.sock_eq _))
  cloak _ _ _ _ _ := .of_eq rfl rfl
  __ := BasicAside.of_rest fun _ _ _ _ _ => .of_eq rfl rfl
  unlink _ _ := .of_eq rfl rfl
  free _ _ := .of_eq rfl rfl
  startClosing _ _ := Hushed.setConn (.inl rfl)
  closeSocket _ _ := Hushed.setConn (.inr rfl)
  initConn _ _ _ := Hushed.setConn (.inr rfl)

theorem closer_hushed (i : ConnId) (n : Nat) :
    (Closing.within fun _ => Hushed i).RightAbout anyFault (closer n) :=
  (Hushed.frame i).rightAbout trivial (fun _ => trivial) n

/-- A connection that is closed without a message to its client gets no line any more. -/
theorem closer_hushes {l f : Option Str}
    (hidle : (w.conns i).isClosing = false) (hrun : closer n i l f false w = .ok ((), w')) :
    (w'.conns i).sock = none ∧ w'.linesTo i = w.linesTo i := by
  cases n with
  | zero => exact nomatch hrun
  | succ n =>
    refine (Prog.wp_sound (stepShut_ends (closer_hushed i n))
      (Q := fun _ w' => (w'.conns i).sock = none ∧ w'.linesTo i = w.linesTo i) ?_).of_ok hrun
    refine wp_connClose (fun hbusy => absurd hbusy (by simp [hidle])) fun _ => ?_
    have hreleased (w₁ : World) (now : Nat) (hlines : w₁.linesTo i = w.linesTo i) :
        ((w₁.released i now).conns i).sock = none ∧
          (w₁.released i now).linesTo i = w.linesTo i := by
      have hslot : (w₁.released i now).conns i = newConn now := World.setConn_conns_self _ _ _
      rw [hslot]
      exact ⟨rfl, hlines⟩
    refine wp_shutDown (fun r _ => ?_) fun _ => hreleased _ _ rfl
    refine (Hushed.frame i).wp (fun _ => trivial) _ fun _ w₁ h₁ => hreleased w₁ _ ?_
    exact (h₁ (by rw [World.setConn_conns_self])).2

/-- A connection that is being closed already is not closed again. -/
theorem closer_busy {l f : Option Str} {inf : Bool}
    (hbusy : (w.conns i).isClosing = true) : closer (n + 1) i l f inf w = .ok ((), w) := by
  have hwp : (connClose i l f inf).wp (shutWp .never noFault) (fun _ w' => w' = w) w :=
    wp_connClose (fun _ => rfl) fun hidle => absurd hbusy (by simp [hidle])
  have hends := Prog.wp_sound (stepShut_ends (Closing.never_rightAbout (closer n))) hwp
  obtain ⟨_, w', hrun, rfl⟩ := hends.exists_ok
  exact hrun

/-! ## Ways of coming apart -/

/-- States that two runs may have come apart in.  No message program leads out of them. -/
structure Exits where
  Why : Type
  holds : Why → World → Prop
  stays : ∀ (n : Nat) {α : Type} (p : Msg α), Exec.Stays holds (execMsg n p)

namespace Exits

/-- The connection is closed, with these lines queued on it before. -/
def lost (i : ConnId) : Exits where
  Why := List Str
  holds lines w := (w.conns i).sock = none ∧ w.linesTo i = lines
  stays n α p lines w a w' hw hrun := by
    obtain ⟨hsock, hlines⟩ :=
      MsgFrame.exec_ok (closer_hushed i n) (Hushed.frame i).toMsgFrame hrun hw.1
    exact ⟨hsock, hlines.trans hw.2⟩

/-- The client is off the list, or one of the other states. -/
def orGone (X : Exits) (r : ClientRef) : Exits where
  Why := Option X.Why
  holds
    | none, w => r ∉ w.order
    | some why, w => X.holds why w
  stays n α p why w a w' hw hrun := by
    cases why with
    | none =>
      exact (MsgFrame.exec_ok (closer_unlists n) Thins.frame.toMsgFrame hrun).not_mem hw
    | some why => exact X.stays n p why w a w' hw hrun

end Exits

/-! ## Programs in two states -/

section

variable {X : Exits}

/-- Both runs have the same result, in states that differ in the table of memberships only. -/
structure SameEnd (l : List Cl2Chan) (w : World) (P : α → World → Prop) (a b : α)
    (t t' : World) : Prop where
  result : a = b
  state : t' = t.setMembers l
  quiet : Quiet w t
  post : P a t

/-- Run in two states with different tables of memberships, the programs do the same. -/
def Twin (l : List Cl2Chan) (X : Exits) (w : World) (p p' : Msg α)
    (P : α → World → Prop := fun _ _ => True) : Prop :=
  ∀ n, Exec.Alike X.holds (SameEnd l w P) (execMsg n p w) (execMsg n p' (w.setMembers l))

theorem execMsg_bind (n : Nat) (p : Msg α) (f : α → Msg β) :
    execMsg n (p >>= f) = execMsg n p >>= fun a => execMsg n (f a) :=
  Prog.run_bind _ p f

theorem World.nextHop_setMembers (w : World) (l : List Cl2Chan) (r : ClientRef) :
    (w.setMembers l).nextHop r = w.nextHop r := by
  have hwalk (n : Nat) (r : ClientRef) : (w.setMembers l).nextHopFrom n r = w.nextHopFrom n r := by
    induction n generalizing r with
    | zero => rfl
    | succ n ih =>
      have hcell : (w.setMembers l).heap r = w.heap r := rfl
      have hthis : (w.setMembers l).thisServer = w.thisServer := rfl
      simp only [World.nextHopFrom, hcell, hthis, ih]
  exact hwalk _ r

namespace Twin

variable {p p' : Msg α} {f f' : α → Msg β} {P : α → World → Prop} {P' : β → World → Prop}

theorem pure (a : α) (h : P a w) : Twin l X w (pure a) (pure a) P :=
  fun _ => .inl ⟨rfl, rfl, Quiet.refl w, h⟩

theorem bind (hp : Twin l X w p p' P)
    (hf : ∀ a v, Quiet w v → P a v → Twin l X v (f a) (f' a) P') :
    Twin l X w (p >>= f) (p' >>= f') P' := by
  intro n
  rw [execMsg_bind, execMsg_bind]
  refine Exec.Alike.bind (hp n) ?_ (fun a => X.stays n (f a)) fun a => X.stays n (f' a)
  rintro a _ v _ ⟨rfl, rfl, hv, ha⟩
  exact (hf a v hv ha n).mono fun _ _ _ _ h => ⟨h.result, h.state, hv.trans h.quiet, h.post⟩

theorem mono {P₁ : α → World → Prop} (h : Twin l X w p p' P)
    (hP : ∀ a v, Quiet w v → P a v → P₁ a v) : Twin l X w p p' P₁ :=
  fun n => (h n).mono fun _ _ _ _ h => ⟨h.result, h.state, h.quiet, hP _ _ h.quiet h.post⟩

theorem fault (e e' : DataFault) : Twin l X w (dataFault e) (dataFault e') P :=
  fun _ => trivial

theorem ite [Decidable c] {q q' : Msg α} (hp : c → Twin l X w p p' P)
    (hq : ¬c → Twin l X w q q' P) :
    Twin l X w (if c then p else q) (if c then p' else q') P := by
  by_cases hc : c
  · rw [if_pos hc, if_pos hc]
    exact hp hc
  · rw [if_neg hc, if_neg hc]
    exact hq hc

/-- Each of the programs reads its own state. -/
theorem get {f f' : World → Msg β} (hf : Twin l X w (f w) (f' (w.setMembers l)) P') :
    Twin l X w (getWorld >>= f) (getWorld >>= f') P' := hf

theorem deref (r : ClientRef) :
    Twin l X w (deref r) (deref r) fun c v => v = w ∧ w.heap r = some c := by
  have hcell : (w.setMembers l).heap r = w.heap r := rfl
  refine .get ?_
  rw [hcell]
  cases hc : w.heap r with
  | none => exact .fault _ _
  | some c => exact .pure c ⟨rfl, rfl⟩

theorem clientID (r : ClientRef) : Twin l X w (clientID r) (clientID r)
    fun id v => v = w ∧ ∃ c, w.heap r = some c ∧ id = c.nameOrStar :=
  .bind (.deref r) fun c _ _ ⟨hv, hc⟩ => .pure _ ⟨hv, c, hc, rfl⟩

theorem clientType (r : ClientRef) : Twin l X w (clientType r) (clientType r)
    fun t v => v = w ∧ ∃ c, w.heap r = some c ∧ t = c.type :=
  .bind (.deref r) fun c _ _ ⟨hv, hc⟩ => .pure _ ⟨hv, c, hc, rfl⟩

theorem clientHasMode (r : ClientRef) (m : Char) :
    Twin l X w (clientHasMode r m) (clientHasMode r m)
      fun b v => v = w ∧ ∃ c, w.heap r = some c ∧ b = c.hasMode m :=
  .bind (.deref r) fun c _ _ ⟨hv, hc⟩ => .pure _ ⟨hv, c, hc, rfl⟩

theorem orFault (e : Except DataFault α) :
    Twin l X w (orFault e) (orFault e) fun a v => v = w ∧ e = .ok a := by
  cases e with
  | error e => exact .fault _ _
  | ok a => exact .pure a ⟨rfl, rfl⟩

theorem clientNextHop (r : ClientRef) : Twin l X w (clientNextHop r) (clientNextHop r)
    fun hop v => v = w ∧ w.nextHop r = .ok hop := by
  refine .get ?_
  rw [World.nextHop_setMembers]
  exact .orFault _

theorem thisServer : Twin l X w thisServer thisServer fun r v => v = w ∧ r = w.thisServer :=
  .get (.pure _ ⟨rfl, rfl⟩)

theorem connOf (i : Option ConnId) :
    Twin l X w (connOf i) (connOf i) fun j v => v = w ∧ i = some j := by
  cases i with
  | none => exact .fault _ _
  | some j => exact .pure j ⟨rfl, rfl⟩

theorem editConn (i : ConnId) (e : ConnEdit) : Twin l X w (editConn i e) (editConn i e) :=
  fun _ => .inl ⟨rfl, rfl, Quiet.frame.editConn w i e, trivial⟩

theorem setCloaked (r : ClientRef) (host : Str) :
    Twin l X w (setCloaked r host) (setCloaked r host) := by
  intro n
  have hcell : (w.setMembers l).heap r = w.heap r := rfl
  have hrun (w : World) : execMsg n (Ngircd.setCloaked r host) w =
      editHeap r (fun c => { c with cloaked := some host }) w :=
    congrFun (Prog.run_perform _ _) w
  rw [hrun, hrun]
  simp only [editHeap, hcell]
  cases hc : w.heap r with
  | none => trivial
  | some c => exact .inl ⟨rfl, rfl, Quiet.cloak hc host, trivial⟩

theorem ircSetPenalty (client : ClientRef) (seconds : Nat) :
    Twin l X w (ircSetPenalty client seconds) (ircSetPenalty client seconds) := by
  refine .bind (.deref client) fun c v _ ⟨_, _⟩ => ?_
  split_ifs
  · exact .pure () trivial
  · cases c.connId with
    | none => exact .pure () trivial
    | some i => exact .get (.editConn i _)

/-! ## Writes -/

/-- A write to a connection, if the runs may come apart where it fails. -/
theorem writeTo (hexit : (w.conns j).isClosing = false →
      ∃ why, ∀ n text v, (closer n j text none false w.tickWrite = .ok ((), v) → X.holds why v) ∧
        (closer n j text none false (w.tickWrite.setMembers l) = .ok ((), v) → X.holds why v)) :
    Twin l X w (writeTo j line) (writeTo j line) := by
  intro n
  have hrun (w : World) : execMsg n (Ngircd.writeTo j line) w = writeLine (closer n) j line w :=
    congrFun (Prog.run_perform _ _) w
  have hslot : (w.setMembers l).conns j = w.conns j := rfl
  have henv : (w.setMembers l).env = w.env := rfl
  have htick : (w.setMembers l).tickWrite = w.tickWrite.setMembers l := rfl
  have hfail (text : Option Str) : Exec.Alike X.holds (SameEnd l w fun _ _ => True)
      ((do closer n j text none false; Pure.pure false : M Bool) w.tickWrite)
      ((do closer n j text none false; Pure.pure false : M Bool) (w.tickWrite.setMembers l)) := by
    rw [Exec.bind_apply, Exec.bind_apply]
    cases hbusy : (w.conns j).isClosing with
    | true =>
      cases n with
      | zero => trivial
      | succ n =>
        rw [closer_busy (w := w.tickWrite) hbusy, closer_busy (w := w.tickWrite.setMembers l) hbusy]
        exact .inl ⟨rfl, rfl, { Quiet.refl w with writes := Nat.le_succ _ }, trivial⟩
    | false =>
      obtain ⟨why, hwhy⟩ := hexit hbusy
      cases hleft : closer n j text none false w.tickWrite with
      | error e =>
        cases hright : closer n j text none false (w.tickWrite.setMembers l) with
        | error e' => trivial
        | ok y => exact ⟨why, (hwhy n text y.2).2 hright⟩
      | ok x =>
        have hx := (hwhy n text x.2).1 hleft
        cases hright : closer n j text none false (w.tickWrite.setMembers l) with
        | error e' => exact ⟨why, hx⟩
        | ok y => exact .inr ⟨why, hx, (hwhy n text y.2).2 hright⟩
  rw [hrun, hrun]
  simp only [writeLine, hslot, henv, htick]
  by_cases hsock : (w.conns j).sock.isNone = true
  · rw [if_pos hsock, if_pos hsock]
    exact .inl ⟨rfl, rfl, Quiet.refl w, trivial⟩
  · rw [if_neg hsock, if_neg hsock]
    cases w.env.outcome w.env.writes with
    | taken => exact .inl ⟨rfl, rfl, Quiet.queue w j line, trivial⟩
    | sendError => exact hfail _
    | exhausted => exact hfail _

theorem connWriteStr (hexit : (w.conns j).isClosing = false →
      ∃ why, ∀ n text v, (closer n j text none false w.tickWrite = .ok ((), v) → X.holds why v) ∧
        (closer n j text none false (w.tickWrite.setMembers l) = .ok ((), v) → X.holds why v)) :
    Twin l X w (connWriteStr j text) (connWriteStr j text) :=
  .bind (.writeTo hexit) fun ok _ _ _ => .bind (.editConn j _) fun _ _ _ _ => .pure ok trivial

/-- A write to the connection whose loss ends everything. -/
theorem connWriteStr_lost (text : Str) :
    Twin l (.lost i) w (Ngircd.connWriteStr i text) (Ngircd.connWriteStr i text) := by
  refine .connWriteStr fun hidle => ⟨w.linesTo i, fun n text v => ⟨fun hrun => ?_, fun hrun => ?_⟩⟩
  · exact closer_hushes (w := w.tickWrite) hidle hrun
  · exact closer_hushes (w := w.tickWrite.setMembers l) hidle hrun

/-- A write to a client on the list. -/
theorem connWriteStr_gone (hnodup : w.order.Nodup)
    (hclient : (w.conns j).client = some r) (text : Str) :
    Twin l (X.orGone r) w (Ngircd.connWriteStr j text) (Ngircd.connWriteStr j text) := by
  have hgone (n : Nat) (text : Option Str) (w₀ v : World) (hidle : (w₀.conns j).isClosing = false)
      (hclient : (w₀.conns j).client = some r) (hnodup : w₀.order.Nodup)
      (hrun : closer n j text none false w₀ = .ok ((), v)) : r ∉ v.order := by
    have hunlists := (closer_unlists n j text none false (Unlists j w₀) w₀ fun _ h => h).of_ok hrun
    exact hunlists.gone hidle r hclient hnodup
  refine .connWriteStr fun hidle => ⟨none, fun n text v => ⟨fun hrun => ?_, fun hrun => ?_⟩⟩
  · exact hgone n text w.tickWrite v hidle hclient hnodup hrun
  · exact hgone n text (w.tickWrite.setMembers l) v hidle hclient hnodup hrun

end Twin

/-! ## Walks along the client list -/

/-- A walk may come apart where a visit takes the visited client off the list: the walk
then stops, in both runs. -/
theorem Twin.forClients {visit : ClientRef → Msg Unit} {rs : List ClientRef}
    (hvisit : ∀ r v, Quiet w v → r ∈ v.order → Twin l (X.orGone r) v (visit r) (visit r)) :
    Twin l X w (forClients visit rs) (forClients visit rs) := by
  induction rs generalizing w with
  | nil => exact .pure () trivial
  | cons r rest ih =>
    have hrest (v : World) (hv : Quiet w v) :
        Twin l X v (Ngircd.forClients visit rest) (Ngircd.forClients visit rest) :=
      ih fun s u hu => hvisit s u (hv.trans hu)
    have horder : (w.setMembers l).order = w.order := rfl
    refine .get ?_
    rw [horder]
    by_cases hr : w.order.contains r = true
    · rw [if_pos hr]
      intro n
      rw [execMsg_bind]
      have hmem : r ∈ w.order := by simpa using hr
      let next : Msg Unit := do
        if (← getWorld).order.contains r then Ngircd.forClients visit rest
        else dataFault (.freedClient r)
      -- After the visit the walk asks whether the client is still there.
      have hstop (why : (X.orGone r).Why) (a : Unit) (t : World) (b : Unit) (u : World)
          (ht : (X.orGone r).holds why t) (hrun : execMsg n next t = .ok (b, u)) :
          ∃ k, why = some k ∧ X.holds k u := by
        cases why with
        | none =>
          have hgone : r ∉ t.order := ht
          have herror : execMsg n next t = .error (.data (.freedClient r)) := by
            change execMsg n (if t.order.contains r then Ngircd.forClients visit rest
              else dataFault (.freedClient r)) t = _
            rw [if_neg (by simpa using hgone)]
            rfl
          rw [herror] at hrun
          exact nomatch hrun
        | some k => exact ⟨k, rfl, X.stays n next k t b u ht hrun⟩
      refine Exec.Alike.bind_of id (hvisit r w (Quiet.refl w) hmem n) ?_ hstop hstop
      rintro a _ v _ ⟨-, rfl, hv, -⟩
      have hnext : Twin l X v next next := by
        have hmem' : v.order.contains r = true := by rw [hv.order]; exact hr
        have horder' : (v.setMembers l).order = v.order := rfl
        refine .get ?_
        rw [horder', if_pos hmem']
        exact hrest v hv
      exact (hnext n).mono fun _ _ _ _ h => ⟨h.result, h.state, hv.trans h.quiet, trivial⟩
    · rw [if_neg hr]
      exact hrest w (Quiet.refl w)

/-! ## Host names -/

/-- Clients are in their places, and those with a connection are reached on that. -/
structure Attached (w : World) : Prop extends Seated w where
  hop : ∀ r c i, w.heap r = some c → c.connId = some i → w.nextHop r = .ok r

theorem Quiet.attached (h : Quiet w v) (hw : Attached w) : Attached v where
  toSeated := by
    refine hw.toSeated.of_kept (hw.toListed.of_same h.order h.nextRef)
      (fun r hr => by rwa [h.order] at hr) (fun r c' hc' => ?_) (fun i => ?_) h.poolSize
    · obtain ⟨c, host, hc, rfl⟩ := h.heap_some_before hc'
      exact ⟨c, hc, rfl⟩
    · refine ⟨(h.link i).client, fun hbusy => ?_⟩
      rw [(h.link i).sock, (h.link i).isClosing]
      exact hbusy
  hop r c i hc hi := by
    obtain ⟨c₀, host, hc₀, rfl⟩ := h.heap_some_before hc
    rw [h.nextHop]
    exact hw.hop r c₀ i hc₀ hi

namespace Twin

section

variable (hw : Attached w)
include hw

/-- A text for a linked server: if it cannot be written, the server is off the list. -/
theorem writeStrServer {c : Client} (hr : r ∈ w.order)
    (hc : w.heap r = some c) (hj : c.connId = some j) (pfx : ClientRef) (text : Str) :
    Twin l (X.orGone r) w (writeStrServer r pfx text) (writeStrServer r pfx text) := by
  refine .bind (.clientNextHop r) fun hop v _ ⟨hv, hhop⟩ => ?_
  obtain rfl : r = hop := Except.ok.inj ((hw.hop r c j hc hj).symm.trans hhop)
  obtain rfl := hv
  refine .bind (.deref r) fun d v' _ ⟨hv', hd⟩ => ?_
  obtain rfl : c = d := Option.mem_unique hc hd
  obtain rfl := hv'
  refine .bind (.connOf c.connId) fun i v'' _ ⟨hv'', hi⟩ => ?_
  obtain rfl : j = i := Option.mem_unique hj hi
  obtain rfl := hv''
  refine .bind (.clientID pfx) fun _ u _ ⟨hu, _⟩ => ?_
  obtain rfl := hu
  exact .connWriteStr_gone hw.toListed.nodup (hw.slot r hr c j hc hj).client _

theorem ircWriteStrServersPrefixFlag (exceptOf : Option ClientRef) (pfx : ClientRef)
    (flag : Option Char) (text : Str) :
    Twin l X w (ircWriteStrServersPrefixFlag exceptOf pfx flag text)
      (ircWriteStrServersPrefixFlag exceptOf pfx flag text) := by
  refine .get (.forClients fun r v hv hr => .bind (.deref r) fun c v' _ ⟨hv', hc⟩ => ?_)
  obtain rfl := hv'
  refine .bind .thisServer fun this v'' _ ⟨hv'', _⟩ => ?_
  obtain rfl := hv''
  split_ifs with hserver
  · obtain ⟨j, hj⟩ := Option.isSome_iff_exists.mp hserver.2.1
    exact .bind (.writeStrServer (hv.attached hw) hr hc hj pfx text) fun _ _ _ _ => .pure () trivial
  · exact .pure () trivial
  · exact .pure () trivial

theorem clientUpdateCloakedHostname (client : ClientRef) (origin : Option ClientRef)
    (hostname : Option Str) :
    Twin l X w (clientUpdateCloakedHostname client origin hostname)
      (clientUpdateCloakedHostname client origin hostname) := by
  let tell (cloaked : Str) : Msg Unit := do
    Ngircd.setCloaked client cloaked
    Ngircd.ircWriteStrServersPrefixFlag
      (some (← Ngircd.clientNextHop (origin.getD w.thisServer))) (origin.getD w.thisServer)
      (some 'M') (format "METADATA %s cloakhost :%s" [← Ngircd.clientID client, cloaked])
  have htell (cloaked : Str) (u : World) (hu : Quiet w u) :
      Twin l X u (tell cloaked) (tell cloaked) := by
    refine .bind (.setCloaked client cloaked) fun _ v₁ hv₁ _ => ?_
    refine .bind (.clientNextHop _) fun _ v₂ hv₂ _ => .bind (.clientID client) fun _ v₃ hv₃ _ => ?_
    have hquiet := (hu.trans hv₁).trans (hv₂.trans hv₃)
    exact .ircWriteStrServersPrefixFlag (hquiet.attached hw) _ _ _ _
  refine .get (.bind (.deref client) fun c v hv _ => ?_)
  cases hostname with
  | some host => exact htell _ v hv
  | none =>
    have hconf : (w.setMembers l).conf = w.conf := rfl
    dsimp only
    rw [hconf]
    split_ifs
    · exact .bind (.clientID _) fun _ v' hv' _ => htell _ v' (hv.trans hv')
    · exact htell _ v hv

theorem clientHostnameDisplayed (client : ClientRef) :
    Twin l X w (clientHostnameDisplayed client) (clientHostnameDisplayed client) := by
  refine .bind (.deref client) fun c v hv _ => ?_
  split_ifs
  · exact .pure _ trivial
  · cases c.cloaked with
    | some host => exact .pure host trivial
    | none =>
      exact .bind (.clientUpdateCloakedHostname (hv.attached hw) client none none) fun _ _ _ _ =>
        .bind (.deref client) fun _ _ _ _ => .pure _ trivial

theorem clientMaskCloaked (client : ClientRef) :
    Twin l X w (clientMaskCloaked client) (clientMaskCloaked client) := by
  refine .bind (.deref client) fun c v hv _ => ?_
  split_ifs
  · exact .pure _ trivial
  · exact .bind (.clientHostnameDisplayed (hv.attached hw) client) fun _ _ _ _ => .pure _ trivial

theorem getPrefix (target client : ClientRef) :
    Twin l X w (getPrefix target client) (getPrefix target client) := by
  refine .bind (.clientType target) fun t v hv _ => ?_
  split_ifs
  · exact (Twin.clientID client).mono fun _ _ _ _ => trivial
  · exact .clientMaskCloaked (hv.attached hw) client

end

theorem derefChan (ch : ChanRef) :
    Twin l X w (derefChan ch) (derefChan ch) fun c v => v = w ∧ w.chans.heap ch = some c := by
  have hcell : (w.setMembers l).chans.heap ch = w.chans.heap ch := rfl
  refine .get ?_
  rw [hcell]
  cases hc : w.chans.heap ch with
  | none => exact .fault _ _
  | some c => exact .pure c ⟨rfl, rfl⟩

theorem channelName (ch : ChanRef) : Twin l X w (channelName ch) (channelName ch) :=
  .bind (.derefChan ch) fun _ _ _ _ => .pure _ trivial

end Twin

end

/-! ## Queries -/

/-- Run a query; the result is missing where a write has failed. -/
def Query.exec (n : Nat) : Query α → M (Option α)
  | .done a => pure (some a)
  | .call (.base m) next => stepMsg (closer n) m >>= fun r => Query.exec n (next r)
  | .call (.send i text) next =>
    execMsg n (connWriteStr i text) >>= fun ok =>
      if ok then Query.exec n (next ()) else pure none

/-- Go on with the result of a query, if there is one. -/
def Query.andThen (f : α → M (Option β)) : Option α → M (Option β)
  | none => pure none
  | some a => f a

theorem Query.exec_bind (n : Nat) (q : Query α) (f : α → Query β) :
    Query.exec n (q >>= f) = Query.exec n q >>= Query.andThen fun a => Query.exec n (f a) := by
  induction q with
  | done a => simp [Query.exec, Query.andThen]
  | call op next ih =>
    cases op with
    | base m =>
      simp only [Prog.call_bind, Query.exec, bind_assoc]
      congr 1
      funext r
      exact ih r
    | send i text =>
      simp only [Prog.call_bind, Query.exec, bind_assoc]
      congr 1
      funext ok
      cases ok with
      | false => simp [Query.andThen]
      | true => exact ih ()

theorem Query.exec_ofMsg (n : Nat) (p : Msg α) :
    Query.exec n (Query.ofMsg p) = execMsg n p >>= fun a => pure (some a) := by
  induction p with
  | done a => rfl
  | call op next ih =>
    change (stepMsg (closer n) op >>= fun r => Query.exec n (Query.ofMsg (next r))) = _
    simp only [execMsg, Prog.run_call, bind_assoc]
    congr 1
    funext r
    exact ih r

theorem Query.exec_getWorld (f : World → Query β) :
    Query.exec n ((liftM getWorld : Query World) >>= f) v = Query.exec n (f v) v := rfl

theorem Query.exec_derefChan {ch : ChanRef} {c : Channel}
    (hc : v.chans.heap ch = some c) (f : Channel → Query β) :
    Query.exec n ((liftM (derefChan ch) : Query Channel) >>= f) v = Query.exec n (f c) v := by
  have hstep (k : World → Msg Channel) :
      Query.exec n ((liftM (getWorld >>= k) : Query Channel) >>= f) v =
        Query.exec n ((liftM (k v) : Query Channel) >>= f) v := rfl
  unfold derefChan
  rw [hstep, hc]
  rfl

theorem Query.execMsg_toMsg (n : Nat) (q : Query Unit) :
    execMsg n q.toMsg = Query.exec n q >>= fun o => pure o.isSome := by
  induction q with
  | done a => rfl
  | call op next ih =>
    cases op with
    | base m =>
      simp only [Query.toMsg, Query.exec, execMsg, Prog.run_call, bind_assoc]
      congr 1
      funext r
      exact ih r
    | send i text =>
      simp only [Query.toMsg, Query.exec, execMsg_bind, bind_assoc]
      congr 1
      funext ok
      cases ok with
      | false => rfl
      | true => exact ih ()

theorem Exits.stays_query (X : Exits) (n : Nat) (q : Query α) :
    Exec.Stays X.holds (Query.exec n q) := by
  induction q with
  | done a => exact .pure _
  | call op next ih =>
    cases op with
    | base m =>
      have hstep : execMsg n (Prog.perform m) = stepMsg (closer n) m := Prog.run_perform _ m
      simp only [Query.exec, ← hstep]
      exact .bind (X.stays n _) fun r => ih r
    | send i text =>
      refine .bind (X.stays n _) fun ok => ?_
      cases ok with
      | false => exact .pure _
      | true => exact ih ()

/-- Run in two states with different tables of memberships, the queries do the same. -/
def QTwin (l : List Cl2Chan) (X : Exits) (w : World) (q q' : Query α)
    (P : α → World → Prop := fun _ _ => True) : Prop :=
  ∀ n, Exec.Alike X.holds (SameEnd l w fun o v => ∀ a, o = some a → P a v) (Query.exec n q w)
    (Query.exec n q' (w.setMembers l))

namespace QTwin

variable {X : Exits} {q q' : Query α} {f f' : α → Query β} {P : α → World → Prop}
  {P' : β → World → Prop}

theorem pure (a : α) (h : P a w) : QTwin l X w (pure a) (pure a) P := by
  refine fun _ => .inl ⟨rfl, rfl, Quiet.refl w, fun b hb => ?_⟩
  obtain rfl := Option.some.inj hb
  exact h

theorem bind (hq : QTwin l X w q q' P)
    (hf : ∀ a v, Quiet w v → P a v → QTwin l X v (f a) (f' a) P') :
    QTwin l X w (q >>= f) (q' >>= f') P' := by
  intro n
  have hstays (g : α → Query β) (o : Option α) :
      Exec.Stays X.holds (Query.andThen (fun a => Query.exec n (g a)) o) := by
    cases o with
    | none => exact .pure _
    | some a => exact X.stays_query n (g a)
  rw [Query.exec_bind, Query.exec_bind]
  refine Exec.Alike.bind (hq n) ?_ (hstays f) (hstays f')
  rintro o _ v _ ⟨rfl, rfl, hv, ho⟩
  cases o with
  | none => exact .inl ⟨rfl, rfl, hv, nofun⟩
  | some a =>
    exact (hf a v hv (ho a rfl) n).mono fun _ _ _ _ h =>
      ⟨h.result, h.state, hv.trans h.quiet, h.post⟩

theorem ite [Decidable c] {q₁ q₁' : Query α} (hq : c → QTwin l X w q q' P)
    (hq₁ : ¬c → QTwin l X w q₁ q₁' P) :
    QTwin l X w (if c then q else q₁) (if c then q' else q₁') P := by
  by_cases hc : c
  · rw [if_pos hc, if_pos hc]
    exact hq hc
  · rw [if_neg hc, if_neg hc]
    exact hq₁ hc

/-- A message program as part of a query. -/
theorem lift {p p' : Msg α} (hp : Twin l X w p p' P) : QTwin l X w (liftM p) (liftM p') P := by
  intro n
  change Exec.Alike _ _ (Query.exec n (Query.ofMsg p) w) (Query.exec n (Query.ofMsg p') _)
  rw [Query.exec_ofMsg, Query.exec_ofMsg]
  refine Exec.Alike.bind (hp n) ?_ (fun _ => .pure _) fun _ => .pure _
  rintro a _ v _ ⟨rfl, rfl, hv, ha⟩
  refine .inl ⟨rfl, rfl, hv, fun b hb => ?_⟩
  obtain rfl := Option.some.inj hb
  exact ha

theorem get {f f' : World → Query β} (hf : QTwin l X w (f w) (f' (w.setMembers l)) P') :
    QTwin l X w ((liftM getWorld : Query World) >>= f) ((liftM getWorld : Query World) >>= f') P' :=
  hf

/-- Something that is done only under a condition, and what follows it. -/
theorem opt [Decidable c] {rest rest' : Query β} (hq : c → QTwin l X w q q' P)
    (hrest : ∀ v, Quiet w v → QTwin l X v rest rest' P') :
    QTwin l X w (if c then q >>= fun _ => rest else rest)
      (if c then q' >>= fun _ => rest' else rest') P' :=
  .ite (fun hc => .bind (hq hc) fun _ v hv _ => hrest v hv) fun _ => hrest w (Quiet.refl w)

/-- A reply on the connection whose loss ends everything. -/
theorem send (text : Str) :
    QTwin l (.lost i) w (Prog.perform (ReplyOp.send i text) : Query Unit)
      (Prog.perform (ReplyOp.send i text)) := by
  intro n
  refine Exec.Alike.bind (Twin.connWriteStr_lost text n) ?_ ?_ ?_
  · rintro ok _ v _ ⟨rfl, rfl, hv, -⟩
    cases ok with
    | false => exact .inl ⟨rfl, rfl, hv, fun _ _ => trivial⟩
    | true => exact .inl ⟨rfl, rfl, hv, fun _ _ => trivial⟩
  · intro ok
    cases ok <;> exact .pure _
  · intro ok
    cases ok <;> exact .pure _

theorem forEach {f f' : α → Query Unit} {xs : List α}
    (hf : ∀ a ∈ xs, ∀ v, Quiet w v → QTwin l X v (f a) (f' a)) :
    QTwin l X w (Prog.forEach f xs) (Prog.forEach f' xs) := by
  induction xs generalizing w with
  | nil => exact .pure () trivial
  | cons a rest ih =>
    refine .bind (hf a (.head _) w (Quiet.refl w)) fun _ v hv _ => ih ?_
    exact fun b hb u hu => hf b (.tail a hb) u (hv.trans hu)

theorem replyFold {visit visit' : σ → α → Query (Option σ)} {xs : List α} {s : σ}
    (hvisit : ∀ s, ∀ a ∈ xs, ∀ v, Quiet w v → QTwin l X v (visit s a) (visit' s a)) :
    QTwin l X w (replyFold visit s xs) (replyFold visit' s xs) := by
  induction xs generalizing w s with
  | nil => exact .pure s trivial
  | cons a rest ih =>
    refine .bind (hvisit s a (.head _) w (Quiet.refl w)) fun next v hv _ => ?_
    cases next with
    | none => exact .pure s trivial
    | some t => exact ih fun s b hb u hu => hvisit s b (.tail a hb) u (hv.trans hu)

theorem replyClients {visit visit' : σ → ClientRef → Query (Option σ)} {s : σ}
    (hvisit : ∀ s r v, Quiet w v → QTwin l X v (visit s r) (visit' s r)) :
    QTwin l X w (replyClients s visit) (replyClients s visit') := by
  refine .get (.replyFold fun s r _ v hv => .get ?_)
  have horder : (v.setMembers l).order = v.order := rfl
  rw [horder]
  split_ifs
  · exact .pure _ trivial
  · refine .bind (hvisit s r v hv) fun next v' _ _ => .get ?_
    have horder' : (v'.setMembers l).order = v'.order := rfl
    rw [horder']
    split_ifs
    · exact .bind (.lift (.fault (P := fun _ _ => True) _ _)) fun _ _ _ _ => .pure _ trivial
    · exact .pure _ trivial

/-! ## Lists that differ in elements that are passed over -/

/-- A fold passes over the elements at the front of its list that do nothing. -/
theorem exec_replyFold_skip {visit : σ → α → Query (Option σ)}
    {front rest : List α} {s : σ}
    (hskip : ∀ a ∈ front, Query.exec n (visit s a) v = .ok (some (some s), v)) :
    Query.exec n (Ngircd.replyFold visit s (front ++ rest)) v =
      Query.exec n (Ngircd.replyFold visit s rest) v := by
  induction front with
  | nil => rfl
  | cons a front ih =>
    rw [List.cons_append, Ngircd.replyFold, Query.exec_bind, Exec.bind_apply,
      hskip a (.head _)]
    exact ih fun b hb => hskip b (.tail a hb)

/-- Folds over lists that are the same but for elements that are passed over. -/
theorem replyFold_filter {visit visit' : σ → α → Query (Option σ)} {keep : α → Bool}
    {xs xs' : List α} {s : σ} (hsame : xs.filter keep = xs'.filter keep)
    (hskip : ∀ s a v n, keep a = false → Quiet w v →
      Query.exec n (visit s a) v = .ok (some (some s), v))
    (hskip' : ∀ s a v n, keep a = false → Quiet w v →
      Query.exec n (visit' s a) (v.setMembers l) = .ok (some (some s), v.setMembers l))
    (hvisit : ∀ s a v, keep a = true → Quiet w v → QTwin l X v (visit s a) (visit' s a)) :
    QTwin l X w (Ngircd.replyFold visit s xs) (Ngircd.replyFold visit' s xs') := by
  generalize hys : xs.filter keep = ys at hsame
  induction ys generalizing xs xs' w s with
  | nil =>
    intro n
    have hnone := List.filter_eq_nil_iff.mp hys
    have hnone' := List.filter_eq_nil_iff.mp hsame.symm
    rw [← List.append_nil xs, ← List.append_nil xs', exec_replyFold_skip fun a ha =>
      hskip s a w n (by simpa using hnone a ha) (Quiet.refl w), exec_replyFold_skip fun a ha =>
      hskip' s a w n (by simpa using hnone' a ha) (Quiet.refl w)]
    exact QTwin.pure s trivial n
  | cons a ys ih =>
    obtain ⟨front, rest, rfl, hnone, hkeep, hrest⟩ := List.filter_eq_cons_iff.mp hys
    obtain ⟨front', rest', rfl, hnone', -, hrest'⟩ := List.filter_eq_cons_iff.mp hsame.symm
    intro n
    rw [exec_replyFold_skip fun b hb => hskip s b w n (by simpa using hnone b hb) (Quiet.refl w),
      exec_replyFold_skip fun b hb => hskip' s b w n (by simpa using hnone' b hb) (Quiet.refl w)]
    refine QTwin.bind (hvisit s a w hkeep (Quiet.refl w)) (fun next v hv _ => ?_) n
    cases next with
    | none => exact .pure s trivial
    | some t =>
      exact ih (fun s b u n hb hu => hskip s b u n hb (hv.trans hu))
        (fun s b u n hb hu => hskip' s b u n hb (hv.trans hu))
        (fun s b u hb hu => hvisit s b u hb (hv.trans hu)) hrest hrest'.symm

end QTwin

end Ngircd
