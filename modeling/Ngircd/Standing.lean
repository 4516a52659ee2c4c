import Ngircd.Daemon
import Ngircd.Logic

/-!
# Who a connection is

A connection refers to the structure of its client and that structure refers
back to the connection (`Linked`).  What the client of an open connection is
taken for, its type, its ID, its capabilities, and what has been agreed upon
for it, its password and the pending AUTH PING, is only changed by full
programs: all others can at most make the client or the connection go away
(`Settled`).
-/

namespace Ngircd

open Lib

variable {w w₁ w₂ w₃ w' : World} {r : ClientRef} {c c' : Client} {i : ConnId} {conn : Conn}

/-! ## Links between connections and clients -/

/-- Connections and client structures refer to each other as they should. -/
structure Linked (w : World) : Prop where
  slot : ∀ i r, (w.conns i).client = some r → r < w.nextRef
  cell : ∀ r c, w.heap r = some c → r < w.nextRef
  link : ∀ i r c, (w.conns i).client = some r → w.heap r = some c → c.connId = some i
  home : ∀ r c i, w.heap r = some c → c.connId = some i →
    c.introducer = w.thisServer ∨ c.introducer = r

/-- The connection `i` is open and belongs to the client `r`. -/
structure World.Has (w : World) (i : ConnId) (r : ClientRef) (c : Client) : Prop where
  sock : (w.conns i).sock ≠ none
  client : (w.conns i).client = some r
  cell : w.heap r = some c

/-- The next hop of a local client is the client itself. -/
theorem Linked.nextHop_eq (hw : Linked w)
    (hc : w.heap r = some c) (hi : c.connId = some i) : w.nextHop r = .ok r := by
  have hhome := hw.home r c i hc hi
  simp only [World.nextHop, World.nextHopFrom, hc]
  rw [if_pos hhome.symm]

/-! ## What is kept -/

/-- Two structures stand for the same client. -/
structure Client.Same (c c' : Client) : Prop where
  type : c'.type = c.type
  id : c'.id = c.id
  connId : c'.connId = c.connId
  introducer : c'.introducer = c.introducer
  capabilities : c'.capabilities = c.capabilities

/-- What has been agreed upon for a connection. -/
structure Conn.SameSecrets (c c' : Conn) : Prop where
  pwd : c'.pwd = c.pwd
  authPing : c'.authPing = c.authPing

theorem Client.Same.refl (c : Client) : c.Same c := ⟨rfl, rfl, rfl, rfl, rfl⟩

theorem Client.Same.trans {d e : Client} (h : c.Same d) (h' : d.Same e) : c.Same e :=
  ⟨h'.type.trans h.type, h'.id.trans h.id, h'.connId.trans h.connId,
    h'.introducer.trans h.introducer, h'.capabilities.trans h.capabilities⟩

theorem Conn.SameSecrets.refl (c : Conn) : c.SameSecrets c := ⟨rfl, rfl⟩

theorem Conn.SameSecrets.trans {c d e : Conn} (h : c.SameSecrets d) (h' : d.SameSecrets e) :
    c.SameSecrets e :=
  ⟨h'.pwd.trans h.pwd, h'.authPing.trans h.authPing⟩

/-- What every program keeps. -/
structure Steady (w w' : World) : Prop where
  thisServer : w'.thisServer = w.thisServer
  conf : { w'.conf with servers := w.conf.servers } = w.conf
  rand : w'.env.rand = w.env.rand
  nextRef : w.nextRef ≤ w'.nextRef
  linked : Linked w → Linked w'

/-- Nobody on an open connection has become somebody else. -/
structure Settled (w w' : World) : Prop extends Steady w w' where
  has : Linked w → ∀ i r c', w'.Has i r c' →
    ∃ c, w.Has i r c ∧ c.Same c' ∧ (w.conns i).SameSecrets (w'.conns i)

theorem Steady.refl (w : World) : Steady w w := ⟨rfl, rfl, rfl, Nat.le_refl _, fun h => h⟩

theorem Steady.trans (h₁ : Steady w₁ w₂) (h₂ : Steady w₂ w₃) :
    Steady w₁ w₃ where
  thisServer := h₂.thisServer.trans h₁.thisServer
  conf := by
    have h := congrArg (fun conf => { conf with servers := w₁.conf.servers }) h₂.conf
    exact h.trans h₁.conf
  rand := h₂.rand.trans h₁.rand
  nextRef := Nat.le_trans h₁.nextRef h₂.nextRef
  linked h := h₂.linked (h₁.linked h)

namespace Settled

theorem refl (w : World) : Settled w w :=
  { Steady.refl w with has := fun _ _ _ c' h => ⟨c', h, .refl c', .refl _⟩ }

theorem trans (h₁ : Settled w₁ w₂) (h₂ : Settled w₂ w₃) : Settled w₁ w₃ := by
  refine { h₁.toSteady.trans h₂.toSteady with has := fun hw i r e he => ?_ }
  obtain ⟨d, hd, hde, hsecrets₂⟩ := h₂.has (h₁.linked hw) i r e he
  obtain ⟨c, hc, hcd, hsecrets₁⟩ := h₁.has hw i r d hd
  exact ⟨c, hc, hcd.trans hde, hsecrets₁.trans hsecrets₂⟩

/-- A slot that is kept, up to its bookkeeping, or cleared. -/
def KeepsSlot (c c' : Conn) : Prop :=
  c'.client = none ∨ c'.client = c.client ∧ c.SameSecrets c' ∧ (c'.sock ≠ none → c.sock ≠ none)

/-- A cell that is kept, or new and for a remote client. -/
def KeepsCell (w w' : World) (r : ClientRef) (c' : Client) : Prop :=
  (∃ c, w.heap r = some c ∧ c.Same c') ∨ (w.nextRef ≤ r ∧ r < w'.nextRef ∧ c'.connId = none)

/-- It is enough to look at every slot and every cell. -/
theorem of_parts (hslot : ∀ i, KeepsSlot (w.conns i) (w'.conns i))
    (hcell : ∀ r c', w'.heap r = some c' → KeepsCell w w' r c')
    (hthis : w'.thisServer = w.thisServer)
    (hconf : { w'.conf with servers := w.conf.servers } = w.conf)
    (hrand : w'.env.rand = w.env.rand) (hnext : w.nextRef ≤ w'.nextRef) : Settled w w' := by
  have hclient (i : ConnId) (r : ClientRef) (h : (w'.conns i).client = some r) :
      (w.conns i).client = some r ∧ (w.conns i).SameSecrets (w'.conns i) ∧
        ((w'.conns i).sock ≠ none → (w.conns i).sock ≠ none) := by
    rcases hslot i with hnone | ⟨hsame, hrest⟩
    · rw [hnone] at h
      exact nomatch h
    · exact ⟨hsame.symm.trans h, hrest⟩
  -- A slot refers to no new cell, so the cell of its client is an old one.
  have hold (hw : Linked w) (i : ConnId) (r : ClientRef) (c' : Client)
      (hi : (w.conns i).client = some r) (hc : w'.heap r = some c') :
      ∃ c, w.heap r = some c ∧ c.Same c' := by
    rcases hcell r c' hc with h | ⟨hnew, -⟩
    · exact h
    · exact absurd (hw.slot i r hi) (Nat.not_lt.mpr hnew)
  refine ⟨⟨hthis, hconf, hrand, hnext, fun hw => ⟨?_, ?_, ?_, ?_⟩⟩, ?_⟩
  · intro i r h
    exact Nat.lt_of_lt_of_le (hw.slot i r (hclient i r h).1) hnext
  · intro r c' hc
    rcases hcell r c' hc with ⟨c, h, -⟩ | ⟨-, hlt, -⟩
    · exact Nat.lt_of_lt_of_le (hw.cell r c h) hnext
    · exact hlt
  · intro i r c' h hc
    obtain ⟨c, hr, hsame⟩ := hold hw i r c' (hclient i r h).1 hc
    rw [hsame.connId]
    exact hw.link i r c (hclient i r h).1 hr
  · intro r c' i hc hi
    rcases hcell r c' hc with ⟨c, h, hsame⟩ | ⟨-, -, hnone⟩
    · rw [hsame.introducer, hthis]
      exact hw.home r c i h (hsame.connId.symm.trans hi)
    · rw [hnone] at hi
      exact nomatch hi
  · intro hw i r c' h
    obtain ⟨hi, hsecrets, hsock⟩ := hclient i r h.client
    obtain ⟨c, hr, hsame⟩ := hold hw i r c' hi h.cell
    exact ⟨c, ⟨hsock h.sock, hi, hr⟩, hsame, hsecrets⟩

theorem keepsSlot_refl (c : Conn) : KeepsSlot c c := .inr ⟨rfl, .refl c, fun h => h⟩

theorem keepsCell_of_eq (h : w'.heap = w.heap) (r : ClientRef) (c' : Client)
    (hc : w'.heap r = some c') : KeepsCell w w' r c' :=
  .inl ⟨c', by rw [← h]; exact hc, .refl c'⟩

/-- Connections and clients are as before. -/
theorem of_eq (hconns : w'.conns = w.conns) (hheap : w'.heap = w.heap)
    (hthis : w'.thisServer = w.thisServer)
    (hconf : { w'.conf with servers := w.conf.servers } = w.conf)
    (hrand : w'.env.rand = w.env.rand) (hnext : w'.nextRef = w.nextRef) : Settled w w' :=
  of_parts (fun i => by rw [hconns]; exact keepsSlot_refl _) (keepsCell_of_eq hheap) hthis hconf
    hrand (Nat.le_of_eq hnext.symm)

theorem setConn (h : KeepsSlot (w.conns i) conn) : Settled w (w.setConn i conn) := by
  refine of_parts (fun j => ?_) (keepsCell_of_eq rfl) rfl rfl rfl (Nat.le_refl _)
  by_cases hj : j = i
  · subst hj
    simpa using h
  · rw [World.setConn_conns_ne w hj]
    exact keepsSlot_refl _

theorem setHeap (hc : w.heap r = some c) (h : c.Same c') :
    Settled w (w.setHeap r (some c')) := by
  refine of_parts (fun _ => keepsSlot_refl _) (fun s d hd => ?_) rfl rfl rfl (Nat.le_refl _)
  rcases World.setHeap_heap_cases hd with ⟨rfl, rfl⟩ | ⟨-, hd⟩
  · exact .inl ⟨c, hc, h⟩
  · exact .inl ⟨d, hd, .refl d⟩

theorem free (w : World) (r : ClientRef) : Settled w (w.setHeap r none) := by
  refine of_parts (fun _ => keepsSlot_refl _) (fun s d hd => ?_) rfl rfl rfl (Nat.le_refl _)
  exact .inl ⟨d, World.heap_of_free hd, .refl d⟩

theorem addClient (hc : c.connId = none) : Settled w (w.addClient c) := by
  refine of_parts (fun _ => keepsSlot_refl _) (fun s d hd => ?_) rfl rfl rfl (Nat.le_succ _)
  rcases World.setHeap_heap_cases (w := w) hd with ⟨rfl, rfl⟩ | ⟨-, hd⟩
  · exact .inr ⟨Nat.le_refl _, Nat.lt_succ_self _, hc⟩
  · exact .inl ⟨d, hd, .refl d⟩

theorem tickWrite (w : World) : Settled w w.tickWrite := of_eq rfl rfl rfl rfl rfl rfl

theorem queue (w : World) (i : ConnId) (line : Str) : Settled w (w.queue i line) := by
  have hslot : Settled w (w.setConn i
      { w.conns i with bytesOut := (w.conns i).bytesOut + line.length + 2 }) :=
    setConn (.inr ⟨rfl, ⟨rfl, rfl⟩, fun h => h⟩)
  exact hslot.trans (of_eq rfl rfl rfl rfl rfl rfl)

end Settled

/-! ## Programs -/

theorem settled_plainFrame : PlainFrame (fun _ => Settled) Settled where
  refl := Settled.refl
  trans _ _ _ := Settled.trans
  queue w i line _ _ := (Settled.tickWrite w).trans (Settled.queue _ i line)
  fail w _ _ _ _ h := (Settled.tickWrite w).trans h
  editConn w i e := Settled.setConn (.inr ⟨e.client_eq _, ⟨e.pwd_eq _, e.authPing_eq _⟩,
    fun h => e.sock_eq (w.conns i) ▸ h⟩)
  cloak _ _ _ _ hc := Settled.setHeap hc ⟨rfl, rfl, rfl, rfl, rfl⟩
  __ := BasicAside.of_rest fun _ _ _ _ _ => Settled.of_eq rfl rfl rfl rfl rfl rfl
  editClient _ _ e c hc := Settled.setHeap hc
    ⟨e.type_eq c, e.id_eq c, e.connId_eq c, e.introducer_eq c, e.capabilities_eq c⟩
  unlink _ _ := Settled.of_eq rfl rfl rfl rfl rfl rfl
  free := Settled.free
  startClosing _ _ := Settled.setConn (.inr ⟨rfl, ⟨rfl, rfl⟩, fun h => h⟩)
  closeSocket _ _ := Settled.setConn (.inr ⟨rfl, ⟨rfl, rfl⟩, fun h => absurd rfl h⟩)
  initConn _ _ _ := Settled.setConn (.inl rfl)
  close _ _ _ h := h
  newRemote _ _ hc := Settled.addClient hc

/-- Closing a connection settles. -/
theorem closer_settled (n : Nat) :
    (Closing.within fun _ => Settled).RightAbout anyFault (closer n) :=
  settled_plainFrame.toShutFrame.rightAbout trivial (fun _ => trivial) n

section Setters

/-- A cell whose connection and introducer are kept stays linked. -/
theorem Steady.setHeap (hc : w.heap r = some c) (hconn : c'.connId = c.connId)
    (hintro : c'.introducer = c.introducer ∨ c'.introducer = r) :
    Steady w (w.setHeap r (some c')) := by
  refine { Steady.refl w with linked := fun hw => ⟨hw.slot, ?_, ?_, ?_⟩ }
  · intro s d hd
    rcases World.setHeap_heap_cases hd with ⟨rfl, -⟩ | ⟨-, hd⟩
    · exact hw.cell s c hc
    · exact hw.cell s d hd
  · intro j s d hj hd
    rcases World.setHeap_heap_cases hd with ⟨rfl, rfl⟩ | ⟨-, hd⟩
    · rw [hconn]
      exact hw.link j s c hj hc
    · exact hw.link j s d hj hd
  · intro s d j hd hj
    rcases World.setHeap_heap_cases hd with ⟨rfl, rfl⟩ | ⟨-, hd⟩
    · rcases hintro with h | h
      · rw [h]
        exact hw.home s c j hc (hconn.symm.trans hj)
      · exact .inr h
    · exact hw.home s d j hd hj

/-- A slot whose client is kept stays linked. -/
theorem Steady.setConn (hclient : conn.client = (w.conns i).client) :
    Steady w (w.setConn i conn) := by
  have hslot (j : ConnId) : ((w.setConn i conn).conns j).client = (w.conns j).client := by
    by_cases hj : j = i
    · subst hj
      rw [World.setConn_conns_self, hclient]
    · rw [World.setConn_conns_ne w hj]
  refine { Steady.refl w with linked := fun hw => ⟨?_, hw.cell, ?_, hw.home⟩ }
  · intro j s hj
    exact hw.slot j s ((hslot j).symm.trans hj)
  · intro j s d hj hd
    exact hw.link j s d ((hslot j).symm.trans hj) hd

end Setters

theorem steady_fullFrame : FullFrame (fun _ => Settled) Steady :=
  { settled_plainFrame.weaken (fun _ _ h => h.toSteady) Steady.refl
      (fun _ _ _ h₁ h₂ => h₁.trans h₂) with
    setType := fun _ _ _ _ hc => Steady.setHeap hc rfl (.inl rfl)
    setId := fun _ _ _ _ hc => Steady.setHeap hc rfl (.inl rfl)
    setCaps := fun _ _ _ _ hc => Steady.setHeap hc rfl (.inl rfl)
    ownIntroducer := fun _ _ _ hc => Steady.setHeap hc rfl (.inr rfl)
    setPwd := fun _ _ _ => Steady.setConn rfl
    setAuthPing := fun _ _ _ => Steady.setConn rfl }

/-! ## Runs -/

theorem Linked.start (conf : Conf) (env : Env) (host : Str) :
    Linked (World.start conf env host) := by
  refine ⟨fun i r h => (nomatch h), fun r c hc => ?_, fun i r c h => (nomatch h),
    fun r c i hc hi => ?_⟩
  · rw [(World.start_cell hc).ref]
    exact Nat.one_pos
  · rw [(World.start_cell hc).connId] at hi
    exact nomatch hi

/-- A new connection is linked to its new client. -/
theorem Linked.openConn (hw : Linked w) (i : ConnId) (conn : Conn)
    (hintro : c.introducer = w.thisServer ∨ c.introducer = w.nextRef) :
    Linked (w.openConn i c conn) := by
  have hslot (j : ConnId) (r : ClientRef) (h : ((w.openConn i c conn).conns j).client = some r) :
      (j = i ∧ r = w.nextRef) ∨ (j ≠ i ∧ (w.conns j).client = some r) := by
    by_cases hj : j = i
    · subst hj
      simp only [World.openConn, World.setConn_conns_self, World.growPool, Option.some.injEq] at h
      exact .inl ⟨rfl, h.symm⟩
    · have hconn : (w.openConn i c conn).conns j =
          if w.poolSize ≤ j ∧ j ≤ i then newConn w.now else w.conns j :=
        World.setConn_conns_ne _ hj _
      rw [hconn] at h
      split_ifs at h
      · exact nomatch h
      · exact .inr ⟨hj, h⟩
  have hcell (r : ClientRef) (d : Client) (h : (w.openConn i c conn).heap r = some d) :
      (r = w.nextRef ∧ d.connId = some i ∧ d.introducer = c.introducer) ∨
        (r ≠ w.nextRef ∧ w.heap r = some d) := by
    rcases World.setHeap_heap_cases (w := w) h with ⟨rfl, rfl⟩ | hold
    · exact .inl ⟨rfl, rfl, rfl⟩
    · exact .inr hold
  refine ⟨fun j r h => ?_, fun r d h => ?_, fun j r d h hd => ?_, fun r d j h hj => ?_⟩
  · rcases hslot j r h with ⟨-, rfl⟩ | ⟨-, h⟩
    · exact Nat.lt_succ_self _
    · exact Nat.lt_succ_of_lt (hw.slot j r h)
  · rcases hcell r d h with ⟨rfl, -⟩ | ⟨-, h⟩
    · exact Nat.lt_succ_self _
    · exact Nat.lt_succ_of_lt (hw.cell r d h)
  · rcases hslot j r h with ⟨rfl, rfl⟩ | ⟨-, h⟩
    · rcases hcell _ d hd with ⟨-, hconn, -⟩ | ⟨hne, -⟩
      · exact hconn
      · exact absurd rfl hne
    · rcases hcell r d hd with ⟨rfl, -⟩ | ⟨-, hd⟩
      · exact absurd (hw.slot j _ h) (Nat.lt_irrefl _)
      · exact hw.link j r d h hd
  · rcases hcell r d h with ⟨rfl, -, heq⟩ | ⟨-, h⟩
    · rw [heq]
      exact hintro
    · exact hw.home r d j h hj

/-- Linkage is kept until the program for an event starts. -/
theorem Linked.prepare (hw : Linked w) (e : Event) : Linked (e.prepare w) := by
  cases e with
  | accept i ip => exact hw.openConn i _ (.inl rfl)
  | connect k i ip => exact hw.openConn i _ (.inr rfl)
  | ping i =>
    have hsteady : Steady w (w.setConn i { w.conns i with lastping := w.now }) := .setConn rfl
    exact hsteady.linked hw
  | clock now => exact ⟨hw.slot, hw.cell, hw.link, hw.home⟩
  | _ => exact hw

theorem Step.linked {e : Event} (hw : Linked w) (h : Step w e w') : Linked w' := by
  obtain ⟨-, n, hrun⟩ := h
  exact (steady_fullFrame.exec_ok_of_closing (closer_settled n) hrun).linked (hw.prepare e)

/-- In every run connections and clients are linked. -/
theorem Reachable.linked (h : Reachable w) : Linked w := by
  induction h with
  | start conf env host => exact Linked.start conf env host
  | step _ hstep ih => exact hstep.linked ih

end Ngircd
