import Ngircd.Dispatch

/-!
# Senders

Whom a command is from: its handler takes the client of the connection, or the
client in the prefix when the connection is one of a server.  The prefix has
been checked before, so nobody can speak for clients that are not behind the
connection, and nobody can speak for this server.
-/

namespace Ngircd

open Lib

/-! ## The record of this server -/

/-- The record of this server, as long as there is one, has no connection and
is introduced by itself. -/
structure OwnRecord (w : World) : Prop where
  known : w.thisServer < w.nextRef
  introducer : ∀ c, w.heap w.thisServer = some c → c.introducer = w.thisServer
  connId : ∀ c, w.heap w.thisServer = some c → c.connId = none

/-- Connections stay, and an introducer is changed to the client itself only. -/
theorem ownRecord_order : FullCellOrder fun r c c' =>
    c'.connId = c.connId ∧ (c'.introducer = c.introducer ∨ c'.introducer = r) where
  refl _ _ := ⟨rfl, .inl rfl⟩
  trans r c₁ c₂ c₃ h₁ h₂ := by
    refine ⟨h₂.1.trans h₁.1, ?_⟩
    rcases h₂.2 with h | h
    · rw [h]
      exact h₁.2
    · exact .inr h
  cloak _ _ _ := ⟨rfl, .inl rfl⟩
  edit _ c e := ⟨e.connId_eq c, .inl (e.introducer_eq c)⟩
  type _ _ _ := ⟨rfl, .inl rfl⟩
  id _ _ _ := ⟨rfl, .inl rfl⟩
  caps _ _ _ := ⟨rfl, .inl rfl⟩
  ownIntroducer _ _ := ⟨rfl, .inr rfl⟩

theorem OwnRecord.start (conf : Conf) (env : Env) (host : Str) :
    OwnRecord (World.start conf env host) where
  known := Nat.one_pos
  introducer c hc := by
    obtain rfl := Option.some.inj hc
    rfl
  connId c hc := by
    obtain rfl := Option.some.inj hc
    rfl

theorem OwnRecord.openConn {w : World} (hw : OwnRecord w) (i : ConnId) (c : Client)
    (conn : Conn) : OwnRecord (w.openConn i c conn) := by
  have hne : w.thisServer ≠ w.nextRef := Nat.ne_of_lt hw.known
  have hheap : (w.openConn i c conn).heap w.thisServer = w.heap w.thisServer := by
    simp [World.openConn, World.addClient, World.growPool, World.setConn, World.setHeap,
      Function.update_of_ne hne]
  refine ⟨Nat.lt_succ_of_lt hw.known, fun d hd => ?_, fun d hd => ?_⟩
  · exact hw.introducer d (hheap ▸ hd)
  · exact hw.connId d (hheap ▸ hd)

theorem OwnRecord.step {w w' : World} {e : Event} (hw : OwnRecord w) (h : Step w e w') :
    OwnRecord w' := by
  obtain ⟨-, n, hrun⟩ := h
  have hprepared : OwnRecord (e.prepare w) := by
    cases e with
    | accept | connect => exact hw.openConn _ _ _
    | resolved | linked | line | close | expire => exact hw
    | ping | clock => exact ⟨hw.known, hw.introducer, hw.connId⟩
  have hcells := ownRecord_order.frame.exec_ok hrun
  refine ⟨?_, fun c' hc' => ?_, fun c' hc' => ?_⟩
  · rw [hcells.thisServer]
    exact Nat.lt_of_lt_of_le hprepared.known hcells.nextRef
  · rw [hcells.thisServer] at hc' ⊢
    obtain ⟨c, hc, -, hintro⟩ := hcells.cell _ c' hprepared.known hc'
    rcases hintro with h | h
    · rw [h]
      exact hprepared.introducer c hc
    · exact h
  · rw [hcells.thisServer] at hc'
    obtain ⟨c, hc, hconn, -⟩ := hcells.cell _ c' hprepared.known hc'
    exact hconn.trans (hprepared.connId c hc)

theorem Reachable.ownRecord {w : World} (h : Reachable w) : OwnRecord w := by
  induction h with
  | start conf env host => exact .start conf env host
  | step _ hstep ih => exact ih.step hstep

section

variable {w w' : World} {i : ConnId} {r : ClientRef} {c : Client} {req : Request}

/-- This server is not the client of a connection. -/
theorem OwnRecord.ne_client (hw : OwnRecord w) (hl : Linked w) (hi : w.Has i r c) :
    r ≠ w.thisServer := by
  rintro rfl
  have hconn := hl.link i _ c hi.client hi.cell
  rw [hw.connId c hi.cell] at hconn
  exact nomatch hconn

/-- The next hop of this server is this server. -/
theorem OwnRecord.nextHop (hw : OwnRecord w) (hc : w.heap w.thisServer = some c) :
    w.nextHop w.thisServer = .ok w.thisServer := by
  simp only [World.nextHop, World.nextHopFrom, hc]
  rw [if_pos (.inl (hw.introducer c hc))]

theorem World.mem_listed (hr : r ∈ w.order) (hc : w.heap r = some c) : (r, c) ∈ w.listed := by
  rw [World.listed, List.mem_filterMap]
  exact ⟨r, hr, by rw [hc]; rfl⟩

theorem clientSearch_cell {p : Str} {o : ClientRef} (h : w.clientSearch p = some o) :
    ∃ d, w.heap o = some d := by
  obtain ⟨⟨s, d⟩, hfind, rfl⟩ := Option.map_eq_some_iff.mp h
  obtain ⟨t, -, ht⟩ := List.mem_filterMap.mp (List.mem_of_find?_eq_some hfind)
  obtain ⟨d', hd', heq⟩ := Option.map_eq_some_iff.mp ht
  cases heq
  exact ⟨d, hd'⟩

theorem clientSearch_listed {p : Str} {o : ClientRef} (h : w.clientSearch p = some o) :
    o ∈ w.order := by
  obtain ⟨⟨s, d⟩, hfind, rfl⟩ := Option.map_eq_some_iff.mp h
  obtain ⟨t, ht_mem, ht⟩ := List.mem_filterMap.mp (List.mem_of_find?_eq_some hfind)
  obtain ⟨d', -, heq⟩ := Option.map_eq_some_iff.mp ht
  cases heq
  exact ht_mem

/-- A prefix that fits is not the name of this server. -/
theorem PrefixFits.ne_thisServer (hfits : PrefixFits w r req) (hw : OwnRecord w) (hl : Linked w)
    (hi : w.Has i r c) : req.pfx.bind w.clientSearch ≠ some w.thisServer := by
  intro hsearch
  obtain ⟨p, hp, hp'⟩ := Option.bind_eq_some_iff.mp hsearch
  obtain ⟨o, ho, hnext⟩ := hfits p hp
  obtain rfl : o = w.thisServer := Option.mem_unique ho hp'
  obtain ⟨d, hd⟩ := clientSearch_cell ho
  rw [hw.nextHop hd] at hnext
  exact hw.ne_client hl hi (Except.ok.inj hnext).symm

theorem nextHop_setConn (w : World) (i : ConnId) (conn : Conn) (o : ClientRef) :
    (w.setConn i conn).nextHop o = w.nextHop o := by
  have hwalk : ∀ n s, (w.setConn i conn).nextHopFrom n s = w.nextHopFrom n s := by
    intro n
    induction n with
    | zero => exact fun _ => rfl
    | succ n ih =>
      intro s
      simp only [World.nextHopFrom, ih]
      rfl
  exact hwalk _ o

/-- A penalty changes nothing about who is who. -/
theorem Penalised.same_clients (h : Penalised w i w') :
    w'.heap = w.heap ∧ w'.thisServer = w.thisServer ∧ w'.clientSearch = w.clientSearch ∧
      w'.nextHop = w.nextHop := by
  cases h with
  | none => exact ⟨rfl, rfl, rfl, rfl⟩
  | edit e => exact ⟨rfl, rfl, rfl, funext (nextHop_setConn w i _)⟩

/-- Whom a handler takes for the sender of a request with a prefix that fits. -/
theorem senderOf_fits (hc : w.heap r = some c) (hfits : PrefixFits w r req) :
    (senderOf req r).wp (msgWp .never anyFault) (fun a _ => ∀ sender, a = .ok sender →
      (c.type ≠ .server → sender = r) ∧ (c.type = .server → w.nextHop sender = .ok r)) w := by
  unfold senderOf
  simp only [Prog.wp_bind, wp_clientType, onClient_of_some hc]
  split_ifs with hserver
  · cases hpfx : req.pfx with
    | none => simp [clientID]
    | some p =>
      simp only [Prog.wp_bind, wp_getWorld]
      obtain ⟨o, ho, hnext⟩ := hfits p hpfx
      rw [ho]
      rintro sender ⟨⟩
      exact ⟨fun h => absurd hserver h, fun _ => hnext⟩
  · rintro sender ⟨⟩
    exact ⟨fun _ => rfl, fun h => absurd h hserver⟩

/-- If a line is given to the handler of a command, the sender that the handler
finds is the client of the connection, or, on a connection of a server, somebody
behind that server; and the request is not taken for one of this server. -/
theorem senders_not_forged {w₁ : World} {n : Nat} {line after : Str} {client : ClientRef}
    {type : ClientType} {cmd : Command} (hw : Reachable w) (hi : w.Has i r c)
    (hrun : execPlain n (dispatchLine i line after) w = .ok (.command client type cmd req, w₁)) :
    exec n (parseRequest i line after) w =
        exec n (Dispatch.finish (.command client type cmd req)) w₁ ∧
      client = r ∧
      (∀ m sender w₂, execMsg m (senderOf req client) w₁ = .ok (.ok sender, w₂) →
        (c.type ≠ .server → sender = r) ∧ (c.type = .server → w₁.nextHop sender = .ok r)) ∧
      req.pfx.bind w₁.clientSearch ≠ some w₁.thisServer := by
  obtain ⟨argv, rfl, -, hpenalty, hd, hfits, -⟩ :=
    (execPlain_ends (closer_settled n) (dispatchLine_known hw.linked hi line after)).of_ok hrun
  obtain ⟨hheap, hthis, hsearch, hnext⟩ := hpenalty.same_clients
  have hcell : w₁.heap client = some c := by rw [hheap, hi.cell]
  have hfits₁ : PrefixFits w₁ client req := by
    intro p hp
    rw [hsearch, hnext]
    exact hfits p hp
  refine ⟨parseRequest_of_dispatch hrun, rfl, fun m sender w₂ hsender => ?_, ?_⟩
  · exact (execMsg_ends (Closing.never_rightAbout _) (senderOf_fits hcell hfits₁)).of_ok
      hsender sender rfl
  · rw [hsearch, hthis]
    exact hfits.ne_thisServer hw.ownRecord hw.linked hi

end

/-- A configuration with another server. -/
def peerConf : Conf := { servers := [{ name := "irc.b", pwdIn := "x", pwdOut := "y" }] }

/-- The other server connects. -/
def peerLink : List Event :=
  [.accept 1 "127.0.0.1", .line 1 "PASS x 0210 IRC|" [], .line 1 "SERVER irc.b 1 :B" []]

/-- A MODE of the server comes to the handler as one of a server. -/
def dispatchesForServer (w : World) : Bool :=
  match execPlain 1 (dispatchLine 1 ":irc.b MODE #a +m" []) w with
  | .ok (.command 1 .server _ _, _) => true
  | _ => false

theorem senders_not_forged_peer :
    ∃ w w₁ cmd req, Reachable w ∧ execPlain 1 (dispatchLine 1 ":irc.b MODE #a +m" []) w =
        .ok (.command 1 .server cmd req, w₁) ∧
      (∀ m sender w₂, execMsg m (senderOf req 1) w₁ = .ok (.ok sender, w₂) →
        w₁.nextHop sender = .ok 1) ∧
      req.pfx.bind w₁.clientSearch ≠ some w₁.thisServer := by
  obtain ⟨w, hw, hsock, hclient, ⟨c, hcell, htype⟩, hline⟩ :
      ∃ w ∈ Event.runAll 1 peerLink (World.start peerConf {} "localhost"),
        (w.conns 1).sock = some 1 ∧ (w.conns 1).client = some 1 ∧
        (∃ c ∈ w.heap 1, c.type = .server) ∧ dispatchesForServer w = true := by decide +kernel
  unfold dispatchesForServer at hline
  split at hline
  · rename_i cmd req w₁ hdispatch
    have hreach := (Reachable.start peerConf {} "localhost").runAll hw
    have hi : w.Has 1 1 c := ⟨by simp [hsock], hclient, hcell⟩
    obtain ⟨-, -, hsender, hthis⟩ := senders_not_forged hreach hi hdispatch
    exact ⟨w, w₁, cmd, req, hreach, hdispatch,
      fun m sender w₂ h => (hsender m sender w₂ h).2 htype, hthis⟩
  · exact absurd hline Bool.false_ne_true

end Ngircd
