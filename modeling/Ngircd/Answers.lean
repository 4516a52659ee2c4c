import Ngircd.Telling

/-!
# Answers to a requester

While no write fails, a query that only reads and replies sends its replies to the
connection on which the requester is reached, each in the name of this server.
-/

namespace Ngircd

open Lib Prog

variable {client sender : ClientRef} {this c : Client} {l : List (ConnId × Str)}

/-- The requester `client` is reached on the open connection `i`, and this server has a name. -/
structure World.Answers (w : World) (i : ConnId) (client : ClientRef) (this : Client) : Prop where
  calm : w.Calm
  route : ∃ hop h, w.nextHop client = .ok hop ∧ w.heap hop = some h ∧ h.connId = some i
  sock : (w.conns i).sock ≠ none
  cell : w.heap w.thisServer = some this
  server : this.type = .server ∧ this.hasMode 'x' = false ∧ this.id ≠ []

section

variable {w w' : World} {i : ConnId}

theorem World.Answers.told (h : w.Answers i client this)
    (htold : Tells l w w') : w'.Answers i client this where
  calm := htold.quiet.calm h.calm
  route := by
    obtain ⟨hop, d, hnext, hd, hi⟩ := h.route
    exact ⟨hop, d, by rw [htold.quiet.nextHop, hnext], by rw [htold.sends.heap, hd], hi⟩
  sock := by
    rw [(htold.quiet.link i).sock]
    exact h.sock
  cell := by rw [htold.quiet.thisServer, htold.sends.heap, h.cell]
  server := h.server

theorem World.Answers.nameOrStar (h : w.Answers i client this) : this.nameOrStar = this.id :=
  if_neg (by simpa using h.server.2.2)

/-- The line of a reply. -/
theorem wp_lineFor_answers (h : w.Answers i client this) (text : Str)
    {Q : ConnId × Str → World → Prop} : (lineFor client w.thisServer text).wp quietWp Q w ↔
      Q (i, format ":%s %s" [this.id, text.take 999]) w := by
  obtain ⟨hop, d, hnext, hd, hi⟩ := h.route
  unfold lineFor getPrefix
  simp only [wp_bind, wp_nextHop_of_ok hnext, wp_deref, onClient_of_some hd, hi, wp_connOf_some,
    wp_clientType]
  split_ifs
  · simp only [wp_clientID, onClient_of_some h.cell, h.nameOrStar, wp_pure]
  · simp only [clientMaskCloaked, wp_bind, wp_deref, onClient_of_some h.cell, h.server.2.1,
      Bool.not_false, if_true, wp_pure, Client.mask, h.server.1]

theorem reply_answers (h : w.Answers i client this) (text : Str) :
    (reply client text).Sends [(i, serverText this.id text)] () w := by
  have hopen : (w.conns i).sock.isNone = false := by
    simpa [Option.isSome_iff_ne_none] using h.sock
  refine .read (a := w.thisServer) (by simp) ?_
  unfold Query.Sends replyPrefix
  rw [wp_bind, liftM_msg_query, wp_query_ofMsg, wp_lineFor_answers h]
  refine wp_quiet (connWriteStr_quiet h.calm i _) fun ok w' hsent hq => ?_
  obtain ⟨rfl, hsent⟩ := hsent
  refine ⟨by simpa [Option.isSome_iff_ne_none] using h.sock, rfl, ?_, hq⟩
  simpa only [World.lineOn, hopen, Bool.false_eq_true, if_false, serverText] using hsent

/-- A penalty is bookkeeping only. -/
theorem ircSetPenalty_tells (hc : w.heap client = some c) (seconds : Nat) :
    (ircSetPenalty client seconds).wp quietWp (fun _ w' => Tells [] w w') w := by
  have hnothing := Tells.nothing w
  simp only [ircSetPenalty, wp_bind, wp_deref, onClient_of_some hc]
  split_ifs
  · exact hnothing
  · cases c.connId with
    | none => exact hnothing
    | some i =>
      simp only [connSetPenalty, wp_bind, wp_getWorld, wp_editConn]
      exact ⟨Sends.setConn rfl, Quiet.setConn ⟨rfl, rfl, rfl, rfl, rfl⟩⟩

theorem World.Answers.requester (h : w.Answers i client this) : ∃ c, w.heap client = some c := by
  obtain ⟨hop, d, hnext, -⟩ := h.route
  cases hc : w.heap client with
  | some c => exact ⟨c, rfl⟩
  | none => simp [World.nextHop, World.nextHopFrom, hc] at hnext

theorem replyErr_answers (h : w.Answers i client this) (text : Str) :
    (replyErr client text).Sends [(i, serverText this.id text)] () w := by
  obtain ⟨c, hc⟩ := h.requester
  refine Query.Sends.bind (l := []) (a := ()) ?_ fun w' htold => reply_answers (h.told htold) text
  unfold Query.Sends
  rw [liftM_msg_query, wp_query_ofMsg]
  exact wp_mono (fun _ _ htold => ⟨rfl, htold⟩) (ircSetPenalty_tells hc 2)

/-- The client's own name as the requester of a reply. -/
theorem clientID_answers (hc : w.heap client = some c) :
    (clientID client).wp quietWp (fun a w' => a = c.nameOrStar ∧ w' = w) w := by
  rw [wp_clientID, onClient_of_some hc]
  exact ⟨rfl, rfl⟩

/-- A request that `client` hands on is the one of `sender`, and it is for this server. -/
structure Request.AnsweredHere (req : Request) (argc : Nat) (w : World)
    (client sender : ClientRef) : Prop where
  asked : (senderOf req client).wp quietWp (fun a w' => a = .ok sender ∧ w' = w) w
  here : (targetServerOf req argc sender).wp quietWp (fun a w' => a = .ok w.thisServer ∧ w' = w) w

theorem Request.AnsweredHere.sends {req : Request} {argc : Nat}
    {next : ClientRef → ClientRef → Query Unit}
    (h : req.AnsweredHere argc w client sender) (hnext : (next sender w.thisServer).Sends l () w) :
    Query.Sends (replySender req client fun pfx => replyTarget req argc pfx (next pfx)) l () w :=
  .read h.asked (.read h.here hnext)

end

end Ngircd
