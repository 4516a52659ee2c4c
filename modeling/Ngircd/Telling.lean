import Ngircd.Quiet
import Ngircd.Reading

/-!
# What a new server is told, when no write fails

A query ends early at the first reply that cannot be sent.  As long as the
connection is open and every write is taken, it runs to its end, and all it does
is send its replies.  So what a query sends is the concatenation of what its
parts send.
-/

namespace Ngircd

open Lib Prog

variable {l l' : List (ConnId × Str)} {w : World} {q : Query Unit} {head name : Str} {r : ClientRef}

/-- These lines have been sent, and apart from the bookkeeping of connections nothing has
happened. -/
structure Tells (lines : List (ConnId × Str)) (w w' : World) : Prop where
  sends : Sends lines w w'
  quiet : Quiet w w'

namespace Tells

variable {w₁ w₂ w₃ : World}

theorem nothing (w : World) : Tells [] w w := ⟨Sends.none w, Quiet.refl w⟩

theorem append (h : Tells l w₁ w₂) (h' : Tells l' w₂ w₃) : Tells (l ++ l') w₁ w₃ :=
  ⟨h.sends.append h'.sends, h.quiet.trans h'.quiet⟩

end Tells

/-- Transformers for queries none of whose replies fails. -/
def tellWp : Transformer (ReplyOp.Res MsgOp.Res) World
  | .base m, Q, w => quietWp m Q w
  | .send i text, Q, w => (connWriteStr i text).wp quietWp (fun ok w' => ok = true ∧ Q () w') w

instance tellWp_mono : Prog.Monotone tellWp where
  mono op Q Q' w h hQ := by
    cases op with
    | base m => exact msgWp_mono.mono m Q Q' w h hQ
    | send i text => exact wp_mono (fun _ w' hw' => ⟨hw'.1, h () w' hw'.2⟩) hQ

section

variable {α β : Type}

/-- A query whose replies are all sent ends with `CONNECTED`. -/
theorem wp_toMsg {Q : Bool → World → Prop}
    (h : q.wp tellWp (fun _ => Q connected) w) : q.toMsg.wp quietWp Q w := by
  induction q generalizing w with
  | done a => exact h
  | call op next ih =>
    cases op with
    | base m => exact msgWp_mono.mono m _ _ w (fun r w' hw' => ih r hw') h
    | send i text =>
      simp only [Query.toMsg, wp_bind]
      refine wp_mono (fun ok w' hw' => ?_) h
      obtain ⟨rfl, hw'⟩ := hw'
      exact ih () hw'

@[simp] theorem wp_query_ofMsg (p : Msg α) {Q : α → World → Prop} :
    (Query.ofMsg p).wp tellWp Q w ↔ p.wp quietWp Q w :=
  Prog.wp_run _ p

@[simp] theorem liftM_msg_query (p : Msg α) : (liftM p : Query α) = Query.ofMsg p := rfl

/-- A query that sends the lines `l` and answers `a`. -/
def Query.Sends (q : Query α) (l : List (ConnId × Str)) (a : α) (w : World) : Prop :=
  q.wp tellWp (fun b w' => b = a ∧ Tells l w w') w

theorem Query.Sends.pure (a : α) (w : World) : Query.Sends (pure a) [] a w :=
  ⟨rfl, Tells.nothing w⟩

theorem Query.Sends.bind {q : Query α} {f : α → Query β} {a : α}
    {b : β} (hq : q.Sends l a w) (hf : ∀ w', Tells l w w' → (f a).Sends l' b w') :
    (q >>= f).Sends (l ++ l') b w := by
  unfold Query.Sends
  rw [wp_bind]
  refine wp_mono (fun a' w' h => ?_) hq
  obtain ⟨rfl, htold⟩ := h
  exact wp_mono (fun _ w'' h' => ⟨h'.1, htold.append h'.2⟩) (hf w' htold)

/-- A query may read before it sends. -/
theorem Query.Sends.read {p : Msg α} {f : α → Query β} {a : α} {b : β}
    (hp : p.wp quietWp (fun a' w' => a' = a ∧ w' = w) w) (hf : (f a).Sends l b w) :
    ((liftM p : Query α) >>= f).Sends l b w := by
  unfold Query.Sends
  rw [wp_bind, liftM_msg_query, wp_query_ofMsg]
  refine wp_mono (fun a' w' h => ?_) hp
  obtain ⟨rfl, rfl⟩ := h
  exact hf

/-- A loop sends what its rounds send. -/
theorem Query.Sends.forEach {f : α → Query Unit} {line : α → List (ConnId × Str)} (as : List α)
    (hf : ∀ a ∈ as, ∀ l w', Tells l w w' → (f a).Sends (line a) () w') :
    Query.Sends (Prog.forEach f as) (as.flatMap line) () w := by
  induction as generalizing w with
  | nil => exact Query.Sends.pure () w
  | cons a as ih =>
    refine (hf a (.head _) [] w (Tells.nothing w)).bind fun w' htold => ?_
    refine ih fun b hb l w'' hl => ?_
    exact hf b (.tail _ hb) _ w'' (htold.append hl)

/-- A loop with one line for each round. -/
theorem Query.Sends.forEach_line {f : α → Query Unit} {line : α → ConnId × Str} (as : List α)
    (hf : ∀ a ∈ as, ∀ l w', Tells l w w' → (f a).Sends [line a] () w') :
    Query.Sends (Prog.forEach f as) (as.map line) () w := by
  rw [List.map_eq_flatMap]
  exact Query.Sends.forEach as hf

/-- Such a query runs to its end. -/
theorem Query.Sends.run (h : q.Sends l () w) (n : Nat) :
    ∃ w', execMsg n q.toMsg w = .ok (connected, w') ∧ Tells l w w' := by
  have htold : q.wp tellWp (fun _ w' => connected = connected ∧ Tells l w w') w :=
    wp_mono (fun _ _ hw' => ⟨rfl, hw'.2⟩) h
  obtain ⟨_, w', hrun, rfl, htells⟩ :=
    execMsg_of_wp (wp_toMsg (Q := fun b w' => b = connected ∧ Tells l w w') htold) n
  exact ⟨w', hrun, htells⟩

end

/-! ## Replies to servers -/

/-- The connection `i` is open and leads to the server `r`. -/
structure World.Peer (w : World) (i : ConnId) (r : ClientRef) : Prop where
  cell : ∃ c, w.heap r = some c ∧ c.type = .server ∧ c.connId = some i
  sock : (w.conns i).sock ≠ none

/-- The state of a server that can talk to the server `client` on the connection `i`. -/
structure World.Speaks (w : World) (i : ConnId) (client : ClientRef) (this : Client) : Prop where
  healthy : Healthy w
  calm : w.Calm
  peer : w.Peer i client
  this : w.heap w.thisServer = some this

/-- The line with which a text of a client goes to a server. -/
def serverText (name text : Str) : Str := cutLine (format ":%s %s" [name, text.take 999])

theorem cutLine_append (h : head.length ≤ 505) (tail : Str) :
    ∃ tail', cutLine (head ++ tail) = head ++ tail' := by
  unfold cutLine
  split
  · rw [List.take_append, List.take_of_length_le (by simpa [commandLen] using h), List.append_assoc]
    exact ⟨_, rfl⟩
  · exact ⟨tail, rfl⟩

/-- A line that is too long is cut behind its head. -/
theorem serverText_append (h : name.length + head.length ≤ 503) (tail : Str) :
    ∃ tail', serverText name (head ++ tail) = prefixed name (head ++ tail') := by
  have htake : (head ++ tail).take 999 = head ++ tail.take (999 - head.length) := by
    rw [List.take_append, List.take_of_length_le (by omega)]
  have hshape (t : Str) : prefixed name (head ++ t) = prefixed name head ++ t := by simp [prefixed]
  have hlength : (prefixed name head).length ≤ 505 := by
    simp only [prefixed, List.length_cons, List.length_append]
    omega
  obtain ⟨tail', htail⟩ := cutLine_append hlength (tail.take (999 - head.length))
  exact ⟨tail', by rw [serverText, htake, format_prefixed, hshape, htail, hshape]⟩

theorem serverText_of_short {text : Str} (h : name.length + text.length ≤ 508) :
    serverText name text = prefixed name text := by
  have hlength : ¬(prefixed name text).length ≥ commandLen - 2 := by
    simp only [prefixed, commandLen, List.length_cons, List.length_append]
    omega
  rw [serverText, List.take_of_length_le (by omega), format_prefixed, cutLine, if_neg hlength]

section

variable {w' : World} {i : ConnId} {client pfx : ClientRef} {this p : Client}

theorem World.Peer.quiet (h : w.Peer i client) (hq : Quiet w w') : w'.Peer i client := by
  obtain ⟨c, hc, htype, hconn⟩ := h.cell
  obtain ⟨host, hc'⟩ := hq.heap_some hc
  refine ⟨⟨_, hc', htype, hconn⟩, ?_⟩
  rw [(hq.link i).sock]
  exact h.sock

theorem World.Speaks.told (h : w.Speaks i client this)
    (htold : Tells l w w') : w'.Speaks i client this where
  healthy := htold.quiet.healthy h.healthy
  calm := htold.quiet.calm h.calm
  peer := h.peer.quiet htold.quiet
  this := by rw [htold.quiet.thisServer, htold.sends.heap, h.this]

variable (h : w.Speaks i client this)
include h

/-- Lines for a server go out on its connection, in the name of a client. -/
theorem wp_lineFor_peer (hp : w.heap pfx = some p) (text : Str) {Q : ConnId × Str → World → Prop} :
    (lineFor client pfx text).wp quietWp Q w ↔
      Q (i, format ":%s %s" [p.nameOrStar, text.take 999]) w := by
  obtain ⟨c, hc, htype, hconn⟩ := h.peer.cell
  have hnext := h.healthy.home client c i hc hconn
  unfold lineFor getPrefix
  simp only [wp_bind, wp_nextHop_of_ok hnext, wp_deref, onClient_of_some hc, hconn,
    wp_connOf_some, wp_clientType, htype, if_true, wp_clientID, onClient_of_some hp, wp_pure]

theorem connWriteStr_tells (line : Str) :
    (connWriteStr i line).wp quietWp (fun ok w' => ok = true ∧ Tells [(i, cutLine line)] w w') w := by
  have hopen : (w.conns i).sock.isNone = false := by
    simpa [Option.isSome_iff_ne_none] using h.peer.sock
  refine wp_quiet (connWriteStr_quiet h.calm i line) fun ok w' hsent hq => ?_
  obtain ⟨rfl, hsent⟩ := hsent
  refine ⟨by simpa [Option.isSome_iff_ne_none] using h.peer.sock, ?_, hq⟩
  simpa only [World.lineOn, hopen, Bool.false_eq_true, if_false] using hsent

theorem ircWriteStrClientPrefix_tells (hp : w.heap pfx = some p) (text : Str) :
    (ircWriteStrClientPrefix client pfx text).wp quietWp
      (fun ok w' => ok = true ∧ Tells [(i, serverText p.nameOrStar text)] w w') w := by
  unfold ircWriteStrClientPrefix
  rw [wp_bind, wp_lineFor_peer h hp]
  exact connWriteStr_tells h _

theorem replyPrefix_sends (hp : w.heap pfx = some p) (text : Str) :
    (replyPrefix client pfx text).Sends [(i, serverText p.nameOrStar text)] () w := by
  unfold Query.Sends replyPrefix
  rw [wp_bind, liftM_msg_query, wp_query_ofMsg, wp_lineFor_peer h hp]
  refine wp_mono (t := quietWp) (fun ok w' hw' => ?_) (connWriteStr_tells h _)
  exact ⟨hw'.1, rfl, hw'.2⟩

theorem reply_sends (text : Str) :
    (reply client text).Sends [(i, serverText this.nameOrStar text)] () w :=
  .read (by simp) (replyPrefix_sends h h.this text)

end

/-! ## Small networks -/

/-- A server and the clients it knows, in the order in which they came.  The client with the
number `r` is on the connection `r`, if it has one. -/
structure SmallNet where
  clients : List Client
  chans : Channels := {}
  conf : Conf := {}
  misc : Misc := {}
  now : Nat := 0

namespace SmallNet

/-- The state of the server; its own structure is the first. -/
def world (n : SmallNet) : World where
  conns i := if (n.clients[i]?).any (·.connId.isSome) then { sock := some i, client := some i } else {}
  poolSize := n.clients.length
  heap r := n.clients[r]?
  order := (List.range n.clients.length).reverse
  nextRef := n.clients.length
  chans := n.chans
  conf := n.conf
  misc := n.misc
  now := n.now

/-- The client on whose connection a client is reached. -/
def hop (n : SmallNet) (r : ClientRef) : Option Client :=
  match n.world.nextHop r with
  | .ok h => n.clients[h]?
  | .error _ => none

/-- Every client has an introducer and is reached, one with a connection on that, members of
channels on some connection. -/
structure Linked (n : SmallNet) : Prop where
  this : n.clients ≠ []
  client : ∀ r < n.clients.length, ∀ c ∈ n.clients[r]?, c.introducer < n.clients.length ∧
    (n.hop r).isSome ∧ (c.connId.isSome → c.introducer = r ∨ c.introducer = 0)
  member : ∀ e ∈ n.chans.cl2chan, e.client < n.clients.length ∧
    (n.hop e.client).any (·.connId.isSome)

instance (n : SmallNet) : Decidable n.Linked :=
  decidable_of_iff (n.clients ≠ [] ∧
      (∀ r < n.clients.length, ∀ c ∈ n.clients[r]?, c.introducer < n.clients.length ∧
        (n.hop r).isSome ∧ (c.connId.isSome → c.introducer = r ∨ c.introducer = 0)) ∧
      ∀ e ∈ n.chans.cl2chan, e.client < n.clients.length ∧ (n.hop e.client).any (·.connId.isSome))
    ⟨fun h => ⟨h.1, h.2.1, h.2.2⟩, fun h => ⟨h.this, h.client, h.member⟩⟩

variable {n : SmallNet}

theorem exists_client (hr : r < n.clients.length) : ∃ c, n.world.heap r = some c :=
  ⟨n.clients[r], List.getElem?_eq_getElem hr⟩

theorem lt_of_heap {c : Client} (h : n.world.heap r = some c) :
    r < n.clients.length :=
  (List.getElem?_eq_some_iff.mp h).1

theorem exists_hop (h : (n.hop r).isSome) :
    ∃ k kc, n.world.nextHop r = .ok k ∧ n.world.heap k = some kc ∧ n.hop r = some kc := by
  obtain ⟨kc, hkc⟩ := Option.isSome_iff_exists.mp h
  have hhop := hkc
  unfold hop at hhop
  split at hhop
  · rename_i k hk
    exact ⟨k, kc, hk, hhop, hkc⟩
  · exact nomatch hhop

theorem Linked.healthy (h : n.Linked) : Healthy n.world where
  this := exists_client (List.length_pos_of_ne_nil h.this)
  listed r hr := by
    have hlt : r < n.clients.length := by simpa [world] using hr
    exact exists_client hlt
  member e he := by
    obtain ⟨hlt, hany⟩ := h.member e he
    obtain ⟨c, hc⟩ := exists_client hlt
    obtain ⟨k, kc, hnext, hkc, hhop⟩ := exists_hop (Option.isSome_of_any hany)
    refine ⟨c, k, kc, hc, hnext, hkc, ?_⟩
    rw [hhop, Option.any_some] at hany
    exact Option.isSome_iff_ne_none.mp hany
  introducer r c hc := exists_client (h.client r (lt_of_heap hc) c hc).1
  hop r c hc := by
    obtain ⟨-, hsome, -⟩ := h.client r (lt_of_heap hc) c hc
    obtain ⟨k, kc, hnext, hkc, -⟩ := exists_hop hsome
    exact ⟨k, kc, hnext, hkc⟩
  home r c i hc hi := by
    obtain ⟨-, -, hlocal⟩ := h.client r (lt_of_heap hc) c hc
    have hthis : n.world.thisServer = 0 := rfl
    simp [World.nextHop, World.nextHopFrom, hc, hthis, hlocal (by simp [hi])]
  pool i hi := by
    by_contra hge
    refine hi ?_
    simp [world, List.getElem?_eq_none (Nat.le_of_not_lt hge)]

theorem calm (n : SmallNet) : n.world.Calm := fun _ _ => rfl

end SmallNet

end Ngircd
