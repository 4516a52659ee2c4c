import Mathlib.Data.Set.Card
import Ngircd.Daemon
import Ngircd.Lib.Forest
import Ngircd.Quiet

/-!
# The client tree

The `introducer` pointers make the client list a forest: this server and every
linked server are roots of their own, local clients hang on this server, remote
ones on the server that introduced them.  New structures are put in front of
the list, so a client always stands before its introducer.
-/

namespace Ngircd

open Lib

variable {w w' : World} {r s : ClientRef} {c c' p : Client} {n : Nat}

namespace World

/-- The introducer of a client that is there. -/
def up (w : World) (r : ClientRef) : Option ClientRef := (w.heap r).map (·.introducer)

theorem up_of_some (h : w.heap r = some c) :
    w.up r = some c.introducer := by
  simp [up, h]

theorem up_eq_some (h : w.up r = some s) :
    ∃ c, w.heap r = some c ∧ c.introducer = s := by
  simpa [up] using h

theorem up_congr
    (h : (w'.heap r).map Client.uncloak = (w.heap r).map Client.uncloak) : w'.up r = w.up r := by
  have hmap : ∀ o : Option Client, o.map (·.introducer) = (o.map Client.uncloak).map (·.introducer) :=
    fun o => by cases o <;> rfl
  rw [up, up, hmap, hmap (w.heap r), h]

/-- The walk of `Client_NextHop` reads nothing but introducers. -/
theorem nextHopFrom_congr {S : ClientRef → Prop} (hclosed : ∀ x y, S x → w.up x = some y → S y)
    (heq : ∀ x, S x → w'.up x = w.up x) (hthis : w'.thisServer = w.thisServer) (n : Nat)
    (hr : S r) : w'.nextHopFrom n r = w.nextHopFrom n r := by
  induction n generalizing r with
  | zero => rfl
  | succ n ih =>
    have hup := heq r hr
    cases hc : w.heap r with
    | none =>
      have hc' : w'.heap r = none := by simpa [up, hc] using hup
      simp only [nextHopFrom, hc, hc']
    | some c =>
      obtain ⟨c', hc', hintro⟩ := up_eq_some (hup.trans (up_of_some hc))
      have hnext := ih (hclosed r c.introducer hr (up_of_some hc))
      simp only [nextHopFrom, hc, hc', hintro, hthis, hnext]

theorem nextHop_congr (hup : w'.up = w.up) (hthis : w'.thisServer = w.thisServer)
    (hnext : w'.nextRef = w.nextRef) (r : ClientRef) : w'.nextHop r = w.nextHop r := by
  unfold nextHop
  rw [hnext]
  exact nextHopFrom_congr (S := fun _ => True) (fun _ _ _ _ => trivial) (fun x _ => by rw [hup])
    hthis _ trivial

/-- The walk of `Client_NextHop` ends on the chain of introducers. -/
theorem behind_of_nextHopFrom {h : ClientRef} (hnext : w.nextHopFrom n r = .ok h) :
    Behind w.up h r := by
  induction n generalizing r with
  | zero => exact nomatch hnext
  | succ n ih =>
    cases hc : w.heap r with
    | none => simp [nextHopFrom, hc] at hnext
    | some c =>
      simp only [nextHopFrom, hc] at hnext
      split_ifs at hnext with hend
      · obtain rfl : r = h := Except.ok.inj hnext
        rfl
      · exact (Behind.of_up (up_of_some hc)).trans (ih hnext)

/-- The clients on the list that go when a client goes. -/
def subtree (w : World) (r : ClientRef) : Set ClientRef := {x | x ∈ w.order ∧ Behind w.up r x}

theorem finite_order (w : World) (p : ClientRef → Prop) : {x | x ∈ w.order ∧ p x}.Finite :=
  (List.finite_toSet w.order).subset fun _ hx => hx.1

theorem subtree_card_le (w : World) (r : ClientRef) : (w.subtree r).ncard ≤ w.order.length := by
  have hsub : w.subtree r ⊆ (w.order.toFinset : Set ClientRef) := fun x hx => by
    simpa using hx.1
  calc (w.subtree r).ncard ≤ (w.order.toFinset : Set ClientRef).ncard :=
        Set.ncard_le_ncard hsub (Finset.finite_toSet _)
    _ = w.order.toFinset.card := Set.ncard_coe_finset _
    _ ≤ w.order.length := List.toFinset_card_le _

end World

/-- The structures on the client list are a tree whose parents are servers and older than
their children. -/
structure ClientTree (w : World) : Prop where
  desc : w.order.Pairwise (· > ·)
  linked : ∀ r, r ∈ w.order ↔ ∃ c, w.heap r = some c
  fresh : ∀ r ∈ w.order, r < w.nextRef
  own : ∃ c, w.heap w.thisServer = some c ∧ c.introducer = w.thisServer ∧ c.type = .server ∧
    c.connId = none
  older : ∀ r c, w.heap r = some c → c.introducer ≤ r
  parent : ∀ r c, w.heap r = some c →
    c.introducer = r ∨ ∃ p, w.heap c.introducer = some p ∧ p.type = .server
  home : ∀ r c i, w.heap r = some c → c.connId = some i →
    c.introducer = r ∨ c.introducer = w.thisServer

/-- The channel list and the table of memberships fit together. -/
structure Channels.InOrder (t : Channels) : Prop where
  nodup : t.order.Nodup
  cell : ∀ ch ∈ t.order, ∃ c, t.heap ch = some c
  channel : ∀ e ∈ t.cl2chan, e.channel ∈ t.order
  distinct : t.cl2chan.Pairwise fun e e' => ¬(e.channel = e'.channel ∧ e.client = e'.client)

/-- Channels and connections fit the client list: members of channels are users or
services that can be reached, and open connections have a slot in the pool. -/
structure InOrder (w : World) : Prop where
  chans : w.chans.InOrder
  member : ∀ e ∈ w.chans.cl2chan,
    ∃ c, w.heap e.client = some c ∧ (c.type = .user ∨ c.type = .service)
  reached : ∀ e ∈ w.chans.cl2chan, w.Reached e.client
  pool : ∀ i, (w.conns i).sock ≠ none → i < w.poolSize

/-- A client that is off the list is still there. -/
theorem Healthy.erase (hw : Healthy w) (r : ClientRef) :
    Healthy { w with order := w.order.erase r } := by
  have hnext : ({ w with order := w.order.erase r } : World).nextHop = w.nextHop := by
    funext x
    apply World.nextHop_congr <;> rfl
  refine ⟨hw.this, fun x hx => hw.listed x (List.mem_of_mem_erase hx), fun e he => ?_,
    hw.introducer, fun x c hc => ?_, fun x c i hc hi => ?_, hw.pool⟩
  · obtain ⟨c, k, kc, hc, hk, hrest⟩ := hw.member e he
    exact ⟨c, k, kc, hc, by rw [hnext, hk], hrest⟩
  · rw [hnext]
    exact hw.hop x c hc
  · rw [hnext]
    exact hw.home x c i hc hi

namespace ClientTree

variable (hw : ClientTree w)
include hw

theorem mem (hc : w.heap r = some c) : r ∈ w.order := (hw.linked r).mpr ⟨c, hc⟩

theorem cell (hr : r ∈ w.order) : ∃ c, w.heap r = some c := (hw.linked r).mp hr

theorem nodup : w.order.Nodup :=
  List.Pairwise.imp (fun h => (Nat.ne_of_lt h).symm) hw.desc

theorem up_le (x y : ClientRef) (h : w.up x = some y) : y ≤ x := by
  obtain ⟨c, hc, rfl⟩ := World.up_eq_some h
  exact hw.older x c hc

/-- A client is not behind its own children. -/
theorem not_behind_child (hchild : w.up s = some r) (hne : s ≠ r) : ¬Behind w.up s r := by
  intro h
  have hle : s ≤ r := h.le hw.up_le
  have hge : r ≤ s := hw.up_le s r hchild
  exact hne (Nat.le_antisymm hle hge)

theorem introducer_cell (hc : w.heap r = some c) : ∃ p, w.heap c.introducer = some p := by
  rcases hw.parent r c hc with h | ⟨p, hp, -⟩
  · exact ⟨c, by rw [h, hc]⟩
  · exact ⟨p, hp⟩

/-- This server is behind nobody else. -/
theorem not_behind_this (hne : r ≠ w.thisServer) : ¬Behind w.up r w.thisServer := by
  intro h
  obtain ⟨c, hc, hintro, -⟩ := hw.own
  have hroot : ∀ x, Behind w.up x w.thisServer → x = w.thisServer := by
    intro x hx
    induction hx with
    | refl => rfl
    | tail _ hstep ih =>
      rw [ih, World.up_of_some hc, hintro] at hstep
      exact (Option.some.inj hstep).symm
  exact hne (hroot r h)

/-- The walk of `Client_NextHop` ends, since introducers are older. -/
theorem nextHopFrom_ok (hn : r < n) (hc : w.heap r = some c) :
    ∃ h hc, w.nextHopFrom n r = .ok h ∧ w.heap h = some hc := by
  induction n generalizing r c with
  | zero => exact absurd hn (Nat.not_lt_zero r)
  | succ n ih =>
    simp only [World.nextHopFrom, hc]
    split_ifs with hend
    · exact ⟨r, c, rfl, hc⟩
    · obtain ⟨p, hp⟩ := hw.introducer_cell hc
      have hlt : c.introducer < r := by
        have hle := hw.older r c hc
        have hne : c.introducer ≠ r := fun h => hend (.inl h)
        exact Nat.lt_of_le_of_ne hle hne
      exact ih (Nat.lt_of_lt_of_le hlt (Nat.le_of_lt_succ hn)) hp

theorem healthy (hin : InOrder w) : Healthy w where
  this := by
    obtain ⟨c, hc, -⟩ := hw.own
    exact ⟨c, hc⟩
  listed r hr := hw.cell hr
  member := hin.reached
  introducer r c hc := hw.introducer_cell hc
  hop r c hc := hw.nextHopFrom_ok (Nat.lt_succ_of_lt (hw.fresh r (hw.mem hc))) hc
  home r c i hc hi := by
    simp only [World.nextHop, World.nextHopFrom, hc]
    exact if_pos (hw.home r c i hc hi)
  pool := hin.pool

end ClientTree

/-! ## Changes of the tree -/

/-- What the tree of clients consists of. -/
def Client.shape (c : Client) : Option ConnId × ClientRef × Bool :=
  (c.connId, c.introducer, c.type == .server)

/-- Two states have the same tree of clients; everything else may differ. -/
structure SameTree (w w' : World) : Prop where
  order : w'.order = w.order
  nextRef : w'.nextRef = w.nextRef
  thisServer : w'.thisServer = w.thisServer
  cell : ∀ r, (w'.heap r).map Client.shape = (w.heap r).map Client.shape

theorem SameTree.heap_some (h : SameTree w w') (hc : w.heap r = some c) :
    ∃ c', w'.heap r = some c' ∧ c'.shape = c.shape := by
  have hcell := h.cell r
  rw [hc] at hcell
  exact Option.map_eq_some_iff.mp hcell

theorem SameTree.symm (h : SameTree w w') : SameTree w' w :=
  ⟨h.order.symm, h.nextRef.symm, h.thisServer.symm, fun r => (h.cell r).symm⟩

theorem Client.shape_eq (h : c'.shape = c.shape) :
    c'.connId = c.connId ∧ c'.introducer = c.introducer ∧
      (c'.type = .server ↔ c.type = .server) := by
  simp only [Client.shape, Prod.mk.injEq] at h
  obtain ⟨hconn, hintro, hserver⟩ := h
  refine ⟨hconn, hintro, ?_⟩
  rw [← beq_iff_eq, hserver, beq_iff_eq]

namespace ClientTree

theorem start (conf : Conf) (env : Env) (host : Str) : ClientTree (World.start conf env host) := by
  have hself {r : ClientRef} {c : Client} (hc : (World.start conf env host).heap r = some c) :
      c.introducer = r :=
    (World.start_cell hc).introducer.trans (World.start_cell hc).ref.symm
  refine ⟨List.pairwise_singleton _ _, fun r => ?_, fun r hr => ?_, ⟨_, rfl, rfl, rfl, rfl⟩,
    fun r c hc => ?_, fun r c hc => ?_, fun r c i hc hi => ?_⟩
  · constructor
    · intro hr
      obtain rfl : r = 0 := List.mem_singleton.mp hr
      exact ⟨_, rfl⟩
    · rintro ⟨c, hc⟩
      exact List.mem_singleton.mpr (World.start_cell hc).ref
  · obtain rfl : r = 0 := List.mem_singleton.mp hr
    exact Nat.one_pos
  · exact Nat.le_of_eq (hself hc)
  · exact .inl (hself hc)
  · exact .inl (hself hc)

/-- A new client below a server. -/
theorem addClient (hw : ClientTree w) (hp : w.heap c.introducer = some p)
    (hserver : p.type = .server) (hhome : ∀ i, c.connId = some i → c.introducer = w.thisServer) :
    ClientTree (w.addClient c) := by
  have hnew : w.heap w.nextRef = none := by
    cases hcell : w.heap w.nextRef with
    | none => rfl
    | some d => exact absurd (hw.fresh _ (hw.mem hcell)) (Nat.lt_irrefl _)
  -- The structures that are there keep their place.
  have hold {r : ClientRef} {d : Client} (hd : w.heap r = some d) :
      (w.addClient c).heap r = some d := by
    have hne : r ≠ w.nextRef := fun h => by simp [h, hnew] at hd
    exact (World.setHeap_heap_ne w hne _).trans hd
  have hcases {r : ClientRef} {d : Client} (hd : (w.addClient c).heap r = some d) :
      (r = w.nextRef ∧ d = c) ∨ w.heap r = some d := by
    exact (World.setHeap_heap_cases (w := w) hd).imp_right And.right
  have hbelow : c.introducer < w.nextRef := hw.fresh _ (hw.mem hp)
  obtain ⟨this, hthis, hown⟩ := hw.own
  refine ⟨List.pairwise_cons.mpr ⟨fun r hr => hw.fresh r hr, hw.desc⟩, fun r => ?_, fun r hr => ?_,
    ⟨this, hold hthis, hown⟩, fun r d hd => ?_, fun r d hd => ?_, fun r d i hd hi => ?_⟩
  · constructor
    · intro hr
      rcases List.mem_cons.mp hr with rfl | hr
      · exact ⟨c, World.setHeap_heap_self _ _ _⟩
      · obtain ⟨d, hd⟩ := hw.cell hr
        exact ⟨d, hold hd⟩
    · rintro ⟨d, hd⟩
      rcases hcases hd with ⟨rfl, -⟩ | hd
      · exact .head _
      · exact .tail _ (hw.mem hd)
  · rcases List.mem_cons.mp hr with rfl | hr
    · exact Nat.lt_succ_self _
    · exact Nat.lt_succ_of_lt (hw.fresh r hr)
  · rcases hcases hd with ⟨rfl, rfl⟩ | hd
    · exact Nat.le_of_lt hbelow
    · exact hw.older r d hd
  · rcases hcases hd with ⟨rfl, rfl⟩ | hd
    · exact .inr ⟨p, hold hp, hserver⟩
    · rcases hw.parent r d hd with h | ⟨q, hq, htype⟩
      · exact .inl h
      · exact .inr ⟨q, hold hq, htype⟩
  · rcases hcases hd with ⟨rfl, rfl⟩ | hd
    · exact .inr (hhome i hi)
    · exact hw.home r d i hd hi

/-- A local client becomes a root of its own. -/
theorem promote (hw : ClientTree w) (hc : w.heap r = some c) {i : ConnId} (hi : c.connId = some i)
    {t : ClientType} (ht : c.type = .server → t = .server) :
    ClientTree (w.setHeap r (some { c with introducer := r, type := t })) := by
  have hne : r ≠ w.thisServer := by
    rintro rfl
    obtain ⟨d, hd, -, -, hnone⟩ := hw.own
    rw [hc] at hd
    rw [← Option.some.inj hd, hi] at hnone
    exact nomatch hnone
  have hserver {s : ClientRef} {d : Client} (hd : w.heap s = some d) (htype : d.type = .server) :
      ∃ d', (w.setHeap r (some { c with introducer := r, type := t })).heap s = some d' ∧
        d'.type = .server := by
    by_cases hs : s = r
    · subst hs
      rw [hc] at hd
      obtain rfl := Option.some.inj hd
      exact ⟨_, World.setHeap_heap_self _ _ _, ht htype⟩
    · exact ⟨d, (World.setHeap_heap_ne w hs _).trans hd, htype⟩
  obtain ⟨this, hthis, hown⟩ := hw.own
  refine ⟨hw.desc, fun s => ?_, hw.fresh,
    ⟨this, (World.setHeap_heap_ne w hne.symm _).trans hthis, hown⟩, fun s d hd => ?_,
    fun s d hd => ?_, fun s d j hd hj => ?_⟩
  · rw [show (w.setHeap r _).order = w.order from rfl, hw.linked]
    by_cases hs : s = r
    · subst hs
      simp [hc]
    · rw [World.setHeap_heap_ne w hs]
  · rcases World.setHeap_heap_cases hd with ⟨rfl, rfl⟩ | ⟨-, hd⟩
    · exact Nat.le_refl s
    · exact hw.older s d hd
  · rcases World.setHeap_heap_cases hd with ⟨rfl, rfl⟩ | ⟨-, hd⟩
    · exact .inl rfl
    · rcases hw.parent s d hd with h | ⟨p, hp, htype⟩
      · exact .inl h
      · exact .inr (hserver hp htype)
  · rcases World.setHeap_heap_cases hd with ⟨rfl, rfl⟩ | ⟨-, hd⟩
    · exact .inl rfl
    · exact hw.home s d j hd hj

theorem of_sameTree (hw : ClientTree w) (h : SameTree w w') : ClientTree w' := by
  have hback {r : ClientRef} {c : Client} (hc : w'.heap r = some c) :
      ∃ c₀, w.heap r = some c₀ ∧ c.connId = c₀.connId ∧ c.introducer = c₀.introducer := by
    obtain ⟨c₀, hc₀, hshape⟩ := h.symm.heap_some hc
    obtain ⟨hconn, hintro, -⟩ := Client.shape_eq hshape
    exact ⟨c₀, hc₀, hconn.symm, hintro.symm⟩
  have hserver {r : ClientRef} {c : Client} (hc : w.heap r = some c) (htype : c.type = .server) :
      ∃ c', w'.heap r = some c' ∧ c'.connId = c.connId ∧ c'.introducer = c.introducer ∧
        c'.type = .server := by
    obtain ⟨c', hc', hshape⟩ := h.heap_some hc
    obtain ⟨hconn, hintro, htype'⟩ := Client.shape_eq hshape
    exact ⟨c', hc', hconn, hintro, htype'.mpr htype⟩
  refine ⟨by rw [h.order]; exact hw.desc, fun r => ?_, fun r hr => ?_, ?_, fun r c hc => ?_,
    fun r c hc => ?_, fun r c i hc hi => ?_⟩
  · rw [h.order, hw.linked]
    constructor
    · rintro ⟨c, hc⟩
      obtain ⟨c', hc', -⟩ := h.heap_some hc
      exact ⟨c', hc'⟩
    · rintro ⟨c, hc⟩
      obtain ⟨c₀, hc₀, -⟩ := hback hc
      exact ⟨c₀, hc₀⟩
  · rw [h.order] at hr
    rw [h.nextRef]
    exact hw.fresh r hr
  · obtain ⟨c, hc, hintro, htype, hnone⟩ := hw.own
    obtain ⟨c', hc', hconn, hintro', htype'⟩ := hserver hc htype
    rw [h.thisServer]
    exact ⟨c', hc', hintro'.trans hintro, htype', hconn.trans hnone⟩
  · obtain ⟨c₀, hc₀, -, hintro⟩ := hback hc
    rw [hintro]
    exact hw.older r c₀ hc₀
  · obtain ⟨c₀, hc₀, -, hintro⟩ := hback hc
    rw [hintro]
    rcases hw.parent r c₀ hc₀ with hself | ⟨p, hp, htype⟩
    · exact .inl hself
    · obtain ⟨p', hp', -, -, htype'⟩ := hserver hp htype
      exact .inr ⟨p', hp', htype'⟩
  · obtain ⟨c₀, hc₀, hconn, hintro⟩ := hback hc
    rw [hintro, h.thisServer]
    exact hw.home r c₀ i hc₀ (hconn ▸ hi)

end ClientTree

end Ngircd
