import Ngircd.LocalServer
import Ngircd.Places

/-!
# Top servers

A server that another one introduces remembers two clients: the link it came over
(its introducer) and the server that the SERVER command names as its source (its
top server).  Removal follows introducers.  This module shows when that is enough
to keep every top server on the client list: whenever no server that is removed
by a SQUIT is the top server of another one.
-/

namespace Ngircd

open Lib

variable {k T r x : ClientRef} {S : ClientRef → Prop} {w w' w₁ : World} {new d c c' t : Client}
  {l f : Option Str} {sendQuit isServer b : Bool} {i : ConnId} {text after : Str} {n : Nat}

/-! ## New clients -/

/-- The state has a new client. -/
structure Grown (w w' : World) (new : Client) : Prop where
  this : w'.thisServer = w.thisServer
  order : w'.order = w.nextRef :: w.order
  next : w'.nextRef = w.nextRef + 1
  old : ∀ k, k ≠ w.nextRef → w'.heap k = w.heap k
  new : w'.heap w.nextRef = some new
  linked : Linked w'

namespace Grown

theorem cases (h : Grown w w' new) (hd : w'.heap k = some d) :
    (k = w.nextRef ∧ d = new) ∨ (k ≠ w.nextRef ∧ w.heap k = some d) := by
  by_cases hk : k = w.nextRef
  · subst hk
    exact .inl ⟨rfl, Option.mem_unique hd h.new⟩
  · exact .inr ⟨hk, (h.old k hk).symm.trans hd⟩

theorem mem (h : Grown w w' new) (hk : k ∈ w'.order) (hne : k ≠ w.nextRef) : k ∈ w.order := by
  rw [h.order] at hk
  exact (List.mem_cons.mp hk).resolve_left hne

theorem kept (h : Grown w w' new) (hk : k ∈ w.order) : k ∈ w'.order :=
  h.order ▸ List.mem_cons_of_mem _ hk

theorem addClient (hw : Linked w) (hconn : new.connId = none) : Grown w (w.addClient new) new :=
  ⟨rfl, rfl, rfl, fun _ hk => World.setHeap_heap_ne w hk _, World.setHeap_heap_self w _ _,
    (Settled.addClient hconn).linked hw⟩

theorem openConn (hw : Linked w)
    (hintro : new.introducer = w.thisServer ∨ new.introducer = w.nextRef) (i : ConnId) (conn : Conn) :
    Grown w (w.openConn i new conn)
      { new with starttime := w.now, connId := some i, hops := 0, token := 0 } :=
  ⟨rfl, rfl, rfl, fun _ hk => World.setHeap_heap_ne w hk _, World.setHeap_heap_self w _ _,
    hw.openConn i conn hintro⟩

end Grown

/-! ## Where clients hang

What the invariants of this module and of the next one have in common. -/

/-- Clients are younger than those who have introduced them; those in `S` are local and
have introduced nobody. -/
structure Hangs (T : ClientRef) (S : ClientRef → Prop) (w : World) : Prop where
  this : w.thisServer = T
  linked : Linked w
  listed : Listed w
  own : ∀ c, w.heap T = some c → c.introducer = T ∧ c.connId = none
  older : ∀ r ∈ w.order, ∀ c, w.heap r = some c → c.introducer ≤ r
  childless : ∀ r, S r → ∀ k ∈ w.order, ∀ c, w.heap k = some c → c.introducer = r → k = r
  located : ∀ r, S r → ∀ c, w.heap r = some c → c.connId ≠ none

namespace Hangs

/-- A change of client structures in their places. -/
theorem moved (h : Hangs T S w) (hthis : w'.thisServer = w.thisServer)
    (horder : w'.order = w.order) (hnext : w'.nextRef = w.nextRef) (hlinked : Linked w')
    (hcell : ∀ k c', w'.heap k = some c' → ∃ c, w.heap k = some c ∧ c'.connId = c.connId ∧
      (c'.introducer = c.introducer ∨ c'.introducer = k)) : Hangs T S w' where
  this := hthis.trans h.this
  linked := hlinked
  listed := h.listed.of_same horder hnext
  own c' hc' := by
    obtain ⟨c, hc, hconn, hintro⟩ := hcell T c' hc'
    obtain ⟨hown, hnone⟩ := h.own c hc
    exact ⟨hintro.elim (fun hsame => hsame.trans hown) id, hconn.trans hnone⟩
  older k hk c' hc' := by
    obtain ⟨c, hc, -, hintro⟩ := hcell k c' hc'
    rcases hintro with hsame | hself
    · rw [hsame]
      exact h.older k (horder ▸ hk) c hc
    · exact Nat.le_of_eq hself
  childless s hs k hk c' hc' hs' := by
    obtain ⟨c, hc, -, hintro⟩ := hcell k c' hc'
    rcases hintro with hsame | hself
    · exact h.childless s hs k (horder ▸ hk) c hc (hsame.symm.trans hs')
    · exact hself.symm.trans hs'
  located s hs c' hc' := by
    obtain ⟨c, hc, hconn, -⟩ := hcell s c' hc'
    rw [hconn]
    exact h.located s hs c hc

theorem start (conf : Conf) (env : Env) (host : Str) :
    Hangs 0 (fun _ => False) (World.start conf env host) where
  this := rfl
  linked := (Reachable.start conf env host).linked
  listed := (Reachable.start conf env host).inListOrder
  own _ hc := ⟨(World.start_cell hc).introducer, (World.start_cell hc).connId⟩
  older r _ c hc := by
    rw [(World.start_cell hc).introducer]
    exact Nat.zero_le r
  childless _ hr := hr.elim
  located _ hr := hr.elim

theorem of_places (h : Hangs T S w) (hsame : SamePlaces w w') : Hangs T S w' := by
  refine h.moved hsame.this hsame.order hsame.nextRef (hsame.linked h.linked) fun k c' hc' => ?_
  obtain ⟨c, hc, hsite⟩ := hsame.cell hc'
  obtain ⟨hconn, hintro, -⟩ := Client.site_eq hsite
  exact ⟨c, hc, hconn, .inl hintro⟩

theorem setHeap (h : Hangs T S w) (hc : w.heap r = some c)
    (hconn : c'.connId = c.connId) (hintro : c'.introducer = c.introducer ∨ c'.introducer = r) :
    Hangs T S (w.setHeap r (some c')) := by
  refine h.moved rfl rfl rfl ((Steady.setHeap hc hconn hintro).linked h.linked) fun k d hd => ?_
  rcases World.setHeap_heap_cases hd with ⟨rfl, rfl⟩ | ⟨-, hd⟩
  · exact ⟨c, hc, hconn, hintro⟩
  · exact ⟨d, hd, rfl, .inl rfl⟩

theorem unlink (h : Hangs T S w) (r : ClientRef) :
    Hangs T S { w with order := w.order.erase r } where
  this := h.this
  linked := ⟨h.linked.slot, h.linked.cell, h.linked.link, h.linked.home⟩
  listed := h.listed.erase r
  own := h.own
  older k hk := h.older k (List.mem_of_mem_erase hk)
  childless s hs k hk := h.childless s hs k (List.mem_of_mem_erase hk)
  located := h.located

theorem free (h : Hangs T S w) (r : ClientRef) : Hangs T S (w.setHeap r none) := by
  refine h.moved rfl rfl rfl ((Settled.free w r).linked h.linked) fun k c hc => ?_
  exact ⟨c, World.heap_of_free hc, rfl, .inl rfl⟩

theorem add (h : Hangs T (fun _ => False) w) (hT : T < w.nextRef)
    (hnew : Grown w w' new) (hintro : new.introducer ≤ w.nextRef) :
    Hangs T (fun _ => False) w' where
  this := hnew.this.trans h.this
  linked := hnew.linked
  listed := (h.listed.addClient new).of_same hnew.order hnew.next
  own d hd := by
    rcases hnew.cases hd with ⟨hTn, -⟩ | ⟨-, hd⟩
    · exact absurd hTn (Nat.ne_of_lt hT)
    · exact h.own d hd
  older k hk d hd := by
    rcases hnew.cases hd with ⟨rfl, rfl⟩ | ⟨hne, hd⟩
    · exact hintro
    · exact h.older k (hnew.mem hk hne) d hd
  childless := nofun
  located := nofun

end Hangs

/-! ## The invariant -/

/-- Where the top server `x` of a client `c` may be: at the link over which both
came, or behind it. -/
def World.SameLink (w : World) (T x : ClientRef) (c : Client) : Prop :=
  x = c.introducer ∨ ∃ d, w.heap x = some d ∧ d.connId = none ∧ d.introducer = c.introducer ∧ x ≠ T

/-- Introducers and top servers are in order; the clients in `S` are local and have
introduced nobody. -/
structure Tops (T : ClientRef) (S : ClientRef → Prop) (w : World) : Prop extends Hangs T S w where
  parent : ∀ r ∈ w.order, ∀ c, w.heap r = some c → c.connId = none → r ≠ T →
    ∀ p, w.heap c.introducer = some p → p.connId ≠ none ∧ p.type = .server
  top : ∀ r ∈ w.order, ∀ c x, w.heap r = some c → c.topserver = some x →
    x ∈ w.order ∧ x < r ∧ c.connId = none ∧ c.type = .server ∧ w.SameLink T x c

/-- Nobody on the list has `r` for a top server. -/
def World.NoTop (w : World) (r : ClientRef) : Prop :=
  ∀ k ∈ w.order, ∀ c, w.heap k = some c → c.topserver ≠ some r

namespace Tops

/-- A change that leaves every client in its place. -/
theorem of_places (h : Tops T S w) (hsame : SamePlaces w w') : Tops T S w' := by
  have horder := hsame.order
  refine
    { h.toHangs.of_places hsame with
      parent := fun r hr c' hc' hconn hrT p' hp' => ?_
      top := fun r hr c' x hc' hx => ?_ }
  · obtain ⟨c, hc, hcc⟩ := hsame.cell hc'
    obtain ⟨hc_conn, hc_intro, -, -⟩ := Client.site_eq hcc
    rw [hc_intro] at hp'
    obtain ⟨p, hp, hpp⟩ := hsame.cell hp'
    obtain ⟨hp_conn, -, -, hp_type⟩ := Client.site_eq hpp
    rw [hp_conn, hp_type]
    exact h.parent r (horder ▸ hr) c hc (hc_conn ▸ hconn) hrT p hp
  · obtain ⟨c, hc, hcc⟩ := hsame.cell hc'
    obtain ⟨hc_conn, hc_intro, hc_top, hc_type⟩ := Client.site_eq hcc
    obtain ⟨hmem, hlt, hconn, htype, hlink⟩ := h.top r (horder ▸ hr) c x hc (hc_top ▸ hx)
    refine ⟨horder ▸ hmem, hlt, hc_conn.trans hconn, hc_type.trans htype, ?_⟩
    rcases hlink with rfl | ⟨d, hd, hd_conn, hd_intro, hxT⟩
    · exact .inl hc_intro.symm
    · obtain ⟨d', hd', hdd⟩ := hsame.cell_back hd
      obtain ⟨hdd_conn, hdd_intro, -, -⟩ := Client.site_eq hdd
      exact .inr ⟨d', hd', hdd_conn.trans hd_conn,
        hdd_intro.trans (hd_intro.trans hc_intro.symm), hxT⟩

theorem frame (T : ClientRef) (S : ClientRef → Prop) : BasicFrame (fun _ => Keeps (Tops T S))
    fun w w' => Tops T S w → Tops T S w' :=
  placed_frame (fun _ _ hk => hk) fun _ _ hsame h => h.of_places hsame

theorem indifferent (T : ClientRef) (S : ClientRef → Prop) :
    Indifferent (Tops T S) (Keeps (Tops T S)) :=
  placed_indifferent (fun _ _ hk => hk) fun _ _ hsame h => h.of_places hsame

theorem upkeep (T : ClientRef) (S : ClientRef → Prop) : Upkeep (Tops T S) (Keeps (Tops T S)) :=
  (Tops.indifferent T S).toUpkeep

/-! ### Taking a client off the list -/

theorem unlink (h : Tops T S w) (hr : w.NoTop r) :
    Tops T S { w with order := w.order.erase r } where
  __ := h.toHangs.unlink r
  parent k hk := h.parent k (List.mem_of_mem_erase hk)
  top k hk c x hc hx := by
    have hk' := List.mem_of_mem_erase hk
    obtain ⟨hmem, hrest⟩ := h.top k hk' c x hc hx
    have hxr : x ≠ r := by
      rintro rfl
      exact hr k hk' c hc hx
    exact ⟨(List.mem_erase_of_ne hxr).mpr hmem, hrest⟩

theorem free (h : Tops T S w) (hr : r ∉ w.order) : Tops T S (w.setHeap r none) where
  __ := h.toHangs.free r
  parent k hk c hc hconn hkT p hp :=
    h.parent k hk c (World.heap_of_free hc) hconn hkT p (World.heap_of_free hp)
  top k hk c x hc hx := by
    obtain ⟨hmem, hlt, hconn, htype, hlink⟩ := h.top k hk c x (World.heap_of_free hc) hx
    refine ⟨hmem, hlt, hconn, htype, hlink.imp_right ?_⟩
    rintro ⟨d, hd, hrest⟩
    have hxr : x ≠ r := fun hxr => hr (hxr ▸ hmem)
    exact ⟨d, (World.setHeap_heap_ne w hxr _).trans hd, hrest⟩

/-- A local client or this server has introduced the clients that have it for a top
server. -/
theorem introducer_of_top (h : Tops T S w) (hc : w.heap r = some c)
    (hlocal : c.connId ≠ none ∨ r = T) (hk : k ∈ w.order)
    (hd : w.heap k = some d) (htop : d.topserver = some r) : d.introducer = r ∧ k ≠ r := by
  obtain ⟨-, hlt, -, -, hlink⟩ := h.top k hk d r hd htop
  refine ⟨?_, Nat.ne_of_gt hlt⟩
  rcases hlink with hintro | ⟨e, he, he_conn, -, hrT⟩
  · exact hintro.symm
  · rcases hlocal with hconn | hT
    · obtain rfl : c = e := Option.mem_unique hc he
      exact absurd he_conn hconn
    · exact absurd hT hrT

/-- Whom a client has introduced that is on the list. -/
theorem child_local_or_behind (h : Tops T S w) (hk : k ∈ w.order)
    (hd : w.heap k = some d) (hintro : d.introducer = r) (hne : k ≠ r)
    (hc : w.heap r = some c) :
    (d.connId ≠ none ∧ r = T) ∨ (d.connId = none ∧ c.connId ≠ none ∧ c.type = .server) := by
  cases hconn : d.connId with
  | some i =>
    refine .inl ⟨nofun, ?_⟩
    rcases h.linked.home k d i hd hconn with hhome | hhome
    · rw [← hintro, hhome, h.this]
    · exact absurd (hhome.symm.trans hintro) hne
  | none =>
    refine .inr ⟨rfl, ?_⟩
    have hkT : k ≠ T := by
      rintro rfl
      exact hne ((h.own d hd).1.symm.trans hintro)
    exact h.parent k hk d hd hconn hkT c (hintro.symm ▸ hc)

/-! ### Changes of a client that has introduced nobody -/

/-- Such a client may change its type and become its own introducer. -/
theorem setLocal (h : Tops T S w) (hS : S r) (hc : w.heap r = some c)
    (hconn : c'.connId = c.connId) (hintro : c'.introducer = c.introducer ∨ c'.introducer = r)
    (htop : c'.topserver = c.topserver) : Tops T S (w.setHeap r (some c')) := by
  have hlocal := h.located r hS c hc
  refine
    { h.toHangs.setHeap hc hconn hintro with
      parent := fun k hk d hd hd_conn hkT p hp => ?_
      top := fun k hk d x hd hx => ?_ }
  · rcases World.setHeap_heap_cases hd with ⟨rfl, rfl⟩ | ⟨hkr, hd⟩
    · exact absurd (hconn.symm.trans hd_conn) hlocal
    · rcases World.setHeap_heap_cases hp with ⟨hr, -⟩ | ⟨-, hp⟩
      · exact absurd (h.childless r hS k hk d hd hr) hkr
      · exact h.parent k hk d hd hd_conn hkT p hp
  · rcases World.setHeap_heap_cases hd with ⟨rfl, rfl⟩ | ⟨-, hd⟩
    · exact absurd (h.top k hk c x hc (htop.symm.trans hx)).2.2.1 hlocal
    · obtain ⟨hmem, hlt, hd_conn, hd_type, hlink⟩ := h.top k hk d x hd hx
      refine ⟨hmem, hlt, hd_conn, hd_type, hlink.imp_right ?_⟩
      rintro ⟨e, he, he_conn, he_intro, hxT⟩
      have hxr : x ≠ r := by
        rintro rfl
        obtain rfl : c = e := Option.mem_unique hc he
        exact hlocal he_conn
      exact ⟨e, (World.setHeap_heap_ne w hxr _).trans he, he_conn, he_intro, hxT⟩

/-- A local client that is no server has introduced nobody. -/
theorem of_not_server (h : Tops T (fun _ => False) w) (hc : w.heap r = some c)
    (hlocal : c.connId ≠ none) (htype : c.type ≠ .server) : Tops T (· = r) w := by
  have hrT : r ≠ T := by
    rintro rfl
    exact hlocal (h.own c hc).2
  refine { h with childless := ?_, located := ?_ }
  · rintro s rfl k hk d hd hintro
    by_contra hks
    rcases h.child_local_or_behind hk hd hintro hks hc with ⟨-, hT⟩ | ⟨-, -, hserver⟩
    · exact hrT hT
    · exact htype hserver
  · rintro s rfl d hd
    obtain rfl : c = d := Option.mem_unique hc hd
    exact hlocal

theorem weaken (h : Tops T S w) : Tops T (fun _ => False) w :=
  { h with childless := nofun, located := nofun }

theorem personal (hS : S r) : Personal (Tops T S) r (Keeps (Tops T S)) where
  upkeep := Tops.upkeep T S
  setType _ _ _ hc h := h.setLocal hS hc rfl (.inl rfl) rfl
  setId _ _ _ _ _ hc h := h.of_places (.setHeap hc rfl)
  ownIntroducer _ _ hc h := h.setLocal hS hc rfl (.inr rfl) rfl
  greet := (Tops.indifferent T S).greetUser r

/-! ### New clients -/

/-- How a new client fits in: it is local, or it came over the link of a server and
its top server came over the same link. -/
def Fits (T : ClientRef) (w : World) (new : Client) : Prop :=
  (new.connId ≠ none ∧ new.topserver = none) ∨
    (new.connId = none ∧ new.type = .server ∧
      (∃ p, w.heap new.introducer = some p ∧ p.connId ≠ none ∧ p.type = .server) ∧
      ∀ x, new.topserver = some x → x ∈ w.order ∧ w.SameLink T x new)

section

variable (h : Tops T (fun _ => False) w)
include h

theorem add (hnew : Grown w w' new) (hT : T < w.nextRef) (hintro : new.introducer ≤ w.nextRef)
    (hfits : Fits T w new) :
    Tops T (fun _ => False) w' := by
  have hlink (x : ClientRef) (c : Client) (hx : x ∈ w.order) (hsame : w.SameLink T x c) :
      w'.SameLink T x c := by
    refine hsame.imp_right ?_
    rintro ⟨d, hd, hrest⟩
    exact ⟨d, (hnew.old x (Nat.ne_of_lt (h.listed.fresh x hx))).trans hd, hrest⟩
  refine
    { h.toHangs.add hT hnew hintro with
      parent := fun k hk d hd hd_conn hkT p hp => ?_
      top := fun k hk d x hd hx => ?_ }
  · rcases hnew.cases hd with ⟨rfl, rfl⟩ | ⟨hne, hd⟩
    · rcases hfits with ⟨hlocal, -⟩ | ⟨-, -, ⟨q, hq, hq_conn, hq_type⟩, -⟩
      · exact absurd hd_conn hlocal
      · have hqn : d.introducer ≠ w.nextRef := Nat.ne_of_lt (h.linked.cell _ q hq)
        obtain rfl : q = p := Option.some.inj (hq.symm.trans ((hnew.old _ hqn).symm.trans hp))
        exact ⟨hq_conn, hq_type⟩
    · have hk' := hnew.mem hk hne
      have hold_intro : d.introducer ≠ w.nextRef :=
        Nat.ne_of_lt (Nat.lt_of_le_of_lt (h.older k hk' d hd) (h.listed.fresh k hk'))
      exact h.parent k hk' d hd hd_conn hkT p ((hnew.old _ hold_intro).symm.trans hp)
  · rcases hnew.cases hd with ⟨rfl, rfl⟩ | ⟨hne, hd⟩
    · rcases hfits with ⟨-, hnone⟩ | ⟨hconn, htype, -, htop⟩
      · exact nomatch hnone.symm.trans hx
      · obtain ⟨hx_mem, hx_link⟩ := htop x hx
        exact ⟨hnew.kept hx_mem, h.listed.fresh x hx_mem, hconn, htype, hlink x d hx_mem hx_link⟩
    · obtain ⟨hx_mem, hlt, hconn, htype, hx_link⟩ := h.top k (hnew.mem hk hne) d x hd hx
      exact ⟨hnew.kept hx_mem, hlt, hconn, htype, hlink x d hx_mem hx_link⟩

/-- A server that is introduced over the link `r`, by the link itself or by a server
behind it. -/
theorem addServer (hT : T < w.nextRef) (hconn : new.connId = none)
    (hintro : new.introducer ≤ w.nextRef) (hfits : Fits T w new) :
    Tops T (fun _ => False) (w.addClient new) :=
  h.add (.addClient h.linked hconn) hT hintro hfits

/-- A client with a connection. -/
theorem openConn (hT : T < w.nextRef) (htop : new.topserver = none)
    (hintro : new.introducer = w.thisServer ∨ new.introducer = w.nextRef) (i : ConnId) (conn : Conn) :
    Tops T (fun _ => False) (w.openConn i new conn) := by
  refine h.add (.openConn h.linked hintro i conn) hT ?_ (.inl ⟨nofun, htop⟩)
  rcases hintro with hintro | hintro
  · rw [h.this] at hintro
    exact Nat.le_of_lt (hintro ▸ hT)
  · exact Nat.le_of_eq hintro

end

/-- Where the next hop of a client is a link, the client is that link or was
introduced by it. -/
theorem of_nextHop (h : Tops T S w) (hx : x ∈ w.order)
    (hnext : w.nextHop x = .ok r) :
    x = r ∨ ∃ d, w.heap x = some d ∧ d.connId = none ∧ d.introducer = r ∧ x ≠ T := by
  unfold World.nextHop World.nextHopFrom at hnext
  cases hd : w.heap x with
  | none =>
    rw [hd] at hnext
    cases hnext
  | some d =>
    simp only [hd] at hnext
    split_ifs at hnext with hhome
    · exact .inl (Except.ok.inj hnext)
    · rw [h.this] at hhome
      have hxT : x ≠ T := by
        rintro rfl
        exact hhome (.inl (h.own d hd).1)
      have hconn : d.connId = none := by
        cases hconn : d.connId with
        | none => rfl
        | some i =>
          rcases h.linked.home x d i hd hconn with hh | hh
          · exact absurd (.inr (h.this ▸ hh)) hhome
          · exact absurd (.inl hh) hhome
      refine .inr ⟨d, rfl, hconn, ?_, hxT⟩
      -- The introducer is local, so the walk ends there.
      cases hn : w.nextRef with
      | zero =>
        rw [hn] at hnext
        cases hnext
      | succ n =>
        rw [hn] at hnext
        unfold World.nextHopFrom at hnext
        cases hp : w.heap d.introducer with
        | none =>
          rw [hp] at hnext
          cases hnext
        | some p =>
          obtain ⟨hp_conn, -⟩ := h.parent x hx d hd hconn hxT p hp
          obtain ⟨i, hi⟩ := Option.ne_none_iff_exists'.mp hp_conn
          simp only [hp] at hnext
          rw [if_pos (h.linked.home _ p i hp hi).symm] at hnext
          exact Except.ok.inj hnext

end Tops

/-! ## Removing clients -/

section

variable {s : ClientRef}

/-- The turn of the walk of `Client_Destroy` in which the client itself goes. -/
theorem farewell_tops (h : Tops T S w) (hc : w.heap r = some c) (hr : w.NoTop r)
    (type : ClientType) (txt : Str) :
    (farewell r type txt f sendQuit).wp (leaveWp (upholding (Tops T S)) anyFault)
      (fun _ w' => Tops T S (w'.setHeap r none)) { w with order := w.order.erase r } := by
  have hframe := keeps_frame (fun _ _ hk => hk.1) (Tops.frame T S)
  refine hframe.toLeaveFrame.wp (fun _ => trivial) _ fun _ w' hkeep => ?_
  have hoff : r ∉ w.order.erase r := h.listed.nodup.not_mem_erase
  exact (hkeep.2 (h.unlink hr)).free (hkeep.1.gone r (h.linked.cell r c hc) hoff)

/-- A remote client that is nobody's top server can be removed: it has introduced
nobody. -/
theorem clientDestroy_remote_tops (n : Nat) (h : Tops T S w)
    (hremote : ∀ c, w.heap r = some c → c.connId = none) (hrT : r ≠ T) (hr : w.NoTop r) :
    (clientDestroy n r l f sendQuit).wp (shutWp (upholding (Tops T S)) anyFault)
      (fun _ => Tops T S) w := by
  cases n with
  | zero => trivial
  | succ n =>
    refine wp_clientDestroy.mpr
      ⟨fun c hc => ⟨fun _ => h, fun _ => farewell_tops h hc hr _ _, fun s hs hne => ?_⟩,
        fun _ => trivial⟩
    obtain ⟨hmem, hup⟩ := child_of_destroyStop hs hne
    obtain ⟨d, hd, hintro⟩ := World.up_eq_some hup
    rcases h.child_local_or_behind hmem hd hintro hne hc with ⟨-, hT⟩ | ⟨-, hconn, -⟩
    · exact absurd hT hrT
    · exact absurd (hremote c hc) hconn

/-- The first child that the walk finds is the newest one, so it is nobody's top
server unless it is local. -/
theorem noTop_of_destroyStop (h : Tops T S w) (hisServer : isServer = true)
    (hs : w.destroyStop r isServer = some s) (hne : s ≠ r) (hd : w.heap s = some d)
    (hintro : d.introducer = r) (hremote : d.connId = none) : w.NoTop s := by
  intro k hk e he htop
  obtain ⟨-, hlt, -, -, hlink⟩ := h.top k hk e s he htop
  have hsk : k ≠ s := Nat.ne_of_gt hlt
  rcases hlink with hlink | ⟨d', hd', -, hsame, -⟩
  · -- A client with an introducer that has no connection would be one of this server.
    have hkT : k ≠ T := by
      rintro rfl
      exact hsk ((h.own e he).1.symm.trans hlink.symm)
    rcases h.child_local_or_behind hk he hlink.symm hsk hd with ⟨-, hT⟩ | ⟨-, hconn, -⟩
    · subst hT
      exact hne ((h.own d hd).1.symm.trans hintro)
    · exact hconn hremote
  · obtain rfl : d = d' := Option.mem_unique hd hd'
    have hle : k ≤ s := by
      refine le_of_find? h.listed.desc hs hk ?_
      simp [hisServer, he, ← hsame, hintro]
    exact absurd hlt (Nat.not_lt.mpr hle)

/-- `Client_Destroy` persists. -/
theorem clientDestroy_persists (J : World → Prop) (n : Nat) :
    (clientDestroy n r l f sendQuit).wp (shutWp (upholding J) anyFault)
      (fun _ => Persists w) w := by
  have hframe : DropFrame (fun _ => Keeps J) Persists :=
    { persists_frame.toLeaveFrame with
      fail := fun w w' i hs ht hk => persists_frame.fail w w' i hs ht hk.1
      unlink := persists_frame.unlink
      free := persists_frame.free }
  exact hframe.destroys (fun _ => trivial) n r l f sendQuit w

/-- A local client can be removed, and this server: everybody who has it for a top
server goes before it. -/
theorem clientDestroy_local_tops (n : Nat) (h : Tops T S w)
    (hlocal : ∀ c, w.heap r = some c → c.connId ≠ none ∨ r = T) :
    (clientDestroy n r l f sendQuit).wp (shutWp (upholding (Tops T S)) anyFault)
      (fun _ => Tops T S) w := by
  induction n generalizing r l f sendQuit w with
  | zero => trivial
  | succ n ih =>
    refine wp_clientDestroy.mpr
      ⟨fun c hc => ⟨fun _ => h, fun hstop => ?_, fun s hs hne => ?_⟩, fun _ => trivial⟩
    · refine farewell_tops h hc (fun k hk d hd htop => ?_) _ _
      obtain ⟨hintro, hkr⟩ := h.introducer_of_top hc (hlocal c hc) hk hd htop
      obtain ⟨-, -, hd_conn, -, -⟩ := h.top k hk d r hd htop
      -- A child that is left would stand in front of `r`, where the walk finds it first.
      rcases h.child_local_or_behind hk hd hintro hkr hc with ⟨hconn, -⟩ | ⟨-, -, hserver⟩
      · exact hconn hd_conn
      · have hle : k ≤ r := by
          refine le_of_find? h.listed.desc hstop hk ?_
          simp [hserver, hd, hintro]
        have hge := h.older k hk d hd
        rw [hintro] at hge
        exact hkr (Nat.le_antisymm hle hge)
    · refine ⟨fun this _ => ?_, fun _ => trivial⟩
      obtain ⟨hmem, hup⟩ := child_of_destroyStop hs hne
      obtain ⟨d, hd, hintro⟩ := World.up_eq_some hup
      have hchild (fwd : Option Str) :
          (clientDestroy n s none fwd false).wp (shutWp (upholding (Tops T S)) anyFault)
            (fun _ => Tops T S) w := by
        rcases h.child_local_or_behind hmem hd hintro hne hc with ⟨hconn, -⟩ | ⟨hconn, -, hserver⟩
        · refine ih h fun e he => .inl ?_
          obtain rfl : d = e := Option.mem_unique hd he
          exact hconn
        · have hsT : s ≠ T := by
            rintro rfl
            exact hne ((h.own d hd).1.symm.trans hintro)
          have hremote : ∀ e, w.heap s = some e → e.connId = none := fun e he =>
            Option.mem_unique hd he ▸ hconn
          exact clientDestroy_remote_tops n h hremote hsT
            (noTop_of_destroyStop h (by simp [hserver]) hs hne hd hintro hconn)
      refine Prog.wp_mono (fun _ w₁ hw₁ => ih hw₁.1 fun c₁ hc₁ => ?_)
        (Prog.wp_and shutWp_and (hchild _) (clientDestroy_persists _ n))
      obtain ⟨c', hc', hsame, -⟩ := hw₁.2.cell r c₁ (h.linked.cell r c hc) hc₁
      rw [hsame.connId]
      exact hlocal c' hc'

theorem closer_tops (T : ClientRef) (S : ClientRef → Prop) (n : Nat) :
    (upholding (Tops T S)).RightAbout anyFault (closer n) := by
  refine closer_upholds ((Tops.upkeep T S).connClose (fun w i conn hconn hw => ?_) ?_) n
  · exact hw.of_places (.setConn hconn)
  · intro w i r n l f hw hr
    refine clientDestroy_local_tops n hw fun c hc => .inl ?_
    rw [hw.linked.link i r c hr hc]
    exact nofun

end

/-! ## Commands -/

section

variable {client source : ClientRef} {req : Request}

/-- A server that is introduced comes over the link, and so did the server in the
prefix. -/
theorem introduceServer_tops (h : Tops T (fun _ => False) w) (hT : T < w.nextRef)
    (hc : w.heap client = some c) (hlocal : c.connId ≠ none) (htype : c.type = .server)
    (hfits : PrefixFits w client req) :
    (introduceServer client req).wp (plainWp (upholding (Tops T fun _ => False)) anyFault)
      (fun _ => Tops T fun _ => False) w := by
  refine (Tops.upkeep T fun _ => False).introduceServer h ?_
  intro source p new ⟨hconn, hserver, _, _, _, _, _⟩ hpfx hsource hintro htop
  obtain ⟨o, ho, hnext⟩ := hfits p hpfx
  obtain rfl : o = source := Option.mem_unique ho hsource
  have hlink := h.of_nextHop (clientSearch_listed hsource) hnext
  refine h.addServer hT hconn ?_ (.inr ⟨hconn, hserver, ⟨c, ?_, hlocal, htype⟩, ?_⟩)
  · rw [hintro]
    exact Nat.le_of_lt (h.linked.cell client c hc)
  · rw [hintro, hc]
  · intro x hx
    obtain rfl : o = x := Option.mem_unique htop hx
    refine ⟨clientSearch_listed hsource, ?_⟩
    rw [World.SameLink, hintro]
    exact hlink

end

/-! ## Whole runs -/

/-- The handlers of commands that are about users, or log a user in. -/
def Handler.aboutUsers : Handler → Bool
  | .xLine | .kill | .nick | .njoin | .quit | .quitHttp | .service | .user | .cap | .pong |
    .svsnick => true
  | _ => false

/-- What happens between servers: links come and go, and lines are read on them that
are not about users. -/
def Event.AboutLinks : Event → Prop
  | .line _ text after => ∀ req cmd,
      splitRequest (trimStr text) (trimmedRest text after) = some req →
      findCommand req.command = some cmd → cmd.handler.aboutUsers = false
  | _ => True

/-- No line is a SQUIT that removes the top server of another server: the server it
names is linked here, or is no top server. -/
def Event.SparesTops (w : World) : Event → Prop
  | .line i text after => ∀ target, w.Squits i text after target →
      (∃ t, w.heap target = some t ∧ t.connId ≠ none) ∨
        ∀ r ∈ w.order, ∀ c, w.heap r = some c → c.type = .server → c.topserver ≠ some target
  | _ => True

theorem Handler.server_or_squit {handler : Handler} (hout : ¬handler.reachesOut = false)
    (husers : handler.aboutUsers = false) : handler = .server ∨ handler = .squit := by
  revert hout husers
  cases handler <;> decide

/-- A server that is not linked here can be removed if it is no top server. -/
theorem destroyClient_tops (h : Tops T (fun _ => False) w)
    (ht : w.heap r = some t) (hcon : t.connId = none)
    (hspares : (∃ t, w.heap r = some t ∧ t.connId ≠ none) ∨
      ∀ k ∈ w.order, ∀ c, w.heap k = some c → c.type = .server → c.topserver ≠ some r) :
    (destroyClient r l f false).wp (plainWp (upholding (Tops T fun _ => False)) anyFault)
      (fun _ => Tops T fun _ => False) w := by
  have hsame (e : Client) (he : w.heap r = some e) : e = t := Option.mem_unique he ht
  have hnoTop : w.NoTop r := by
    intro k hk d hd htop
    rcases hspares with ⟨e, he, he_conn⟩ | hspares
    · exact he_conn (hsame e he ▸ hcon)
    · exact hspares k hk d hd (h.top k hk d r hd htop).2.2.2.1 htop
  unfold destroyClient
  simp only [wp_msg, liftM_shut_plain, wp_getWorld, wp_ofShut]
  by_cases hrT : r = T
  · exact clientDestroy_local_tops _ h fun _ _ => .inr hrT
  · exact clientDestroy_remote_tops _ h (fun e he => hsame e he ▸ hcon) hrT hnoTop

/-- What is found to do about a line between servers keeps top servers. -/
theorem finish_tops {d : Dispatch} {argv : List Str}
    (hw : Reachable w) (hi : w.Has i r c)
    (hlinks : Event.AboutLinks (.line i text after))
    (hspares : Event.SparesTops w (.line i text after))
    (hdispatch : execPlain n (dispatchLine i text after) w = .ok (d, w₁))
    (hknown : d.Known w i r c argv w₁) (hw₁ : Tops T (fun _ => False) w₁) (hT : T < w₁.nextRef)
    (hend : exec n d.finish w₁ = .ok (b, w')) : Tops T (fun _ => False) w' := by
  have h := Tops.upkeep T fun _ => False
  have hclose := closer_tops T (fun _ => False) n
  have hlocal : c.connId ≠ none := by
    rw [hw.linked.link i r c hi.client hi.cell]
    exact nofun
  cases d with
  | answered result => exact (exec_ends hclose (UpholdsFull.pure result w₁ hw₁)).of_ok hend
  | numeric client req =>
    obtain ⟨rfl, rfl, -⟩ := hknown
    by_cases htype : c.type = .server
    · -- The type that is set is the one the client has.
      have hset (d : Client) (hd : w₁.heap client = some d) :
          Tops T (fun _ => False) (w₁.setHeap client (some (w₁.retype d .server))) := by
        obtain rfl : c = d := Option.mem_unique hi.cell hd
        exact hw₁.of_places (.setHeap hd (by simp [Client.site, World.retype, htype]))
      exact (exec_ends hclose (h.handleNumeric hw₁ fun _ _ => h.ircNumEndofmotd hset)).of_ok hend
    · have hfree := hw₁.of_not_server hi.cell hlocal htype
      have hself := Tops.personal (T := T) (S := (· = client)) rfl
      exact ((exec_ends (closer_tops T (· = client) n)
        (hself.handleNumeric req w₁ hfree)).of_ok hend).weaken
  | command client type cmd req =>
    obtain ⟨rfl, rfl, hpenalty, hd, hfits, -⟩ := id hknown
    obtain ⟨hheap, hthis₁, hsearch, hnext⟩ := hpenalty.same_clients
    have hcell : w₁.heap client = some c := by rw [hheap, hi.cell]
    have hlive : client < w₁.nextRef := hw₁.linked.cell client c hcell
    have hfits₁ : PrefixFits w₁ client req := by
      intro p hp
      rw [hsearch, hnext]
      exact hfits p hp
    obtain ⟨req₀, hsplit, hreceived⟩ := (execPlain_ends (closer_settled n)
      (dispatchLine_received hw.linked hi text after)).of_ok hdispatch client c.type cmd req rfl
    have husers := hlinks req₀ cmd hsplit (by rw [← hd.found, hreceived, Request.received_command])
    by_cases htype : c.type = .server
    · refine (exec_ends hclose (h.finish_command ?_)).of_ok hend
      have hsquit (hhandler : cmd.handler = .squit) : (ircSquit client req).wp
          (plainWp (upholding (Tops T fun _ => False)) anyFault)
          (fun _ => Tops T fun _ => False) w₁ := by
        refine h.ircSquit hw₁ hcell hlive ?_
        intro target source s t l f _ hsender hs hs_type htarget ht hcon
        have hreq := (execPlain_ends (closer_settled n)
          (dispatchLine_of_server hw.linked hi htype text after)).of_ok hdispatch client c.type cmd
            req rfl
        have hsquits : w.Squits i text after target := by
          refine ⟨client, req, source, ?_⟩
          rw [hheap] at hs
          refine .of_dispatched hw.linked hi htype hreq hd hhandler hfits ?_ hs hs_type ?_
          · rw [← hsender]
            simp only [World.senderOf, hsearch]
          · rw [← hsearch, htarget]
        refine destroyClient_tops hw₁ ht hcon ?_
        have horder : w₁.order = w.order := by cases hpenalty <;> rfl
        rw [hheap, horder]
        exact hspares target hsquits
      by_cases hout : cmd.handler.reachesOut = false
      · by_cases hself : cmd.handler.changesSelf = false
        · exact (Tops.indifferent T _).callHandler client req hout hself w₁ hw₁
        · have hpass : cmd.handler = .pass := by
            revert hself husers
            cases cmd.handler <;> decide
          rw [hpass]
          exact h.ircPass hw₁ hcell fun hnew => by simp [htype] at hnew
      · rcases Handler.server_or_squit hout husers with hh | hh
        · rw [hh]
          refine h.ircServer hw₁ hcell (fun hnew => ?_) fun _ =>
            introduceServer_tops hw₁ hT hcell hlocal htype hfits₁
          simp [htype] at hnew
        · rw [hh]
          exact (wp_ofPlain _).mpr (hsquit hh)
    · have hfree := hw₁.of_not_server hcell hlocal htype
      have hup := Tops.upkeep T (· = client)
      have hself := Tops.personal (T := T) (S := (· = client)) rfl
      refine ((exec_ends (closer_tops T (· = client) n) (hup.finish_command ?_)).of_ok hend).weaken
      by_cases hout : cmd.handler.reachesOut = false
      · exact hself.entry.callHandler (Tops.indifferent T _) (hself.ircSvsnick req) hfree hcell
          hlive hout
      rcases Handler.server_or_squit hout husers with hh | hh
      · rw [hh]
        exact hup.ircServer hfree hcell (fun _ => hself.registerServer req w₁ hfree) fun hs =>
          absurd hs htype
      · rw [hh]
        refine (wp_ofPlain _).mpr (hup.ircSquit hfree hcell hlive ?_)
        exact fun _ _ _ _ _ _ hs => absurd hs htype

/-- An event between servers keeps top servers. -/
theorem Tops.step {e : Event} (hw : Reachable w) (h : Tops T (fun _ => False) w)
    (hlinks : e.AboutLinks) (hspares : e.SparesTops w) (hstep : Step w e w') :
    Tops T (fun _ => False) w' := by
  have hT : T < w.nextRef := h.this ▸ hw.ownRecord.known
  have hprepared : Tops T (fun _ => False) (e.prepare w) := by
    cases e with
    | accept i ip => exact h.openConn hT rfl (.inl rfl) i _
    | connect k i ip => exact h.openConn hT rfl (.inr rfl) i _
    | ping i => exact h.of_places (.setConn (.inl rfl))
    | clock now => exact h.of_places (.of_eq rfl rfl rfl rfl rfl)
    | resolved | linked | line | close | expire => exact h
  refine (Tops.upkeep T fun _ => False).step (closer_tops T _) hw.linked h hprepared ?_ hstep
  rintro n i text after r c d argv w₁ b rfl hdispatch hi hknown hw₁ hend
  have hT₁ : T < w₁.nextRef := by
    have hsettled := (execPlain_ends (closer_settled n)
      (plain_settled (dispatchLine i text after) fun _ _ hs => hs)).of_ok hdispatch
    exact Nat.lt_of_lt_of_le hT hsettled.nextRef
  exact finish_tops hw hi hlinks hspares hdispatch hknown hw₁ hT₁ hend

theorem Tops.start (conf : Conf) (env : Env) (host : Str) :
    Tops 0 (fun _ => False) (World.start conf env host) := by
  refine
    { Hangs.start conf env host with
      parent := fun r _ c hc _ hr => absurd (World.start_cell hc).ref hr
      top := fun r _ c x hc hx => ?_ }
  cases (World.start_cell hc).topserver.symm.trans hx

/-- In a run of events between servers, in which no SQUIT removes the top server of
another server, every top server is on the client list. -/
theorem topserver_listed
    (h : ReachableBy (fun w e => e.AboutLinks ∧ e.SparesTops w) w) {x : ClientRef}
    (hr : r ∈ w.order) (hc : w.heap r = some c) (hx : c.topserver = some x) : x ∈ w.order := by
  have htops : Tops w.thisServer (fun _ => False) w := by
    clear hr hc hx
    induction h with
    | start conf env host => exact .start conf env host
    | @step w w' e hreach hevent hstep ih =>
      have hnext := ih.step hreach.reachable hevent.1 hevent.2 hstep
      rw [Step.thisServer hstep]
      exact hnext
  exact (htops.top r hr c x hc hx).1

theorem ReachableBy.runAll {P : World → Event → Prop} (h : ReachableBy P w)
    {es : List Event} (hP : ∀ e ∈ es, ∀ w, P w e)
    (hrun : Event.runAll n es w = some w') : ReachableBy P w' := by
  induction es generalizing w with
  | nil =>
    obtain rfl : w = w' := Option.some.inj hrun
    exact h
  | cons e es ih =>
    obtain ⟨w₁, hstep, hrest⟩ := Event.runAll_cons hrun
    have he := hP e (.head _) w
    exact ih (h.step he hstep) (fun e' he' => hP e' (.tail e he')) hrest

/-- A line whose command is between servers and not a SQUIT. -/
theorem plain_link_line
    (hline : ((splitRequest (trimStr text) (trimmedRest text after)).all fun req =>
      !strcaseEq req.command "SQUIT" &&
        (findCommand req.command).all fun cmd => !cmd.handler.aboutUsers) = true) :
    Event.AboutLinks (.line i text after) ∧ Event.SparesTops w (.line i text after) := by
  refine ⟨fun req cmd hsplit hcmd => ?_, fun target hsquits => ?_⟩
  · simp only [hsplit, hcmd, Option.all_some, Bool.and_eq_true, Bool.not_eq_true'] at hline
    exact hline.2
  · obtain ⟨r, req, source, hsquit⟩ := hsquits
    simp only [hsquit.split, Option.all_some, Bool.and_eq_true, Bool.not_eq_true',
      hsquit.command] at hline
    exact nomatch hline.1

/-- A server introduces a second one, and that one a third one. -/
def chainLink : List Event :=
  peerLink ++ [.line 1 ":irc.b SERVER irc.c 2 2 :C" [], .line 1 ":irc.c SERVER irc.d 3 3 :D" []]

theorem topserver_listed_chainLink : ∃ w c,
    ReachableBy (fun w e => e.AboutLinks ∧ e.SparesTops w) w ∧ 3 ∈ w.order ∧
      w.heap 3 = some c ∧ c.topserver = some 2 ∧ 2 ∈ w.order := by
  obtain ⟨w, hw, hlisted, c, hc, htop⟩ :
      ∃ w ∈ Event.runAll 1 chainLink (World.start peerConf {} "localhost"), 3 ∈ w.order ∧
        ∃ c ∈ w.heap 3, c.topserver = some 2 := by
    decide +kernel
  have hevents : ∀ e ∈ chainLink, ∀ w, Event.AboutLinks e ∧ Event.SparesTops w e := by
    intro e he w
    simp only [chainLink, peerLink, List.mem_append, List.mem_cons, List.not_mem_nil,
      or_false] at he
    rcases he with (rfl | rfl | rfl) | rfl | rfl
    · exact ⟨trivial, trivial⟩
    all_goals exact plain_link_line (by decide +kernel)
  have hreach := (ReachableBy.start peerConf {} "localhost").runAll hevents hw
  exact ⟨w, c, hreach, hlisted, hc, htop, topserver_listed hreach hlisted hc htop⟩

/-- The second server is removed by a SQUIT; the third one keeps it for a top server. -/
theorem topserver_gone_after_squit : ∃ w w' c,
    ReachableBy (fun _ e => e.AboutLinks) w ∧
      Event.AboutLinks (.line 1 ":irc.b SQUIT irc.c :gone" []) ∧
      Step w (.line 1 ":irc.b SQUIT irc.c :gone" []) w' ∧ 3 ∈ w'.order ∧ w'.heap 3 = some c ∧
      c.type = .server ∧ c.topserver = some 2 ∧ 2 ∉ w'.order := by
  obtain ⟨w, hw, w', hw', hlisted, hgone, c, hc, htype, htop⟩ :
      ∃ w ∈ Event.runAll 1 chainLink (World.start peerConf {} "localhost"),
        ∃ w' ∈ Event.runAll 1 [.line 1 ":irc.b SQUIT irc.c :gone" []] w, 3 ∈ w'.order ∧
          2 ∉ w'.order ∧ ∃ c ∈ w'.heap 3, c.type = .server ∧ c.topserver = some 2 := by
    decide +kernel
  have habout (line : Str) (hline : ((splitRequest (trimStr line) (trimmedRest line [])).all
      fun req => (findCommand req.command).all fun cmd => !cmd.handler.aboutUsers) = true) :
      Event.AboutLinks (.line 1 line []) := by
    intro req cmd hsplit hcmd
    simpa [hsplit, hcmd] using hline
  have hevents : ∀ e ∈ chainLink, World → Event.AboutLinks e := by
    intro e he _
    simp only [chainLink, peerLink, List.mem_append, List.mem_cons, List.not_mem_nil,
      or_false] at he
    rcases he with (rfl | rfl | rfl) | rfl | rfl
    · trivial
    all_goals exact habout _ (by decide +kernel)
  have hreach := (ReachableBy.start peerConf {} "localhost").runAll hevents hw
  exact ⟨w, w', c, hreach, habout _ (by decide +kernel), Event.step_of_runAll hw', hlisted, hc,
    htype, htop, hgone⟩

end Ngircd
