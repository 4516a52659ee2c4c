import Ngircd.Closes

/-!
# The places of clients

Where a client stands in the network is a matter of a few fields: its connection, its
introducer, its top server and its type.  Basic programs do not touch them.  An
invariant that depends on nothing else is upheld by all basic programs.
-/

namespace Ngircd

open Lib

variable {c c' : Client}

/-- The fields of a client that place it in the network. -/
def Client.site (c : Client) : Option ConnId × ClientRef × Option ClientRef × ClientType :=
  (c.connId, c.introducer, c.topserver, c.type)

theorem Client.site_eq (h : c'.site = c.site) : c'.connId = c.connId ∧
    c'.introducer = c.introducer ∧ c'.topserver = c.topserver ∧ c'.type = c.type := by
  simpa [Client.site, Prod.ext_iff] using h

/-- Every client is in its place, and connections have kept their clients. -/
structure SamePlaces (w w' : World) : Prop where
  this : w'.thisServer = w.thisServer
  order : w'.order = w.order
  nextRef : w'.nextRef = w.nextRef
  site : ∀ r, (w'.heap r).map Client.site = (w.heap r).map Client.site
  linked : Linked w → Linked w'

namespace SamePlaces

variable {w w' : World} {r : ClientRef}

theorem cell (h : SamePlaces w w') (hc : w'.heap r = some c') :
    ∃ c, w.heap r = some c ∧ c'.site = c.site := by
  have hr := h.site r
  rw [hc] at hr
  obtain ⟨c, hc, hcc⟩ := Option.map_eq_some_iff.mp hr.symm
  exact ⟨c, hc, hcc.symm⟩

theorem cell_back (h : SamePlaces w w') (hc : w.heap r = some c) :
    ∃ c', w'.heap r = some c' ∧ c'.site = c.site := by
  have hr := h.site r
  rw [hc] at hr
  exact Option.map_eq_some_iff.mp hr

/-- An edit of a client that leaves it in its place. -/
theorem setHeap (hc : w.heap r = some c) (hsite : c'.site = c.site) :
    SamePlaces w (w.setHeap r (some c')) := by
  obtain ⟨hconn, hintro, -, -⟩ := Client.site_eq hsite
  refine ⟨rfl, rfl, rfl, fun s => ?_, (Steady.setHeap hc hconn (.inl hintro)).linked⟩
  by_cases hs : s = r
  · subst hs
    rw [World.setHeap_heap_self, hc]
    exact congrArg some hsite
  · rw [World.setHeap_heap_ne w hs]

/-- A change of a slot that does not give it another client. -/
theorem setConn {i : ConnId} {conn : Conn}
    (hconn : conn.client = (w.conns i).client ∨ conn.client = none) :
    SamePlaces w (w.setConn i conn) := by
  refine ⟨rfl, rfl, rfl, fun _ => rfl, fun hl => ?_⟩
  rcases hconn with hconn | hconn
  · exact (Steady.setConn hconn).linked hl
  · exact (Settled.setConn (.inl hconn)).linked hl

/-- A change of something else. -/
theorem of_eq (hconns : w'.conns = w.conns) (hheap : w'.heap = w.heap)
    (horder : w'.order = w.order) (hnext : w'.nextRef = w.nextRef)
    (hthis : w'.thisServer = w.thisServer) : SamePlaces w w' := by
  refine ⟨hthis, horder, hnext, fun r => by rw [hheap], fun hl => ?_⟩
  refine ⟨fun i r hr => ?_, fun r c hc => ?_, fun i r c hr hc => ?_, fun r c i hc hi => ?_⟩
  · rw [hconns] at hr
    exact hnext ▸ hl.slot i r hr
  · rw [hheap] at hc
    exact hnext ▸ hl.cell r c hc
  · rw [hconns] at hr
    rw [hheap] at hc
    exact hl.link i r c hr hc
  · rw [hheap] at hc
    rw [hthis]
    exact hl.home r c i hc hi

end SamePlaces

section

variable {J : World → Prop} {C : World → World → Prop}

variable (hC : ∀ w w', C w w' → Keeps J w w') (hJ : ∀ w w', SamePlaces w w' → J w → J w')
include hC hJ

/-- Basic programs leave everybody in place. -/
theorem placed_frame :
    BasicFrame (fun _ => C) fun w w' => J w → J w' where
  refl _ h := h
  trans _ _ _ h₁ h₂ h := h₂ (h₁ h)
  queue w i line _ _ h := by
    have hconn : SamePlaces w.tickWrite (w.tickWrite.setConn i { w.tickWrite.conns i with
        bytesOut := (w.tickWrite.conns i).bytesOut + line.length + 2 }) := .setConn (.inl rfl)
    have hqueue : SamePlaces w.tickWrite (w.tickWrite.queue i line) :=
      ⟨rfl, rfl, rfl, hconn.site, fun hl =>
        ⟨(hconn.linked hl).slot, (hconn.linked hl).cell, (hconn.linked hl).link,
          (hconn.linked hl).home⟩⟩
    exact hJ _ _ hqueue (hJ w _ (.of_eq rfl rfl rfl rfl rfl) h)
  fail w w' i _ _ hk h := (hC _ _ hk).2 (hJ w _ (.of_eq rfl rfl rfl rfl rfl) h)
  editConn w i e := hJ w _ (.setConn (.inl (e.client_eq _)))
  cloak w r host c hc := hJ w _ (.setHeap hc rfl)
  __ := BasicAside.of_rest (R := fun w w' => J w → J w') fun w _ _ _ _ =>
    hJ w _ (.of_eq rfl rfl rfl rfl rfl)
  editClient w r e c hc := by
    refine hJ w _ (.setHeap hc ?_)
    simp only [Client.site, e.connId_eq, e.introducer_eq, e.topserver_eq, e.type_eq]

theorem placed_indifferent : Indifferent J C :=
  .of_frame hC (placed_frame hC hJ) (fun w _ _ _ hc => hJ w _ (.setHeap hc rfl))
    (fun w _ _ => hJ w _ (.setConn (.inl rfl))) fun w _ _ => hJ w _ (.setConn (.inl rfl))

end

end Ngircd
