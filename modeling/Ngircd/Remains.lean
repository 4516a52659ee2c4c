import Ngircd.Closes

/-!
# Clients that remain

Many invariants speak about the clients on the list one by one, or pair by pair, and
look at a few of their fields.  Such an invariant cannot be broken by removing clients,
nor by changes of other fields.  The lemmas here say so for a view `f` of the fields.
-/

namespace Ngircd

open Lib

section

variable {α : Type} {f : Client → α} {J : World → Prop}

/-- Clients may have gone; what remains of the list looks the same to `f`. -/
structure Remains (f : Client → α) (w w' : World) : Prop where
  order : w'.order.Sublist w.order
  cell : ∀ r c', w'.heap r = some c' → ∃ c, w.heap r = some c ∧ f c' = f c
  nextRef : w'.nextRef = w.nextRef
  thisServer : w'.thisServer = w.thisServer
  conf : ∃ servers, w'.conf = { w.conf with servers }

namespace Remains

variable {w w₁ w₂ w₃ w' : World} {r : ClientRef} {c c' : Client}

theorem refl (w : World) : Remains f w w :=
  ⟨List.Sublist.refl _, fun _ c hc => ⟨c, hc, rfl⟩, rfl, rfl, w.conf.servers, rfl⟩

theorem trans (h₁ : Remains f w₁ w₂) (h₂ : Remains f w₂ w₃) : Remains f w₁ w₃ where
  order := h₂.order.trans h₁.order
  cell r c₃ hc₃ := by
    obtain ⟨c₂, hc₂, hf₂⟩ := h₂.cell r c₃ hc₃
    obtain ⟨c₁, hc₁, hf₁⟩ := h₁.cell r c₂ hc₂
    exact ⟨c₁, hc₁, hf₂.trans hf₁⟩
  nextRef := h₂.nextRef.trans h₁.nextRef
  thisServer := h₂.thisServer.trans h₁.thisServer
  conf := by
    obtain ⟨l₁, hconf₁⟩ := h₁.conf
    obtain ⟨l₂, hconf₂⟩ := h₂.conf
    exact ⟨l₂, by rw [hconf₂, hconf₁]⟩

/-- A change of something else. -/
theorem of_eq (hheap : w'.heap = w.heap) (horder : w'.order = w.order)
    (hnext : w'.nextRef = w.nextRef) (hthis : w'.thisServer = w.thisServer)
    (hconf : w'.conf = w.conf) : Remains f w w' := by
  refine ⟨by rw [horder], fun r c' hc' => ?_, hnext, hthis, w.conf.servers, hconf⟩
  rw [hheap] at hc'
  exact ⟨c', hc', rfl⟩

/-- A change of a client that cannot be seen. -/
theorem setHeap (hc : w.heap r = some c) (hf : f c' = f c) :
    Remains f w (w.setHeap r (some c')) := by
  refine ⟨List.Sublist.refl _, fun s d hd => ?_, rfl, rfl, w.conf.servers, rfl⟩
  rcases World.setHeap_heap_cases hd with ⟨rfl, rfl⟩ | ⟨-, hd⟩
  · exact ⟨c, hc, hf⟩
  · exact ⟨d, hd, rfl⟩

theorem unlink (w : World) (r : ClientRef) : Remains f w { w with order := w.order.erase r } :=
  ⟨List.erase_sublist, fun _ c hc => ⟨c, hc, rfl⟩, rfl, rfl, w.conf.servers, rfl⟩

theorem free (w : World) (r : ClientRef) : Remains f w (w.setHeap r none) := by
  refine ⟨List.Sublist.refl _, fun s d hd => ?_, rfl, rfl, w.conf.servers, rfl⟩
  exact ⟨d, World.heap_of_free hd, rfl⟩

end Remains

/-- What closing a connection does, as `f` sees it. -/
def ClosesFor (f : Client → α) (w w' : World) : Prop := Persists w w' ∧ Remains f w w'

/-- The view leaves out what most programs change. -/
structure Client.View (f : Client → α) : Prop where
  cloaked : ∀ c host, f { c with cloaked := host } = f c := by intros; rfl
  capabilities : ∀ c caps, f { c with capabilities := caps } = f c := by intros; rfl
  edit : ∀ (e : ClientEdit) c, e.Mild → f (e.edit c) = f c

/-- The clients of new connections are all that an event brings before it is handled. -/
theorem Remains.prepare {w : World} (hJ : ∀ w w', Remains f w w' → J w → J w')
    (hadd : ∀ w c, c.id = [] → c.mytoken = -1 → c.type ≠ .server → J w → J (w.addClient c)) (h : J w)
    (e : Event) : J (e.prepare w) := by
  have hopen (i : ConnId) (c : Client) (conn : Conn) (hid : c.id = []) (htoken : c.mytoken = -1)
      (htype : c.type ≠ .server) : J (w.openConn i c conn) := by
    let new : Client := { c with starttime := w.now, connId := some i, hops := 0, token := 0 }
    have hgrown : J (w.growPool i) := hJ w _ (.of_eq rfl rfl rfl rfl rfl) h
    exact hJ ((w.growPool i).addClient new) _ (.of_eq rfl rfl rfl rfl rfl)
      (hadd _ new hid htoken htype hgrown)
  cases e with
  | accept | connect => exact hopen _ _ _ rfl rfl nofun
  | ping | clock => exact hJ w _ (.of_eq rfl rfl rfl rfl rfl) h
  | resolved | linked | line | close | expire => exact h

namespace Client.View

variable (h : Client.View f)
include h

theorem remains_frame : LeaveFrame (fun _ => ClosesFor f) (Remains f) where
  refl := .refl
  trans _ _ _ := .trans
  queue _ _ _ _ _ := .of_eq rfl rfl rfl rfl rfl
  fail w _ _ _ _ hk := (.of_eq rfl rfl rfl rfl rfl : Remains f w w.tickWrite).trans hk.2
  editConn _ _ _ := .of_eq rfl rfl rfl rfl rfl
  cloak _ _ _ c hc := .setHeap hc (h.cloaked c _)
  removeMember _ _ _ := .of_eq rfl rfl rfl rfl rfl
  dropChannel _ _ := .of_eq rfl rfl rfl rfl rfl
  misc _ _ := .of_eq rfl rfl rfl rfl rfl
  servers _ l := ⟨List.Sublist.refl _, fun _ c hc => ⟨c, hc, rfl⟩, rfl, rfl, l, rfl⟩

/-- Closes let clients go and change nothing else that can be seen. -/
theorem closesFor : CloseFrame (ClosesFor f) (ClosesFor f) := by
  have hframe := h.remains_frame
  refine (CloseFrame.persists fun _ _ hk => hk.1).and
    { hframe with
      remove := fun w r c txt fwd q _ => ?_
      setConn := fun _ _ _ _ => .of_eq rfl rfl rfl rfl rfl }
  refine hframe.wp (fun _ => trivial) _ fun _ w' hw' => ?_
  exact (Remains.unlink w r).trans (hw'.trans (.free w' r))

/-- An invariant of the clients that remain is upheld by whatever cannot be seen. -/
theorem upkeep (hJ : ∀ w w', Remains f w w' → J w → J w')
    (hadd : ∀ w r c m, m ≠ 'a' → w.heap r = some c → J w →
      J (w.setHeap r (some { c with modes := modesAdd c.modes m })))
    (hdel : ∀ w r c m, w.heap r = some c → J w →
      J (w.setHeap r (some { c with modes := modesDel c.modes m })))
    (haway : ∀ w r c txt, w.heap r = some c → J w →
      J (w.setHeap r (some { c with away := some txt }))) : Upkeep J (ClosesFor f) := by
  have hframe := h.remains_frame
  have hmsg : LeaveFrame (fun _ => ClosesFor f) fun w w' => J w → J w' :=
    hframe.upholds fun w w' hr hw => hJ w w' hr hw
  exact
    { closes := fun w w' hk => ⟨hk.1, hJ w w' hk.2⟩
      messages := hmsg.toMsgFrame
      misc := fun w m hw _ => hmsg.misc w m hw
      servers := hmsg.servers
      editClient := fun w _ e c he hc => hJ w _ (.setHeap hc (h.edit e c he))
      userModeAdd := hadd
      userModeDel := hdel
      setAway := haway
      editChannel := fun w _ _ _ _ _ => hJ w _ (.of_eq rfl rfl rfl rfl rfl)
      chanModeAdd := fun w _ _ _ _ => hJ w _ (.of_eq rfl rfl rfl rfl rfl)
      chanModeDel := fun w _ _ _ _ _ => hJ w _ (.of_eq rfl rfl rfl rfl rfl)
      memberModes := fun w _ _ _ => hJ w _ (.of_eq rfl rfl rfl rfl rfl)
      rand := fun w _ => hJ w _ (.of_eq rfl rfl rfl rfl rfl)
      setCaps := fun w _ c caps hc => hJ w _ (.setHeap hc (h.capabilities c caps))
      setPwd := fun w _ _ => hJ w _ (.of_eq rfl rfl rfl rfl rfl)
      setAuthPing := fun w _ _ => hJ w _ (.of_eq rfl rfl rfl rfl rfl)
      removeClient := fun _ _ _ _ _ _ w hw =>
        hmsg.wp (fun _ => trivial) _ fun _ _ hkeep => hkeep hw }

/-- Such an invariant does not mind channels, and it does not mind user modes that it
cannot see. -/
theorem indifferent (hmodes : ∀ c modes away, f { c with modes, away } = f c)
    (hJ : ∀ w w', Remains f w w' → J w → J w') : Indifferent J (ClosesFor f) := by
  have hset (w : World) (r : ClientRef) (c : Client) (modes : Str) (away : Option Str)
      (hc : w.heap r = some c) : J w → J (w.setHeap r (some { c with modes, away })) :=
    hJ w _ (.setHeap hc (hmodes c modes away))
  have hup := h.upkeep hJ (fun w r c m _ hc => hset w r c _ c.away hc)
    (fun w r c m hc => hset w r c _ c.away hc) fun w r c txt hc => hset w r c c.modes _ hc
  exact
    { hup with
      away := fun w r c hc => hset w r c _ c.away hc
      channelModes := fun w _ _ _ _ => hJ w _ (.of_eq rfl rfl rfl rfl rfl)
      join := fun _ _ => hup.joins (fun w _ _ _ _ => hJ w _ (.of_eq rfl rfl rfl rfl rfl))
        fun w _ _ _ _ => hJ w _ (.of_eq rfl rfl rfl rfl rfl)
      create := fun w _ _ _ => hJ w _ (.of_eq rfl rfl rfl rfl rfl)
      lists := fun w _ _ _ _ _ => hJ w _ (.of_eq rfl rfl rfl rfl rfl) }

end Client.View

end

end Ngircd
