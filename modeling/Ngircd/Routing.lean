import Ngircd.Topserver

/-!
# Routing

`Client_NextHop` follows introducers until it is at a client that introduced itself
or that this server introduced.  This module shows that the walk ends at a link or
at this server, whatever links and clients have come and gone: remote clients hang
on servers that are on the list and older than they are.
-/

namespace Ngircd

open Lib

variable {r T k client : ClientRef} {S : ClientRef → Prop} {w w' w₁ : World} {c c' d new p : Client}
  {l f : Option Str} {sendQuit b q : Bool} {req : Request} {token : Int} {n : Nat} {e : Event}

/-! ## The invariant -/

/-- Remote clients hang on older servers; the clients in `S` are local and have
introduced nobody. -/
structure Routed (T : ClientRef) (S : ClientRef → Prop) (w : World) : Prop extends Hangs T S w where
  cell : ∀ r ∈ w.order, ∃ c, w.heap r = some c
  present : T ∈ w.order
  server : ∀ c, w.heap T = some c → c.type = .server
  parent : ∀ r ∈ w.order, ∀ c, w.heap r = some c → c.connId = none → r ≠ T →
    c.introducer ∈ w.order ∧ c.introducer ≠ r ∧ c.introducer ≠ T ∧
      ∃ p, w.heap c.introducer = some p ∧ p.type = .server

/-- What may become of a client: it keeps its connection, it becomes its own introducer
if it has one, and it remains a server unless it is `free` to be something else. -/
structure Client.Moved (r : ClientRef) (free : Prop) (c c' : Client) : Prop where
  connId : c'.connId = c.connId
  introducer : c'.introducer = c.introducer ∨ c'.introducer = r ∧ c.connId ≠ none
  type : c.type = .server → c'.type = .server ∨ free

theorem Client.Moved.refl {free : Prop} (c : Client) : Client.Moved r free c c :=
  ⟨rfl, .inl rfl, .inl⟩

namespace Routed

theorem ownRecord (h : Routed T S w) : OwnRecord w := by
  have hthis := h.this
  subst hthis
  exact
    { known := h.listed.fresh _ h.present
      introducer := fun c hc => (h.own c hc).1
      connId := fun c hc => (h.own c hc).2 }

theorem ne_of_local (h : Routed T S w) (hc : w.heap r = some c) (hlocal : c.connId ≠ none) :
    r ≠ T := by
  rintro rfl
  exact hlocal (h.own c hc).2

/-- A change of client structures in their places. -/
theorem moved (h : Routed T S w) (hthis : w'.thisServer = w.thisServer)
    (horder : w'.order = w.order) (hnext : w'.nextRef = w.nextRef) (hlinked : Linked w')
    (hcell : ∀ k c', w'.heap k = some c' → ∃ c, w.heap k = some c ∧ c.Moved k (S k) c')
    (hback : ∀ k c, w.heap k = some c → ∃ c', w'.heap k = some c' ∧ c.Moved k (S k) c') :
    Routed T S w' := by
  have hhangs : Hangs T S w' := by
    refine h.toHangs.moved hthis horder hnext hlinked fun k c' hc' => ?_
    obtain ⟨c, hc, hmoved⟩ := hcell k c' hc'
    exact ⟨c, hc, hmoved.connId, hmoved.introducer.imp_right And.left⟩
  refine
    { hhangs with
      cell := fun k hk => ?_
      present := horder ▸ h.present
      server := fun c' hc' => ?_
      parent := fun k hk c' hc' hconn hkT => ?_ }
  · obtain ⟨c, hc⟩ := h.cell k (horder ▸ hk)
    obtain ⟨c', hc', -⟩ := hback k c hc
    exact ⟨c', hc'⟩
  · obtain ⟨c, hc, hmoved⟩ := hcell T c' hc'
    rcases hmoved.type (h.server c hc) with hserver | hfree
    · exact hserver
    · exact absurd (h.own c hc).2 (h.located T hfree c hc)
  · obtain ⟨c, hc, hmoved⟩ := hcell k c' hc'
    have hremote : c.connId = none := hmoved.connId.symm.trans hconn
    have hsame : c'.introducer = c.introducer :=
      hmoved.introducer.resolve_right fun hself => hself.2 hremote
    have hk' : k ∈ w.order := horder ▸ hk
    obtain ⟨hmem, hne, hneT, p, hp, hserver⟩ := h.parent k hk' c hc hremote hkT
    obtain ⟨p', hp', hmoved'⟩ := hback _ p hp
    rw [hsame]
    refine ⟨horder ▸ hmem, hne, hneT, p', hp', ?_⟩
    rcases hmoved'.type hserver with hstill | hfree
    · exact hstill
    · exact absurd (h.childless _ hfree k hk' c hc rfl).symm hne

/-- A change that leaves every client in its place. -/
theorem of_places (h : Routed T S w) (hsame : SamePlaces w w') : Routed T S w' := by
  have hmoved {k : ClientRef} {c c' : Client} (hsite : c'.site = c.site) : c.Moved k (S k) c' := by
    obtain ⟨hconn, hintro, -, htype⟩ := Client.site_eq hsite
    exact ⟨hconn, .inl hintro, fun hserver => .inl (htype.trans hserver)⟩
  refine h.moved hsame.this hsame.order hsame.nextRef (hsame.linked h.linked) ?_ ?_
  · intro k c' hc'
    obtain ⟨c, hc, hsite⟩ := hsame.cell hc'
    exact ⟨c, hc, hmoved hsite⟩
  · intro k c hc
    obtain ⟨c', hc', hsite⟩ := hsame.cell_back hc
    exact ⟨c', hc', hmoved hsite⟩

theorem setHeap (h : Routed T S w) (hc : w.heap r = some c)
    (hmoved : c.Moved r (S r) c') : Routed T S (w.setHeap r (some c')) := by
  have hlinked : Linked (w.setHeap r (some c')) := by
    refine (Steady.setHeap hc hmoved.connId ?_).linked h.linked
    exact hmoved.introducer.imp_right And.left
  refine h.moved rfl rfl rfl hlinked ?_ ?_
  · intro k d' hd'
    rcases World.setHeap_heap_cases hd' with ⟨rfl, rfl⟩ | ⟨-, hd'⟩
    · exact ⟨c, hc, hmoved⟩
    · exact ⟨d', hd', .refl d'⟩
  · intro k d hd
    by_cases hk : k = r
    · subst hk
      obtain rfl : c = d := Option.mem_unique hc hd
      exact ⟨c', World.setHeap_heap_self w k _, hmoved⟩
    · exact ⟨d, (World.setHeap_heap_ne w hk _).trans hd, .refl d⟩

/-- A client that is no server may get another type. -/
theorem retype_of_not_server (h : Routed T S w) (hc : w.heap r = some c) (htype : c.type ≠ .server)
    (t : ClientType) : Routed T S (w.setHeap r (some { c with type := t })) :=
  h.setHeap hc ⟨rfl, .inl rfl, fun hserver => absurd hserver htype⟩

section

variable (T S)

theorem frame : BasicFrame (fun _ => Keeps (Routed T S)) fun w w' => Routed T S w → Routed T S w' :=
  placed_frame (fun _ _ hk => hk) fun _ _ hsame h => h.of_places hsame

theorem indifferent : Indifferent (Routed T S) (Keeps (Routed T S)) :=
  placed_indifferent (fun _ _ hk => hk) fun _ _ hsame h => h.of_places hsame

theorem upkeep : Upkeep (Routed T S) (Keeps (Routed T S)) :=
  (Routed.indifferent T S).toUpkeep

theorem renames (target : ClientRef) (nick : Str) :
    Renaming (Routed T S) (Routed T S) target nick (Keeps (Routed T S)) :=
  (Routed.upkeep T S).renames fun _ _ _ _ hc h => h.of_places (.setHeap hc rfl)

end

/-- Whom another client than this server has introduced is remote, and the client is a
server. -/
theorem server_of_child (h : Routed T S w) (hk : k ∈ w.order)
    (hd : w.heap k = some d) (hintro : d.introducer = r) (hne : k ≠ r) (hrT : r ≠ T)
    (hc : w.heap r = some c) : c.type = .server := by
  have hremote : d.connId = none := by
    cases hconn : d.connId with
    | none => rfl
    | some i =>
      rcases h.linked.home k d i hd hconn with hthis | hself
      · exact absurd (hintro.symm.trans (hthis.trans h.this)) hrT
      · exact absurd (hself.symm.trans hintro) hne
  have hkT : k ≠ T := by
    rintro rfl
    exact hne ((h.own d hd).1.symm.trans hintro)
  obtain ⟨-, -, -, p, hp, hserver⟩ := h.parent k hk d hd hremote hkT
  rw [hintro, hc] at hp
  rw [Option.some.inj hp]
  exact hserver

/-- A local client that is no server has introduced nobody. -/
theorem of_not_server (h : Routed T (fun _ => False) w) (hc : w.heap r = some c)
    (hlocal : c.connId ≠ none) (htype : c.type ≠ .server) : Routed T (· = r) w := by
  have hrT := h.ne_of_local hc hlocal
  refine { h with childless := ?_, located := ?_ }
  · rintro s rfl k hk d hd hintro
    by_contra hks
    exact htype (h.server_of_child hk hd hintro hks hrT hc)
  · rintro s rfl d hd
    obtain rfl : c = d := Option.mem_unique hc hd
    exact hlocal

theorem weaken (h : Routed T S w) : Routed T (fun _ => False) w :=
  { h with childless := nofun, located := nofun }

theorem personal (hS : S r) : Personal (Routed T S) r (Keeps (Routed T S)) where
  upkeep := Routed.upkeep T S
  setType _ _ _ hc h := h.setHeap hc ⟨rfl, .inl rfl, fun _ => .inr hS⟩
  setId _ _ _ _ _ hc h := h.of_places (.setHeap hc rfl)
  ownIntroducer _ c hc h := h.setHeap hc ⟨rfl, .inr ⟨rfl, h.located r hS c hc⟩, .inl⟩
  greet := (Routed.indifferent T S).greetUser r

/-! ### Taking a client off the list -/

theorem unlink (h : Routed T S w) (hrT : r ≠ T)
    (hchild : ∀ k ∈ w.order, ∀ c, w.heap k = some c → c.introducer = r → k = r) :
    Routed T S { w with order := w.order.erase r } where
  __ := h.toHangs.unlink r
  cell k hk := h.cell k (List.mem_of_mem_erase hk)
  present := (List.mem_erase_of_ne hrT.symm).mpr h.present
  server := h.server
  parent k hk c hc hconn hkT := by
    have hk' := List.mem_of_mem_erase hk
    obtain ⟨hmem, hne, hrest⟩ := h.parent k hk' c hc hconn hkT
    have hpr : c.introducer ≠ r := fun hpr => hne (hpr.trans (hchild k hk' c hc hpr).symm)
    exact ⟨(List.mem_erase_of_ne hpr).mpr hmem, hne, hrest⟩

theorem free (h : Routed T S w) (hr : r ∉ w.order) : Routed T S (w.setHeap r none) := by
  have hback (k : ClientRef) (hk : k ∈ w.order) : (w.setHeap r none).heap k = w.heap k :=
    World.setHeap_heap_ne w (fun hkr : k = r => hr (hkr ▸ hk)) _
  exact
    { h.toHangs.free r with
      cell := fun k hk => by
        rw [hback k hk]
        exact h.cell k hk
      present := h.present
      server := fun c hc => h.server c (World.heap_of_free hc)
      parent := fun k hk c hc hconn hkT => by
        obtain ⟨hmem, hne, hneT, p, hp, hserver⟩ := h.parent k hk c (World.heap_of_free hc) hconn hkT
        exact ⟨hmem, hne, hneT, p, (hback _ hmem).trans hp, hserver⟩ }

/-! ### New clients -/

/-- How a new client fits in: it is local, or a server has introduced it that is not
this one. -/
def Fits (T : ClientRef) (w : World) (new : Client) : Prop :=
  new.connId ≠ none ∨ new.introducer ∈ w.order ∧ new.introducer ≠ T ∧
    ∃ p, w.heap new.introducer = some p ∧ p.type = .server

variable (h : Routed T (fun _ => False) w)
include h

theorem add (hnew : Grown w w' new) (hintro : new.introducer ≤ w.nextRef) (hfits : Fits T w new) :
    Routed T (fun _ => False) w' := by
  have hne (k : ClientRef) (hk : k ∈ w.order) : k ≠ w.nextRef := Nat.ne_of_lt (h.listed.fresh k hk)
  refine
    { h.toHangs.add (h.listed.fresh T h.present) hnew hintro with
      cell := fun k hk => ?_
      present := hnew.kept h.present
      server := fun d hd => ?_
      parent := fun k hk d hd hd_conn hkT => ?_ }
  · by_cases hkn : k = w.nextRef
    · exact ⟨new, hkn ▸ hnew.new⟩
    · rw [hnew.old k hkn]
      exact h.cell k (hnew.mem hk hkn)
  · rcases hnew.cases hd with ⟨hTn, -⟩ | ⟨-, hd⟩
    · exact absurd hTn (hne T h.present)
    · exact h.server d hd
  · rcases hnew.cases hd with ⟨rfl, rfl⟩ | ⟨hkn, hd⟩
    · rcases hfits with hlocal | ⟨hp_mem, hpT, p, hp, hserver⟩
      · exact absurd hd_conn hlocal
      · exact ⟨hnew.kept hp_mem, hne _ hp_mem, hpT, p, (hnew.old _ (hne _ hp_mem)).trans hp, hserver⟩
    · obtain ⟨hp_mem, hpk, hpT, p, hp, hserver⟩ := h.parent k (hnew.mem hk hkn) d hd hd_conn hkT
      exact ⟨hnew.kept hp_mem, hpk, hpT, p, (hnew.old _ (hne _ hp_mem)).trans hp, hserver⟩

/-- A client that a server introduces. -/
theorem addRemote (hconn : new.connId = none) (hmem : new.introducer ∈ w.order)
    (hneT : new.introducer ≠ T) (hp : w.heap new.introducer = some p) (hserver : p.type = .server) :
    Routed T (fun _ => False) (w.addClient new) :=
  h.add (.addClient h.linked hconn) (Nat.le_of_lt (h.listed.fresh _ hmem))
    (.inr ⟨hmem, hneT, p, hp, hserver⟩)

/-- A client with a connection. -/
theorem openConn (hintro : new.introducer = w.thisServer ∨ new.introducer = w.nextRef) (i : ConnId)
    (conn : Conn) : Routed T (fun _ => False) (w.openConn i new conn) := by
  refine h.add (.openConn h.linked hintro i conn) ?_ (.inl nofun)
  rcases hintro with hintro | hintro
  · rw [hintro, h.this]
    exact Nat.le_of_lt (h.listed.fresh T h.present)
  · exact Nat.le_of_eq hintro

end Routed

/-! ## Removing clients -/

/-- When the walk of `Client_Destroy` is at the client itself, nobody is left whom the
client has introduced. -/
theorem Routed.childless_of_destroyStop (h : Routed T S w) (hc : w.heap r = some c) (hrT : r ≠ T)
    (hstop : w.destroyStop r (c.type == .server) = some r)
    (hk : k ∈ w.order) (hd : w.heap k = some d) (hintro : d.introducer = r) : k = r := by
  by_contra hne
  have hserver := h.server_of_child hk hd hintro hne hrT hc
  -- A child stands in front of its introducer, where the walk finds it first.
  have hle : k ≤ r := by
    refine le_of_find? h.listed.desc hstop hk ?_
    simp [hserver, hd, hintro]
  have hge := h.older k hk d hd
  rw [hintro] at hge
  exact hne (Nat.le_antisymm hle hge)

/-- Every client but this server can be removed. -/
theorem clientDestroy_routed (n : Nat) (h : Routed T S w) (hrT : r ≠ T) :
    (clientDestroy n r l f sendQuit).wp (shutWp (upholding (Routed T S)) anyFault)
      (fun _ => Routed T S) w := by
  have hframe := keeps_frame (fun _ _ hk => hk.1) (Routed.frame T S)
  induction n generalizing r l f sendQuit w with
  | zero => trivial
  | succ n ih =>
    refine wp_clientDestroy.mpr
      ⟨fun c hc => ⟨fun _ => h, fun hstop => ?_, fun s hs hne => ?_⟩, fun _ => trivial⟩
    · refine hframe.toLeaveFrame.wp (fun _ => trivial) _ fun _ w' hkeep => ?_
      have hoff : r ∉ w.order.erase r := h.listed.nodup.not_mem_erase
      have hunlinked := h.unlink hrT fun k hk d hd hintro =>
        h.childless_of_destroyStop hc hrT hstop hk hd hintro
      exact (hkeep.2 hunlinked).free (hkeep.1.gone r (h.linked.cell r c hc) hoff)
    · refine ⟨fun this _ => ?_, fun _ => trivial⟩
      obtain ⟨-, hup⟩ := child_of_destroyStop hs hne
      obtain ⟨d, hd, hintro⟩ := World.up_eq_some hup
      have hsT : s ≠ T := by
        rintro rfl
        exact hne ((h.own d hd).1.symm.trans hintro)
      exact Prog.wp_mono (fun _ w₁ hw₁ => ih hw₁ hrT) (ih h hsT)

theorem destroyClient_routed (h : Routed T S w) (hrT : r ≠ T) :
    (destroyClient r l f sendQuit).wp (plainWp (upholding (Routed T S)) anyFault)
      (fun _ => Routed T S) w := by
  unfold destroyClient
  simp only [wp_msg, liftM_shut_plain, wp_getWorld, wp_ofShut]
  exact clientDestroy_routed _ h hrT

theorem closer_routed (T : ClientRef) (S : ClientRef → Prop) (n : Nat) :
    (upholding (Routed T S)).RightAbout anyFault (closer n) := by
  refine closer_upholds ((Routed.upkeep T S).connClose (fun w i conn hconn hw => ?_) ?_) n
  · exact hw.of_places (.setConn hconn)
  · intro w i r n l f hw hr
    refine clientDestroy_routed n hw ?_
    rintro rfl
    obtain ⟨c, hc⟩ := hw.cell r hw.present
    exact nomatch (hw.linked.link i r c hr hc).symm.trans (hw.own c hc).2

theorem Routed.removing (T : ClientRef) (S : ClientRef → Prop) :
    Removing (Routed T S) (· = T) (Keeps (Routed T S)) where
  toUpkeep := Routed.upkeep T S
  destroy _ _ _ _ hr _ hw := destroyClient_routed hw hr
  spare _ _ _ hw hr hc := by
    subst hr
    exact ⟨hw.server _ hc, hw.this⟩

/-! ## Commands -/

section

variable {server : ClientRef}

theorem clientGetFromToken_listed
    (h : w.clientGetFromToken client token = some server) :
    server ∈ w.order ∧ ∃ d, w.heap server = some d ∧ d.type = .server ∧ d.introducer = client := by
  unfold World.clientGetFromToken at h
  split_ifs at h
  obtain ⟨⟨s, d⟩, hfind, rfl⟩ := Option.map_eq_some_iff.mp h
  obtain ⟨t, hmem, ht⟩ := List.mem_filterMap.mp (List.mem_of_find?_eq_some hfind)
  obtain ⟨d', hd', heq⟩ := Option.map_eq_some_iff.mp ht
  cases heq
  have hhit := List.find?_some hfind
  simp only [Bool.and_eq_true, decide_eq_true_eq] at hhit
  exact ⟨hmem, d, hd', hhit.1.1, hhit.1.2⟩

/-- The server that a token stands for is a place for a new client. -/
theorem Routed.addUser {nick : Str} (h : Routed T (fun _ => False) w)
    (hneT : client ≠ T) (hserver : w.clientGetFromToken client token = some server)
    (hnew : RemoteUser server nick new) : Routed T (fun _ => False) (w.addClient new) := by
  obtain ⟨hmem, d, hd, htype, hintro⟩ := clientGetFromToken_listed hserver
  have hserverT : server ≠ T := by
    rintro rfl
    exact hneT (hintro.symm.trans (h.own d hd).1)
  have hplace := hnew.introducer
  subst hplace
  exact h.addRemote hnew.connId hmem hserverT hd htype

/-- A client that is no server has no server with a token. -/
theorem Routed.no_token (h : Routed T (· = client) w) (hc : w.heap client = some c)
    (htype : c.type ≠ .server) (hserver : w.clientGetFromToken client token = some server) :
    False := by
  obtain ⟨hmem, d, hd, hd_type, hintro⟩ := clientGetFromToken_listed hserver
  obtain rfl : server = client := h.childless client rfl server hmem d hd hintro
  rw [hc] at hd
  exact htype (Option.some.inj hd ▸ hd_type)

/-- NICK of a server for a client behind it. -/
theorem ircNickUser_routed (hs : w.StillServer client) (target : ClientRef) (nick : Str)
    (h : Routed T S w) :
    (ircNickUser client target nick).wp (fullWp (upholding (Routed T S)) anyFault)
      (fun _ => Routed T S) w := by
  have hr := Routed.renames T S target nick
  exact hr.ircNickUser_same h fun w' hw' hkept =>
    (Routed.upkeep T S).registerNick_server (hr.clientSetID w' hw') (hkept.stillServer hs)

end

/-! ## Whole runs -/

/-- No line is a CAP command of a server.  CAP END would log the server in as a user. -/
def Event.NoServerCap (w : World) : Event → Prop
  | .line i text after => ∀ r c req cmd, w.Has i r c → c.type = .server →
      splitRequest (trimStr text) (trimmedRest text after) = some req →
      findCommand req.command = some cmd → cmd.handler ≠ .cap
  | _ => True

/-- The client lists that come about from the first one: by all that can happen on
connections, except that this server is removed or a server becomes a user, and by
`Client_Destroy` of other clients than this server. -/
inductive Network : World → Prop where
  | start (conf : Conf) (env : Env) (host : Str) : Network (World.start conf env host)
  | event {w w' : World} {e : Event} (h : Network w) (hspares : e.SparesThis w)
      (hcap : e.NoServerCap w) (hstep : Step w e w') : Network w'
  | destroy {w w' : World} {r : ClientRef} (h : Network w) (hne : r ≠ w.thisServer) {k : Nat}
      {l f : Option Str} {q : Bool} (hrun : destroyWith k r l f q w = .ok ((), w')) : Network w'

section

variable {i : ConnId} {text after : Str}

section

variable {handler : Handler}

/-- A command of a server. -/
theorem callHandler_routed_server (h : Routed T (fun _ => False) w) (hc : w.heap client = some c)
    (hlocal : c.connId ≠ none) (htype : c.type = .server) (hmem : client ∈ w.order)
    (hcap : handler ≠ .cap)
    (hquit : ∀ target, req.pfx.bind w.clientSearch = some target → target ≠ T)
    (hsquit : handler = .squit → ∀ source s target, w.senderOf client req = some source →
      w.heap source = some s → s.type = .server → w.clientSearch (req.arg 0) = some target →
      target ≠ T) :
    (callHandler client req handler).wp (fullWp (upholding (Routed T fun _ => False)) anyFault)
      (fun _ => Routed T fun _ => False) w := by
  have hup := Routed.upkeep T fun _ => False
  have hremoving := Routed.removing T fun _ => False
  have hne := h.ne_of_local hc hlocal
  have hlive := h.linked.cell client c hc
  have hs : w.StillServer client :=
    ⟨hlive, fun d hd => Option.mem_unique hc hd ▸ htype⟩
  by_cases hout : handler.reachesOut = false
  · by_cases hself : handler.changesSelf = false
    · exact (Routed.indifferent T _).callHandler client req hout hself w h
    · cases handler with
      | cap => exact absurd rfl hcap
      | pass => exact hup.ircPass h hc fun hnew => by simp [htype] at hnew
      | pong => exact hup.ircPong h hc hlive fun hwait => by simp [htype] at hwait
      | svsnick => exact hup.ircSvsnick_renames (fun target => Routed.renames T _ target _) w h
      | _ => exact absurd rfl hself
  refine hremoving.callHandler_out h ⟨hne, fun target _ => hquit target, ?_⟩ ?_ hc hlive
    (by simpa using hout) (fun _ target => (Routed.indifferent T _).join target _)
    (fun _ hnew => by simp [htype] at hnew)
    (fun _ _ _ _ _ htoken _ hnew => h.addUser hne htoken hnew) ?_
    (fun _ hnew => by simp [htype] at hnew)
    (fun w _ _ t h hc htype _ => h.retype_of_not_server hc (by simp [htype]) t)
  · exact fun hhandler _ target source s => hsquit hhandler source s target
  · rintro - target (⟨hserver, -⟩ | -)
    · exact absurd htype hserver
    · exact ircNickUser_routed hs target _ h
  · rintro new - - hnew rfl
    exact h.addRemote hnew.connId hmem hne hc htype

/-- A command of a client that is no server. -/
theorem callHandler_routed_local (h : Routed T (· = client) w) (hc : w.heap client = some c)
    (htype : c.type ≠ .server) :
    (callHandler client req handler).wp (fullWp (upholding (Routed T (· = client))) anyFault)
      (fun _ => Routed T (· = client)) w := by
  have hup := Routed.upkeep T (· = client)
  have hremoving := Routed.removing T (· = client)
  have hself := Routed.personal (T := T) (S := (· = client)) rfl
  have hne := h.ne_of_local hc (h.located client rfl c hc)
  have hlive := h.linked.cell client c hc
  by_cases hout : handler.reachesOut = false
  · exact hself.entry.callHandler (Routed.indifferent T _) (hself.ircSvsnick req) h hc hlive hout
  exact hremoving.callHandler_out h
    ⟨hne, fun _ hserver => absurd hserver htype, fun _ hserver => absurd hserver htype⟩
    (fun _ target _ => hself.ircNickUser target _ w h) hc hlive (by simpa using hout)
    (fun _ target => (Routed.indifferent T _).join target _) (fun _ _ => hself.registerServer req w h)
    (fun _ _ _ _ _ htoken => (h.no_token hc htype htoken).elim)
    (fun _ _ hserver => absurd hserver htype) (fun _ _ => hself.entry.registerUser req w h)
    (fun w _ _ t h hc htype _ => h.retype_of_not_server hc (by simp [htype]) t)

end

/-- What is found to do about a line keeps routes. -/
theorem finish_routed {d : Dispatch} {argv : List Str}
    (hw : Routed T (fun _ => False) w) (htidy : Tidy w) (hi : w.Has i r c)
    (hspares : Event.SparesThis w (.line i text after))
    (hcap : Event.NoServerCap w (.line i text after))
    (hdispatch : execPlain n (dispatchLine i text after) w = .ok (d, w₁))
    (hknown : d.Known w i r c argv w₁) (hw₁ : Routed T (fun _ => False) w₁)
    (hend : exec n d.finish w₁ = .ok (b, w')) : Routed T (fun _ => False) w' := by
  have hup := Routed.upkeep T fun _ => False
  have hclose := closer_routed T (fun _ => False) n
  have hlocal : c.connId ≠ none := by
    rw [hw.linked.link i r c hi.client hi.cell]
    exact nofun
  cases d with
  | answered result => exact (exec_ends hclose (UpholdsFull.pure result w₁ hw₁)).of_ok hend
  | numeric client req =>
    obtain ⟨rfl, rfl, -⟩ := hknown
    by_cases htype : c.type = .server
    · -- The type that is set is the one the client has.
      have hset (d : Client) (hd : w₁.heap client = some d) :
          Routed T (fun _ => False) (w₁.setHeap client (some (w₁.retype d .server))) :=
        hw₁.setHeap hd ⟨rfl, .inl rfl, fun _ => .inl rfl⟩
      exact (exec_ends hclose (hup.handleNumeric hw₁ fun _ _ => hup.ircNumEndofmotd hset)).of_ok hend
    · have hfree := hw₁.of_not_server hi.cell hlocal htype
      have hself := Routed.personal (T := T) (S := (· = client)) rfl
      exact ((exec_ends (closer_routed T (· = client) n)
        (hself.handleNumeric req w₁ hfree)).of_ok hend).weaken
  | command client type cmd req =>
    obtain ⟨rfl, rfl, hpenalty, hd, hfits, -⟩ := hknown
    obtain ⟨hheap, hthis₁, hsearch, hnext⟩ := hpenalty.same_clients
    have hcell : w₁.heap client = some c := by rw [hheap, hi.cell]
    by_cases htype : c.type = .server
    · have horder : w₁.order = w.order := by cases hpenalty <;> rfl
      have hthis : w.thisServer = T := hw.this
      obtain ⟨req₀, hsplit, hreceived⟩ := (execPlain_ends (closer_settled n)
        (dispatchLine_received hw.linked hi text after)).of_ok hdispatch client c.type cmd req rfl
      have hreq := (execPlain_ends (closer_settled n)
        (dispatchLine_of_server hw.linked hi htype text after)).of_ok hdispatch client c.type cmd
          req rfl
      refine (exec_ends hclose (hup.finish_command
        (callHandler_routed_server hw₁ hcell hlocal htype ?_ ?_ ?_ ?_))).of_ok hend
      · rw [horder]
        exact htidy client c hi.cell
      · exact hcap client c req₀ cmd hi htype hsplit
          (by rw [← hd.found, hreceived, Request.received_command])
      · rintro target htarget rfl
        rw [hsearch, ← hthis] at htarget
        exact hfits.ne_thisServer hw.ownRecord hw.linked hi htarget
      · rintro hhandler source s target hsender hs hs_type htarget rfl
        refine hspares ⟨client, req, source, ?_⟩
        rw [hheap] at hs
        refine .of_dispatched hw.linked hi htype hreq hd hhandler hfits ?_ hs hs_type ?_
        · rw [← hsender]
          simp only [World.senderOf, hsearch]
        · rw [← hsearch, htarget, hthis]
    · have hfree := hw₁.of_not_server hcell hlocal htype
      have hup := Routed.upkeep T (· = client)
      exact ((exec_ends (closer_routed T (· = client) n) (hup.finish_command
        (callHandler_routed_local hfree hcell htype))).of_ok hend).weaken

theorem Routed.prepare (h : Routed T (fun _ => False) w) (e : Event) :
    Routed T (fun _ => False) (e.prepare w) := by
  cases e with
  | accept i ip => exact h.openConn (.inl rfl) i _
  | connect k i ip => exact h.openConn (.inr rfl) i _
  | ping i => exact h.of_places (.setConn (.inl rfl))
  | clock now => exact h.of_places (.of_eq rfl rfl rfl rfl rfl)
  | resolved | linked | line | close | expire => exact h

/-- An event keeps routes. -/
theorem Routed.step (h : Routed T (fun _ => False) w) (htidy : Tidy w)
    (hspares : e.SparesThis w) (hcap : e.NoServerCap w) (hstep : Step w e w') :
    Routed T (fun _ => False) w' := by
  refine (Routed.upkeep T fun _ => False).step (closer_routed T _) h.linked h (h.prepare e) ?_ hstep
  rintro n i text after r c d argv w₁ b rfl hdispatch hi hknown hw₁ hend
  exact finish_routed h htidy hi hspares hcap hdispatch hknown hw₁ hend

theorem Routed.start (conf : Conf) (env : Env) (host : Str) :
    Routed 0 (fun _ => False) (World.start conf env host) := by
  refine
    { Hangs.start conf env host with
      cell := fun r hr => ?_
      present := List.mem_singleton.mpr rfl
      server := fun c hc => (World.start_cell hc).type
      parent := fun r _ c hc _ hr => absurd (World.start_cell hc).ref hr }
  obtain rfl := List.mem_singleton.mp hr
  exact ⟨_, rfl⟩

theorem destroyWith_routed {k : Nat}
    (h : Routed T (fun _ => False) w) (hne : r ≠ T)
    (hrun : destroyWith k r l f q w = .ok ((), w')) : Routed T (fun _ => False) w' :=
  (Prog.wp_sound (stepShut_ends (closer_routed T _ k)) (clientDestroy_routed _ h hne)).of_ok hrun

theorem destroyWith_tidy {k : Nat} (h : Tidy w)
    (hrun : destroyWith k r l f q w = .ok ((), w')) : Tidy w' := by
  have htidies := (Prog.wp_sound (stepShut_ends (closesTidily.rightAbout k))
    (closesTidily.clientDestroy _ r l f q w)).of_ok hrun
  exact htidies.2.tidy h

theorem Network.routed (h : Network w) : Routed w.thisServer (fun _ => False) w ∧ Tidy w := by
  induction h with
  | start conf env host => exact ⟨.start conf env host, .start conf env host⟩
  | event _ hspares hcap hstep ih =>
    have hrouted := ih.1.step ih.2 hspares hcap hstep
    exact ⟨hrouted.this ▸ hrouted, ih.2.step ih.1.linked hstep⟩
  | destroy _ hne hrun ih =>
    have hrouted := destroyWith_routed ih.1 hne hrun
    exact ⟨hrouted.this ▸ hrouted, destroyWith_tidy ih.2 hrun⟩

/-- The walk of `Client_NextHop` ends: introducers are older. -/
theorem Routed.nextHopFrom_ok (h : Routed T S w) (hn : r < n)
    (hr : r ∈ w.order) : ∃ hop c, w.nextHopFrom n r = .ok hop ∧ w.heap hop = some c ∧
      (hop = T ∨ c.connId ≠ none) := by
  induction n generalizing r with
  | zero => exact absurd hn (Nat.not_lt_zero r)
  | succ n ih =>
    obtain ⟨c, hc⟩ := h.cell r hr
    simp only [World.nextHopFrom, hc]
    by_cases hremote : c.connId = none ∧ r ≠ T
    · obtain ⟨hmem, hne, hneT, -⟩ := h.parent r hr c hc hremote.1 hremote.2
      have hlt : c.introducer < r := Nat.lt_of_le_of_ne (h.older r hr c hc) hne
      rw [if_neg (by rw [h.this]; exact fun hend => hend.elim hne hneT)]
      exact ih (Nat.lt_of_lt_of_le hlt (Nat.le_of_lt_succ hn)) hmem
    · -- A local client, and this server, is at the end of the walk.
      have hend : c.introducer = r ∨ c.introducer = w.thisServer := by
        by_cases hrT : r = T
        · subst hrT
          exact .inl (h.own c hc).1
        · obtain ⟨i, hconn⟩ := Option.ne_none_iff_exists'.mp fun hnone => hremote ⟨hnone, hrT⟩
          exact (h.linked.home r c i hc hconn).symm
      rw [if_pos hend]
      refine ⟨r, c, rfl, hc, ?_⟩
      by_contra hno
      rw [not_or, not_not] at hno
      exact hremote ⟨hno.2, hno.1⟩

/-- `Client_NextHop` ends for every client on the list, at this server or at a client with a
connection, and clients with the same introducer have the same next hop, unless it is
one of them or this server. -/
theorem nextHop_ends_at_link (h : Network w) :
    (∀ r ∈ w.order, ∃ hop c, w.nextHop r = .ok hop ∧ w.heap hop = some c ∧
      (hop = w.thisServer ∨ ∃ i, c.connId = some i)) ∧
    ∀ r ∈ w.order, ∀ s ∈ w.order, ∀ c d, w.heap r = some c → w.heap s = some d →
      c.introducer = d.introducer → c.introducer ≠ r → d.introducer ≠ s →
      c.introducer ≠ w.thisServer → w.nextHop r = w.nextHop s := by
  have hrouted := h.routed.1
  constructor
  · intro r hr
    have hlt : r < w.nextRef + 1 := Nat.lt_succ_of_lt (hrouted.listed.fresh r hr)
    obtain ⟨hop, c, hnext, hc, hend⟩ := hrouted.nextHopFrom_ok hlt hr
    exact ⟨hop, c, hnext, hc, hend.imp_right Option.ne_none_iff_exists'.mp⟩
  · intro r _ s _ c d hc hd hsame hcr hds hthis
    -- Both walks go on with the introducer.
    have hwalk : ∀ k e, w.heap k = some e → e.introducer ≠ k → e.introducer ≠ w.thisServer →
        w.nextHop k = w.nextHopFrom w.nextRef e.introducer := by
      intro k e he hne hneT
      simp only [World.nextHop, World.nextHopFrom, he]
      exact if_neg fun hend => hend.elim hne hneT
    rw [hwalk r c hc hcr hthis, hwalk s d hd hds (hsame ▸ hthis), hsame]

end

/-- The command of a line is neither SQUIT nor CAP. -/
def Event.isRouted : Event → Bool
  | .line _ text after => (splitRequest (trimStr text) (trimmedRest text after)).all fun req =>
    !strcaseEq req.command "SQUIT" && (findCommand req.command).all (·.handler != .cap)
  | _ => true

theorem Event.routed_of_isRouted (h : e.isRouted = true) :
    e.SparesThis w ∧ e.NoServerCap w := by
  cases e with
  | line i text after =>
    simp only [Event.isRouted] at h
    constructor
    · rintro ⟨r, req, source, hsquit⟩
      simp only [hsquit.split, Option.all_some, hsquit.command] at h
      exact nomatch h
    · intro r c req cmd _ _ hsplit hfound
      simp only [hsplit, hfound, Option.all_some, Bool.and_eq_true, bne_iff_ne] at h
      exact h.2
  | _ => exact ⟨trivial, trivial⟩

theorem Network.runAll (h : Network w) {es : List Event}
    (hes : es.all Event.isRouted = true) (hrun : Event.runAll n es w = some w') : Network w' := by
  induction es generalizing w with
  | nil =>
    obtain rfl : w = w' := Option.some.inj hrun
    exact h
  | cons e es ih =>
    obtain ⟨w₁, hstep, hrest⟩ := Event.runAll_cons hrun
    rw [List.all_cons, Bool.and_eq_true] at hes
    obtain ⟨hspares, hcap⟩ := Event.routed_of_isRouted hes.1
    exact ih (h.event hspares hcap hstep) hes.2 hrest

/-- A server introduces a second one, and two users of it. -/
def userLink : List Event :=
  peerLink ++ [.line 1 ":irc.b SERVER irc.c 2 2 :C" [],
    .line 1 ":irc.b NICK ann 2 a host 2 + :Ann" [], .line 1 ":irc.b NICK bob 2 b host 2 + :Bob" []]

theorem nextHop_ends_at_link_userLink : ∃ w c d, Network w ∧ 3 ∈ w.order ∧ 4 ∈ w.order ∧
    w.heap 3 = some c ∧ w.heap 4 = some d ∧ c.introducer = 2 ∧ d.introducer = 2 ∧
    w.thisServer = 0 ∧
    (∃ hop e, w.nextHop 3 = .ok hop ∧ w.heap hop = some e ∧ (hop = 0 ∨ ∃ i, e.connId = some i)) ∧
    w.nextHop 3 = w.nextHop 4 := by
  obtain ⟨w, hw, h3, h4, ⟨c, hc, hci⟩, ⟨d, hd, hdi⟩, hthis⟩ :
      ∃ w ∈ Event.runAll 1 userLink (World.start peerConf {} "localhost"), 3 ∈ w.order ∧
        4 ∈ w.order ∧ (∃ c ∈ w.heap 3, c.introducer = 2) ∧ (∃ d ∈ w.heap 4, d.introducer = 2) ∧
        w.thisServer = 0 := by
    decide +kernel
  have hnetwork := (Network.start peerConf {} "localhost").runAll (by decide +kernel) hw
  obtain ⟨hends, hsame⟩ := nextHop_ends_at_link hnetwork
  have hend := hends 3 h3
  rw [hthis] at hend
  refine ⟨w, c, d, hnetwork, h3, h4, hc, hd, hci, hdi, hthis, hend, ?_⟩
  refine hsame 3 h3 4 h4 c d hc hd (hci.trans hdi.symm) ?_ ?_ ?_
  · rw [hci]
    decide
  · rw [hdi]
    decide
  · rw [hci, hthis]
    decide

end Ngircd
