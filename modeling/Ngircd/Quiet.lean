import Ngircd.Logic

/-!
# When no write fails

As long as every socket write is taken, a message program closes nothing.  All
it leaves behind is the lines it has sent, the bookkeeping of connections and
cloaked host names (`Quiet`).  If moreover the client list is in order
(`Healthy`), the functions that write to clients do not fail.
-/

namespace Ngircd

open Lib Prog

variable {c p s this : Client} {w₁ w₂ w₃ w w' : World} {r pfx server client : ClientRef}
  {i : ConnId}

/-- No write to a socket fails from now on. -/
def World.Calm (w : World) : Prop := ∀ n, w.env.writes ≤ n → w.env.outcome n = .taken

/-! ## The frame of message programs -/

/-- A client structure without its cloaked host name. -/
def Client.uncloak (c : Client) : Client := { c with cloaked := none }

theorem Client.eq_of_uncloak_eq {c' : Client} (h : c'.uncloak = c.uncloak) :
    c' = { c with cloaked := c'.cloaked } := by
  cases c
  cases c'
  simpa [Client.uncloak] using h

/-- The part of a connection that messages do not touch. -/
structure Conn.SameLink (c c' : Conn) : Prop where
  sock : c'.sock = c.sock
  client : c'.client = c.client
  pwd : c'.pwd = c.pwd
  authPing : c'.authPing = c.authPing
  isClosing : c'.isClosing = c.isClosing

theorem Conn.SameLink.trans {c₁ c₂ c₃ : Conn} (h₁ : c₁.SameLink c₂) (h₂ : c₂.SameLink c₃) :
    c₁.SameLink c₃ :=
  ⟨h₂.sock.trans h₁.sock, h₂.client.trans h₁.client, h₂.pwd.trans h₁.pwd,
    h₂.authPing.trans h₁.authPing, h₂.isClosing.trans h₁.isClosing⟩

/-- Connections keep their links, and there are no new clients. -/
structure Unmoved (w w' : World) : Prop where
  link : ∀ i, (w.conns i).SameLink (w'.conns i)
  poolSize : w'.poolSize = w.poolSize
  nextRef : w'.nextRef = w.nextRef
  thisServer : w'.thisServer = w.thisServer
  now : w'.now = w.now
  outcome : w'.env.outcome = w.env.outcome
  writes : w.env.writes ≤ w'.env.writes

/-- What programs that may also take members out of channels leave as it is, while no
write fails. -/
structure Placid (w w' : World) : Prop extends Unmoved w w' where
  cell : ∀ r, (w'.heap r).map Client.uncloak = (w.heap r).map Client.uncloak
  order : w'.order = w.order

/-- What message programs change while no write fails. -/
structure Quiet (w w' : World) : Prop extends Placid w w' where
  chans : w'.chans = w.chans
  conf : w'.conf = w.conf
  misc : w'.misc = w.misc
  rand : w'.env.rand = w.env.rand
  rands : w'.env.rands = w.env.rands
  sent : w.sent <+: w'.sent

theorem Unmoved.trans (h₁ : Unmoved w₁ w₂) (h₂ : Unmoved w₂ w₃) :
    Unmoved w₁ w₃ where
  link i := (h₁.link i).trans (h₂.link i)
  poolSize := h₂.poolSize.trans h₁.poolSize
  nextRef := h₂.nextRef.trans h₁.nextRef
  thisServer := h₂.thisServer.trans h₁.thisServer
  now := h₂.now.trans h₁.now
  outcome := h₂.outcome.trans h₁.outcome
  writes := Nat.le_trans h₁.writes h₂.writes

theorem Placid.trans (h₁ : Placid w₁ w₂) (h₂ : Placid w₂ w₃) : Placid w₁ w₃ where
  __ := h₁.toUnmoved.trans h₂.toUnmoved
  cell r := (h₂.cell r).trans (h₁.cell r)
  order := h₂.order.trans h₁.order

namespace Quiet

theorem refl (w : World) : Quiet w w :=
  ⟨⟨⟨fun _ => ⟨rfl, rfl, rfl, rfl, rfl⟩, rfl, rfl, rfl, rfl, rfl, le_rfl⟩, fun _ => rfl, rfl⟩,
    rfl, rfl, rfl, rfl, rfl, List.prefix_rfl⟩

theorem trans (h₁ : Quiet w₁ w₂) (h₂ : Quiet w₂ w₃) : Quiet w₁ w₃ where
  __ := h₁.toPlacid.trans h₂.toPlacid
  chans := h₂.chans.trans h₁.chans
  conf := h₂.conf.trans h₁.conf
  misc := h₂.misc.trans h₁.misc
  rand := h₂.rand.trans h₁.rand
  rands := h₂.rands.trans h₁.rands
  sent := h₁.sent.trans h₂.sent

/-- A change of one slot that keeps its link. -/
theorem setConn {conn : Conn} (h : (w.conns i).SameLink conn) :
    Quiet w (w.setConn i conn) := by
  refine { refl w with link := fun j => ?_ }
  by_cases hj : j = i
  · subst hj
    simpa using h
  · rw [World.setConn_conns_ne w hj]
    exact (refl w).link j

/-- A new cloaked host name. -/
theorem cloak (hc : w.heap r = some c) (host : Str) :
    Quiet w (w.setHeap r (some { c with cloaked := some host })) := by
  refine { refl w with cell := fun s => ?_ }
  by_cases hs : s = r
  · subst hs
    simp [hc, Client.uncloak]
  · rw [World.setHeap_heap_ne w hs]

/-- A write that is taken. -/
theorem queue (w : World) (i : ConnId) (line : Str) : Quiet w (w.tickWrite.queue i line) := by
  have hslot : Quiet w.tickWrite (w.tickWrite.queue i line) := by
    have h : Quiet w.tickWrite (w.tickWrite.setConn i { w.tickWrite.conns i with
        bytesOut := (w.tickWrite.conns i).bytesOut + line.length + 2 }) :=
      setConn ⟨rfl, rfl, rfl, rfl, rfl⟩
    exact { h with sent := List.prefix_append _ _ }
  have htick : Quiet w w.tickWrite := { refl w with writes := Nat.le_succ _ }
  exact htick.trans hslot

/-- Nothing else happens while no write fails. -/
theorem frame : MsgFrame (fun _ _ _ => False) Quiet where
  refl := refl
  trans _ _ _ := trans
  queue w i line _ _ := queue w i line
  fail _ _ _ _ _ h := h.elim
  editConn _ _ e :=
    setConn ⟨e.sock_eq _, e.client_eq _, e.pwd_eq _, e.authPing_eq _, e.isClosing_eq _⟩
  cloak _ _ host _ hc := cloak hc host

end Quiet

namespace Placid

theorem refl (w : World) : Placid w w := (Quiet.refl w).toPlacid

theorem calm (h : Placid w w') (hw : w.Calm) : w'.Calm := by
  intro n hn
  rw [h.outcome]
  exact hw n (Nat.le_trans h.writes hn)

/-- The structures that were there are there, up to a cloaked host name. -/
theorem heap_some (h : Placid w w') (hc : w.heap r = some c) :
    ∃ host, w'.heap r = some { c with cloaked := host } := by
  have hcell := h.cell r
  rw [hc] at hcell
  cases hr : w'.heap r with
  | none => simp [hr] at hcell
  | some c' =>
    have hsame : c'.uncloak = c.uncloak := by simpa [hr] using hcell
    exact ⟨c'.cloaked, by rw [← Client.eq_of_uncloak_eq hsame]⟩

theorem heap_some_before (h : Placid w w') (hc : w'.heap r = some c) :
    ∃ c₀ host, w.heap r = some c₀ ∧ c = { c₀ with cloaked := host } := by
  have hcell := h.cell r
  rw [hc] at hcell
  cases hr : w.heap r with
  | none => simp [hr] at hcell
  | some c₀ =>
    have hsame : c.uncloak = c₀.uncloak := by simpa [hr] using hcell
    exact ⟨c₀, c.cloaked, rfl, Client.eq_of_uncloak_eq hsame⟩

end Placid

/-! ## Runs without a fault -/

/-- Transformers for message programs that neither fail nor close. -/
abbrev quietWp : Transformer MsgOp.Res World := msgWp .never noFault

section QuietWp

variable {α : Type} {Q Q' : α → World → Prop}

theorem MsgFrame.keeps {R : World → World → Prop} (h : MsgFrame (fun _ _ _ => False) R) :
    Prog.Keeps R quietWp := by
  intro op Q w hQ
  cases op with
  | get => exact ⟨hQ, h.refl w⟩
  | fault f => exact hQ
  | write i line =>
    simp only [msgWp] at hQ ⊢
    split_ifs at hQ ⊢ with hsock htaken
    · exact ⟨hQ, h.refl w⟩
    · exact ⟨hQ, h.queue w i line (by simpa using hsock) htaken⟩
    · exact hQ
  | editConn i e => exact ⟨hQ, h.editConn w i e⟩
  | cloak r host => exact ⟨fun c hc => ⟨hQ.1 c hc, h.cloak w r host c hc⟩, hQ.2⟩

/-- A program that ends as it should is quiet. -/
theorem wp_quiet {p : Msg α} (hp : p.wp quietWp Q w)
    (h : ∀ a w', Q a w' → Quiet w w' → Q' a w') : p.wp quietWp Q' w :=
  wp_mono (fun a w' ha => h a w' ha.1 ha.2)
    (Prog.wp_and_of_keeps Quiet.refl (fun _ _ _ => Quiet.trans) Quiet.frame.keeps p hp)

/-- Such a program can be run whatever closing would do. -/
theorem execMsg_of_wp {p : Msg α} (hp : p.wp quietWp Q w) (n : Nat) :
    ∃ a w', execMsg n p w = .ok (a, w') ∧ Q a w' :=
  (execMsg_ends (Closing.never_rightAbout _) hp).exists_ok

end QuietWp

/-! ## A client list that is in order -/

/-- The client is there, and so is the client on whose connection it is reached. -/
def World.Reached (w : World) (r : ClientRef) : Prop :=
  ∃ c h hc, w.heap r = some c ∧ w.nextHop r = .ok h ∧ w.heap h = some hc ∧ hc.connId ≠ none

/-- The structures that are linked are there; members of channels can be reached, and a
client with a connection is reached on that. -/
structure Healthy (w : World) : Prop where
  this : ∃ c, w.heap w.thisServer = some c
  listed : ∀ r ∈ w.order, ∃ c, w.heap r = some c
  member : ∀ e ∈ w.chans.cl2chan, w.Reached e.client
  introducer : ∀ r c, w.heap r = some c → ∃ c', w.heap c.introducer = some c'
  hop : ∀ r c, w.heap r = some c → ∃ h hc, w.nextHop r = .ok h ∧ w.heap h = some hc
  home : ∀ r c i, w.heap r = some c → c.connId = some i → w.nextHop r = .ok r
  pool : ∀ i, (w.conns i).sock ≠ none → i < w.poolSize

namespace Placid

variable (h : Placid w w')
include h

theorem nextHopFrom (n : Nat) (r : ClientRef) :
    w'.nextHopFrom n r = w.nextHopFrom n r := by
  induction n generalizing r with
  | zero => rfl
  | succ n ih =>
    simp only [World.nextHopFrom, h.thisServer]
    cases hr : w.heap r with
    | none =>
      have hcell := h.cell r
      simp only [hr, Option.map_none, Option.map_eq_none_iff] at hcell
      rw [hcell]
    | some c =>
      obtain ⟨host, hc'⟩ := h.heap_some hr
      simp only [hc', ih]

theorem nextHop (r : ClientRef) : w'.nextHop r = w.nextHop r := by
  unfold World.nextHop
  rw [h.nextRef, h.nextHopFrom]

theorem reached (hr : w.Reached r) : w'.Reached r := by
  obtain ⟨c, k, kc, hc, hnext, hkc, hconn⟩ := hr
  obtain ⟨host, hc'⟩ := h.heap_some hc
  obtain ⟨khost, hkc'⟩ := h.heap_some hkc
  exact ⟨_, k, _, hc', by rw [h.nextHop, hnext], hkc', hconn⟩

theorem healthy_of_reached (hmembers : ∀ e ∈ w'.chans.cl2chan, w.Reached e.client)
    (hw : Healthy w) : Healthy w' where
  this := by
    obtain ⟨c, hc⟩ := hw.this
    obtain ⟨host, hc'⟩ := h.heap_some hc
    exact ⟨_, by rw [h.thisServer, hc']⟩
  listed r hr := by
    rw [h.order] at hr
    obtain ⟨c, hc⟩ := hw.listed r hr
    obtain ⟨host, hc'⟩ := h.heap_some hc
    exact ⟨_, hc'⟩
  member e he := h.reached (hmembers e he)
  introducer r c hc := by
    obtain ⟨c₀, host, hc₀, rfl⟩ := h.heap_some_before hc
    obtain ⟨i, hi⟩ := hw.introducer r c₀ hc₀
    obtain ⟨ihost, hi'⟩ := h.heap_some hi
    exact ⟨_, hi'⟩
  hop r c hc := by
    obtain ⟨c₀, host, hc₀, rfl⟩ := h.heap_some_before hc
    obtain ⟨k, kc, hnext, hkc⟩ := hw.hop r c₀ hc₀
    obtain ⟨khost, hkc'⟩ := h.heap_some hkc
    exact ⟨k, _, by rw [h.nextHop, hnext], hkc'⟩
  home r c i hc hi := by
    obtain ⟨c₀, host, hc₀, rfl⟩ := h.heap_some_before hc
    rw [h.nextHop]
    exact hw.home r c₀ i hc₀ hi
  pool i hi := by
    rw [(h.link i).sock] at hi
    rw [h.poolSize]
    exact hw.pool i hi

theorem healthy (hmembers : w'.chans.cl2chan ⊆ w.chans.cl2chan) (hw : Healthy w) : Healthy w' :=
  h.healthy_of_reached (fun e he => hw.member e (hmembers he)) hw

end Placid

theorem Quiet.healthy (h : Quiet w w') (hw : Healthy w) : Healthy w' :=
  h.toPlacid.healthy (by rw [h.chans]; exact List.Subset.refl _) hw

/-! ## Writing -/

/-- Exactly these lines have been sent; marks and clients are as they were. -/
structure Sends (lines : List (ConnId × Str)) (w w' : World) : Prop where
  sent : w'.sent = w.sent ++ lines
  flag : ∀ i, (w'.conns i).flag = (w.conns i).flag
  heap : w'.heap = w.heap

namespace Sends

variable {l l' : List (ConnId × Str)}

theorem none (w : World) : Sends [] w w := ⟨by simp, fun _ => rfl, rfl⟩

theorem append (h₁ : Sends l w₁ w₂) (h₂ : Sends l' w₂ w₃) : Sends (l ++ l') w₁ w₃ :=
  ⟨by rw [h₂.sent, h₁.sent, List.append_assoc], fun i => (h₂.flag i).trans (h₁.flag i),
    h₂.heap.trans h₁.heap⟩

theorem setConn {c : Conn} (h : c.flag = (w.conns i).flag) :
    Sends [] w (w.setConn i c) := by
  refine ⟨by simp [World.setConn], fun j => ?_, rfl⟩
  by_cases hj : j = i
  · subst hj
    simpa using h
  · rw [World.setConn_conns_ne w hj]

theorem queue (w : World) (i : ConnId) (line : Str) :
    Sends [(i, line)] w (w.tickWrite.queue i line) := by
  refine ⟨rfl, fun j => ?_, rfl⟩
  by_cases hj : j = i
  · subst hj
    simp [World.queue, World.tickWrite, World.setConn]
  · simp [World.queue, World.tickWrite, World.setConn, hj]

end Sends

section Writing

/-- The lines a write to a connection sends. -/
def World.lineOn (w : World) (i : ConnId) (text : Str) : List (ConnId × Str) :=
  if (w.conns i).sock.isNone then [] else [(i, cutLine text)]

theorem connWriteStr_quiet (hw : w.Calm) (i : ConnId) (text : Str) :
    (connWriteStr i text).wp quietWp
      (fun ok w' => ok = (w.conns i).sock.isSome ∧ Sends (w.lineOn i text) w w') w := by
  have htaken : w.env.outcome w.env.writes = .taken := hw _ (Nat.le_refl _)
  simp only [connWriteStr, wp_bind, wp_writeTo, wp_editConn, wp_pure, msgWp, htaken, if_true,
    World.lineOn]
  split_ifs with hsock
  · refine ⟨by simpa using hsock, Sends.setConn rfl⟩
  · refine ⟨by simpa [Option.isSome_iff_ne_none] using hsock, ?_⟩
    exact (Sends.queue w i _).append (Sends.setConn rfl)

/-- A walk along the client list visits what is on it. -/
theorem wp_forClients {visit : ClientRef → Msg Unit} {I : World → Prop} {o : List ClientRef}
    (hI : ∀ w, I w → w.order = o)
    (hbody : ∀ r ∈ o, ∀ w, I w → (visit r).wp quietWp (fun _ => I) w) (l : List ClientRef)
    (hw : I w) : (forClients visit l).wp quietWp (fun _ => I) w := by
  induction l generalizing w with
  | nil => exact hw
  | cons r l ih =>
    simp only [forClients, wp_bind, wp_getWorld, wp_ite]
    refine ⟨fun hr => ?_, fun _ => ih hw⟩
    have hmem : r ∈ o := by
      rw [hI w hw] at hr
      simpa using hr
    refine wp_mono (fun _ w' hw' => ?_) (hbody r hmem w hw)
    have hr' : w'.order.contains r = true := by
      rw [hI w' hw']
      simpa using hmem
    simpa only [wp_bind, wp_getWorld, hr', if_true] using ih hw'

/-- The lines with which a text goes to servers. -/
def ServerLines (p : Client) (text : Str) (l : List (ConnId × Str)) : Prop :=
  ∀ x ∈ l, x.2 = cutLine (format ":%s %s" [p.nameOrStar, text.take 999])

theorem writeStrServer_quiet (hw : Healthy w) (hcalm : w.Calm)
    (hs : w.heap server = some s) (hconn : s.connId.isSome) (hp : w.heap pfx = some p)
    (text : Str) :
    (writeStrServer server pfx text).wp quietWp
      (fun _ w' => ∃ l, Sends l w w' ∧ ServerLines p text l) w := by
  obtain ⟨i, hi⟩ := Option.isSome_iff_exists.mp hconn
  have hnext := hw.home server s i hs hi
  suffices hsend : (connWriteStr i (format ":%s %s" [p.nameOrStar, text.take 999])).wp quietWp
      (fun _ w' => ∃ l, Sends l w w' ∧ ServerLines p text l) w by
    simpa [writeStrServer, hnext, onClient_of_some hs, hi, onClient_of_some hp] using hsend
  refine wp_mono (fun _ w' h => ⟨_, h.2, ?_⟩) (connWriteStr_quiet hcalm i _)
  intro x hx
  simp only [World.lineOn] at hx
  split_ifs at hx
  · simp at hx
  · simp only [List.mem_singleton] at hx
    rw [hx]

/-- A text for the servers is sent to some of them. -/
theorem ircWriteStrServersPrefixFlag_quiet (hw : Healthy w) (hcalm : w.Calm)
    (hp : w.heap pfx = some p) (exceptOf : Option ClientRef) (flag : Option Char) (text : Str) :
    (ircWriteStrServersPrefixFlag exceptOf pfx flag text).wp quietWp
      (fun _ w' => ∃ l, Sends l w w' ∧ ServerLines p text l) w := by
  -- The walk keeps the invariant that all it has done so far is quiet.
  let I : World → Prop := fun w' => (∃ l, Sends l w w' ∧ ServerLines p text l) ∧ Quiet w w'
  have hstart : I w := ⟨⟨[], Sends.none w, by simp [ServerLines]⟩, Quiet.refl w⟩
  simp only [ircWriteStrServersPrefixFlag, ircWriteStrServersPrefixFlagCB, forAllClients,
    wp_bind, wp_getWorld]
  refine wp_mono (fun _ w' h => h.1)
    (wp_forClients (I := I) (fun w' h => h.2.order) (fun r hr w' hI => ?_) w.order hstart)
  obtain ⟨⟨l, hl, hlines⟩, hq⟩ := hI
  obtain ⟨c, hc⟩ := (hq.healthy hw).listed r (by rw [hq.order]; exact hr)
  obtain ⟨host, hp'⟩ := hq.heap_some hp
  have hwrite (hconn : c.connId.isSome) :
      (writeStrServer r pfx text).wp quietWp (fun _ => I) w' := by
    refine wp_quiet (writeStrServer_quiet (hq.healthy hw) (hq.calm hcalm) hc hconn hp' text) ?_
    rintro _ w'' ⟨l', hl', hlines'⟩ hq'
    refine ⟨⟨l ++ l', hl.append hl', ?_⟩, hq.trans hq'⟩
    intro x hx
    rcases List.mem_append.mp hx with hx | hx
    · exact hlines x hx
    · exact hlines' x hx
  have hkeep : I w' := ⟨⟨l, hl, hlines⟩, hq⟩
  simp only [wp_bind, wp_deref, onClient_of_some hc, wp_thisServer, wp_ite, wp_pure]
  exact ⟨fun hcond => ⟨fun _ => hwrite hcond.2.1, fun _ => hkeep⟩, fun _ => hkeep⟩

/-! ## Displayed host names -/

/-- The host name `Client_UpdateCloakedHostname` computes. -/
def World.cloakFor (w : World) (c : Client) : Str :=
  if w.conf.cloakHostModeX.isEmpty then
    strlcpy (((w.heap c.introducer).map Client.nameOrStar).getD []) clientHostLen
  else
    let key := strlcat (strlcpy c.host clientHostLen) w.conf.cloakHostSalt clientHostLen
    snprintf clientHostLen w.conf.cloakHostModeX [hexStr (hash key).toNat]

/-- `Client_HostnameDisplayed`, as a function of the state. -/
def World.hostnameDisplayed (w : World) (c : Client) : Str :=
  if c.hasMode 'x' then c.cloaked.getD (w.cloakFor c) else c.host

/-- `Client_MaskCloaked`, as a function of the state. -/
def World.maskCloaked (w : World) (c : Client) : Str :=
  if c.hasMode 'x' then snprintf getidLen "%s!%s@%s" [c.id, c.user, w.hostnameDisplayed c]
  else c.mask

/-- The state once the cloaked host name of a client is stored. -/
def World.withCloak (w : World) (client : ClientRef) (c : Client) : World :=
  w.setHeap client (some { c with cloaked := some (w.cloakFor c) })

/-- The announcement of a new cloaked host name. -/
def cloakNews (c : Client) (host : Str) : Str :=
  format "METADATA %s cloakhost :%s" [c.nameOrStar, host]

/-- The cloaked host name of a client is stored, and servers are told about it. -/
def Cloaked (client : ClientRef) (c : Client) (w w' : World) : Prop :=
  ∃ l this, Sends l (w.withCloak client c) w' ∧ ServerLines this (cloakNews c (w.cloakFor c)) l

/-- As `Cloaked`, with the client that stands for this server. -/
def CloakedBy (this : Client) (client : ClientRef) (c : Client) (w w' : World) : Prop :=
  ∃ l, Sends l (w.withCloak client c) w' ∧ ServerLines this (cloakNews c (w.cloakFor c)) l

theorem CloakedBy.cloaked
    (h : CloakedBy this client c w w') : Cloaked client c w w' := by
  obtain ⟨l, hl⟩ := h
  exact ⟨l, this, hl⟩

theorem clientUpdateCloakedHostname_quiet (hw : Healthy w) (hcalm : w.Calm)
    (hc : w.heap client = some c) (hthis : w.heap w.thisServer = some this) :
    (clientUpdateCloakedHostname client none none).wp quietWp
      (fun _ w' => CloakedBy this client c w w') w := by
  obtain ⟨i, hi⟩ := hw.introducer client c hc
  have hq : Quiet w (w.withCloak client c) := Quiet.cloak hc (w.cloakFor c)
  obtain ⟨host, hthis'⟩ := hq.heap_some hthis
  obtain ⟨hop, hopc, hnext, -⟩ := (hq.healthy hw).hop _ _ hthis'
  have hc' : (w.withCloak client c).heap client = some { c with cloaked := some (w.cloakFor c) } :=
    World.setHeap_heap_self _ _ _
  -- Both ways to compute the name end in the value `cloakFor` has.
  have hstore (host : Str) (hhost : host = w.cloakFor c) :
      (do
        setCloaked client host
        let hop ← clientNextHop w.thisServer
        ircWriteStrServersPrefixFlag (some hop) w.thisServer (some 'M')
          (format "METADATA %s cloakhost :%s" [← clientID client, host])).wp quietWp
      (fun _ w' => CloakedBy this client c w w') w := by
    subst hhost
    have hnews := ircWriteStrServersPrefixFlag_quiet (hq.healthy hw) (hq.calm hcalm) hthis'
      (some hop) (some 'M') (cloakNews c (w.cloakFor c))
    simp only [wp_bind, wp_setCloaked, onClient_of_some hc]
    change (clientNextHop w.thisServer).wp quietWp _ (w.withCloak client c)
    rw [wp_nextHop, show (w.withCloak client c).nextHop w.thisServer = .ok hop from hnext]
    refine ⟨fun h hh => ?_, fun f hf => by cases hf⟩
    obtain rfl : hop = h := Except.ok.inj hh
    simp only [wp_bind, wp_clientID, onClient_of_some hc']
    exact wp_mono (fun _ w' h => h) hnews
  unfold clientUpdateCloakedHostname
  simp only [Option.getD_none, wp_bind, wp_getWorld, wp_deref, onClient_of_some hc,
    wp_ite, wp_clientID, onClient_of_some hi, wp_pure]
  refine ⟨fun hmode => ?_, fun hmode => ?_⟩
  · have h := hstore (strlcpy i.nameOrStar clientHostLen) (by simp [World.cloakFor, hmode, hi])
    simpa only [wp_bind] using h
  · have h := hstore _ (show _ = w.cloakFor c by simp [World.cloakFor, hmode]; rfl)
    simpa only [wp_bind] using h

/-- Showing the host name of a client changes something the first time only. -/
def Shown (client : ClientRef) (c : Client) (w w' : World) : Prop :=
  if c.hasMode 'x' = true ∧ c.cloaked = none then Cloaked client c w w' else w' = w

/-- As `Shown`, with the client that stands for this server. -/
def ShownBy (this : Client) (client : ClientRef) (c : Client) (w w' : World) : Prop :=
  if c.hasMode 'x' = true ∧ c.cloaked = none then CloakedBy this client c w w' else w' = w

theorem ShownBy.shown
    (h : ShownBy this client c w w') : Shown client c w w' := by
  unfold ShownBy at h
  unfold Shown
  split_ifs at h ⊢
  · exact h.cloaked
  · exact h

variable (hw : Healthy w) (hcalm : w.Calm)
include hw hcalm

theorem clientHostnameDisplayed_shown (hc : w.heap client = some c)
    (hthis : w.heap w.thisServer = some this) :
    (clientHostnameDisplayed client).wp quietWp
      (fun a w' => a = w.hostnameDisplayed c ∧ ShownBy this client c w w') w := by
  simp only [clientHostnameDisplayed, wp_bind, wp_deref, onClient_of_some hc, wp_ite,
    wp_pure, Bool.not_eq_true', Bool.not_eq_false]
  refine ⟨fun hx => by simp [World.hostnameDisplayed, ShownBy, hx], fun hx => ?_⟩
  cases hcloaked : c.cloaked with
  | some h => simp [World.hostnameDisplayed, ShownBy, hcloaked, hx]
  | none =>
    simp only [wp_bind]
    refine wp_mono (fun _ w' hnew => ?_) (clientUpdateCloakedHostname_quiet hw hcalm hc hthis)
    have hc' : w'.heap client = some { c with cloaked := some (w.cloakFor c) } := by
      obtain ⟨l, hl, -⟩ := hnew
      rw [hl.heap]
      exact World.setHeap_heap_self _ _ _
    simp only [wp_bind, wp_deref, onClient_of_some hc', wp_pure]
    simpa [World.hostnameDisplayed, ShownBy, hcloaked, hx] using hnew

theorem clientHostnameDisplayed_quiet (hc : w.heap client = some c) :
    (clientHostnameDisplayed client).wp quietWp
      (fun a w' => a = w.hostnameDisplayed c ∧ Shown client c w w') w := by
  obtain ⟨this, hthis⟩ := hw.this
  exact wp_mono (fun _ _ h => ⟨h.1, h.2.shown⟩) (clientHostnameDisplayed_shown hw hcalm hc hthis)

theorem clientMaskCloaked_shown (hc : w.heap client = some c)
    (hthis : w.heap w.thisServer = some this) :
    (clientMaskCloaked client).wp quietWp
      (fun a w' => a = w.maskCloaked c ∧ ShownBy this client c w w') w := by
  simp only [clientMaskCloaked, wp_bind, wp_deref, onClient_of_some hc, wp_ite,
    wp_pure, Bool.not_eq_true', Bool.not_eq_false]
  refine ⟨fun hx => by simp [World.maskCloaked, ShownBy, hx], fun hx => ?_⟩
  refine wp_mono ?_ (clientHostnameDisplayed_shown hw hcalm hc hthis)
  rintro _ w' ⟨rfl, hshown⟩
  exact ⟨by simp [World.maskCloaked, hx], hshown⟩

theorem clientMaskCloaked_quiet (hc : w.heap client = some c) :
    (clientMaskCloaked client).wp quietWp
      (fun a w' => a = w.maskCloaked c ∧ Shown client c w w') w := by
  obtain ⟨this, hthis⟩ := hw.this
  exact wp_mono (fun _ _ h => ⟨h.1, h.2.shown⟩) (clientMaskCloaked_shown hw hcalm hc hthis)

end Writing

end Ngircd
