import Ngircd.LocalServer
import Ngircd.Remains

/-!
# Server tokens

A server announces the other servers with tokens of its own, and users with the token
of their server.  `Generate_MyToken` gives out tokens that are free, so no two servers
have the same one.  A server gets a token whenever its type is set; this module shows
which lines of a server set the type once more and so give it another token.
-/

namespace Ngircd

open Lib

variable {w : World} {e : Event} {i : ConnId} {text after : Str} {req : Request} {token : Int}

/-! ## Free tokens -/

section

variable {w' : World} {r s client : ClientRef} {c c' : Client} {t : ClientType}

/-- The tokens that `Generate_MyToken` has to try, less two. -/
def World.tries (w : World) : List Int := (List.range (w.order.length + 1)).map Int.ofNat

theorem World.freeToken_eq (w : World) : w.freeToken =
    (w.tries.find? fun k => !w.listed.any fun rc => rc.2.mytoken = k + 2).elim 2 (· + 2) := by
  unfold World.freeToken World.tries
  rw [← List.flatMap_pure_eq_map]
  rfl

/-- One of these tokens is not in use: there are more of them than clients. -/
theorem World.exists_unused (w : World) :
    ∃ k ∈ w.tries, (w.listed.any fun rc => decide (rc.2.mytoken = k + 2)) = false := by
  by_contra hnone
  push Not at hnone
  have hsub : w.tries ⊆ w.listed.map fun rc => rc.2.mytoken - 2 := by
    intro k hk
    obtain ⟨rc, hmem, heq⟩ := List.any_eq_true.mp (Bool.eq_true_of_not_eq_false (hnone k hk))
    refine List.mem_map.mpr ⟨rc, hmem, ?_⟩
    rw [decide_eq_true_eq] at heq
    omega
  have hnodup : w.tries.Nodup := List.nodup_range.map fun a b hab => Int.ofNat.inj hab
  have hle := (hnodup.subperm hsub).length_le
  have hlisted : w.listed.length ≤ w.order.length := List.length_filterMap_le _ _
  simp only [World.tries, List.length_map, List.length_range] at hle
  omega

theorem World.freeToken_spec (w : World) : 2 ≤ w.freeToken ∧
    ∀ r ∈ w.order, ∀ c, w.heap r = some c → c.mytoken ≠ w.freeToken := by
  obtain ⟨k, hk, hfree⟩ := w.exists_unused
  rw [World.freeToken_eq]
  cases hfind : w.tries.find? fun k => !w.listed.any fun rc => rc.2.mytoken = k + 2 with
  | none =>
    have hused := List.find?_eq_none.mp hfind k hk
    rw [hfree] at hused
    exact absurd rfl hused
  | some k =>
    have hunused := List.find?_some hfind
    simp only [Bool.not_eq_true', List.any_eq_false, decide_eq_true_eq] at hunused
    obtain ⟨n, -, rfl⟩ := List.mem_map.mp (List.mem_of_find?_eq_some hfind)
    constructor
    · simp
    · exact fun r hr c hc => hunused (r, c) (World.mem_listed hr hc)

/-! ## Tokens are unique -/

/-- What tokens are about: who is a server, and the tokens. -/
def Client.numbering (c : Client) : ClientType × Int := (c.type, c.mytoken)

theorem Client.numbering_view : Client.View Client.numbering where
  edit e c he := by rw [Client.numbering, Client.numbering, e.type_eq, he.mytoken]

/-- Servers have tokens, and no token is used twice. -/
structure Numbered (w : World) : Prop where
  positive : ∀ r ∈ w.order, ∀ c, w.heap r = some c → c.type = .server → 1 ≤ c.mytoken
  unique : ∀ r ∈ w.order, ∀ s ∈ w.order, ∀ c d, w.heap r = some c → w.heap s = some d →
    1 ≤ c.mytoken → d.mytoken = c.mytoken → s = r

namespace Numbered

theorem of_remains (h : Numbered w) (hsame : Remains Client.numbering w w') : Numbered w' := by
  have hback {r : ClientRef} {c' : Client} (hr : r ∈ w'.order) (hc' : w'.heap r = some c') :
      r ∈ w.order ∧ ∃ c, w.heap r = some c ∧ c'.type = c.type ∧ c'.mytoken = c.mytoken := by
    obtain ⟨c, hc, heq⟩ := hsame.cell r c' hc'
    obtain ⟨htype, htoken⟩ := Prod.mk.inj heq
    exact ⟨hsame.order.subset hr, c, hc, htype, htoken⟩
  constructor
  · intro r hr c' hc' hserver
    obtain ⟨hr, c, hc, htype, htoken⟩ := hback hr hc'
    rw [htoken]
    exact h.positive r hr c hc (htype ▸ hserver)
  · intro r hr s hs c' d' hc' hd' hpos heq
    obtain ⟨hr, c, hc, -, hc_token⟩ := hback hr hc'
    obtain ⟨hs, d, hd, -, hd_token⟩ := hback hs hd'
    rw [hc_token] at hpos heq
    exact h.unique r hr s hs c d hc hd hpos (hd_token.symm.trans heq)

/-- A client gets a new structure: with the token it had, or with a free one. -/
theorem setHeap (h : Numbered w) (hc : w.heap r = some c)
    (htoken : c'.mytoken = c.mytoken ∧ (c'.type = .server → c.type = .server) ∨
      c'.mytoken = w.freeToken) : Numbered (w.setHeap r (some c')) := by
  obtain ⟨htwo, hfree⟩ := w.freeToken_spec
  constructor
  · intro k hk d hd hserver
    rcases World.setHeap_heap_cases hd with ⟨rfl, rfl⟩ | ⟨-, hd⟩
    · rcases htoken with ⟨hsame, htype⟩ | hnew
      · rw [hsame]
        exact h.positive k hk c hc (htype hserver)
      · omega
    · exact h.positive k hk d hd hserver
  · intro k hk s hs d e hd he hpos heq
    rcases World.setHeap_heap_cases hd with ⟨rfl, rfl⟩ | ⟨-, hd₀⟩
    · rcases World.setHeap_heap_cases he with ⟨rfl, -⟩ | ⟨-, he₀⟩
      · rfl
      · rcases htoken with ⟨hsame, -⟩ | hnew
        · exact h.unique k hk s hs c e hc he₀ (hsame ▸ hpos) (heq.trans hsame)
        · exact absurd (heq.trans hnew) (hfree s hs e he₀)
    · rcases World.setHeap_heap_cases he with ⟨rfl, rfl⟩ | ⟨-, he₀⟩
      · rcases htoken with ⟨hsame, -⟩ | hnew
        · exact h.unique k hk s hs d c hd₀ hc hpos (hsame.symm.trans heq)
        · exact absurd (heq.symm.trans hnew) (hfree k hk d hd₀)
      · exact h.unique k hk s hs d e hd₀ he₀ hpos heq

/-- A new client has no token, or a free one. -/
theorem addClient {new : Client} (h : Numbered w)
    (htoken : new.mytoken < 1 ∧ new.type ≠ .server ∨ new.mytoken = w.freeToken) :
    Numbered (w.addClient new) := by
  obtain ⟨htwo, hfree⟩ := w.freeToken_spec
  have hcell (k : ClientRef) (d : Client) (hk : k ∈ (w.addClient new).order)
      (hd : (w.addClient new).heap k = some d) :
      (k = w.nextRef ∧ d = new) ∨ (k ∈ w.order ∧ w.heap k = some d) := by
    rcases World.setHeap_heap_cases (w := w) hd with hnew | ⟨hkn, hd⟩
    · exact .inl hnew
    · exact .inr ⟨(List.mem_cons.mp hk).resolve_left hkn, hd⟩
  constructor
  · intro k hk d hd hserver
    rcases hcell k d hk hd with ⟨rfl, rfl⟩ | ⟨hk, hd⟩
    · rcases htoken with ⟨-, htype⟩ | hnew
      · exact absurd hserver htype
      · omega
    · exact h.positive k hk d hd hserver
  · intro k hk s hs d e hd he hpos heq
    rcases hcell k d hk hd with ⟨rfl, rfl⟩ | ⟨hk₀, hd₀⟩
    · rcases hcell s e hs he with ⟨rfl, -⟩ | ⟨hs₀, he₀⟩
      · rfl
      · rcases htoken with ⟨hnone, -⟩ | hnew
        · omega
        · exact absurd (heq.trans hnew) (hfree s hs₀ e he₀)
    · rcases hcell s e hs he with ⟨rfl, rfl⟩ | ⟨hs₀, he₀⟩
      · rcases htoken with ⟨hnone, -⟩ | hnew
        · omega
        · exact absurd (heq.symm.trans hnew) (hfree k hk₀ d hd₀)
      · exact h.unique k hk₀ s hs₀ d e hd₀ he₀ hpos heq

theorem indifferent : Indifferent Numbered (ClosesFor Client.numbering) :=
  Client.View.indifferent Client.numbering_view (fun _ _ _ => rfl) fun _ _ hsame h => h.of_remains hsame

theorem personal (client : ClientRef) :
    Personal Numbered client (ClosesFor Client.numbering) where
  upkeep := Indifferent.toUpkeep indifferent
  setType w c t hc h := by
    refine h.setHeap hc ?_
    by_cases ht : t = .server
    · exact .inr (by simp [World.retype, ht])
    · exact .inl ⟨by simp [World.retype, ht], fun hserver => absurd hserver ht⟩
  setId _ _ _ _ _ hc h := h.of_remains (.setHeap hc rfl)
  ownIntroducer _ _ hc h := h.of_remains (.setHeap hc rfl)
  greet := Indifferent.greetUser indifferent client

theorem prepare (h : Numbered w) (e : Event) : Numbered (e.prepare w) :=
  Remains.prepare (fun _ _ hsame h => of_remains h hsame)
    (fun _ _ _ htoken htype h => h.addClient (.inl ⟨by simp [htoken], htype⟩)) h e

/-- Every event keeps tokens unique. -/
theorem step (hl : Linked w) (hw : Numbered w) (hstep : Step w e w') : Numbered w' := by
  have hclose := Client.View.closesFor Client.numbering_view
  refine Indifferent.step_of_personal indifferent personal
    (hclose.shutting (Indifferent.toUpkeep indifferent)).removing hclose.rightAbout hl hw
    (hw.prepare e) ?_ (fun _ _ new h hnew => h.addClient (.inr hnew.mytoken)) ?_ hstep
  · intro w server nick new h hnew
    refine h.addClient (.inl ⟨by simp [hnew.mytoken], fun hserver => ?_⟩)
    have htype := hnew.type
    simp [hserver] at htype
  · intro w r c t hw hc htype ht
    refine hw.setHeap hc (.inl ⟨rfl, fun hserver => ?_⟩)
    simp only at hserver
    simp [hserver] at ht

theorem start (conf : Conf) (env : Env) (host : Str) : Numbered (World.start conf env host) := by
  constructor
  · intro r hr c hc _
    rw [(World.start_cell hc).mytoken]
  · intro r hr s hs c d hc hd _ _
    rw [(World.start_cell hc).ref, (World.start_cell hd).ref]

end Numbered

theorem Reachable.numbered (h : Reachable w) : Numbered w := by
  induction h with
  | start conf env host => exact .start conf env host
  | step hreach hstep ih => exact ih.step hreach.linked hstep

/-! ## Status code 376 -/

/-- A linked server sends the status code 376 for this server. -/
structure MotdLine (w : World) (i : ConnId) (text after : Str) (r : ClientRef) (req : Request) :
    Prop extends ServerLine w i text after req where
  peer : ∃ c, w.Has i r c ∧ c.type = .server
  fits : PrefixFits w r req
  command : req.command.length = 3
  code : atoi req.command = 376
  mine : req.forThisServer w = true

/-- The event is a status code 376 from the server `r`, for this server. -/
def Event.Renumbers (w : World) (r : ClientRef) : Event → Prop
  | .line i text after => ∃ req, MotdLine w i text after r req
  | _ => False

/-- Such a line is given to `Handle_Numeric`. -/
theorem dispatchLine_motd
    (h : MotdLine w i text after r req) :
    (dispatchLine i text after).wp (plainWp .never noFault)
      (fun d w' => w' = w ∧ d = .numeric r req) w := by
  obtain ⟨c, hi, hserver⟩ := h.peer
  refine dispatchLine_line hi hserver h.toServerLine h.fits ?_
  unfold dispatchRequest
  simp only [wp_msg, wp_clientOf_of_some hi.client, wp_clientType, onClient_of_some hi.cell,
    hserver, h.command, h.code]
  exact ⟨rfl, rfl⟩

/-- The status code 376 for this server is given to `IRC_Num_ENDOFMOTD`. -/
theorem handleNumeric_motd {K : Closing} {E : Fault → Prop}
    {Q : Bool → World → Prop} (hmine : req.forThisServer w = true) (hcode : atoi req.command = 376)
    (hmotd : (ircNumEndofmotd r).wp (fullWp K E) Q w) :
    (handleNumeric r req).wp (fullWp K E) Q w := by
  unfold handleNumeric
  simp only [wp_msg, wp_getWorld]
  rw [Request.forThisServer, beq_iff_eq] at hmine
  rw [hmine, hcode]
  dsimp only
  rw [if_pos rfl]
  exact hmotd

/-! ## Tokens are kept -/

theorem Client.mytoken_view : Client.View Client.mytoken where
  edit e c he := he.mytoken c

/-- The client has the token, as long as it is there. -/
structure HasToken (r : ClientRef) (token : Int) (w : World) : Prop where
  known : r < w.nextRef
  token : ∀ c, w.heap r = some c → c.mytoken = token

namespace HasToken

theorem of_remains (h : HasToken r token w) (hsame : Remains Client.mytoken w w') :
    HasToken r token w' where
  known := hsame.nextRef ▸ h.known
  token c' hc' := by
    obtain ⟨c, hc, heq⟩ := hsame.cell r c' hc'
    rw [heq]
    exact h.token c hc

theorem setHeap_ne (h : HasToken r token w) (hs : s ≠ r) (o : Option Client) :
    HasToken r token (w.setHeap s o) where
  known := h.known
  token c hc := h.token c ((World.setHeap_heap_ne w hs.symm o).symm.trans hc)

theorem addClient (h : HasToken r token w) (new : Client) : HasToken r token (w.addClient new) where
  known := Nat.lt_succ_of_lt h.known
  token c hc := h.token c ((World.setHeap_heap_ne w (Nat.ne_of_lt h.known) _).symm.trans hc)

theorem indifferent : Indifferent (HasToken r token) (ClosesFor Client.mytoken) :=
  Client.View.indifferent Client.mytoken_view (fun _ _ _ => rfl) fun _ _ hsame h => h.of_remains hsame

theorem renames (target : ClientRef) (nick : Str) :
    Renaming (HasToken r token) (HasToken r token) target nick (ClosesFor Client.mytoken) :=
  (Indifferent.toUpkeep indifferent).renames fun _ _ _ _ hc h => h.of_remains (.setHeap hc rfl)

/-- A type other than that of a server comes without a token. -/
theorem entry (client : ClientRef) :
    Entry (HasToken r token) (HasToken r token) client (ClosesFor Client.mytoken) where
  before := Indifferent.toUpkeep indifferent
  after := Indifferent.toUpkeep indifferent
  weaken _ h := h
  setType _ _ _ _ hc h := h.of_remains (.setHeap hc rfl)
  greet := Indifferent.greetUser indifferent client

theorem personal (hne : client ≠ r) :
    Personal (HasToken r token) client (ClosesFor Client.mytoken) where
  upkeep := Indifferent.toUpkeep indifferent
  setType _ _ _ _ h := h.setHeap_ne hne _
  setId _ _ _ _ _ hc h := h.of_remains (.setHeap hc rfl)
  ownIntroducer _ _ hc h := h.of_remains (.setHeap hc rfl)
  greet := Indifferent.greetUser indifferent client

theorem prepare (h : HasToken r token w) (e : Event) : HasToken r token (e.prepare w) :=
  Remains.prepare (fun _ _ hsame h => of_remains h hsame) (fun _ c _ _ _ h => h.addClient c) h e

/-- A server keeps its token in every event but a status code 376 that it sends. -/
theorem step (hl : Linked w) (h : HasToken r token w) (hc : w.heap r = some c)
    (hserver : c.type = .server) (hevent : ¬e.Renumbers w r) (hstep : Step w e w') :
    HasToken r token w' := by
  have hind : Indifferent (HasToken r token) (ClosesFor Client.mytoken) := indifferent
  have hclose := Client.View.closesFor Client.mytoken_view
  refine hind.toUpkeep.step_of_handlers hclose.rightAbout hl h (h.prepare e) ?_ ?_ hstep
  · rintro n i text after client d req rfl hdispatch hi hfits
    by_cases hr : client = r
    · subst hr
      obtain rfl : c = d := Option.mem_unique hc hi.cell
      refine hind.toUpkeep.handleNumeric h fun hmine hcode => absurd ?_ hevent
      have hline := (execPlain_ends (closer_settled n)
        (dispatchLine_served hl hi hserver text after)).of_ok hdispatch
      obtain ⟨req', hreq, rfl, hcommand⟩ := hline.resolve_left (fun ⟨b, hb⟩ => nomatch hb)
      exact ⟨req, { hreq with
        peer := ⟨c, hi, hserver⟩, fits := hfits, command := hcommand, code := hcode, mine := hmine }⟩
    · exact (personal hr).handleNumeric req w h
  · intro n i text after client d cmd req w₁ _ _ hi _ _ _ hcell hlive hw₁
    have hentry : Entry (HasToken r token) (HasToken r token) client (ClosesFor Client.mytoken) :=
      entry client
    by_cases hout : cmd.handler.reachesOut = false
    · exact hentry.callHandler hind (hind.ircSvsnick_renames fun target => renames target _) hw₁
        hcell hlive hout
    · refine (hclose.shutting hind.toUpkeep).removing.callHandler_out hw₁ (.nobody ..)
        (fun _ target _ => hentry.ircNickUser (renames target _) w₁ hw₁) hcell hlive
          (by simpa using hout)
        (fun _ target => hind.join target _) (fun _ hpass => ?_)
        (fun _ _ _ new _ _ _ _ => hw₁.addClient new) (fun new _ _ _ _ => hw₁.addClient new)
        (fun _ _ => hentry.registerUser req w₁ hw₁) ?_
      · -- Who registers as a server is not one yet.
        refine (personal fun hr => ?_).registerServer req w₁ hw₁
        subst hr
        obtain rfl : c = d := Option.mem_unique hc hi.cell
        simp [hserver] at hpass
      · exact fun _ _ _ _ hw hc _ _ => hw.of_remains (.setHeap hc rfl)

end HasToken

/-- The status code 376 gives a server that sends it another token. -/
theorem renumbered (hl : Linked w)
    (hr : r ∈ w.order)
    (h : MotdLine w i text after r req) (hc : w.heap r = some c)
    (hstep : Step w (.line i text after) w') (hc' : w'.heap r = some c') :
    c'.mytoken ≠ c.mytoken := by
  obtain ⟨-, n, hrun⟩ := hstep
  obtain ⟨b, hparse⟩ := Event.handle_line hrun
  obtain ⟨d, w₁, hdispatch, hfinish⟩ := parseRequest_run hparse
  obtain ⟨d', w₂, hdispatch', rfl, rfl⟩ :=
    (execPlain_ends (n := n) (Closing.never_rightAbout _) (dispatchLine_motd h)).exists_ok
  obtain ⟨rfl, rfl⟩ := Prod.mk.inj (Except.ok.inj (hdispatch.symm.trans hdispatch'))
  have hknown : r < w₁.nextRef := hl.cell r c hc
  have hset (d : Client) (_ : w₁.heap r = some d) :
      HasToken r w₁.freeToken (w₁.setHeap r (some (w₁.retype d .server))) := by
    refine ⟨hknown, fun e he => ?_⟩
    rw [World.setHeap_heap_self] at he
    rw [← Option.some.inj he]
    rfl
  have hmotd := (Indifferent.toUpkeep HasToken.indifferent).ircNumEndofmotd hset
  have htoken := (exec_ends ((Client.View.closesFor Client.mytoken_view).rightAbout n)
    (handleNumeric_motd h.mine h.code hmotd)).of_ok hfinish
  rw [htoken.token c' hc']
  exact (w₁.freeToken_spec.2 r hr c hc).symm

/-- A run in which the client `r` is a server all the time, and sends no status code
376 for this server. -/
inductive ServerRun (r : ClientRef) : World → World → Prop where
  | refl (w : World) : ServerRun r w w
  | step {w w₁ w₂ : World} {e : Event} {c : Client} : ServerRun r w w₁ → w₁.heap r = some c →
      c.type = .server → ¬e.Renumbers w₁ r → Step w₁ e w₂ → ServerRun r w w₂

theorem ServerRun.reachable (h : ServerRun r w w') (hw : Reachable w) : Reachable w' := by
  induction h with
  | refl => exact hw
  | step _ _ _ _ hstep ih => exact ih.step hstep

theorem ServerRun.hasToken (h : ServerRun r w w') (hw : Reachable w)
    (htoken : HasToken r token w) : HasToken r token w' := by
  induction h with
  | refl => exact htoken
  | step hrun hc hserver hevent hstep ih =>
    exact ih.step (hrun.reachable hw).linked hc hserver hevent hstep

/-- The tokens of the servers on the list are different and at least 1.  A server that
stays on the list keeps its token in an event if and only if the event is no status code
376 that it sends for this server; so it keeps it in every run without such a code. -/
theorem server_tokens_kept (h : Reachable w) :
    (∀ r ∈ w.order, ∀ c, w.heap r = some c → c.type = .server → 1 ≤ c.mytoken ∧
      ∀ s ∈ w.order, ∀ d, w.heap s = some d → d.type = .server → d.mytoken = c.mytoken → s = r) ∧
    (∀ r ∈ w.order, ∀ c, w.heap r = some c → c.type = .server → ∀ e w' c', Step w e w' →
      w'.heap r = some c' → (c'.mytoken = c.mytoken ↔ ¬e.Renumbers w r)) ∧
    ∀ r ∈ w.order, ∀ c, w.heap r = some c → ∀ w' c', ServerRun r w w' →
      w'.heap r = some c' → c'.mytoken = c.mytoken := by
  have hhas {r : ClientRef} {c : Client} (hc : w.heap r = some c) : HasToken r c.mytoken w := by
    refine ⟨h.linked.cell r c hc, fun d hd => ?_⟩
    rw [Option.mem_unique hc hd]
  refine ⟨fun r hr c hc hserver => ?_, fun r hr c hc hserver e w' c' hstep hc' => ?_, ?_⟩
  · have hpos := h.numbered.positive r hr c hc hserver
    exact ⟨hpos, fun s hs d hd _ heq => h.numbered.unique r hr s hs c d hc hd hpos heq⟩
  · constructor
    · intro hsame hevent
      cases e with
      | line i text after =>
        obtain ⟨req, hline⟩ := hevent
        exact renumbered h.linked hr hline hc hstep hc' hsame
      | _ => exact hevent
    · intro hevent
      exact ((hhas hc).step h.linked hc hserver hevent hstep).token c' hc'
  · intro r _ c hc w' c' hrun hc'
    exact (hrun.hasToken h (hhas hc)).token c' hc'

end

/-- A configuration with two other servers. -/
def twoPeers : Conf :=
  { servers := [{ name := "irc.b", pwdIn := "x", pwdOut := "y" },
      { name := "irc.d", pwdIn := "u", pwdOut := "v" }] }

/-- Both connect. -/
def bothLinked : List Event :=
  peerLink ++ [.accept 2 "127.0.0.2", .line 2 "PASS u 0210 IRC|" [], .line 2 "SERVER irc.d 1 :D" []]

theorem server_tokens_kept_bothLinked : ∃ w c d, Reachable w ∧ 1 ∈ w.order ∧ 2 ∈ w.order ∧
    w.heap 1 = some c ∧ w.heap 2 = some d ∧ c.type = .server ∧ d.type = .server ∧
    1 ≤ c.mytoken ∧ d.mytoken ≠ c.mytoken := by
  obtain ⟨w, hw, h1, h2, ⟨c, hc, hc_type⟩, d, hd, hd_type⟩ :
      ∃ w ∈ Event.runAll 1 bothLinked (World.start twoPeers {} "localhost"), 1 ∈ w.order ∧
        2 ∈ w.order ∧ (∃ c ∈ w.heap 1, c.type = .server) ∧ ∃ d ∈ w.heap 2, d.type = .server := by
    decide +kernel
  have hreach := (Reachable.start twoPeers {} "localhost").runAll hw
  obtain ⟨hpos, hunique⟩ := (server_tokens_kept hreach).1 1 h1 c hc hc_type
  refine ⟨w, c, d, hreach, h1, h2, hc, hd, hc_type, hd_type, hpos, fun heq => ?_⟩
  exact absurd (hunique 2 h2 d hd hd_type heq) (by decide)

/-- The first server has been announced to the second one with the token 2; after it has
sent a status code 376 it has another token. -/
theorem server_token_changed : ∃ w w' c c', Reachable w ∧ w.heap 1 = some c ∧
    c.type = .server ∧ c.mytoken = 2 ∧
    w.sent.contains (2, ":irc.example.net SERVER irc.b 2 2 :B") = true ∧
    Step w (.line 1 ":irc.b 376 * :End of MOTD command" []) w' ∧ 1 ∈ w'.order ∧
    w'.heap 1 = some c' ∧ c'.type = .server ∧ c'.mytoken = 4 := by
  obtain ⟨w, hw, ⟨c, hc, hc_type, hc_token⟩, hsent, w', hw', hlisted, c', hc', hc'_type, htoken⟩ :
      ∃ w ∈ Event.runAll 1 bothLinked (World.start twoPeers {} "localhost"),
        (∃ c ∈ w.heap 1, c.type = .server ∧ c.mytoken = 2) ∧
        w.sent.contains (2, ":irc.example.net SERVER irc.b 2 2 :B") = true ∧
        ∃ w' ∈ Event.runAll 1 [.line 1 ":irc.b 376 * :End of MOTD command" []] w, 1 ∈ w'.order ∧
          ∃ c ∈ w'.heap 1, c.type = .server ∧ c.mytoken = 4 := by
    decide +kernel
  exact ⟨w, w', c, c', (Reachable.start twoPeers {} "localhost").runAll hw, hc, hc_type, hc_token,
    hsent, Event.step_of_runAll hw', hlisted, hc', hc'_type, htoken⟩

end Ngircd
