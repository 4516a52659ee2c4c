import Ngircd.Farewell

/-!
# Netsplits

While no write fails, `Client_Destroy` of a server takes exactly the clients
away whose chain of introducers leads to it, and leaves a client tree behind.
-/

namespace Ngircd

open Lib Prog

variable {w w' w₁ : World} {r s : ClientRef} {c : Client}

/-! ## Clients that are gone -/

/-- Some clients are gone with their memberships; nothing else about clients and
connections has changed. -/
structure Removed (gone : ClientRef → Prop) (w w' : World) : Prop extends Unmoved w w' where
  cell : ∀ r, ¬gone r → (w'.heap r).map Client.uncloak = (w.heap r).map Client.uncloak
  freed : ∀ r, gone r → w'.heap r = none
  sublist : w'.order.Sublist w.order
  order : ∀ r, r ∈ w'.order ↔ r ∈ w.order ∧ ¬gone r
  members : ∀ e ∈ w'.chans.cl2chan, e ∈ w.chans.cl2chan ∧ ¬gone e.client
  chans : w'.chans.InOrder

namespace Removed

variable {gone gone' : ClientRef → Prop} {w₂ : World}

theorem congr (h : Removed gone w w') (heq : ∀ r, gone' r ↔ gone r) : Removed gone' w w' := by
  have hgone : gone' = gone := funext fun r => propext (heq r)
  rw [hgone]
  exact h

theorem trans (h₁ : Removed gone w w₁) (h₂ : Removed gone' w₁ w₂) :
    Removed (fun r => gone r ∨ gone' r) w w₂ where
  __ := h₁.toUnmoved.trans h₂.toUnmoved
  cell r hr := by
    obtain ⟨hr₁, hr₂⟩ := not_or.mp hr
    exact (h₂.cell r hr₂).trans (h₁.cell r hr₁)
  freed r hr := by
    by_cases hr₂ : gone' r
    · exact h₂.freed r hr₂
    · have hcell := h₂.cell r hr₂
      rw [h₁.freed r (hr.resolve_right hr₂)] at hcell
      simpa using hcell
  sublist := h₂.sublist.trans h₁.sublist
  order r := by
    rw [h₂.order, h₁.order]
    tauto
  members e he := by
    obtain ⟨he₁, hgone₂⟩ := h₂.members e he
    obtain ⟨he₀, hgone₁⟩ := h₁.members e he₁
    exact ⟨he₀, fun hgone => hgone.elim hgone₁ hgone₂⟩
  chans := h₂.chans

section

variable (h : Removed gone w w')
include h

theorem calm (hw : w.Calm) : w'.Calm := by
  intro n hn
  rw [h.outcome]
  exact hw n (Nat.le_trans h.writes hn)

theorem heap_some (hr : ¬gone r) (hc : w.heap r = some c) :
    ∃ host, w'.heap r = some { c with cloaked := host } := by
  have hcell := h.cell r hr
  rw [hc] at hcell
  obtain ⟨c', hc', hsame⟩ := Option.map_eq_some_iff.mp hcell
  exact ⟨c'.cloaked, by rw [hc', ← Client.eq_of_uncloak_eq hsame]⟩

theorem heap_some_before (hc : w'.heap r = some c) :
    ¬gone r ∧ ∃ c₀ host, w.heap r = some c₀ ∧ c = { c₀ with cloaked := host } := by
  have hr : ¬gone r := fun hgone => by
    rw [h.freed r hgone] at hc
    exact nomatch hc
  have hcell := (h.cell r hr).symm
  rw [hc] at hcell
  obtain ⟨c₀, hc₀, hsame⟩ := Option.map_eq_some_iff.mp hcell
  exact ⟨hr, c₀, c.cloaked, hc₀, Client.eq_of_uncloak_eq hsame.symm⟩

theorem up_eq (hr : ¬gone r) : w'.up r = w.up r :=
  World.up_congr (h.cell r hr)

theorem up_none (hr : gone r) : w'.up r = none := by
  simp [World.up, h.freed r hr]

end

/-- The introducer of a client that stays, stays. -/
theorem not_behind_up {x y : ClientRef} (hx : ¬Behind w.up s x) (hy : w.up x = some y) :
    ¬Behind w.up s y :=
  fun hbehind => hx ((Behind.of_up hy).trans hbehind)

section Subtree

variable (h : Removed (Behind w.up s) w w')
include h

theorem nextHop (hr : ¬Behind w.up s r) : w'.nextHop r = w.nextHop r := by
  unfold World.nextHop
  rw [h.nextRef]
  exact World.nextHopFrom_congr (S := fun x => ¬Behind w.up s x)
    (fun _ _ hx hy => not_behind_up hx hy) (fun _ hx => h.up_eq hx) h.thisServer _ hr

theorem reached (hr : ¬Behind w.up s r) (hreach : w.Reached r) : w'.Reached r := by
  obtain ⟨c, k, kc, hc, hnext, hkc, hconn⟩ := hreach
  have hk : ¬Behind w.up s k := fun hk => hr ((World.behind_of_nextHopFrom hnext).trans hk)
  obtain ⟨host, hc'⟩ := h.heap_some hr hc
  obtain ⟨khost, hkc'⟩ := h.heap_some hk hkc
  exact ⟨_, k, _, hc', by rw [h.nextHop hr, hnext], hkc', hconn⟩

/-- What is left is a client tree. -/
theorem clientTree (hw : ClientTree w) (hs : s ≠ w.thisServer) : ClientTree w' where
  desc := hw.desc.sublist h.sublist
  linked r := by
    rw [h.order]
    constructor
    · rintro ⟨hr, hgone⟩
      obtain ⟨c, hc⟩ := hw.cell hr
      obtain ⟨host, hc'⟩ := h.heap_some hgone hc
      exact ⟨_, hc'⟩
    · rintro ⟨c, hc⟩
      obtain ⟨hgone, c₀, _, hc₀, -⟩ := h.heap_some_before hc
      exact ⟨hw.mem hc₀, hgone⟩
  fresh r hr := by
    rw [h.nextRef]
    exact hw.fresh r ((h.order r).mp hr).1
  own := by
    obtain ⟨c, hc, hrecord⟩ := hw.own
    obtain ⟨host, hc'⟩ := h.heap_some (hw.not_behind_this hs) hc
    rw [h.thisServer]
    exact ⟨_, hc', hrecord⟩
  older r c hc := by
    obtain ⟨-, c₀, host, hc₀, rfl⟩ := h.heap_some_before hc
    exact hw.older r c₀ hc₀
  parent r c hc := by
    obtain ⟨hgone, c₀, host, hc₀, rfl⟩ := h.heap_some_before hc
    rcases hw.parent r c₀ hc₀ with hself | ⟨p, hp, htype⟩
    · exact .inl hself
    · have hstays := not_behind_up hgone (World.up_of_some hc₀)
      obtain ⟨phost, hp'⟩ := h.heap_some hstays hp
      exact .inr ⟨_, hp', htype⟩
  home r c i hc hi := by
    obtain ⟨-, c₀, host, hc₀, rfl⟩ := h.heap_some_before hc
    rw [h.thisServer]
    exact hw.home r c₀ i hc₀ hi

theorem inOrder (hin : InOrder w) : InOrder w' where
  chans := h.chans
  member e he := by
    obtain ⟨he₀, hgone⟩ := h.members e he
    obtain ⟨c, hc, htype⟩ := hin.member e he₀
    obtain ⟨host, hc'⟩ := h.heap_some hgone hc
    exact ⟨_, hc', htype⟩
  reached e he := by
    obtain ⟨he₀, hgone⟩ := h.members e he
    exact h.reached hgone (hin.reached e he₀)
  pool i hi := by
    rw [(h.link i).sock] at hi
    rw [h.poolSize]
    exact hin.pool i hi

end Subtree

end Removed

/-! ## `Client_Destroy` -/

/-- In a list that descends, nothing before the first hit is greater. -/
theorem le_of_find? {l : List ClientRef} (hdesc : l.Pairwise (· > ·)) {p : ClientRef → Bool}
    {a b : ClientRef} (ha : l.find? p = some a) (hb : b ∈ l) (hp : p b = true) : b ≤ a := by
  induction l with
  | nil => exact absurd hb List.not_mem_nil
  | cons x l ih =>
    obtain ⟨hx, hl⟩ := List.pairwise_cons.mp hdesc
    by_cases hpx : p x = true
    · obtain rfl : x = a := by simpa [List.find?_cons, hpx] using ha
      rcases List.mem_cons.mp hb with rfl | hb
      · exact Nat.le_refl b
      · exact Nat.le_of_lt (hx b hb)
    · have ha' : l.find? p = some a := by simpa [List.find?_cons, hpx] using ha
      rcases List.mem_cons.mp hb with rfl | hb
      · exact absurd hp hpx
      · exact ih hl ha' hb

/-- The walk of `Client_Destroy` stops somewhere. -/
theorem destroyStop_ne_none (hr : r ∈ w.order) (isServer : Bool) :
    w.destroyStop r isServer ≠ none := by
  intro hnone
  have hself := List.find?_eq_none.mp hnone r hr
  simp at hself

/-- If it stops at another client, that one is a child. -/
theorem child_of_destroyStop {isServer : Bool} (hstop : w.destroyStop r isServer = some s)
    (hne : s ≠ r) : s ∈ w.order ∧ w.up s = some r := by
  refine ⟨List.mem_of_find?_eq_some hstop, ?_⟩
  have hhit := List.find?_some hstop
  cases hs : w.heap s with
  | none => simp [hs, hne] at hhit
  | some d =>
    have hintro : d.introducer = r := by
      simp only [hs, Bool.or_eq_true, beq_iff_eq, hne, false_or, Bool.and_eq_true] at hhit
      exact hhit.2
    rw [World.up_of_some hs, hintro]

/-- If it stops at the client itself, there is no child left. -/
theorem no_child_of_destroyStop (hw : ClientTree w) (hc : w.heap r = some c)
    (hstop : w.destroyStop r (c.type == .server) = some r) (k : ClientRef)
    (hk : w.up k = some r) : k = r := by
  by_contra hne
  obtain ⟨d, hd, hintro⟩ := World.up_eq_some hk
  have hserver : (c.type == .server) = true := by
    rcases hw.parent k d hd with h | ⟨p, hp, htype⟩
    · exact absurd (h.symm.trans hintro) hne
    · rw [hintro, hc] at hp
      simp [Option.some.inj hp, htype]
  have hle : k ≤ r := by
    refine le_of_find? hw.desc hstop (hw.mem hd) ?_
    simp [hserver, hd, hintro]
  exact hne (Nat.le_antisymm hle (hw.up_le k r hk))

/-- The subtree of a child is smaller. -/
theorem subtree_child_card (hw : ClientTree w) (hr : r ∈ w.order) (hs : w.up s = some r)
    (hne : s ≠ r) : (w.subtree s).ncard < (w.subtree r).ncard := by
  refine Set.ncard_lt_ncard ⟨?_, fun hsub => ?_⟩ (w.finite_order _)
  · exact fun x hx => ⟨hx.1, hx.2.trans (Behind.of_up hs)⟩
  · have hmem : r ∈ w.subtree s := hsub ⟨hr, Behind.refl r⟩
    exact hw.not_behind_child hs hne hmem.2

/-- Without the subtree of a child, the subtree is smaller. -/
theorem subtree_rest_card (h : Removed (Behind w.up s) w w₁) (hs : s ∈ w.order)
    (hchild : w.up s = some r)
    (hrest : ∀ x, Behind w.up r x ↔ Behind w.up s x ∨ Behind w₁.up r x) :
    (w₁.subtree r).ncard < (w.subtree r).ncard := by
  refine Set.ncard_lt_ncard ⟨?_, fun hsub => ?_⟩ (w.finite_order _)
  · exact fun x hx => ⟨h.sublist.subset hx.1, (hrest x).mpr (.inr hx.2)⟩
  · have hmem : s ∈ w₁.subtree r := hsub ⟨hs, Behind.of_up hchild⟩
    exact ((h.order s).mp hmem.1).2 (Behind.refl s)

/-- The last turn of the walk: the client is alone. -/
theorem farewell_removed (hw : ClientTree w) (hin : InOrder w) (hcalm : w.Calm)
    (hc : w.heap r = some c) (halone : ∀ k, w.up k = some r → k = r) (txt : Str)
    (fwdMsg : Option Str) (sendQuit : Bool) :
    (farewell r c.type txt fwdMsg sendQuit).wp placidWp
      (fun _ w' => Removed (Behind w.up r) w (w'.setHeap r none))
      { w with order := w.order.erase r } := by
  have hgone (x : ClientRef) : Behind w.up r x ↔ x = r :=
    ⟨fun h => h.eq_of_no_child halone, fun h => h ▸ Behind.refl x⟩
  have hmember : ∀ e ∈ w.chans.cl2chan, e.client = r → c.type = .user ∨ c.type = .service := by
    intro e he heq
    obtain ⟨d, hd, htype⟩ := hin.member e he
    rw [heq, hc] at hd
    rw [Option.some.inj hd]
    exact htype
  refine wp_mono (fun _ w' h => ?_)
    (farewell_placid ((hw.healthy hin).erase r) hcalm hin.chans hc hmember txt fwdMsg sendQuit)
  obtain ⟨hp, hquit⟩ := h
  have hafter : (w'.setHeap r none).order = w.order.erase r := hp.order
  have hremoved : Removed (· = r) w (w'.setHeap r none) := by
    refine ⟨{ hp with }, fun x hx => ?_, fun x hx => ?_, ?_, fun x => ?_, fun e he => ?_,
      hquit.inOrder⟩
    · rw [World.setHeap_heap_ne _ hx]
      exact hp.cell x
    · rw [hx]
      exact World.setHeap_heap_self _ _ _
    · rw [hafter]
      exact List.erase_sublist
    · rw [hafter, hw.nodup.mem_erase_iff]
      exact and_comm
    · have he' : e ∈ w'.chans.cl2chan := he
      rw [hquit.members] at he'
      obtain ⟨hold, hother⟩ := List.mem_filter.mp he'
      exact ⟨hold, by simpa using hother⟩
  exact hremoved.congr hgone

/-- `Client_Destroy` removes a client and everybody behind it, and nobody else. -/
theorem clientDestroy_removed (hw : ClientTree w) (hin : InOrder w) (hcalm : w.Calm)
    (hr : r ∈ w.order) (hne : r ≠ w.thisServer) {n : Nat} (hn : (w.subtree r).ncard ≤ n)
    (l f : Option Str) (q : Bool) :
    (clientDestroy n r l f q).wp (shutWp .never noFault)
      (fun _ w' => Removed (Behind w.up r) w w') w := by
  induction n generalizing w r l f q with
  | zero =>
    have hmem : r ∈ w.subtree r := ⟨hr, Behind.refl r⟩
    have hempty : w.subtree r = ∅ :=
      (Set.ncard_eq_zero (w.finite_order _)).mp (Nat.le_zero.mp hn)
    rw [hempty] at hmem
    exact hmem.elim
  | succ n ih =>
    obtain ⟨c, hc⟩ := hw.cell hr
    rw [wp_clientDestroy, onClient_of_some hc]
    refine ⟨fun hnone => absurd hnone (destroyStop_ne_none hr _), fun hself => ?_,
      fun s hstop hsr => ?_⟩
    · exact farewell_removed hw hin hcalm hc (no_child_of_destroyStop hw hc hself) _ f q
    · -- A child goes first, then the walk starts again.
      obtain ⟨this, hthis, hintro, -⟩ := hw.own
      obtain ⟨hs, hchild⟩ := child_of_destroyStop hstop hsr
      have hsthis : s ≠ w.thisServer := by
        rintro rfl
        rw [World.up_of_some hthis, hintro] at hchild
        exact hne (Option.some.inj hchild).symm
      have hsmall := subtree_child_card hw hr hchild hsr
      rw [onClient_of_some hthis]
      refine wp_mono (fun _ w₁ h₁ => ?_) (ih hw hin hcalm hs hsthis (by omega) _ _ false)
      have hstays : ¬Behind w.up s r := hw.not_behind_child hchild hsr
      have hrest (x : ClientRef) : Behind w.up r x ↔ Behind w.up s x ∨ Behind w₁.up r x :=
        Behind.iff_of_remove_child hchild (fun _ hy => h₁.up_eq hy) (fun _ hy => h₁.up_none hy)
          hstays
      have hless := subtree_rest_card h₁ hs hchild hrest
      refine wp_mono (fun _ w₂ h₂ => ?_)
        (ih (h₁.clientTree hw hsthis) (h₁.inOrder hin) (h₁.calm hcalm)
          ((h₁.order r).mpr ⟨hr, hstays⟩) (by rw [h₁.thisServer]; exact hne) (by omega) l f q)
      exact (h₁.trans h₂).congr hrest

/-! ## Client lists -/

/-- `Client_Destroy` as the daemon calls it. -/
def destroyWith (k : Nat) (r : ClientRef) (l f : Option Str) (q : Bool) : M Unit := fun w =>
  execShut (closer k) (clientDestroy w.destroyBound r l f q) w

/-- The client lists that come about from the first one. -/
inductive Built : World → Prop where
  | start (conf : Conf) (env : Env) (host : Str) : Built (World.start conf env host)
  /-- `Client_NewLocal`. -/
  | newLocal {w : World} (h : Built w) (c : Client) (i : ConnId) (hi : c.connId = some i)
      (hintro : c.introducer = w.thisServer) : Built (w.addClient c)
  /-- A local connection becomes a server, or is to become one: `Client_SetIntroducer` and
  `Client_SetType`. -/
  | promote {w : World} {r : ClientRef} {c : Client} {i : ConnId} (h : Built w)
      (hc : w.heap r = some c) (hi : c.connId = some i) (t : ClientType)
      (ht : c.type = .server → t = .server) :
      Built (w.setHeap r (some { c with introducer := r, type := t }))
  /-- `Client_NewRemoteServer` and `Client_NewRemoteUser`. -/
  | newRemote {w : World} {p : Client} (h : Built w) (c : Client) (hconn : c.connId = none)
      (hp : w.heap c.introducer = some p) (hserver : p.type = .server) : Built (w.addClient c)
  /-- `Client_Destroy`, with every write taken. -/
  | destroy {w w' : World} {r : ClientRef} (h : Built w) (hin : InOrder w) (hcalm : w.Calm)
      (hr : r ∈ w.order) (hne : r ≠ w.thisServer) {k : Nat} {l f : Option Str} {q : Bool}
      (hrun : destroyWith k r l f q w = .ok ((), w')) : Built w'
  /-- Whatever happens to other fields, to channels, connections and so on. -/
  | elsewhere {w w' : World} (h : Built w) (hsame : SameTree w w') : Built w'

/-- `Client_Destroy` ends, with the subtree gone. -/
theorem destroyWith_ends (hw : ClientTree w) (hin : InOrder w) (hcalm : w.Calm) (hr : r ∈ w.order)
    (hne : r ≠ w.thisServer) (k : Nat) (l f : Option Str) (q : Bool) :
    Exec.Ends noFault (destroyWith k r l f q) (fun _ w' => Removed (Behind w.up r) w w') w := by
  have hbound : (w.subtree r).ncard ≤ w.destroyBound := by
    have hle := w.subtree_card_le r
    unfold World.destroyBound
    omega
  exact Prog.wp_sound (stepShut_ends (Closing.never_rightAbout (closer k)))
    (clientDestroy_removed hw hin hcalm hr hne hbound l f q)

theorem Built.clientTree (h : Built w) : ClientTree w := by
  induction h with
  | start conf env host => exact .start conf env host
  | newLocal _ c i hi hintro ih =>
    obtain ⟨this, hthis, -, hserver, -⟩ := ih.own
    exact ih.addClient (by rw [hintro]; exact hthis) hserver fun _ _ => hintro
  | promote _ hc hi t ht ih =>
    exact ih.promote hc hi ht
  | newRemote _ c hconn hp hserver ih =>
    exact ih.addClient hp hserver fun i hi => by simp [hconn] at hi
  | destroy _ hin hcalm hr hne hrun ih =>
    have hremoved := (destroyWith_ends ih hin hcalm hr hne _ _ _ _).of_ok hrun
    exact hremoved.clientTree ih hne
  | elsewhere _ hsame ih => exact ih.of_sameTree hsame

/-- While no write fails, `Client_Destroy` of a client other than this server ends; it
removes exactly that client and the clients whose chain of introducers leads to it, keeps
all others as they are and in their order, and then every introducer is on the list. -/
theorem netsplit_removes_subtree {w : World} (hw : Built w) (hin : InOrder w) (hcalm : w.Calm)
    {s : ClientRef} (hs : s ∈ w.order) (hne : s ≠ w.thisServer) (k : Nat) (l f : Option Str)
    (q : Bool) :
    ∃ w', destroyWith k s l f q w = .ok ((), w') ∧
      w'.order.Sublist w.order ∧ (∀ r, r ∈ w'.order ↔ r ∈ w.order ∧ ¬Behind w.up s r) ∧
      (∀ r ∈ w'.order, (w'.heap r).map Client.uncloak = (w.heap r).map Client.uncloak) ∧
      ∀ r ∈ w'.order, ∃ c, w'.heap r = some c ∧ c.introducer ∈ w'.order := by
  have htree := hw.clientTree
  obtain ⟨_, w', hrun, hremoved⟩ := (destroyWith_ends htree hin hcalm hs hne k l f q).exists_ok
  have htree' := hremoved.clientTree htree hne
  refine ⟨w', hrun, hremoved.sublist, hremoved.order, fun r hr => ?_, fun r hr => ?_⟩
  · exact hremoved.cell r ((hremoved.order r).mp hr).2
  · obtain ⟨c, hc⟩ := htree'.cell hr
    obtain ⟨p, hp⟩ := htree'.introducer_cell hc
    exact ⟨c, hc, htree'.mem hp⟩

/-- This server, a linked server 1, a server 2 behind it with a user 3, and a local
user 4. -/
def splitNet : World :=
  let link : Client := { introducer := 1, connId := some 1, type := .server }
  let w := (World.start {} {} []).addClient { introducer := 0, connId := some 1 }
  (((w.setHeap 1 (some link)).addClient { introducer := 1, type := .server }).addClient
    { introducer := 2, type := .user }).addClient { introducer := 0, connId := some 2, type := .user }

theorem splitNet_built : Built splitNet := by
  have hlocal : Built ((World.start {} {} []).addClient { introducer := 0, connId := some 1 }) :=
    .newLocal (.start _ _ _) _ 1 rfl rfl
  have hlink := hlocal.promote (r := 1) rfl rfl .server fun _ => rfl
  have hserver := hlink.newRemote { introducer := 1, type := .server } rfl rfl rfl
  have huser := hserver.newRemote { introducer := 2, type := .user } rfl rfl rfl
  exact huser.newLocal _ 2 rfl rfl

theorem splitNet_inOrder : InOrder splitNet where
  chans := ⟨List.nodup_nil, nofun, nofun, List.Pairwise.nil⟩
  member := nofun
  reached := nofun
  pool _ hi := absurd rfl hi

/-- When the link to server 1 goes, this server and the local user stay. -/
theorem netsplit_removes_subtree_splitNet : ∃ w',
    destroyWith 0 1 none none true splitNet = .ok ((), w') ∧
      w'.order.Sublist splitNet.order ∧
      (∀ r, r ∈ w'.order ↔ r ∈ splitNet.order ∧ ¬Behind splitNet.up 1 r) ∧
      (∀ r ∈ w'.order, (w'.heap r).map Client.uncloak = (splitNet.heap r).map Client.uncloak) ∧
      ∀ r ∈ w'.order, ∃ c, w'.heap r = some c ∧ c.introducer ∈ w'.order :=
  netsplit_removes_subtree splitNet_built splitNet_inOrder (fun _ _ => rfl) (by decide) (by decide)
    0 none none true

end Ngircd
