import Ngircd.Peers

/-!
# What can be said while no write fails

Sending messages queues lines, keeps the books of connections and cloaks host
names, but clients are shown with the same host names as before.  The lines of this
server can be told from those that pass on a message of a user by the word behind
the name at their front.
-/

namespace Ngircd

open Lib Prog

variable {w w' w₁ w₂ w₃ : World} {r cl : ClientRef} {c this : Client} {P : ConnId × Str → Prop}
  {i : ConnId} {line s name text command : Str} {x : Char}

/-! ## What sending a message leaves as it is -/

/-- Lines have been sent and host names cloaked, but every client is still shown
with the host name it would have been shown with before. -/
structure Discreet (w w' : World) : Prop extends Quiet w w' where
  shown : ∀ r c c', w.heap r = some c → w'.heap r = some c' →
    w'.hostnameDisplayed c' = w.hostnameDisplayed c ∧ (c'.cloaked = none → c.cloaked = none)

namespace Discreet

theorem refl (w : World) : Discreet w w where
  toQuiet := Quiet.refl w
  shown r c c' hc hc' := by
    obtain rfl := Option.mem_unique hc hc'
    exact ⟨rfl, id⟩

theorem trans (h₁ : Discreet w₁ w₂) (h₂ : Discreet w₂ w₃) : Discreet w₁ w₃ where
  toQuiet := h₁.toQuiet.trans h₂.toQuiet
  shown r c c'' hc hc'' := by
    obtain ⟨host, hc'⟩ := h₁.heap_some hc
    obtain ⟨hshown₁, hnone₁⟩ := h₁.shown r c _ hc hc'
    obtain ⟨hshown₂, hnone₂⟩ := h₂.shown r _ c'' hc' hc''
    exact ⟨hshown₂.trans hshown₁, hnone₁ ∘ hnone₂⟩

/-- Sending lines shows nothing new. -/
theorem of_heap (hw : Healthy w) (hq : Quiet w w') (h : w'.heap = w.heap) : Discreet w w' where
  toQuiet := hq
  shown r c c' hc hc' := by
    rw [h] at hc'
    obtain rfl := Option.mem_unique hc hc'
    exact ⟨by simp only [World.hostnameDisplayed, hq.cloakFor hw hc], id⟩

/-- A host name that is cloaked now is the one that would have been shown. -/
theorem of_shown (hw : Healthy w) (hc : w.heap r = some c) (hq : Quiet w w')
    (h : ShownBy this r c w w') : Discreet w w' := by
  unfold ShownBy at h
  split_ifs at h with hneed
  · obtain ⟨l, hl, -⟩ := h
    refine ⟨hq, fun s d d' hd hd' => ?_⟩
    rw [hl.heap] at hd'
    by_cases hs : s = r
    · subst hs
      obtain rfl := Option.mem_unique hc hd
      rw [World.withCloak, World.setHeap_heap_self] at hd'
      obtain rfl := Option.some.inj hd'
      have hx := hneed.1
      have hnone := hneed.2
      refine ⟨?_, fun _ => hnone⟩
      simp only [World.hostnameDisplayed, Client.hasMode] at hx ⊢
      simp only [hx, if_true, hnone, Option.getD_none, Option.getD_some]
    · rw [World.withCloak, World.setHeap_heap_ne _ hs] at hd'
      obtain rfl := Option.mem_unique hd hd'
      exact ⟨by simp only [World.hostnameDisplayed, hq.cloakFor hw hd], id⟩
  · rw [h]
    exact refl w

end Discreet

/-- The lines of the kind `P`. -/
noncomputable def ofKind (P : ConnId × Str → Prop) (l : List (ConnId × Str)) :
    List (ConnId × Str) :=
  open Classical in l.filter fun x => P x

theorem ofKind_append (P : ConnId × Str → Prop) (l l' : List (ConnId × Str)) :
    ofKind P (l ++ l') = ofKind P l ++ ofKind P l' := List.filter_append ..

/-- The lines of the kind `P` that have been sent are `L`. -/
structure Says (P : ConnId × Str → Prop) (L : List (ConnId × Str)) (w w' : World) : Prop
    extends Discreet w w' where
  lines : ∃ l, w'.sent = w.sent ++ l ∧ ofKind P l = L

namespace Says

variable {L L₁ L₂ : List (ConnId × Str)}

theorem nothing (P : ConnId × Str → Prop) (w : World) : Says P [] w w where
  toDiscreet := Discreet.refl w
  lines := ⟨[], by simp, rfl⟩

theorem trans (h₁ : Says P L₁ w₁ w₂) (h₂ : Says P L₂ w₂ w₃) : Says P (L₁ ++ L₂) w₁ w₃ where
  toDiscreet := h₁.toDiscreet.trans h₂.toDiscreet
  lines := by
    obtain ⟨l₁, hl₁, rfl⟩ := h₁.lines
    obtain ⟨l₂, hl₂, rfl⟩ := h₂.lines
    exact ⟨l₁ ++ l₂, by rw [hl₂, hl₁, List.append_assoc], ofKind_append P l₁ l₂⟩

/-- What follows is of another kind. -/
theorem quietly (h₁ : Says P L w₁ w₂) (h₂ : Says P [] w₂ w₃) : Says P L w₁ w₃ := by
  simpa using h₁.trans h₂

theorem after (h₁ : Says P [] w₁ w₂) (h₂ : Says P L w₂ w₃) : Says P L w₁ w₃ := h₁.trans h₂

/-- Lines of another kind. -/
theorem silent {l : List (ConnId × Str)} (h : Discreet w w') (hsent : w'.sent = w.sent ++ l)
    (hl : ∀ x ∈ l, ¬P x) : Says P [] w w' where
  toDiscreet := h
  lines := ⟨l, hsent, List.filter_eq_nil_iff.mpr fun x hx => by simpa using hl x hx⟩

theorem lines_of_nil (h : Says P [] w w') : ∃ l, w'.sent = w.sent ++ l ∧ ∀ x ∈ l, ¬P x := by
  obtain ⟨l, hsent, hkind⟩ := h.lines
  refine ⟨l, hsent, fun x hx hP => List.filter_eq_nil_iff.mp hkind x hx ?_⟩
  simpa using hP

/-- One line of the kind. -/
theorem one (h : Discreet w w') (hsent : w'.sent = w.sent ++ [(i, line)])
    (hP : P (i, line)) : Says P [(i, line)] w w' where
  toDiscreet := h
  lines := ⟨[(i, line)], hsent, List.filter_eq_self.mpr fun x hx => by
    simpa [List.mem_singleton.mp hx] using hP⟩

end Says

/-! ## Lines that pass on a message -/

/-- The character after the first blank. -/
def afterBlank (line : Str) : Option Char := (line.dropWhile (· != ' ')).tail.head?

theorem afterBlank_append (hs : ' ' ∉ s) (rest : Str) :
    afterBlank (s ++ ' ' :: rest) = rest.head? := by
  have hall : ∀ x ∈ s, (x != ' ') = true := by
    intro x hx
    simpa using fun h : x = ' ' => hs (h ▸ hx)
  rw [afterBlank, List.dropWhile_append_of_pos hall]
  simp

theorem afterBlank_of_not_mem (hs : ' ' ∉ s) : afterBlank s = none := by
  have hall : ∀ x ∈ s, (x != ' ') = true := by
    intro x hx
    simpa using fun h : x = ' ' => hs (h ▸ hx)
  rw [afterBlank, List.dropWhile_eq_nil_iff.mpr hall]
  rfl

/-- Wherever a line is cut, what follows its first blank is the text, or the mark of
the cut, or nothing. -/
theorem afterBlank_serverText (hname : ' ' ∉ name) (text : Str) :
    afterBlank (serverText name text) = text.head? ∨
      afterBlank (serverText name text) = some '[' ∨ afterBlank (serverText name text) = none := by
  have hhead : (text.take 999).head? = text.head? := by cases text <;> rfl
  have hstart : ' ' ∉ ':' :: name := by simpa using hname
  have hline : format ":%s %s" [name, text.take 999] = (':' :: name) ++ ' ' :: text.take 999 := by
    simp [format]
  unfold serverText cutLine
  rw [hline]
  split
  · -- The cut is in front of the blank, right behind it or in the text.
    rw [List.take_append]
    generalize commandLen - 5 - 2 - 1 - (':' :: name).length = k
    have hstart' : ' ' ∉ (':' :: name).take (commandLen - 5 - 2 - 1) :=
      fun h => hstart (List.mem_of_mem_take h)
    rcases k with _ | _ | k
    · refine .inr (.inr (afterBlank_of_not_mem ?_))
      rw [List.take_zero, List.append_nil, List.mem_append]
      rintro (h | h)
      · exact hstart' h
      · exact absurd h (by decide)
    · refine .inr (.inl ?_)
      rw [List.take_succ_cons, List.take_zero, List.append_assoc]
      exact afterBlank_append hstart' _
    · rw [List.take_succ_cons, List.append_assoc, List.cons_append,
        afterBlank_append hstart', ← hhead]
      cases text.take 999 with
      | nil => exact .inr (.inl rfl)
      | cons x rest => exact .inl rfl
  · rw [afterBlank_append hstart, hhead]
    exact .inl rfl

/-- A line of a server with a name of usual length is not cut before its text. -/
theorem afterBlank_of_short (hname : ' ' ∉ name) (hlength : name.length < clientIdLen)
    (hx : text.head? = some x) : afterBlank (serverText name text) = some x := by
  obtain ⟨rest, rfl⟩ : ∃ rest, text = [x] ++ rest := by
    cases text with
    | nil => exact nomatch hx
    | cons y rest =>
      obtain rfl := Option.some.inj hx
      exact ⟨rest, rfl⟩
  have hroom : name.length + [x].length ≤ 503 := by
    simp only [clientIdLen, List.length_singleton] at hlength ⊢
    omega
  obtain ⟨tail, htail⟩ := serverText_append hroom rest
  rw [htail]
  exact afterBlank_append (s := ':' :: name) (by simpa using hname) (x :: tail)

/-- Lines of this server pass on no message: the words after the name of a sender are the
command, the name of a recipient and the text. -/
theorem serverText_ne {who target t : Str} (hname : ' ' ∉ name)
    (hlength : name.length < clientIdLen) (hx : text.head? = some x) (hwho : ' ' ∉ who)
    (hother : x ≠ '[' ∧ ∃ y, command.head? = some y ∧ x ≠ y) :
    serverText who (format "%s %s :%s" [command, target, t]) ≠ serverText name text := by
  intro heq
  obtain ⟨hcut, y, hy, hxy⟩ := hother
  have hstart : (format "%s %s :%s" [command, target, t]).head? = some y := by
    obtain ⟨rest, rfl⟩ : ∃ rest, command = y :: rest := by
      cases command with
      | nil => cases hy
      | cons z rest =>
        obtain rfl := Option.some.inj hy
        exact ⟨rest, rfl⟩
    simp [format]
  have hfound := afterBlank_of_short hname hlength hx
  rw [← heq] at hfound
  rcases afterBlank_serverText hwho (format "%s %s :%s" [command, target, t]) with h | h | h
  · rw [hfound, hstart] at h
    exact hxy (Option.some.inj h)
  · rw [hfound] at h
    exact hcut (Option.some.inj h)
  · rw [hfound] at h
    cases h

/-! ## A server whose users are online -/

/-- What a client is called at the front of a line: its ID on a link, and its mask for a user. -/
def World.nameOn (w : World) (c : Client) : Mark → Str
  | .toServer => c.nameOrStar
  | .toUser => w.maskCloaked c

/-- The connection over which a client is reached. -/
def World.route (w : World) (r : ClientRef) : Option ConnId :=
  match w.nextHop r with
  | .ok hop => (w.heap hop).bind Client.connId
  | .error _ => none

/-- The clients are in order, no write fails, users and services are reached over open
connections, and the name of this server is a word of the usual length. -/
structure World.Online (w : World) : Prop where
  healthy : Healthy w
  calm : w.Calm
  this : ∃ this, w.heap w.thisServer = some this ∧
    ∀ k, ' ' ∉ w.nameOn this k ∧ (w.nameOn this k).length < clientIdLen
  routed : ∀ r ∈ w.order, ∀ c, w.heap r = some c → c.type = .user ∨ c.type = .service →
    ∃ i, w.route r = some i ∧ (w.conns i).sock ≠ none

/-- A user of this server who can send messages. -/
structure World.Author (w : World) (client : ClientRef) (c : Client) : Prop where
  cell : w.heap client = some c
  type : c.type = .user
  other : client ≠ w.thisServer
  conn : ∃ i, c.connId = some i ∧ (w.conns i).sock ≠ none
  named : ∀ k, ' ' ∉ w.nameOn c k

section Kept

theorem Placid.route (h : Placid w w') (r : ClientRef) : w'.route r = w.route r := by
  unfold World.route
  rw [h.nextHop]
  cases w.nextHop r with
  | error f => rfl
  | ok hop =>
    simp only
    cases hhop : w.heap hop with
    | none =>
      have hcell := h.cell hop
      rw [hhop, Option.map_none, Option.map_eq_none_iff] at hcell
      rw [hcell]
    | some k =>
      obtain ⟨host, hk⟩ := h.heap_some hhop
      rw [hk]
      rfl

/-- What the state of a server keeps while messages are sent. -/
structure Kept (w w' : World) : Prop extends Placid w w' where
  conf : w'.conf = w.conf
  shown : ∀ r c c', w.heap r = some c → w'.heap r = some c' →
    w'.hostnameDisplayed c' = w.hostnameDisplayed c ∧ (c'.cloaked = none → c.cloaked = none)
  members : w'.chans.cl2chan = w.chans.cl2chan

theorem Discreet.kept (h : Discreet w w') : Kept w w' where
  toPlacid := h.toPlacid
  conf := h.conf
  shown := h.shown
  members := by rw [h.chans]

namespace Kept

/-- The structure of a client, and how it is called. -/
theorem client (h : Kept w w') (hc : w.heap r = some c) :
    ∃ host, w'.heap r = some { c with cloaked := host } ∧
      w'.hostnameDisplayed { c with cloaked := host } = w.hostnameDisplayed c ∧
      w'.maskCloaked { c with cloaked := host } = w.maskCloaked c := by
  obtain ⟨host, hc'⟩ := h.heap_some hc
  have hshown := (h.shown r c _ hc hc').1
  refine ⟨host, hc', hshown, ?_⟩
  unfold World.maskCloaked
  rw [hshown]
  rfl

theorem names (h : Kept w w') (hc : w.heap r = some c) :
    ∃ host, w'.heap r = some { c with cloaked := host } ∧
      w'.nameOn { c with cloaked := host } = w.nameOn c := by
  obtain ⟨host, hc', -, hmask⟩ := h.client hc
  refine ⟨host, hc', funext fun k => ?_⟩
  cases k with
  | toServer => rfl
  | toUser => exact hmask

theorem online (h : Kept w w') (hw : w.Online) : w'.Online where
  healthy := h.healthy (by rw [h.members]; exact List.Subset.refl _) hw.healthy
  calm := h.calm hw.calm
  this := by
    obtain ⟨this, hthis, hnames⟩ := hw.this
    obtain ⟨host, hthis', hsame⟩ := h.names hthis
    refine ⟨_, by rw [h.thisServer, hthis'], ?_⟩
    rwa [hsame]
  routed r hr d hd htype := by
    rw [h.order] at hr
    obtain ⟨d₀, host, hd₀, rfl⟩ := h.heap_some_before hd
    obtain ⟨i, hi, hopen⟩ := hw.routed r hr d₀ hd₀ htype
    exact ⟨i, by rw [h.route, hi], by rw [(h.link i).sock]; exact hopen⟩

theorem author (h : Kept w w') (hr : w.Author r c) :
    ∃ host, w'.Author r { c with cloaked := host } ∧
      w'.nameOn { c with cloaked := host } = w.nameOn c := by
  obtain ⟨host, hc', hsame⟩ := h.names hr.cell
  obtain ⟨i, hi, hopen⟩ := hr.conn
  refine ⟨host, ⟨hc', hr.type, by rw [h.thisServer]; exact hr.other, ⟨i, hi, ?_⟩, ?_⟩, hsame⟩
  · rw [(h.link i).sock]
    exact hopen
  · rw [hsame]
    exact hr.named

end Kept

end Kept

/-! ## Lines of this server and of a sender -/

/-- A numeric that answers the client or, as long as there are host names to be cloaked, the news
that one of them has been. -/
def World.Aside (w : World) (client : ClientRef) (x : ConnId × Str) : Prop :=
  ∃ this, w.heap w.thisServer = some this ∧ ∃ k text, x.2 = serverText (w.nameOn this k) text ∧
    (w.route client = some x.1 ∧ (text.head? = some '3' ∨ text.head? = some '4') ∨
      (∃ r c, w.heap r = some c ∧ c.NeedsCloak) ∧ ∃ c host, text = cloakNews c host)

/-- Lines with which this server answers the client or tells news are not of the kind `P`. -/
def World.Apart (w : World) (client : ClientRef) (P : ConnId × Str → Prop) : Prop :=
  ∀ x, w.Aside client x → ¬P x

theorem Kept.apart (h : Kept w w') (hw : w.Online) (hP : w.Apart cl P) :
    w'.Apart cl P := by
  rintro x ⟨this', hthis', k, text, hline, hkind⟩
  obtain ⟨this, hthis, -⟩ := hw.this
  obtain ⟨host, hsame, hnames⟩ := h.names hthis
  rw [h.thisServer, hsame] at hthis'
  obtain rfl := Option.some.inj hthis'
  rw [hnames] at hline
  refine hP x ⟨this, hthis, k, text, hline, hkind.imp (fun hreply => ?_) fun ⟨hneeds, hnews⟩ => ?_⟩
  · rwa [h.route] at hreply
  · -- A host name that is not cloaked now has not been before.
    obtain ⟨r, c, hc, hmode, hnone⟩ := hneeds
    obtain ⟨c₀, host, hc₀, rfl⟩ := h.heap_some_before hc
    exact ⟨⟨r, c₀, hc₀, hmode, (h.shown r c₀ _ hc₀ hc).2 hnone⟩, hnews⟩

theorem World.route_eq_some :
    w.route r = some i ↔ ∃ hop k, w.nextHop r = .ok hop ∧ w.heap hop = some k ∧
      k.connId = some i := by
  unfold World.route
  cases w.nextHop r with
  | error f => simp
  | ok hop => cases hhop : w.heap hop <;> simp [hhop]

theorem World.Author.route {client : ClientRef} (h : w.Author client c)
    (hw : w.Online) : ∃ i, w.route client = some i ∧ (w.conns i).sock ≠ none := by
  obtain ⟨i, hi, hopen⟩ := h.conn
  have hnext := hw.healthy.home client c i h.cell hi
  exact ⟨i, World.route_eq_some.mpr ⟨client, c, hnext, h.cell, hi⟩, hopen⟩

section Speaking

variable {pfx : ClientRef} {p : Client}

theorem ShownBy.says (hw : w.Online) (hP : w.Apart cl P)
    (hthis : w.heap w.thisServer = some this) (hc : w.heap r = some c) (hq : Quiet w w')
    (h : ShownBy this r c w w') : Says P [] w w' := by
  have hdiscreet : Discreet w w' := .of_shown hw.healthy hc hq h
  unfold ShownBy at h
  split_ifs at h with hneed
  · obtain ⟨l, hl, hlines⟩ := h
    exact .silent hdiscreet hl.sent fun x hx => hP x
      ⟨this, hthis, .toServer, _, hlines x hx, .inr ⟨⟨r, c, hc, hneed⟩, c, _, rfl⟩⟩
  · rw [h]
    exact .nothing P w

theorem clientHostnameDisplayed_utters (hw : w.Online) (hP : w.Apart cl P)
    (hc : w.heap r = some c) :
    (clientHostnameDisplayed r).wp quietWp
      (fun a w' => a = w.hostnameDisplayed c ∧ Says P [] w w') w := by
  obtain ⟨this, hthis, -⟩ := hw.this
  refine wp_quiet (clientHostnameDisplayed_shown hw.healthy hw.calm hc hthis) ?_
  rintro a w' ⟨ha, hshown⟩ hq
  exact ⟨ha, hshown.says hw hP hthis hc hq⟩

theorem ShownBy.flag (h : ShownBy this r c w w') (i : ConnId) :
    (w'.conns i).flag = (w.conns i).flag := by
  unfold ShownBy at h
  split_ifs at h
  · obtain ⟨l, hl, -⟩ := h
    exact hl.flag i
  · rw [h]

theorem clientMaskCloaked_utters (hw : w.Online) (hP : w.Apart cl P) (hc : w.heap r = some c) :
    (clientMaskCloaked r).wp quietWp (fun a w' => a = w.maskCloaked c ∧ Says P [] w w' ∧
      ∀ i, (w'.conns i).flag = (w.conns i).flag) w := by
  obtain ⟨this, hthis, -⟩ := hw.this
  refine wp_quiet (clientMaskCloaked_shown hw.healthy hw.calm hc hthis) ?_
  rintro a w' ⟨ha, hshown⟩ hq
  exact ⟨ha, hshown.says hw hP hthis hc hq, hshown.flag⟩

/-- The bookkeeping of a connection says nothing. -/
theorem editConn_utters (P : ConnId × Str → Prop) (hw : w.Online) (i : ConnId) (e : ConnEdit) :
    (editConn i e).wp quietWp (fun _ w' => Says P [] w w') w := by
  rw [wp_editConn]
  have hq : Quiet w (w.setConn i (e.edit (w.conns i))) :=
    Quiet.setConn ⟨e.sock_eq _, e.client_eq _, e.pwd_eq _, e.authPing_eq _, e.isClosing_eq _⟩
  exact .silent (.of_heap hw.healthy hq rfl) (List.append_nil _).symm (by simp)

/-- A write to an open connection is one line. -/
theorem connWriteStr_utters (hw : w.Online) (hopen : (w.conns i).sock ≠ none) (text : Str) :
    (connWriteStr i text).wp quietWp (fun ok w' => ok = true ∧ (Discreet w w' ∧
      w'.sent = w.sent ++ [(i, cutLine text)]) ∧ ∀ j, (w'.conns j).flag = (w.conns j).flag) w := by
  refine wp_quiet (connWriteStr_quiet hw.calm i text) ?_
  rintro ok w' ⟨rfl, hsends⟩ hq
  have hline : w.lineOn i text = [(i, cutLine text)] := by
    rw [World.lineOn, if_neg (by simpa using hopen)]
  refine ⟨Option.isSome_iff_ne_none.mpr hopen, ⟨.of_heap hw.healthy hq hsends.heap, ?_⟩,
    hsends.flag⟩
  rw [hsends.sent, hline]

/-- What a client is called in a line for another one. -/
def World.nameFor (w : World) (r : ClientRef) (c : Client) : Str :=
  w.nameOn c (match w.nextHop r with
    | .ok hop => if (w.heap hop).any (·.type = .server) then .toServer else .toUser
    | .error _ => .toUser)

theorem Kept.nameFor {p' : Client} (h : Kept w w') (hp : w.heap pfx = some p)
    (hp' : w'.heap pfx = some p') (r : ClientRef) : w'.nameFor r p' = w.nameFor r p := by
  obtain ⟨host, hsame, hnames⟩ := h.names hp
  obtain rfl := Option.some.inj (hsame.symm.trans hp')
  have htype (hop : ClientRef) : (w'.heap hop).any (·.type = .server) =
      (w.heap hop).any (·.type = .server) := by
    have hcell := h.cell hop
    cases hk : w.heap hop with
    | none => simp_all
    | some k =>
      obtain ⟨khost, hk'⟩ := h.heap_some hk
      rw [hk']
      rfl
  simp only [World.nameFor, hnames, h.toPlacid.nextHop, htype]

section

variable (hw : w.Online) (hP : w.Apart cl P) (hroute : w.route r = some i)
  (hopen : (w.conns i).sock ≠ none)
include hw hP hroute hopen

/-- A text for a client is one line on the connection over which it is reached. -/
theorem ircWriteStrClientPrefix_utters (hp : w.heap pfx = some p) (text : Str) :
    (ircWriteStrClientPrefix r pfx text).wp quietWp (fun ok w' => ok = true ∧ ∃ w₁, Says P [] w w₁ ∧
      Discreet w₁ w' ∧ w'.sent = w₁.sent ++ [(i, serverText (w.nameFor r p) text)]) w := by
  obtain ⟨hop, k, hnext, hk, hki⟩ := World.route_eq_some.mp hroute
  simp only [ircWriteStrClientPrefix, lineFor, getPrefix, wp_bind, wp_nextHop_of_ok hnext, wp_deref,
    onClient_of_some hk, hki, wp_connOf_some, wp_clientType, wp_ite, wp_clientID,
    onClient_of_some hp, wp_pure]
  refine ⟨fun htype => ?_, fun htype => ?_⟩
  · have hname : w.nameFor r p = p.nameOrStar := by
      simp [World.nameFor, hnext, hk, htype, World.nameOn]
    rw [hname]
    refine wp_mono (fun ok w' h => ?_) (connWriteStr_utters hw hopen _)
    exact ⟨h.1, w, .nothing P w, h.2.1⟩
  · have hname : w.nameFor r p = w.maskCloaked p := by
      simp [World.nameFor, hnext, hk, htype, World.nameOn]
    rw [hname]
    refine wp_mono ?_ (clientMaskCloaked_utters hw hP hp)
    rintro _ w₁ ⟨rfl, hsaid, -⟩
    have hopen₁ : (w₁.conns i).sock ≠ none := by
      rw [(hsaid.link i).sock]
      exact hopen
    rw [wp_pure]
    refine wp_mono (fun ok w' h => ?_) (connWriteStr_utters (hsaid.kept.online hw) hopen₁ _)
    exact ⟨h.1, w₁, hsaid, h.2.1⟩

/-- A message for a client is passed on over its connection. -/
theorem ircWriteStrClientPrefix_passes (hp : w.heap pfx = some p)
    (htext : ∀ k, P (i, serverText (w.nameOn p k) text)) :
    (ircWriteStrClientPrefix r pfx text).wp quietWp (fun ok w' => ok = true ∧
      Says P [(i, serverText (w.nameFor r p) text)] w w') w := by
  refine wp_mono ?_ (ircWriteStrClientPrefix_utters hw hP hroute hopen hp text)
  rintro ok w' ⟨hok, w₁, hsaid, hdiscreet, hsent⟩
  exact ⟨hok, hsaid.after (.one hdiscreet hsent (htext _))⟩

end

section

variable (hw : w.Online) (hP : w.Apart cl P) (hr : w.Author cl c)
  (hx : text.head? = some '3' ∨ text.head? = some '4')
include hw hP hr hx

/-- Answers of this server pass nothing on. -/
theorem ircWriteStrClient_silent : (ircWriteStrClient cl text).wp quietWp
      (fun ok w' => ok = true ∧ Says P [] w w') w := by
  obtain ⟨this, hthis, -⟩ := hw.this
  obtain ⟨i, hroute, hopen⟩ := hr.route hw
  simp only [ircWriteStrClient, wp_bind, wp_thisServer]
  refine wp_mono ?_ (ircWriteStrClientPrefix_utters hw hP hroute hopen hthis text)
  rintro ok w' ⟨hok, w₁, hsaid, hdiscreet, hsent⟩
  refine ⟨hok, hsaid.quietly (.silent hdiscreet hsent fun y hy => ?_)⟩
  rw [List.mem_singleton.mp hy]
  exact hP _ ⟨this, hthis, _, text, rfl, .inl ⟨hroute, hx⟩⟩

theorem ircWriteErrClient_silent :
    (ircWriteErrClient cl text).wp quietWp (fun ok w' => ok = true ∧ Says P [] w w') w := by
  obtain ⟨j, hj, -⟩ := hr.conn
  simp only [ircWriteErrClient, ircSetPenalty, connSetPenalty, wp_bind, wp_deref,
    onClient_of_some hr.cell, hr.type, reduceCtorEq, if_false, hj, wp_getWorld]
  refine wp_mono (fun _ w₁ hsaid => ?_) (editConn_utters P hw j _)
  obtain ⟨host, hr₁, -⟩ := hsaid.kept.author hr
  have hwrite := ircWriteStrClient_silent (hsaid.kept.online hw) (hsaid.kept.apart hw hP) hr₁ hx
  simp only [ircWriteStrClient, wp_bind, wp_thisServer] at hwrite ⊢
  exact wp_mono (fun ok w' h => ⟨h.1, hsaid.quietly h.2⟩) hwrite

end

theorem updateIdle_silent (P : ConnId × Str → Prop) (hw : w.Online) (hc : w.heap r = some c) :
    (updateIdle r).wp quietWp (fun _ w' => Says P [] w w') w := by
  simp only [updateIdle, wp_bind, wp_deref, onClient_of_some hc]
  cases c.connId with
  | none => exact .nothing P w
  | some j =>
    simp only [wp_bind, wp_getWorld]
    exact editConn_utters P hw j _

end Speaking

end Ngircd
