import Ngircd.Discreet

/-!
# Messages to clients, channels and masks

The lines that pass on a message, for each kind of target of `Send_Message`, as functions
of the state before.
-/

namespace Ngircd

open Lib Prog

variable {P : ConnId × Str → Prop} {w w' w₁ w₂ w₃ : World} {r cl client pfx : ClientRef}
  {c s p : Client} {target command message : Str} {L : List (ConnId × Str)} {ch : ChanRef}

/-! ## The client a target describes -/

/-- The name of the server a client is on. -/
def World.serverOf (w : World) (c : Client) : Str :=
  ((w.heap c.introducer).map Client.nameOrStar).getD []

/-- Is this client the one a target describes? -/
def World.fitsMsgTo (w : World) (t : MsgTo) (c : Client) : Bool :=
  (c.type = .user || c.type = .service) &&
    match t.nick, t.host with
    | some nick, some host =>
      strcaseEq nick c.nameOrStar && strcaseEq t.user c.userOrTilde &&
        strcaseEq host (w.hostnameDisplayed c)
    | _, host =>
      strcaseEq t.user c.userOrTilde && host.all (strcaseEq · (w.hostnameDisplayed c)) &&
        t.server.all (strcaseEq · (w.serverOf c))

/-- The client a target names. -/
def World.addressee (w : World) (target : Str) : Option ClientRef :=
  (if target.contains '!' then none else w.clientSearch target).or
    (w.order.find? fun r => (w.heap r).any (w.fitsMsgTo (parseMsgTo target)))

section Addressee

theorem Kept.serverOf (h : Kept w w') (c : Client) : w'.serverOf c = w.serverOf c := by
  unfold World.serverOf
  cases hi : w.heap c.introducer with
  | none =>
    have hcell := h.cell c.introducer
    rw [hi, Option.map_none, Option.map_eq_none_iff] at hcell
    rw [hcell]
  | some d =>
    obtain ⟨host, hd⟩ := h.heap_some hi
    rw [hd]
    rfl

theorem Kept.fitsMsgTo (h : Kept w w') (t : MsgTo) (r : ClientRef) :
    (w'.heap r).any (w'.fitsMsgTo t) = (w.heap r).any (w.fitsMsgTo t) := by
  cases hr : w.heap r with
  | none =>
    have hcell := h.cell r
    rw [hr, Option.map_none, Option.map_eq_none_iff] at hcell
    rw [hcell]
    rfl
  | some c =>
    obtain ⟨host, hc, hshown, -⟩ := h.client hr
    rw [hc]
    simp only [Option.any_some, World.fitsMsgTo, hshown, h.serverOf]
    rfl

theorem Kept.addressee (h : Kept w w') (target : Str) :
    w'.addressee target = w.addressee target := by
  unfold World.addressee
  rw [h.toPlacid.clientSearch, h.order]
  simp only [h.fitsMsgTo]

/-- The last thing a target is compared with: the server. -/
def matchesServer (t : MsgTo) (cl : ClientRef) : Msg Bool :=
  match t.server with
  | none => return true
  | some server => return strcaseEq server (← clientID (← deref cl).introducer)

theorem matchesMsgTo_utters (hw : w.Online) (hP : w.Apart client P) (hc : w.heap r = some c)
    (t : MsgTo) :
    (matchesMsgTo t r).wp quietWp (fun a w' => a = w.fitsMsgTo t c ∧ Says P [] w w') w := by
  obtain ⟨i, hi⟩ := hw.healthy.introducer r c hc
  have hserver : w.serverOf c = i.nameOrStar := by simp [World.serverOf, hi]
  have hnothing := Says.nothing P w
  have hshown := clientHostnameDisplayed_utters hw hP hc
  -- Once the host name has been compared, the server is.
  have hlast (w₁ : World) (hs : Says P [] w w₁) :
      (matchesServer t r).wp quietWp (fun a w' => a = t.server.all (strcaseEq · (w.serverOf c)) ∧
        Says P [] w w') w₁ := by
    unfold matchesServer
    cases t.server with
    | none => exact ⟨rfl, hs⟩
    | some server =>
      obtain ⟨host, hc₁⟩ := hs.heap_some hc
      obtain ⟨ihost, hi₁⟩ := hs.heap_some hi
      simp only [wp_bind, wp_deref, onClient_of_some hc₁, wp_clientID, onClient_of_some hi₁,
        wp_pure, Option.all_some, hserver]
      exact ⟨rfl, hs⟩
  simp only [matchesMsgTo, World.fitsMsgTo, wp_bind, wp_deref, onClient_of_some hc, wp_ite]
  refine ⟨fun htype => ?_, fun htype => ?_⟩
  · refine ⟨?_, hnothing⟩
    simp [htype.1, htype.2]
  · have htype' : (decide (c.type = .user) || decide (c.type = .service)) = true := by
      simpa [or_iff_not_imp_left] using htype
    rw [htype', Bool.true_and]
    by_cases huser : strcaseEq t.user c.userOrTilde = true
    · cases hhost : t.host with
      | none =>
        cases t.nick
        all_goals
          simp only [huser, Bool.not_true, Bool.false_eq_true, if_false, Option.all_none,
            Bool.and_true,
            Bool.true_and]
          exact hlast w hnothing
      | some host =>
        cases hnick : t.nick with
        | none =>
          simp only [huser, Bool.not_true, Bool.false_eq_true, if_false, wp_bind, Option.all_some,
            Bool.true_and]
          refine wp_mono ?_ hshown
          rintro _ w₁ ⟨rfl, hs⟩
          by_cases hmatch : strcaseEq host (w.hostnameDisplayed c) = true
          · simp only [hmatch, Bool.not_true, Bool.false_eq_true, if_false, Bool.true_and]
            exact hlast w₁ hs
          · simpa [hmatch] using hs
        | some nick =>
          by_cases hname : strcaseEq nick c.nameOrStar = true
          · simp only [wp_clientID, onClient_of_some hc, wp_bind, hname, huser, Bool.not_true,
              Bool.or_self, Bool.false_eq_true, if_false, Bool.true_and]
            refine wp_mono ?_ hshown
            rintro _ w₁ ⟨rfl, hs⟩
            exact ⟨rfl, hs⟩
          · simpa [wp_clientID, onClient_of_some hc, hname] using hnothing
    · cases t.host <;> cases t.nick <;>
        simpa [wp_clientID, onClient_of_some hc, huser] using hnothing

/-- The walk finds the first client that fits. -/
theorem findClient_utters (hw : w.Online) (hP : w.Apart client P) (t : MsgTo) (l : List ClientRef)
    (hl : ∀ r ∈ l, r ∈ w.order) (hs : Says P [] w w') :
    (findClient (matchesMsgTo t) l).wp quietWp
      (fun a w'' => a = l.find? (fun r => (w.heap r).any (w.fitsMsgTo t)) ∧ Says P [] w w'')
        w' := by
  induction l generalizing w' with
  | nil => exact ⟨rfl, hs⟩
  | cons r rest ih =>
    have hr : r ∈ w.order := hl r (.head _)
    have hlisted {w₁ : World} (hs₁ : Says P [] w w₁) : w₁.order.contains r = true := by
      rw [hs₁.order]
      simpa using hr
    obtain ⟨c, hc⟩ := hw.healthy.listed r hr
    obtain ⟨host, hc', -⟩ := hs.kept.client hc
    have hfits := hs.kept.fitsMsgTo t r
    rw [hc', hc] at hfits
    simp only [findClient, wp_bind, wp_getWorld, hlisted hs, if_true]
    refine wp_mono ?_ (matchesMsgTo_utters (hs.kept.online hw) (hs.kept.apart hw hP) hc' t)
    rintro _ w₁ ⟨rfl, hs₁⟩
    have hall := hs.quietly hs₁
    rw [Option.any_some, Option.any_some] at hfits
    rw [hfits, List.find?_cons, hc, Option.any_some]
    by_cases hfound : w.fitsMsgTo t c = true
    · simpa [hfound] using hall
    · simp only [hfound, Bool.false_eq_true, if_false, wp_bind, wp_getWorld, hlisted hall, if_true]
      exact ih (fun s hs => hl s (.tail r hs)) hall

theorem findTarget_utters (hw : w.Online) (hP : w.Apart client P) (target : Str) :
    (findTarget target).wp quietWp (fun a w' => a = w.addressee target ∧ Says P [] w w') w := by
  simp only [findTarget, wp_bind, wp_getWorld, World.addressee]
  cases (if target.contains '!' then none else w.clientSearch target) with
  | some cl => exact ⟨rfl, .nothing P w⟩
  | none =>
    simpa only [Option.none_or] using
      findClient_utters hw hP (parseMsgTo target) w.order (fun _ hr => hr) (.nothing P w)

/-- Who is found is on the list. -/
theorem World.addressee_mem (h : w.addressee target = some r) : r ∈ w.order := by
  unfold World.addressee at h
  rcases Option.or_eq_some_iff.mp h with h | ⟨-, h⟩
  · split_ifs at h
    unfold World.clientSearch at h
    obtain ⟨x, hx, rfl⟩ := Option.map_eq_some_iff.mp h
    have hmem := List.mem_of_find?_eq_some hx
    obtain ⟨s, hs, hpair⟩ := List.mem_filterMap.mp hmem
    obtain ⟨c, -, rfl⟩ := Option.map_eq_some_iff.mp hpair
    exact hs
  · exact List.mem_of_find?_eq_some h

end Addressee

/-! ## Messages to clients -/

/-- Do the modes of a client let a message of `source` through? -/
def World.accepts (w : World) (source : ClientRef) (s : Client) (cl : ClientRef) (c : Client) :
    Bool :=
  (!c.hasMode 'b' || s.hasMode 'R' || s.hasMode 'o' || s.type = .server || s.type = .service) &&
    (!c.hasMode 'C' || s.hasMode 'o' || s.type = .server || s.type = .service ||
      (w.channelsOf cl).any fun ch => w.channelIsMemberOf ch source)

theorem World.accepts_iff {source : ClientRef} :
    w.accepts source s cl c = true ↔
      ¬(c.hasMode 'b' ∧ !s.hasMode 'R' ∧ !s.hasMode 'o' ∧ s.type ≠ .server ∧ s.type ≠ .service) ∧
      (c.hasMode 'C' ∧ !s.hasMode 'o' ∧ s.type ≠ .server ∧ s.type ≠ .service →
        ((w.channelsOf cl).any fun ch => w.channelIsMemberOf ch source) = true) := by
  unfold World.accepts
  generalize ((w.channelsOf cl).any fun ch => w.channelIsMemberOf ch source) = share
  cases c.hasMode 'b' <;> cases c.hasMode 'C' <;> cases s.hasMode 'R' <;> cases s.hasMode 'o' <;>
    cases s.type <;> cases share <;> decide

/-- A line that passes on a message: the connection it is queued on, and what the sender and
the target are called in it. -/
structure Copy where
  conn : ConnId
  sender : Str
  target : Str
  deriving DecidableEq

/-- The line for a copy of a message. -/
def Copy.line (command text : Str) (m : Copy) : ConnId × Str :=
  (m.conn, serverText m.sender (format "%s %s :%s" [command, m.target, text]))

/-- The copies of a message to a client. -/
def World.clientCopies (w : World) (source cl : ClientRef) : List Copy :=
  match w.heap source, w.heap cl with
  | some s, some c =>
    if (c.type = .user ∨ c.type = .service) ∧ w.accepts source s cl c then
      (w.route cl).toList.map fun i => ⟨i, w.nameFor cl s, c.nameOrStar⟩
    else []
  | _, _ => []

section ToClient

/-- The lines of a sender that pass on the message are of the kind `P`. -/
def Phrases (names : Mark → Str) (command message : Str) (P : ConnId × Str → Prop) : Prop :=
  ∀ i k target, P (Copy.line command message ⟨i, names k, target⟩)

variable (hw : w.Online) (hP : w.Apart client P) (hs : w.Author client s)
include hw hP hs

theorem targetError_silent (sendErrors : Bool) (command : Str) {text : Msg Str}
    (htext : text.wp quietWp (fun t w' => w' = w ∧ t.head? = some '4') w) :
    (targetError sendErrors command client text).wp quietWp
      (fun a w' => a = .goOn command ∧ Says P [] w w') w := by
  unfold targetError
  cases sendErrors with
  | false => exact ⟨rfl, .nothing P w⟩
  | true =>
    simp only [if_true, wp_bind]
    refine wp_mono ?_ htext
    rintro t _ ⟨rfl, ht⟩
    rw [wp_bind]
    refine wp_mono ?_ (ircWriteErrClient_silent hw hP hs (.inr ht))
    rintro _ w' ⟨rfl, hsaid⟩
    exact ⟨rfl, hsaid⟩

/-- The end of `Send_Message` for a client that gets the message. -/
theorem sendToClient_passes (hphrases : Phrases (w.nameOn s) command message P)
    (hcl : w.heap cl = some c) {i : ConnId} (hroute : w.route cl = some i)
    (hopen : (w.conns i).sock ≠ none) :
    ((do
      updateIdle client
      if !(← ircWriteStrClientPrefix cl client
          (format "%s %s :%s" [command, ← clientID cl, message])) then
        return .stop disconnected
      return .goOn command) : Msg TargetResult).wp quietWp
      (fun a w' => a = .goOn command ∧
        Says P [Copy.line command message ⟨i, w.nameFor cl s, c.nameOrStar⟩] w w') w := by
  rw [wp_bind]
  refine wp_mono (fun _ w₁ hidle => ?_) (updateIdle_silent P hw hs.cell)
  obtain ⟨host, hcl₁⟩ := hidle.heap_some hcl
  obtain ⟨shost, hs₁, hnames⟩ := hidle.kept.names hs.cell
  simp only [wp_bind, wp_clientID, onClient_of_some hcl₁]
  have htext (k : Mark) : P (i, serverText (w₁.nameOn { s with cloaked := shost } k)
      (format "%s %s :%s" [command, c.nameOrStar, message])) := by
    rw [hnames]
    exact hphrases i k _
  refine wp_mono ?_ (ircWriteStrClientPrefix_passes (hidle.kept.online hw)
    (hidle.kept.apart hw hP) (by rw [hidle.route, hroute])
    (by rw [(hidle.link i).sock]; exact hopen) hs₁ htext)
  rintro _ w₂ ⟨rfl, hsaid⟩
  rw [hidle.kept.nameFor hs.cell hs₁] at hsaid
  exact ⟨rfl, hidle.after hsaid⟩

theorem sendToClient_utters (hphrases : Phrases (w.nameOn s) command message P) (hcl : cl ∈ w.order)
    (sendErrors : Bool) (target : Str) :
    (sendToClient client client cl .user sendErrors command target message).wp quietWp
      (fun a w' => a = .goOn command ∧
        Says P ((w.clientCopies client cl).map (Copy.line command message)) w w') w := by
  obtain ⟨c, hc⟩ := hw.healthy.listed cl hcl
  have hcopies : w.clientCopies client cl =
      if (c.type = .user ∨ c.type = .service) ∧ w.accepts client s cl c then
        (w.route cl).toList.map fun i => ⟨i, w.nameFor cl s, c.nameOrStar⟩
      else [] := by
    simp only [World.clientCopies, hs.cell, hc]
  rw [hcopies]
  -- Who is refused gets nothing.
  have herror (hno : ¬((c.type = .user ∨ c.type = .service) ∧ w.accepts client s cl c = true))
      {text : Msg Str} (htext : text.wp quietWp (fun t w' => w' = w ∧ t.head? = some '4') w) :
      (targetError sendErrors command client text).wp quietWp (fun a w' => a = .goOn command ∧
        Says P (List.map (Copy.line command message)
          (if (c.type = .user ∨ c.type = .service) ∧ w.accepts client s cl c then
            (w.route cl).toList.map fun i => ⟨i, w.nameFor cl s, c.nameOrStar⟩
          else [])) w w') w := by
    rw [if_neg hno]
    exact targetError_silent hw hP hs sendErrors command htext
  unfold sendToClient
  rw [wp_bind, wp_deref, onClient_of_some hc]
  by_cases hperson : c.type = .user ∨ c.type = .service
  swap
  · rw [if_pos ⟨fun hu => hperson (.inl hu), fun h => hperson h.2⟩]
    refine herror (fun h => hperson h.1) ?_
    simp only [wp_bind, wp_clientID, onClient_of_some hs.cell, wp_pure]
    exact ⟨trivial, rfl⟩
  rw [if_neg (fun h => h.2 ⟨rfl, hperson⟩), if_neg (by decide), wp_bind, wp_pure, wp_bind,
    wp_deref, onClient_of_some hs.cell]
  by_cases hb : c.hasMode 'b' ∧ !s.hasMode 'R' ∧ !s.hasMode 'o' ∧ s.type ≠ .server ∧
    s.type ≠ .service
  · rw [if_pos hb]
    refine herror (fun h => (World.accepts_iff.mp h.2).1 hb) ?_
    simp only [wp_bind, wp_clientID, onClient_of_some hs.cell, onClient_of_some hc, wp_pure]
    exact ⟨trivial, rfl⟩
  rw [if_neg hb]
  by_cases hC : c.hasMode 'C' ∧ !s.hasMode 'o' ∧ s.type ≠ .server ∧ s.type ≠ .service
  on_goal 1 =>
    rw [if_pos hC, wp_bind, wp_getWorld]
    by_cases hshare : ((w.channelsOf cl).any fun ch => w.channelIsMemberOf ch client) = true
    swap
    · rw [if_pos (by simpa using hshare)]
      refine herror (fun h => hshare ((World.accepts_iff.mp h.2).2 hC)) ?_
      simp only [wp_bind, wp_clientID, onClient_of_some hs.cell, onClient_of_some hc, wp_pure]
      exact ⟨trivial, rfl⟩
    rw [if_neg (by simpa using hshare)]
    have haccepts : w.accepts client s cl c = true := World.accepts_iff.mpr ⟨hb, fun _ => hshare⟩
  on_goal 2 =>
    rw [if_neg hC]
    have haccepts : w.accepts client s cl c = true :=
      World.accepts_iff.mpr ⟨hb, fun h => absurd h hC⟩
  -- Who is not refused gets the message, whether or not the sender is told that it is away.
  all_goals
    obtain ⟨i, hroute, hopen⟩ := hw.routed cl hcl c hc hperson
    rw [if_pos ⟨hperson, haccepts⟩, hroute]
    simp only [wp_bind, wp_clientType, onClient_of_some hs.cell, hs.type]
    by_cases haway : sendErrors = true ∧ ClientType.user ≠ .server ∧ c.hasMode 'a' = true
    · rw [if_pos haway]
      simp only [wp_bind, wp_clientID, onClient_of_some hs.cell, onClient_of_some hc]
      refine wp_mono ?_ (ircWriteStrClient_silent hw hP hs (.inl rfl))
      rintro _ w₁ ⟨rfl, hsaid⟩
      obtain ⟨host, hs₁, hnames⟩ := hsaid.kept.author hs
      obtain ⟨chost, hc₁⟩ := hsaid.heap_some hc
      rw [← hnames] at hphrases
      have hpasses := sendToClient_passes (hsaid.kept.online hw) (hsaid.kept.apart hw hP) hs₁
        hphrases hc₁ (by rw [hsaid.route, hroute]) (by rw [(hsaid.link i).sock]; exact hopen)
      rw [hsaid.kept.nameFor hs.cell hs₁.cell] at hpasses
      exact wp_mono (fun a w' h => ⟨h.1, hsaid.after h.2⟩) hpasses
    · rw [if_neg haway]
      exact sendToClient_passes hw hP hs hphrases hc hroute hopen

end ToClient

/-! ## Messages to channels -/

/-- A channel without its bans and exceptions. -/
def Channel.unlisted (c : Channel) : Channel := { c with listBans := [], listExcepts := [] }

/-- Messages have been sent, and `L` are the lines of the kind `P`.  Entries of ban and
exception lists may have been used up, in channels of `V`. -/
structure Chats (P : ConnId × Str → Prop) (V : Set ChanRef) (L : List (ConnId × Str))
    (w w' : World) : Prop extends Kept w w' where
  channels : w'.chans.order = w.chans.order
  channel : ∀ ch, (w'.chans.heap ch).map Channel.unlisted = (w.chans.heap ch).map Channel.unlisted
  lists : ∀ ch, ch ∉ V → w'.chans.heap ch = w.chans.heap ch
  lines : ∃ l, w'.sent = w.sent ++ l ∧ ofKind P l = L

theorem Kept.trans (h₁ : Kept w₁ w₂) (h₂ : Kept w₂ w₃) : Kept w₁ w₃ where
  toPlacid := h₁.toPlacid.trans h₂.toPlacid
  conf := h₂.conf.trans h₁.conf
  shown r c c'' hc hc'' := by
    obtain ⟨host, hc'⟩ := h₁.heap_some hc
    obtain ⟨hshown₁, hnone₁⟩ := h₁.shown r c _ hc hc'
    obtain ⟨hshown₂, hnone₂⟩ := h₂.shown r _ c'' hc' hc''
    exact ⟨hshown₂.trans hshown₁, hnone₁ ∘ hnone₂⟩
  members := h₂.members.trans h₁.members

theorem Says.chats (h : Says P L w w') (V : Set ChanRef) :
    Chats P V L w w' where
  toKept := h.kept
  channels := by rw [h.chans]
  channel ch := by rw [h.chans]
  lists ch _ := by rw [h.chans]
  lines := h.lines

namespace Chats

variable {V V₁ V₂ : Set ChanRef} {L₁ L₂ : List (ConnId × Str)}

theorem trans (h₁ : Chats P V₁ L₁ w₁ w₂) (h₂ : Chats P V₂ L₂ w₂ w₃) :
    Chats P (V₁ ∪ V₂) (L₁ ++ L₂) w₁ w₃ where
  toKept := h₁.toKept.trans h₂.toKept
  channels := h₂.channels.trans h₁.channels
  channel ch := (h₂.channel ch).trans (h₁.channel ch)
  lists ch hch := by
    rw [h₂.lists ch fun h => hch (.inr h), h₁.lists ch fun h => hch (.inl h)]
  lines := by
    obtain ⟨l₁, hl₁, rfl⟩ := h₁.lines
    obtain ⟨l₂, hl₂, rfl⟩ := h₂.lines
    exact ⟨l₁ ++ l₂, by rw [hl₂, hl₁, List.append_assoc], ofKind_append P l₁ l₂⟩

/-- A message in the same channels follows what was said in silence. -/
theorem after (h₁ : Chats P V [] w₁ w₂) (h₂ : Chats P V L w₂ w₃) : Chats P V L w₁ w₃ := by
  simpa using h₁.trans h₂

/-- An entry of one of the lists of a channel is used up. -/
theorem put {c c' : Channel} (h : Chats P {ch} L w w') (hc : w'.chans.heap ch = some c)
    (hsame : c'.unlisted = c.unlisted) : Chats P {ch} L w (w'.setChannel ch (some c')) where
  toKept := { h.toKept with }
  channels := h.channels
  channel d := by
    rw [← h.channel d]
    by_cases hd : d = ch
    · subst hd
      simp [World.setChannel, hc, hsame]
    · simp [World.setChannel, hd]
  lists d hd := by
    rw [← h.lists d hd]
    simp only [World.setChannel]
    rw [Function.update_of_ne (by simpa using hd)]
  lines := h.lines

end Chats

/-- Is the client on a list of masks? -/
def World.onList (w : World) (l : List ListElem) (s : Client) : Bool :=
  (listsMatch l (w.maskCloaked s) s.mask).isSome

/-- May the client send messages to the channel? -/
def World.maySend (w : World) (source : ClientRef) (s : Client) (ch : ChanRef) (chan : Channel) :
    Bool :=
  !(chan.hasMode 'n' && (w.getCl2Chan ch source).isNone) &&
    !(chan.hasMode 'M' && !s.hasMode 'R' && !s.hasMode 'o') &&
    ((w.getCl2Chan ch source).any (fun e => "vhoaq".toList.any e.modes.contains) ||
      !chan.hasMode 'm' && (w.onList chan.listExcepts s || !w.onList chan.listBans s))

/-- The connections on which a message to a channel is queued, with their marks. -/
def World.markedFor (w : World) (source : ClientRef) (ch : ChanRef) : List (ConnId × Mark) :=
  (List.range w.poolSize).filterMap fun i =>
    if (w.conns i).sock.isNone then none
    else (setMarks (fun _ => none) (w.marks source true (w.membersOf ch)) i).map (i, ·)

theorem Kept.markedFor (h : Kept w w') (source : ClientRef) (ch : ChanRef) :
    w'.markedFor source ch = w.markedFor source ch := by
  simp only [World.markedFor, World.marks, World.membersOf, h.members, h.poolSize,
    (h.link _).sock, h.toPlacid.markOf]

/-- The copies of a message to a channel. -/
def World.channelCopies (w : World) (source : ClientRef) (ch : ChanRef) : List Copy :=
  match w.heap source, w.chans.heap ch with
  | some s, some chan =>
    if w.maySend source s ch chan then
      (w.markedFor source ch).map fun x => ⟨x.1, w.nameOn s x.2, chan.name⟩
    else []
  | _, _ => []

section ToChannel

variable {chan : Channel}

theorem channelListCheck_chats (hw : w.Online) (hP : w.Apart client P) (hs : w.Author client s)
    (hch : w.chans.heap ch = some chan) {list : Channel → List ListElem}
    {put : List ListElem → Channel → Channel} (hput : ∀ l c, (put l c).unlisted = c.unlisted) :
    (channelListCheck ch list put client).wp calmWp (fun a w' => a = w.onList (list chan) s ∧
      Chats P {ch} [] w w' ∧ (a = false → Says P [] w w')) w := by
  have hreason : (listsCheckReason (list chan) client).wp quietWp
      (fun a w' => a = listsMatch (list chan) (w.maskCloaked s) s.mask ∧ Says P [] w w') w := by
    unfold listsCheckReason
    by_cases hempty : (list chan).isEmpty = true
    · rw [if_pos hempty]
      rw [List.isEmpty_iff] at hempty
      rw [hempty]
      exact ⟨rfl, .nothing P w⟩
    · rw [if_neg hempty, wp_bind]
      refine wp_mono ?_ (clientMaskCloaked_utters hw hP hs.cell)
      rintro _ w₁ ⟨rfl, hsaid, -⟩
      obtain ⟨host, hs₁⟩ := hsaid.heap_some hs.cell
      simp only [clientMask, wp_bind, wp_deref, onClient_of_some hs₁, wp_pure]
      exact ⟨rfl, hsaid⟩
  simp only [channelListCheck, wp_msg, wp_derefChan, onChannel_of_some hch]
  refine wp_mono ?_ hreason
  rintro _ w₁ ⟨rfl, hsaid⟩
  unfold World.onList
  cases listsMatch (list chan) (w.maskCloaked s) s.mask with
  | none => exact ⟨rfl, hsaid.chats _, fun _ => hsaid⟩
  | some e =>
    have hch₁ : w₁.chans.heap ch = some chan := by rw [hsaid.chans, hch]
    simp only [wp_bind, wp_editChannel, onChannel_of_some hch₁, wp_pure]
    exact ⟨rfl, (hsaid.chats {ch}).put hch₁ (hput _ _), fun h => by cases h⟩

theorem wp_channelUserHasAnyMode {e : Cl2Chan} (he : w.getCl2Chan ch client = some e) (ms : Str)
    {Q : Bool → World → Prop} :
    (channelUserHasAnyMode ch client ms).wp quietWp Q w ↔ Q (ms.any e.modes.contains) w := by
  simp only [channelUserHasAnyMode, channelUserModes, wp_bind, wp_getWorld, he, wp_pure]

section

variable (hw : w.Online) (hP : w.Apart client P) (hs : w.Author client s)
  (hch : w.chans.heap ch = some chan)
include hw hP hs hch

theorem checkExcepts_chats : (checkExcepts ch client).wp calmWp
      (fun a w' => a = w.onList chan.listExcepts s ∧ Chats P {ch} [] w w' ∧
        (a = false → Says P [] w w')) w :=
  channelListCheck_chats hw hP hs hch fun _ _ => rfl

theorem checkBans_chats : (checkBans ch client).wp calmWp
      (fun a w' => a = w.onList chan.listBans s ∧ Chats P {ch} [] w w' ∧
        (a = false → Says P [] w w')) w :=
  channelListCheck_chats hw hP hs hch fun _ _ => rfl

theorem canSendToChannel_chats :
    (canSendToChannel ch client).wp calmWp
      (fun a w' => a = w.maySend client s ch chan ∧ Chats P {ch} [] w w') w := by
  have hnothing : Chats P {ch} [] w w := (Says.nothing P w).chats _
  -- Everybody but the privileged is looked up on both lists.
  have hlists : ((do
      if chan.hasMode 'm' then return false
      if ← checkExcepts ch client then return true
      return !(← checkBans ch client)) : Basic Bool).wp calmWp (fun a w' =>
        a = (!chan.hasMode 'm' && (w.onList chan.listExcepts s || !w.onList chan.listBans s)) ∧
          Chats P {ch} [] w w') w := by
    cases hm : chan.hasMode 'm' with
    | true => exact ⟨rfl, hnothing⟩
    | false =>
      simp only [Bool.false_eq_true, if_false, wp_bind, Bool.not_false, Bool.true_and]
      refine wp_mono ?_ (checkExcepts_chats hw hP hs hch)
      rintro a w₁ ⟨rfl, hchats, hsaid⟩
      cases hexcept : w.onList chan.listExcepts s with
      | true => exact ⟨rfl, hchats⟩
      | false =>
        have hsaid := hsaid hexcept
        obtain ⟨host, hs₁, hnames⟩ := hsaid.kept.author hs
        have hmask : w₁.maskCloaked { s with cloaked := host } = w.maskCloaked s :=
          congrFun hnames .toUser
        have hch₁ : w₁.chans.heap ch = some chan := by rw [hsaid.chans, hch]
        simp only [Bool.false_eq_true, if_false, wp_bind, Bool.false_or]
        refine wp_mono ?_ (checkBans_chats (hsaid.kept.online hw) (hsaid.kept.apart hw hP) hs₁ hch₁)
        rintro a w₂ ⟨rfl, hchats₂, -⟩
        refine ⟨?_, hchats.after hchats₂⟩
        unfold World.onList
        rw [hmask]
        rfl
  have hother : w.thisServer ≠ client := fun h => hs.other h.symm
  have hrest (privileged : Bool)
      (hprivileged : privileged =
        (w.getCl2Chan ch client).any (fun e => "vhoaq".toList.any e.modes.contains)) : ((do
      let chan ← derefChan ch
      if chan.hasMode 'n' ∧ !w.channelIsMemberOf ch client then return false
      let s ← deref client
      if chan.hasMode 'M' ∧ !s.hasMode 'R' ∧ !s.hasMode 'o' then return false
      if privileged then return true
      if chan.hasMode 'm' then return false
      if ← checkExcepts ch client then return true
      return !(← checkBans ch client)) : Basic Bool).wp calmWp
        (fun a w' => a = w.maySend client s ch chan ∧ Chats P {ch} [] w w') w := by
    simp only [wp_msg, wp_derefChan, onChannel_of_some hch]
    unfold World.maySend World.channelIsMemberOf
    by_cases hn : chan.hasMode 'n' = true ∧ (!(w.getCl2Chan ch client).isSome) = true
    · rw [if_pos hn]
      refine ⟨?_, hnothing⟩
      simp [hn.1, Option.not_isSome_iff_eq_none.mp (by simpa using hn.2)]
    rw [if_neg hn, wp_bind, wp_ofLeave, wp_ofMsg, wp_deref, onClient_of_some hs.cell]
    have hn' : (!(chan.hasMode 'n' && (w.getCl2Chan ch client).isNone)) = true := by
      revert hn
      cases chan.hasMode 'n' <;> cases w.getCl2Chan ch client <;> simp
    by_cases hM : chan.hasMode 'M' = true ∧ (!s.hasMode 'R') = true ∧ (!s.hasMode 'o') = true
    · rw [if_pos hM]
      refine ⟨?_, hnothing⟩
      have hM' : (!(chan.hasMode 'M' && !s.hasMode 'R' && !s.hasMode 'o')) = false := by
        rw [hM.1, hM.2.1, hM.2.2]
        rfl
      rw [hM', Bool.and_false, Bool.false_and]
    rw [if_neg hM]
    have hM' : (!(chan.hasMode 'M' && !s.hasMode 'R' && !s.hasMode 'o')) = true := by
      revert hM
      cases chan.hasMode 'M' <;> cases s.hasMode 'R' <;> cases s.hasMode 'o' <;> decide
    rw [hn', hM', ← hprivileged]
    cases privileged with
    | true => exact ⟨rfl, hnothing⟩
    | false => exact hlists
  unfold canSendToChannel
  simp only [wp_msg, wp_getWorld, hother, if_false]
  cases he : w.getCl2Chan ch client with
  | none =>
    rw [if_neg (by simp [World.channelIsMemberOf, he]), wp_bind, wp_pure]
    exact hrest false (by rw [he]; rfl)
  | some e =>
    rw [if_pos (by simp [World.channelIsMemberOf, he]), wp_bind, wp_ofLeave, wp_ofMsg,
      wp_channelUserHasAnyMode he]
    exact hrest _ (by rw [he]; rfl)

end

theorem head_format {x : Char} (hx : x ≠ '%') (fmt : Str) (args : List Str) :
    (format (x :: fmt) args).head? = some x := by
  rw [format]
  · rfl
  all_goals
    intro cs h
    exact absurd h hx

/-- What a connection is sent, if it is open and has this mark. -/
def World.markedLine (w : World) (p : Client) (text : Str) (i : ConnId) (flag : Option Mark) :
    Option (ConnId × Str) :=
  if (w.conns i).sock.isNone then none else flag.map fun k => (i, serverText (w.nameOn p k) text)

section

variable (hw : w.Online) (hP : w.Apart client P) (hp : w.heap pfx = some p) {text : Str}
  (htext : ∀ i k, P (i, serverText (w.nameOn p k) text))
include hw hP hp htext

/-- One turn of the loop over the marked connections. -/
theorem sendMarked_utters (i : ConnId) : (sendMarked pfx (text.take 999) i).wp quietWp (fun _ w' =>
      Says P (w.markedLine p text i (w.conns i).flag).toList w w' ∧
      ∀ j, (w'.conns j).flag = (w.conns j).flag) w := by
  unfold sendMarked World.markedLine
  rw [wp_bind, wp_getWorld]
  by_cases hclosed : (w.conns i).sock.isNone = true
  · rw [if_pos hclosed, if_pos hclosed]
    exact ⟨.nothing P w, fun _ => rfl⟩
  have hopen : (w.conns i).sock ≠ none := by simpa using hclosed
  rw [if_neg hclosed, if_neg hclosed]
  cases (w.conns i).flag with
  | none => exact ⟨.nothing P w, fun _ => rfl⟩
  | some mark =>
    cases mark with
    | toServer =>
      simp only [wp_bind, wp_clientID, onClient_of_some hp]
      refine wp_mono ?_ (connWriteStr_utters hw hopen _)
      rintro _ w' ⟨-, ⟨hdiscreet, hsent⟩, hflags⟩
      exact ⟨.one hdiscreet hsent (htext i .toServer), hflags⟩
    | toUser =>
      simp only [wp_bind]
      refine wp_mono ?_ (clientMaskCloaked_utters hw hP hp)
      rintro _ w₁ ⟨rfl, hsaid, hflags₁⟩
      have hopen₁ : (w₁.conns i).sock ≠ none := by
        rw [(hsaid.link i).sock]
        exact hopen
      rw [wp_bind]
      refine wp_mono ?_ (connWriteStr_utters (hsaid.kept.online hw) hopen₁ _)
      rintro _ w' ⟨-, ⟨hdiscreet, hsent⟩, hflags⟩
      exact ⟨hsaid.after (.one hdiscreet hsent (htext i .toUser)),
        fun j => (hflags j).trans (hflags₁ j)⟩

/-- The loop writes to the open connections of the list that are marked. -/
theorem sendMarkedLoop_utters (l : List ConnId) :
    (Prog.forEach (sendMarked pfx (text.take 999)) l).wp quietWp (fun _ w' =>
      Says P (l.filterMap fun i => w.markedLine p text i (w.conns i).flag) w w') w := by
  induction l generalizing w p with
  | nil => exact .nothing P w
  | cons i l ih =>
    simp only [Prog.forEach, wp_bind]
    refine wp_mono ?_ (sendMarked_utters hw hP hp htext i)
    rintro _ w₁ ⟨hsaid, hflags⟩
    obtain ⟨host, hp₁, hnames⟩ := hsaid.kept.names hp
    rw [← hnames] at htext
    refine wp_mono (fun _ w' hrest => ?_)
      (ih (hsaid.kept.online hw) (hsaid.kept.apart hw hP) hp₁ htext)
    have hsame (j : ConnId) : w₁.markedLine { p with cloaked := host } text j (w₁.conns j).flag =
        w.markedLine p text j (w.conns j).flag := by
      simp only [World.markedLine, (hsaid.link j).sock, hflags, hnames]
    have hall := hsaid.trans hrest
    simp only [hsame] at hall
    cases hline : w.markedLine p text i (w.conns i).flag <;> simpa [hline] using hall

/-- A message to a channel goes to the connections of the members the marking loop selects. -/
theorem ircWriteStrChannelPrefix_passes (source : ClientRef) (ch : ChanRef) :
    (ircWriteStrChannelPrefix source ch pfx true text).wp quietWp (fun _ w' =>
      Says P ((w.markedFor source ch).map fun x => (x.1, serverText (w.nameOn p x.2) text)) w w')
        w := by
  unfold ircWriteStrChannelPrefix
  simp only [wp_bind]
  refine wp_mono (fun _ w₁ hclear => ?_) (connClearFlags_quiet w)
  have hmembers : w₁.membersOf ch = w.membersOf ch := by
    simp only [World.membersOf, hclear.quiet.chans]
  simp only [wp_bind, wp_getWorld, hmembers]
  refine wp_mono (fun _ w₂ hmarked => ?_)
    (markMembers_quiet (w.membersOf ch) (fun _ => mem_membersOf hw.healthy) hclear)
  have hmarks : Says P [] w w₂ :=
    .silent (.of_heap hw.healthy hmarked.quiet hmarked.heap) (by rw [hmarked.sent, List.append_nil])
      (by simp)
  obtain ⟨host, hp₂, hnames⟩ := hmarks.kept.names hp
  rw [← hnames] at htext
  rw [sendMarkedConnections, wp_bind, wp_getWorld]
  refine wp_mono (fun _ w₃ hsaid => ?_)
    (sendMarkedLoop_utters (hmarks.kept.online hw) (hmarks.kept.apart hw hP) hp₂ htext _)
  have hall := hmarks.after hsaid
  have hlines : ((List.range w₂.poolSize).filterMap fun i =>
      w₂.markedLine { p with cloaked := host } text i (w₂.conns i).flag) =
      (w.markedFor source ch).map fun x => (x.1, serverText (w.nameOn p x.2) text) := by
    rw [World.markedFor, List.map_filterMap, hmarked.quiet.poolSize]
    refine List.filterMap_congr fun i hi => ?_
    have hflag : setMarks (fun i => if i < w.poolSize then none else (w.conns i).flag)
        (w.marks source true (w.membersOf ch)) i =
          setMarks (fun _ => none) (w.marks source true (w.membersOf ch)) i :=
      setMarks_congr (if_pos (List.mem_range.mp hi))
    simp only [World.markedLine, (hmarked.quiet.link i).sock, hmarked.flags, hflag, hnames]
    split <;> simp [Function.comp_def]
  rwa [hlines] at hall

end

theorem channelWrite_chats (hw : w.Online) (hP : w.Apart client P) (hs : w.Author client s)
    (hphrases : Phrases (w.nameOn s) command message P) (hch : w.chans.heap ch = some chan)
    (sendErrors : Bool) :
    (channelWrite ch client client command sendErrors message).wp calmWp (fun ok w' => ok = true ∧
      Chats P {ch} ((w.channelCopies client ch).map (Copy.line command message)) w w') w := by
  unfold channelWrite
  rw [wp_bind]
  refine wp_mono ?_ (canSendToChannel_chats hw hP hs hch)
  rintro _ w₁ ⟨rfl, hchats⟩
  have hw₁ := hchats.online hw
  have hP₁ := hchats.apart hw hP
  obtain ⟨host, hs₁, hnames⟩ := hchats.author hs
  -- Only the lists of the channel may have changed.
  obtain ⟨chan₁, hch₁, hsame⟩ : ∃ c, w₁.chans.heap ch = some c ∧ c.unlisted = chan.unlisted := by
    have hmap := hchats.channel ch
    rw [hch, Option.map_some, Option.map_eq_some_iff] at hmap
    exact hmap
  simp only [World.channelCopies, hs.cell, hch]
  cases hmay : w.maySend client s ch chan with
  | false =>
    cases sendErrors with
    | false => exact ⟨rfl, hchats⟩
    | true =>
      have hhead : (format
        (if chan₁.hasMode 'M' then errNeedreggednickMsg else errCannotsendtochanMsg)
          [s.nameOrStar, chan₁.name]).head? = some '4' := by
        by_cases hM : chan₁.hasMode 'M' = true
        · have hcons : errNeedreggednickMsg = '4' :: errNeedreggednickMsg.tail := by
            decide +kernel
          rw [if_pos hM, hcons]
          exact head_format (by decide) _ _
        · rw [if_neg hM]
          rfl
      simp only [Bool.not_false, if_true, Bool.not_true, Bool.false_eq_true, if_false, wp_msg,
        wp_derefChan, onChannel_of_some hch₁, wp_clientID, onClient_of_some hs₁.cell]
      refine wp_mono ?_ (ircWriteErrClient_silent hw₁ hP₁ hs₁ (.inr hhead))
      rintro _ w₂ ⟨rfl, hsaid⟩
      exact ⟨rfl, hchats.after (hsaid.chats _)⟩
  | true =>
    simp only [Bool.not_true, Bool.false_eq_true, if_false, wp_msg, channelName]
    refine wp_mono (fun _ w₂ hidle => ?_) (updateIdle_silent P hw₁ hs₁.cell)
    have hchats₂ := hchats.after (hidle.chats _)
    have hch₂ : w₂.chans.heap ch = some chan₁ := by rw [hidle.chans, hch₁]
    obtain ⟨host₂, hs₂, hnames₂⟩ := hchats₂.author hs
    rw [← hnames₂] at hphrases
    have htext (i : ConnId) (k : Mark) := hphrases i k chan₁.name
    simp only [Copy.line] at htext
    simp only [wp_msg, wp_derefChan, onChannel_of_some hch₂, wp_pure]
    refine wp_mono (fun _ w₃ hsaid => ?_) (ircWriteStrChannelPrefix_passes
      (hchats₂.online hw) (hchats₂.apart hw hP) hs₂.cell htext client ch)
    refine ⟨rfl, ?_⟩
    have hall := hchats₂.after (hsaid.chats {ch})
    have hname : chan₁.unlisted.name = chan.unlisted.name := by rw [hsame]
    change chan₁.name = chan.name at hname
    rw [hchats₂.toKept.markedFor, hnames₂, hname] at hall
    simpa [Function.comp_def, Copy.line] using hall

end ToChannel

/-! ## Messages to masks -/

/-- Is this a mask that messages may be sent to: is there a dot, and no wildcard behind the
last one? -/
def maskValid (target : Str) : Bool :=
  target.contains '.' &&
    !(target.reverse.takeWhile (· != '.')).reverse.any (fun c => c == '*' || c == '?')

/-- Is this one of the users a mask describes? -/
def World.fitsMask (w : World) (target : Str) (c : Client) : Bool :=
  c.type = .user && matchCaseInsensitive target.tail
    (if target.head? = some '#' then c.host else w.serverOf c)

/-- The copy of a message to a mask for one of the clients on the list. -/
def World.maskCopy (w : World) (s : Client) (target : Str) (r : ClientRef) : Option Copy := do
  let c ← w.heap r
  if w.fitsMask target c then
    let i ← w.route r
    some ⟨i, w.nameFor r s, c.nameOrStar⟩
  else none

/-- The copies of a message to a mask. -/
def World.maskCopies (w : World) (source : ClientRef) (target : Str) : List Copy :=
  match w.heap source with
  | some s =>
    if s.hasMode 'o' && maskValid target then w.order.filterMap (w.maskCopy s target) else []
  | none => []

section ToMask

/-- A walk that writes to clients it visits. -/
theorem whileClients_utters {visit : ClientRef → Msg Bool}
    {line : ClientRef → Option (ConnId × Str)}
    (hvisit : ∀ r ∈ w.order, ∀ w₁, Kept w w₁ →
      (visit r).wp quietWp (fun ok w₂ => ok = true ∧ Says P (line r).toList w₁ w₂) w₁)
    (l : List ClientRef) (hl : ∀ r ∈ l, r ∈ w.order) (hs : Says P L w w') :
    (whileClients visit l).wp quietWp
      (fun ok w'' => ok = true ∧ Says P (L ++ l.filterMap line) w w'') w' := by
  induction l generalizing w' L with
  | nil => simpa [whileClients] using hs
  | cons r rest ih =>
    have hr := hl r (.head _)
    have hlisted {w₁ : World} {L₁ : List (ConnId × Str)} (hs₁ : Says P L₁ w w₁) :
        w₁.order.contains r = true := by
      rw [hs₁.order]
      simpa using hr
    simp only [whileClients, wp_bind, wp_getWorld, hlisted hs, if_true]
    refine wp_mono ?_ (hvisit r hr w' hs.kept)
    rintro _ w₁ ⟨rfl, hs₁⟩
    have hall := hs.trans hs₁
    simp only [Bool.not_true, Bool.false_eq_true, if_false, wp_bind, wp_getWorld, hlisted hall,
      if_true]
    refine wp_mono ?_ (ih (fun q hq => hl q (.tail r hq)) hall)
    rintro ok w₂ ⟨hok, hrest⟩
    refine ⟨hok, ?_⟩
    cases hline : line r <;> simpa [hline] using hrest

variable (hw : w.Online) (hP : w.Apart client P) (hs : w.Author client s)
  (hphrases : Phrases (w.nameOn s) command message P)
include hw hP hs hphrases

theorem sendIfMatch_utters (hr : r ∈ w.order) (hc : w.heap r = some c)
    {test : Client → Msg Bool} {b : Bool}
    (htest : (test c).wp quietWp (fun a w' => w' = w ∧ a = b) w) :
    (sendIfMatch client command message test r).wp quietWp (fun ok w' => ok = true ∧
      Says P ((if c.type = .user ∧ b = true then (w.route r).map fun i =>
        Copy.line command message ⟨i, w.nameFor r s, c.nameOrStar⟩ else none).toList) w w') w := by
  simp only [sendIfMatch, wp_bind, wp_deref, onClient_of_some hc]
  by_cases huser : c.type = .user
  swap
  · rw [if_pos huser, if_neg fun h => huser h.1]
    exact ⟨rfl, .nothing P w⟩
  obtain ⟨i, hroute, hopen⟩ := hw.routed r hr c hc (.inl huser)
  rw [if_neg (not_not.mpr huser), wp_bind]
  refine wp_mono ?_ htest
  rintro _ w' ⟨hsame, rfl⟩
  rw [hsame]
  rename_i b
  cases b with
  | false => exact ⟨rfl, by simpa using Says.nothing P w⟩
  | true =>
    rw [if_neg (show ¬(!true) = true by decide), if_pos ⟨huser, rfl⟩, hroute, wp_bind, wp_clientID,
      onClient_of_some hc]
    exact ircWriteStrClientPrefix_passes hw hP hroute hopen hs.cell fun k => hphrases i k _

theorem sendMessageMask_utters (sendErrors : Bool) (target : Str) :
    (sendMessageMask client command target message sendErrors).wp quietWp (fun ok w' => ok = true ∧
      Says P ((w.maskCopies client target).map (Copy.line command message)) w w') w := by
  simp only [World.maskCopies, hs.cell]
  -- Nobody gets a message that is refused.
  have hrefused (hno : ¬(s.hasMode 'o' && maskValid target) = true) {text : Msg Str}
      (htext : text.wp quietWp (fun t w' => w' = w ∧ t.head? = some '4') w) :
      ((do
        if !sendErrors then return true
        ircWriteErrClient client (← text)) : Msg Bool).wp quietWp (fun ok w' => ok = true ∧
          Says P (List.map (Copy.line command message)
            (if s.hasMode 'o' && maskValid target then w.order.filterMap (w.maskCopy s target)
            else [])) w w') w := by
    rw [if_neg hno]
    cases sendErrors with
    | false => exact ⟨rfl, .nothing P w⟩
    | true =>
      simp only [Bool.not_true, Bool.false_eq_true, if_false, wp_bind]
      refine wp_mono ?_ htext
      rintro t w' ⟨hsame, ht⟩
      rw [hsame]
      exact ircWriteErrClient_silent hw hP hs (.inr ht)
  unfold sendMessageMask
  rw [wp_bind, wp_clientHasMode, onClient_of_some hs.cell]
  by_cases ho : s.hasMode 'o' = true
  swap
  · rw [if_pos (by simpa using ho)]
    have htext : (do return format errNoprivilegesMsg [← clientID client] : Msg Str).wp quietWp
        (fun t w' => w' = w ∧ t.head? = some '4') w := by
      simp only [wp_bind, wp_clientID, onClient_of_some hs.cell, wp_pure]
      exact ⟨trivial, rfl⟩
    simpa only [bind_assoc, pure_bind] using hrefused (by simp [ho]) htext
  rw [if_neg (by simpa using ho)]
  have hsplit : maskValid target = true ↔ ¬((!target.contains '.') = true ∨
      ((target.reverse.takeWhile (· != '.')).reverse.any fun c => c == '*' || c == '?') =
        true) := by
    unfold maskValid
    generalize ((target.reverse.takeWhile (· != '.')).reverse.any fun c =>
      c == '*' || c == '?') = wild
    cases target.contains '.' <;> cases wild <;> decide
  by_cases hvalid : maskValid target = true
  swap
  · rw [if_pos (not_not.mp fun h => hvalid (hsplit.mpr h))]
    have htext : (pure (format errWildtoplevelMsg [target]) : Msg Str).wp quietWp
        (fun t w' => w' = w ∧ t.head? = some '4') w := ⟨rfl, rfl⟩
    simpa only [pure_bind] using hrefused (by simp [hvalid]) htext
  have hallowed : (s.hasMode 'o' && maskValid target) = true := by rw [ho, hvalid]; rfl
  rw [if_neg (hsplit.mp hvalid), wp_bind, wp_getWorld, if_pos hallowed]
  -- Every user on the list is tested in the state the walk has come to.
  have hwalk {test : Client → Msg Bool} (htest : ∀ r c w₁, w₁.heap r = some c → Kept w w₁ →
      (test c).wp quietWp (fun a w' => w' = w₁ ∧ a = matchCaseInsensitive target.tail
        (if target.head? = some '#' then c.host else w₁.serverOf c)) w₁) :
      (whileClients (sendIfMatch client command message test) w.order).wp quietWp (fun ok w' =>
        ok = true ∧ Says P ((w.order.filterMap (w.maskCopy s target)).map
          (Copy.line command message)) w w') w := by
    rw [List.map_filterMap]
    refine whileClients_utters (fun r hr w₁ hkept => ?_) w.order (fun _ hr => hr) (.nothing P w)
    obtain ⟨c, hc⟩ := hw.healthy.listed r hr
    obtain ⟨host, hc₁⟩ := hkept.heap_some hc
    obtain ⟨_, hs₁, hnames⟩ := hkept.author hs
    rw [← hnames] at hphrases
    refine wp_mono ?_ (sendIfMatch_utters (hkept.online hw) (hkept.apart hw hP) hs₁ hphrases
      (by rw [hkept.order]; exact hr) hc₁ (htest r _ w₁ hc₁ hkept))
    rintro ok w₂ ⟨hok, hsaid⟩
    refine ⟨hok, ?_⟩
    have hcopy : (w.maskCopy s target r).map (Copy.line command message) =
        if c.type = .user ∧ matchCaseInsensitive target.tail
            (if target.head? = some '#' then c.host else w₁.serverOf c) = true then
          (w₁.route r).map fun i => Copy.line command message ⟨i, w.nameFor r s, c.nameOrStar⟩
        else none := by
      simp only [World.maskCopy, hc, World.fitsMask, hkept.serverOf, hkept.toPlacid.route,
        Bool.and_eq_true, decide_eq_true_eq, Option.bind_eq_bind, Option.bind_some]
      split_ifs <;> cases w.route r <;> rfl
    rw [hcopy]
    rw [hkept.nameFor hs.cell hs₁.cell] at hsaid
    exact hsaid
  by_cases hhash : target.head? = some '#'
  · rw [if_pos hhash]
    refine hwalk fun r c w₁ _ _ => ?_
    rw [if_pos hhash]
    exact ⟨rfl, rfl⟩
  · rw [if_neg hhash]
    refine hwalk fun r c w₁ hc hkept => ?_
    obtain ⟨i, hi⟩ := (hkept.online hw).healthy.introducer r c hc
    rw [if_neg hhash]
    simp only [wp_bind, wp_clientID, onClient_of_some hi, wp_pure, World.serverOf, hi,
      Option.map_some,
      Option.getD_some]
    exact ⟨trivial, trivial⟩

end ToMask

end Ngircd
