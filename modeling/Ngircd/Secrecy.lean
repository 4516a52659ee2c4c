import Ngircd.Alongside

/-!
# Who is in a secret channel

A user who is not in a channel with mode `s`, and is no IRC operator, cannot tell from the
answers to NAMES, LIST, WHO and WHOIS who is in it: with other members the answers are
the same.  The two runs may end differently where a write fails, but then the user has
lost the connection, and with it the rest of the answer.
-/

namespace Ngircd

open Lib

variable {next next' : ClientRef → Query Unit}

section

variable {C ch : ChanRef} {u r : ClientRef} {i : ConnId} {l : List Cl2Chan} {w v : World}

/-! ## The one who asks -/

/-- A user who has a connection, is no operator and is outside of a secret channel,
whose members are those in the table of the state or those in `l`. -/
structure Asks (C : ChanRef) (u : ClientRef) (i : ConnId) (l : List Cl2Chan) (w : World) : Prop
    extends Attached w where
  user : ∃ c, w.heap u = some c ∧ c.type = .user ∧ c.connId = some i ∧ c.hasMode 'o' = false
  secret : ∃ c, w.chans.heap C = some c ∧ c.hasMode 's' = true
  others : w.chans.cl2chan.filter (·.channel ≠ C) = l.filter (·.channel ≠ C)
  outside : ∀ e ∈ w.chans.cl2chan, e.channel = C → e.client ≠ u
  outside' : ∀ e ∈ l, e.channel = C → e.client ≠ u

theorem Quiet.asks (h : Quiet w v) (hw : Asks C u i l w) : Asks C u i l v where
  toAttached := h.attached hw.toAttached
  user := by
    obtain ⟨c, hc, htype, hi, hoper⟩ := hw.user
    obtain ⟨host, hc'⟩ := h.heap_some hc
    exact ⟨_, hc', htype, hi, hoper⟩
  secret := by
    rw [h.chans]
    exact hw.secret
  others := by
    rw [h.chans]
    exact hw.others
  outside := by
    rw [h.chans]
    exact hw.outside
  outside' := hw.outside'

namespace Asks

variable (h : Asks C u i l w)
include h

/-- What is asked about other channels is asked about the same entries. -/
theorem filter_eq {p : Cl2Chan → Bool} (hp : ∀ e, p e = true → e.channel ≠ C) :
    l.filter p = w.chans.cl2chan.filter p := by
  have hsplit (es : List Cl2Chan) : es.filter p = (es.filter (·.channel ≠ C)).filter p := by
    rw [List.filter_filter]
    refine List.filter_congr fun e _ => ?_
    cases he : p e with
    | false => rfl
    | true => simpa using hp e he
  rw [hsplit l, ← h.others, ← hsplit]

theorem membersOf_eq (hne : ch ≠ C) : (w.setMembers l).membersOf ch = w.membersOf ch := by
  have hfilter := h.filter_eq (p := fun e => decide (e.channel = ch)) fun e he =>
    (of_decide_eq_true he).trans_ne hne
  exact congrArg (List.map (·.client)) hfilter

theorem getCl2Chan_eq (hne : ch ≠ C) (r : ClientRef) :
    (w.setMembers l).getCl2Chan ch r = w.getCl2Chan ch r := by
  have hfilter := h.filter_eq (p := fun e => e.isFor ch r) fun e he => by
    have hch : e.channel = ch ∧ e.client = r := by simpa [Cl2Chan.isFor] using he
    exact hch.1.trans_ne hne
  have hfind (es : List Cl2Chan) : es.find? (·.isFor ch r) = (es.filter (·.isFor ch r)).head? :=
    (List.head?_filter ..).symm
  unfold World.getCl2Chan
  rw [hfind, hfind]
  exact congrArg List.head? hfilter

theorem isMemberOf_eq (hne : ch ≠ C) (r : ClientRef) :
    (w.setMembers l).channelIsMemberOf ch r = w.channelIsMemberOf ch r := by
  unfold World.channelIsMemberOf
  rw [h.getCl2Chan_eq hne]

theorem not_isMemberOf : w.channelIsMemberOf C u = false := by
  have hnone : w.getCl2Chan C u = none := by
    refine List.find?_eq_none.mpr fun e he hfor => ?_
    have hboth : e.channel = C ∧ e.client = u := by simpa [Cl2Chan.isFor] using hfor
    exact h.outside e he hboth.1 hboth.2
  unfold World.channelIsMemberOf
  rw [hnone]
  rfl

theorem not_isMemberOf' : (w.setMembers l).channelIsMemberOf C u = false := by
  have hnone : (w.setMembers l).getCl2Chan C u = none := by
    refine List.find?_eq_none.mpr fun e he hfor => ?_
    have hboth : e.channel = C ∧ e.client = u := by simpa [Cl2Chan.isFor] using hfor
    exact h.outside' e he hboth.1 hboth.2
  unfold World.channelIsMemberOf
  rw [hnone]
  rfl

/-- Whether the user is in a channel. -/
theorem isMemberOf_user (ch : ChanRef) :
    (w.setMembers l).channelIsMemberOf ch u = w.channelIsMemberOf ch u := by
  by_cases hch : ch = C
  · rw [hch, h.not_isMemberOf, h.not_isMemberOf']
  · exact h.isMemberOf_eq hch u

/-- The channels of a client, but for the secret one. -/
theorem channelsOf_filter (r : ClientRef) :
    ((w.setMembers l).channelsOf r).filter (· ≠ C) = (w.channelsOf r).filter (· ≠ C) := by
  have hfilter := h.filter_eq (p := fun e => decide (e.channel ≠ C) && decide (e.client = r))
    fun e he => by
      have hboth : e.channel ≠ C ∧ e.client = r := by simpa using he
      exact hboth.1
  have hmap (es : List Cl2Chan) :
      ((es.filter fun e => e.client = r).map (·.channel)).filter (· ≠ C) =
        (es.filter fun e => decide (e.channel ≠ C) && decide (e.client = r)).map (·.channel) := by
    rw [List.filter_map, List.filter_filter]
    rfl
  unfold World.channelsOf
  rw [hmap, hmap]
  exact congrArg (List.map (·.channel)) hfilter

/-- The channels of the user. -/
theorem channelsOf_user : (w.setMembers l).channelsOf u = w.channelsOf u := by
  have hall (es : List Cl2Chan) (hout : ∀ e ∈ es, e.channel = C → e.client ≠ u) :
      ((es.filter fun e => e.client = u).map (·.channel)).filter (· ≠ C) =
        (es.filter fun e => e.client = u).map (·.channel) := by
    refine List.filter_eq_self.mpr fun c hc => ?_
    obtain ⟨e, he, rfl⟩ := List.mem_map.mp hc
    have hmem := List.mem_filter.mp he
    have hclient : e.client = u := by simpa using hmem.2
    simpa using fun hch => hout e hmem.1 hch hclient
  calc (w.setMembers l).channelsOf u
      = ((w.setMembers l).channelsOf u).filter (· ≠ C) := (hall l h.outside').symm
    _ = (w.channelsOf u).filter (· ≠ C) := h.channelsOf_filter u
    _ = w.channelsOf u := hall _ h.outside

theorem channelsOf_user_ne : ∀ ch ∈ w.channelsOf u, ch ≠ C := by
  intro ch hch
  obtain ⟨e, he, rfl⟩ := List.mem_map.mp hch
  have hmem := List.mem_filter.mp he
  have hclient : e.client = u := by simpa using hmem.2
  exact fun hC => h.outside e hmem.1 hC hclient

end Asks

/-! ## Replies -/

section

variable {X : Exits}

section

variable (h : Asks C u i l w)
include h

theorem Twin.lineFor_user (pfx : ClientRef) (text : Str) :
    Twin l X w (lineFor u pfx text) (lineFor u pfx text) fun x _ => x.1 = i := by
  obtain ⟨c, hc, -, hi, -⟩ := h.user
  refine .bind (.clientNextHop u) fun hop v _ ⟨hv, hhop⟩ => ?_
  obtain rfl : u = hop := Except.ok.inj ((h.hop u c i hc hi).symm.trans hhop)
  obtain rfl := hv
  refine .bind (.deref u) fun d v' _ ⟨hv', hd⟩ => ?_
  obtain rfl : c = d := Option.mem_unique hc hd
  obtain rfl := hv'
  refine .bind (.connOf c.connId) fun j v'' _ ⟨hv'', hj⟩ => ?_
  obtain rfl : i = j := Option.mem_unique hi hj
  obtain rfl := hv''
  exact .bind (.getPrefix h.toAttached u pfx) fun _ _ _ _ => .pure _ rfl

theorem Twin.ircWriteStrClientPrefix_user (pfx : ClientRef) (text : Str) :
    Twin l (.lost i) w (ircWriteStrClientPrefix u pfx text)
      (ircWriteStrClientPrefix u pfx text) := by
  refine .bind (.lineFor_user h pfx text) fun x v _ hx => ?_
  obtain rfl : x.1 = i := hx
  exact .connWriteStr_lost x.2

theorem Twin.ircWriteStrClient_user (text : Str) :
    Twin l (.lost i) w (ircWriteStrClient u text) (ircWriteStrClient u text) :=
  .bind .thisServer fun this _ hv _ => .ircWriteStrClientPrefix_user (hv.asks h) this text

theorem Twin.ircWriteErrClient_user (text : Str) :
    Twin l (.lost i) w (ircWriteErrClient u text) (ircWriteErrClient u text) :=
  .bind (.ircSetPenalty u 2) fun _ _ hv _ => .bind .thisServer fun this _ hv' _ =>
    .ircWriteStrClientPrefix_user ((hv.trans hv').asks h) this text

theorem Twin.ircCheckListTooBig_user (count limit : Nat) (name : Str) :
    Twin l (.lost i) w (ircCheckListTooBig u count limit name)
      (ircCheckListTooBig u count limit name) := by
  unfold ircCheckListTooBig
  split_ifs
  · exact .pure _ trivial
  · exact .bind (.clientID u) fun _ _ hv _ => .bind (.ircWriteStrClient_user (hv.asks h) _)
      fun _ _ _ _ => .bind (.ircSetPenalty u 2) fun _ _ _ _ => .pure _ trivial

end

namespace QTwin

variable (h : Asks C u i l w)
include h

theorem replyPrefix_user (pfx : ClientRef) (text : Str) :
    QTwin l (.lost i) w (replyPrefix u pfx text) (replyPrefix u pfx text) := by
  refine .bind (.lift (.lineFor_user h pfx text)) fun x v _ hx => ?_
  obtain rfl : x.1 = i := hx
  exact .send x.2

theorem reply_user (text : Str) : QTwin l (.lost i) w (reply u text) (reply u text) :=
  .bind (.lift .thisServer) fun this _ hv _ => .replyPrefix_user (hv.asks h) this text

theorem replyErr_user (text : Str) : QTwin l (.lost i) w (replyErr u text) (replyErr u text) :=
  .bind (.lift (.ircSetPenalty u 2)) fun _ _ hv _ => .bind (.lift .thisServer)
    fun this _ hv' _ => .replyPrefix_user ((hv.trans hv').asks h) this text

/-- A reply that starts with the name of the user. -/
theorem named_user (text : Str → Str) :
    QTwin l (.lost i) w (do reply u (text (← clientID u))) (do reply u (text (← clientID u))) :=
  .bind (.lift (.clientID u)) fun id _ hv _ => .reply_user (hv.asks h) (text id)

theorem replyIfLong_user (limit : Nat) (start str : Str) :
    QTwin l (.lost i) w (replyIfLong u limit start str) (replyIfLong u limit start str) := by
  unfold replyIfLong
  split_ifs
  · exact .bind (.reply_user h str) fun _ _ _ _ => .pure _ trivial
  · exact .pure _ trivial

theorem replyRest_user (str : Str) : QTwin l (.lost i) w (replyRest u str) (replyRest u str) := by
  unfold replyRest
  split_ifs
  · exact .reply_user h str
  · exact .pure _ trivial

end QTwin

/-! ## NAMES -/

section

variable (h : Asks C u i l w)
include h

theorem Twin.channelUserModes (hne : ch ≠ C) (r : ClientRef) :
    Twin l X w (channelUserModes ch r) (channelUserModes ch r) := by
  refine .get ?_
  rw [h.getCl2Chan_eq hne]
  cases w.getCl2Chan ch r with
  | none => exact .fault _ _
  | some e => exact .pure _ trivial

theorem QTwin.ircSendNames (ch : ChanRef) :
    QTwin l (.lost i) w (ircSendNames u ch) (ircSendNames u ch) := by
  have hconf : (w.setMembers l).conf = w.conf := rfl
  refine .get ?_
  dsimp only
  rw [h.isMemberOf_user, hconf]
  refine .ite (fun _ => .pure _ trivial) fun _ => ?_
  refine .bind (.lift (.derefChan ch)) fun chan v hv ⟨_, hchan⟩ => ?_
  by_cases hch : ch = C
  · -- The secret channel is passed over.
    obtain ⟨c, hc, hsecret⟩ := h.secret
    obtain rfl : c = chan := Option.some.inj (hc.symm.trans (hch ▸ hchan))
    rw [hch, h.not_isMemberOf, hsecret, if_pos ⟨rfl, rfl⟩]
    exact .pure _ trivial
  refine .ite (fun _ => .pure _ trivial) fun _ => ?_
  rw [h.membersOf_eq hch]
  refine .bind (.lift (.deref u)) fun me v₁ hv₁ _ =>
    .bind (.lift (.clientID u)) fun id v₂ hv₂ _ => ?_
  have hv' := hv.trans (hv₁.trans hv₂)
  refine .bind (.replyFold fun str r _ u₁ hu₁ => ?_) fun str u₁ hu₁ _ =>
    .replyRest_user ((hv'.trans hu₁).asks h) str
  refine .bind (.lift (.clientHasMode r 'i')) fun hidden u₂ hu₂ _ => ?_
  refine .ite (fun _ => .pure _ trivial) fun _ => ?_
  have hu₂' := hv'.trans (hu₁.trans hu₂)
  refine .bind (.lift (.channelUserModes (hu₂'.asks h) hch r)) fun modes u₃ hu₃ _ =>
    .bind (.lift (.clientID r)) fun name u₄ hu₄ _ => ?_
  have hall := hu₂'.trans (hu₃.trans hu₄)
  exact .bind (.replyIfLong_user (hall.asks h) _ _ _) fun _ _ _ _ => .pure _ trivial

/-! ## WHO -/

theorem QTwin.writeWhoreply (r : ClientRef) (channelname flags : Str) :
    QTwin l (.lost i) w (writeWhoreply u r channelname flags)
      (writeWhoreply u r channelname flags) := by
  refine .bind (.lift (.deref r)) fun c v₁ hv₁ _ =>
    .bind (.lift (.clientID u)) fun id v₂ hv₂ _ => ?_
  have hv := hv₁.trans hv₂
  have hattached := hv.attached h.toAttached
  refine .bind (.lift (.clientHostnameDisplayed hattached r)) fun host v₃ hv₃ _ => ?_
  refine .bind (.lift (.clientID _)) fun server v₄ hv₄ _ =>
    .bind (.lift (.clientID r)) fun nick v₅ hv₅ _ => ?_
  exact .reply_user (((hv.trans hv₃).trans (hv₄.trans hv₅)).asks h) _

theorem QTwin.ircWhoChannel (ch : ChanRef) (onlyOps : Bool) :
    QTwin l (.lost i) w (ircWhoChannel u ch onlyOps) (ircWhoChannel u ch onlyOps) := by
  refine .get ?_
  dsimp only
  rw [h.isMemberOf_user]
  refine .bind (.lift (.deref u)) fun me v₁ hv₁ ⟨_, hme⟩ =>
    .bind (.lift (.derefChan ch)) fun chan v₂ hv₂ ⟨_, hchan⟩ => ?_
  have hv := hv₁.trans hv₂
  by_cases hch : ch = C
  · -- For the secret channel there is only the end of the list.
    obtain ⟨c, hc, -, -, hoper⟩ := h.user
    obtain rfl : c = me := Option.mem_unique hc hme
    obtain ⟨d, hd, hsecret⟩ := (hv₁.asks h).secret
    obtain rfl : d = chan := Option.some.inj (hd.symm.trans (hch ▸ hchan))
    rw [hch, h.not_isMemberOf, hoper, hsecret, if_pos ⟨rfl, rfl, rfl⟩]
    exact .named_user (hv.asks h) _
  rw [h.membersOf_eq hch]
  refine .ite (fun _ => .named_user (hv.asks h) _) fun _ => ?_
  refine .bind (.replyFold fun count r _ u₁ hu₁ => ?_) fun count u₁ hu₁ _ => ?_
  · refine .bind (.lift (.deref r)) fun c u₂ hu₂ _ => ?_
    refine .ite (fun _ => .pure _ trivial) fun _ => .ite (fun _ => .pure _ trivial) fun _ => ?_
    have hu₂' := hv.trans (hu₁.trans hu₂)
    refine .bind (.lift (.channelName ch)) fun name u₃ hu₃ _ =>
      .bind (.lift (.channelUserModes ((hu₂'.trans hu₃).asks h) hch r)) fun modes u₄ hu₄ _ => ?_
    exact .bind (.writeWhoreply (((hu₂'.trans hu₃).trans hu₄).asks h) r _ _) fun _ _ _ _ =>
      .pure _ trivial
  · have hend (v : World) (hv : Quiet w v) : QTwin l (.lost i) v
        (do reply u (format rplEndofwhoMsg [← clientID u, ← channelName ch]))
        (do reply u (format rplEndofwhoMsg [← clientID u, ← channelName ch])) :=
      .bind (.lift (.clientID u)) fun _ _ hv₁ _ => .bind (.lift (.channelName ch))
        fun _ _ hv₂ _ => .reply_user ((hv.trans (hv₁.trans hv₂)).asks h) _
    have hu₁' := hv.trans hu₁
    exact .ite (fun _ => .bind (.lift (.ircSetPenalty u 1)) fun _ u₂ hu₂ _ =>
      hend u₂ (hu₁'.trans hu₂)) fun _ => hend u₁ hu₁'

end

/-- Does a WHO mask match? -/
theorem Twin.whoMaskMatches (mask : Str) (r : ClientRef) (c : Client) :
    Twin l X w (whoMaskMatches mask r c) (whoMaskMatches mask r c) := by
  unfold Ngircd.whoMaskMatches
  refine .ite (fun _ => .pure _ trivial) fun _ => .bind (.clientID _) fun _ _ _ _ => ?_
  refine .ite (fun _ => .pure _ trivial) fun _ => .ite (fun _ => .pure _ trivial) fun _ => ?_
  exact .bind (.clientID r) fun _ _ _ _ => .pure _ trivial

section

variable (h : Asks C u i l w)
include h

/-- Whether two users share a channel. -/
theorem Asks.shares_eq (r : ClientRef) :
    (((w.setMembers l).channelsOf u).any fun ch => (w.setMembers l).channelIsMemberOf ch r) =
      (w.channelsOf u).any fun ch => w.channelIsMemberOf ch r := by
  rw [h.channelsOf_user]
  rw [Bool.eq_iff_iff, List.any_eq_true, List.any_eq_true]
  refine exists_congr fun ch => and_congr_right fun hch => ?_
  rw [h.isMemberOf_eq (h.channelsOf_user_ne ch hch)]

theorem Twin.whoVisible (r : ClientRef) (c : Client) (mask : Option Str) :
    Twin l X w (whoVisible u r c mask) (whoVisible u r c mask) := by
  unfold Ngircd.whoVisible
  refine .ite (fun _ => .pure _ trivial) fun _ => ?_
  cases mask
  on_goal 2 =>
    refine .bind (.clientID r) fun _ v hv _ => .ite (fun _ => .pure _ trivial) fun _ => ?_
    replace h := hv.asks h
  all_goals
    refine .get ?_
    rw [h.shares_eq]
    exact .pure _ trivial

theorem QTwin.ircWhoMask (mask : Option Str) (onlyOps : Bool) :
    QTwin l (.lost i) w (ircWhoMask u mask onlyOps) (ircWhoMask u mask onlyOps) := by
  refine .bind (.lift (.ircSetPenalty u 3)) fun _ v₁ hv₁ _ => ?_
  refine .bind (.replyClients fun count r v₂ hv₂ => ?_) fun _ v₂ hv₂ _ =>
    .named_user ((hv₁.trans hv₂).asks h) _
  have hv := hv₁.trans hv₂
  refine .bind (.lift (.deref r)) fun c v₃ hv₃ _ => .ite (fun _ => .pure _ trivial) fun _ => ?_
  replace h := (hv.trans hv₃).asks h
  cases mask
  on_goal 2 =>
    refine .bind (.lift (.whoMaskMatches _ r c)) fun _ v₄ hv₄ _ => ?_
    refine .ite (fun _ => .pure _ trivial) fun _ => ?_
    replace h := hv₄.asks h
  all_goals
    refine .bind (.lift (.whoVisible h r c _)) fun _ u₁ hu₁ _ => ?_
    refine .ite (fun _ => .pure _ trivial) fun _ => ?_
    refine .bind (.lift (.ircCheckListTooBig_user (hu₁.asks h) count maxRplWho "WHO"))
      fun _ u₂ hu₂ _ => .ite (fun _ => .pure _ trivial) fun _ => ?_
    exact .bind (.writeWhoreply ((hu₁.trans hu₂).asks h) r _ _) fun _ _ _ _ => .pure _ trivial

theorem QTwin.ircWho (req : Request) : QTwin l (.lost i) w (ircWho u req) (ircWho u req) := by
  refine .ite (fun _ => .ircWhoMask h none _) fun _ => .get ?_
  have hsearch : (w.setMembers l).channelSearch (req.arg 0) = w.channelSearch (req.arg 0) := rfl
  rw [hsearch]
  cases w.channelSearch (req.arg 0) with
  | some ch => exact .ircWhoChannel h ch _
  | none => exact .ircWhoMask h _ _

/-! ## WHOIS -/

theorem QTwin.whoisChannels (r : ClientRef) :
    QTwin l (.lost i) w (whoisChannels u u r) (whoisChannels u u r) := by
  refine .get (.bind (.lift (.deref u)) fun me v₁ hv₁ _ => ?_)
  refine .bind (.lift (.clientID u)) fun name v₂ hv₂ _ =>
    .bind (.lift (.clientID r)) fun nick v₃ hv₃ _ => ?_
  have hv := hv₁.trans (hv₂.trans hv₃)
  refine .bind (.replyFold_filter (h.channelsOf_filter r).symm ?_ ?_ ?_) fun str u₁ hu₁ _ =>
    .replyRest_user ((hv.trans hu₁).asks h) str
  · intro str ch v' n hch hv'
    obtain rfl : ch = C := by simpa using hch
    have h' := (hv.trans hv').asks h
    obtain ⟨c, hc, hsecret⟩ := h'.secret
    rw [Query.exec_derefChan hc, Query.exec_getWorld, if_pos ⟨hsecret, by simp [h'.not_isMemberOf]⟩]
    rfl
  · intro str ch v' n hch hv'
    obtain rfl : ch = C := by simpa using hch
    have h' := (hv.trans hv').asks h
    obtain ⟨c, hc, hsecret⟩ := h'.secret
    have hc' : (v'.setMembers l).chans.heap ch = some c := hc
    rw [Query.exec_derefChan hc', Query.exec_getWorld,
      if_pos ⟨hsecret, by simp [h'.not_isMemberOf']⟩]
    rfl
  · intro str ch v' hch hv'
    have hne : ch ≠ C := by simpa using hch
    refine .bind (.lift (.derefChan ch)) fun chan v₄ hv₄ _ => .get ?_
    have hv'' := hv.trans (hv'.trans hv₄)
    have h' := hv''.asks h
    rw [h'.isMemberOf_user]
    refine .ite (fun _ => .pure _ trivial) fun _ => .ite (fun _ => .pure _ trivial) fun _ => ?_
    refine .bind (.lift (.channelUserModes h' hne r)) fun modes v₅ hv₅ _ => ?_
    exact .bind (.replyIfLong_user ((hv''.trans hv₅).asks h) _ _ _) fun _ _ _ _ => .pure _ trivial

/-- A line of a WHOIS answer. -/
theorem QTwin.whoisLine (r : ClientRef) (msg : Str) (args : List Str) :
    QTwin l (.lost i) w (do reply u (format msg ((← clientID u) :: (← clientID r) :: args)))
      (do reply u (format msg ((← clientID u) :: (← clientID r) :: args))) :=
  .bind (.lift (.clientID u)) fun _ _ hv _ => .bind (.lift (.clientID r)) fun _ _ hv' _ =>
    .reply_user ((hv.trans hv').asks h) _

theorem QTwin.ircWhoisSendReply (r : ClientRef) :
    QTwin l (.lost i) w (ircWhoisSendReply u u r) (ircWhoisSendReply u u r) := by
  refine .bind (.lift (.deref r)) fun c v₁ hv₁ _ => ?_
  have hattached := hv₁.attached h.toAttached
  refine .bind (.lift (.clientHostnameDisplayed hattached r)) fun host v₂ hv₂ _ => ?_
  have h₂ := (hv₁.trans hv₂).asks h
  refine .bind (.whoisLine h₂ r _ _) fun _ v₃ hv₃ _ => ?_
  refine .bind (.lift (.clientID _)) fun server v₄ hv₄ _ =>
    .bind (.lift (.deref _)) fun s v₅ hv₅ _ => ?_
  have h₅ := (hv₃.trans (hv₄.trans hv₅)).asks h₂
  refine .bind (.whoisLine h₅ r _ _) fun _ v₆ hv₆ _ =>
    .bind (.lift (.clientHasMode u 'o')) fun isOper v₇ hv₇ _ => ?_
  have h₇ := (hv₆.trans hv₇).asks h₅
  refine .opt (fun _ => .whoisChannels h₇ r) fun v₈ hv₈ => ?_
  have h₈ := hv₈.asks h₇
  refine .opt (fun _ => .whoisLine h₈ r _ _) fun v₉ hv₉ => ?_
  have h₉ := hv₉.asks h₈
  refine .opt (fun _ => .whoisLine h₉ r _ _) fun v₁₀ hv₁₀ => ?_
  have h₁₀ := hv₁₀.asks h₉
  refine .opt (fun _ => .whoisLine h₁₀ r _ _) fun v₁₁ hv₁₁ => ?_
  have h₁₁ := hv₁₁.asks h₁₀
  refine .opt (fun _ => .whoisLine h₁₁ r _ _) fun v₁₂ hv₁₂ => ?_
  have h₁₂ := hv₁₂.asks h₁₁
  have hconns (v : World) : (v.setMembers l).conns = v.conns := rfl
  have hconf (v : World) : (v.setMembers l).conf = v.conf := rfl
  have hnow (v : World) : (v.setMembers l).now = v.now := rfl
  cases c.accountName
  on_goal 2 =>
    refine .bind (.whoisLine h₁₂ r _ _) fun _ v₁₃ hv₁₃ _ => ?_
    replace h₁₂ := hv₁₃.asks h₁₂
  all_goals
    refine .get ?_
    rw [hconns, hconf, hnow]
    cases hconn : c.connId with
    | none => exact .ite (fun _ => .whoisLine h₁₂ r _ _) fun _ => .pure _ trivial
    | some j =>
      refine .ite (fun _ => ?_) fun _ => ?_
      on_goal 1 =>
        refine .bind (.whoisLine h₁₂ r _ _) fun _ v₁₄ hv₁₄ _ => ?_
        refine .bind (.whoisLine (hv₁₄.asks h₁₂) r _ _) fun _ v₁₅ hv₁₅ _ => ?_
        replace h₁₂ := (hv₁₄.trans hv₁₅).asks h₁₂
      all_goals
        refine .opt (fun _ => .whoisLine h₁₂ r _ _) fun v₁₆ hv₁₆ => ?_
        exact .ite (fun _ => .whoisLine (hv₁₆.asks h₁₂) r _ _) fun _ => .pure _ trivial

theorem QTwin.whoisWildcard (query : Str) (matchCount : Nat) :
    QTwin l (.lost i) w (whoisWildcard u u query matchCount)
      (whoisWildcard u u query matchCount) := by
  refine .replyClients fun count r v hv => ?_
  have hv' := hv.asks h
  refine .bind (.lift (.ircCheckListTooBig_user hv' count maxRplWhois "WHOIS")) fun _ v₁ hv₁ _ => ?_
  refine .ite (fun _ => .pure _ trivial) fun _ => .bind (.lift (.deref r)) fun c v₂ hv₂ _ => ?_
  refine .ite (fun _ => .pure _ trivial) fun _ => .bind (.lift (.clientID r)) fun _ v₃ hv₃ _ => ?_
  refine .ite (fun _ => .pure _ trivial) fun _ => ?_
  exact .bind (.ircWhoisSendReply ((hv₁.trans (hv₂.trans hv₃)).asks hv') r) fun _ _ _ _ =>
    .pure _ trivial

/-- The error for a name that nobody has. -/
theorem QTwin.unknownNick (query : Str) :
    QTwin l (.lost i) w (do replyErr u (format errNosuchnickMsg [← clientID u, query]))
      (do replyErr u (format errNosuchnickMsg [← clientID u, query])) :=
  .bind (.lift (.clientID u)) fun _ _ hv _ => .replyErr_user (hv.asks h) _

theorem QTwin.whoisQuery (isRemote : Bool) (lastArg : Str) (st : Nat × Bool) (query : Str) :
    QTwin l (.lost i) w (whoisQuery u u isRemote lastArg st query)
      (whoisQuery u u isRemote lastArg st query) := by
  obtain ⟨matchCount, gotWildcard⟩ := st
  refine .ite (fun _ => .get ?_) fun _ => .ite (fun _ => ?_) fun _ => ?_
  · have hsearch : (w.setMembers l).clientSearch query = w.clientSearch query := rfl
    rw [hsearch]
    cases w.clientSearch query with
    | none => exact .bind (.unknownNick h query) fun _ _ _ _ => .pure _ trivial
    | some r =>
      refine .bind (.lift (.clientType r)) fun t v hv _ => .ite (fun _ => ?_) fun _ => ?_
      · exact .bind (.ircWhoisSendReply (hv.asks h) r) fun _ _ _ _ => .pure _ trivial
      · exact .bind (.unknownNick (hv.asks h) query) fun _ _ _ _ => .pure _ trivial
  · exact .bind (.unknownNick h query) fun _ _ _ _ => .pure _ trivial
  · refine .bind (.lift (.ircSetPenalty u 3)) fun _ v₁ hv₁ _ => ?_
    refine .bind (.whoisWildcard (hv₁.asks h) query matchCount) fun count v₂ hv₂ _ => ?_
    refine .ite (fun _ => ?_) fun _ => .pure _ trivial
    refine .bind (.lift (.clientID u)) fun _ v₃ hv₃ _ => ?_
    have h₃ := (hv₁.trans (hv₂.trans hv₃)).asks h
    exact .bind (.lift (.ircWriteErrClient_user h₃ _)) fun _ _ _ _ => .pure _ trivial

theorem QTwin.answerWhois (req : Request) :
    QTwin l (.lost i) w (answerWhois u u req) (answerWhois u u req) := by
  refine .bind (.lift (.deref u)) fun c v₁ hv₁ _ => ?_
  refine .bind (.replyFold fun st query _ v₂ hv₂ =>
    .whoisQuery ((hv₁.trans hv₂).asks h) _ _ st query) fun _ v₂ hv₂ _ => ?_
  exact .named_user ((hv₁.trans hv₂).asks h) _

/-! ## LIST -/

theorem QTwin.listPattern (count : Nat) (pattern : Str) :
    QTwin l (.lost i) w (listPattern u count pattern) (listPattern u count pattern) := by
  refine .get (.replyFold fun count ch _ v hv => .get ?_)
  have h' := hv.asks h
  have hconf : (v.setMembers l).conf = v.conf := rfl
  rw [h'.isMemberOf_user, hconf]
  refine .bind (.lift (.derefChan ch)) fun chan v₁ hv₁ ⟨_, hchan⟩ => ?_
  refine .ite (fun _ => .pure _ trivial) fun _ => ?_
  have h₁ := hv₁.asks h'
  refine .bind (.lift (.clientHasMode u 'o')) fun oper v₂ hv₂ ⟨_, me, hme, hoper⟩ => ?_
  have h₂ := hv₂.asks h₁
  by_cases hch : ch = C
  · obtain ⟨c, hc, hsecret⟩ := h'.secret
    obtain rfl : c = chan := Option.some.inj (hc.symm.trans (hch ▸ hchan))
    obtain ⟨d, hd, -, -, hnone⟩ := h₁.user
    obtain rfl : d = me := Option.mem_unique hd hme
    rw [hch, h'.not_isMemberOf, hoper, hnone, hsecret, if_pos ⟨rfl, rfl, rfl⟩]
    exact .pure _ trivial
  · refine .ite (fun _ => .pure _ trivial) fun _ => .ite (fun _ => ?_) fun _ => ?_
    on_goal 1 =>
      refine .bind (.lift (.ircCheckListTooBig_user h₂ count _ "LIST")) fun _ v₃ hv₃ _ => ?_
      refine .ite (fun _ => .pure _ trivial) fun _ => ?_
      replace h₂ := hv₃.asks h₂
    all_goals
      refine .bind (.lift (.clientID u)) fun _ v₃ hv₃ _ =>
        .bind (.lift (.channelName ch)) fun _ v₄ hv₄ _ => .get ?_
      have h₄ := (hv₃.trans hv₄).asks h₂
      have hcount : (v₄.setMembers l).channelMemberCount ch = v₄.channelMemberCount ch :=
        congrArg List.length (h₄.membersOf_eq hch)
      rw [hcount]
      refine .bind (.lift (.derefChan ch)) fun _ v₅ hv₅ _ => ?_
      exact .bind (.reply_user (hv₅.asks h₄) _) fun _ _ _ _ => .pure _ trivial

theorem QTwin.answerList (req : Request) :
    QTwin l (.lost i) w (answerList u req) (answerList u req) := by
  refine .bind (.lift (.clientID u)) fun _ v₀ hv₀ _ =>
    .bind (.reply_user (hv₀.asks h) _) fun _ v₁ hv₁' _ => ?_
  have hv₁ := hv₀.trans hv₁'
  refine .bind (.replyFold fun count pattern _ v₂ hv₂ => ?_) fun _ v₂ hv₂ _ =>
    .named_user ((hv₁.trans hv₂).asks h) _
  exact .bind (.listPattern ((hv₁.trans hv₂).asks h) count pattern) fun _ _ _ _ => .pure _ trivial

end

/-! ## Requests -/

/-- A name of a server, or of a client of it, stands for this server. -/
def World.Here (w : World) (name : Str) : Prop :=
  ∀ t c, (w.clientSearch name <|> w.clientSearchServer name) = some t → w.heap t = some c →
    (if c.type = .server then t else c.introducer) = w.thisServer

theorem Twin.senderOf_user (h : Asks C u i l w) (req : Request) :
    Twin l X w (senderOf req u) (senderOf req u) fun r v => v = w ∧ r = .ok u := by
  refine .bind (.clientType u) fun t v _ ⟨hv, c, hc, ht⟩ => ?_
  obtain ⟨d, hd, hdt, -⟩ := h.user
  obtain rfl : d = c := Option.mem_unique hd hc
  have hserver : t ≠ .server := by
    rw [ht, hdt]
    exact nofun
  rw [if_neg hserver]
  exact .pure _ ⟨hv, rfl⟩

theorem Twin.targetServerOf_here (req : Request) (argc : Nat)
    (hhere : argc < req.argc → w.Here (req.arg argc)) :
    Twin l X w (targetServerOf req argc u) (targetServerOf req argc u)
      fun r v => v = w ∧ ∀ t, r = .ok t → t = w.thisServer := by
  refine .get (.ite (fun _ => .pure _ ⟨rfl, fun t ht => (Except.ok.inj ht).symm⟩) fun hargc => ?_)
  have hsearch : ((w.setMembers l).clientSearch (req.arg argc) <|>
      (w.setMembers l).clientSearchServer (req.arg argc)) =
      (w.clientSearch (req.arg argc) <|> w.clientSearchServer (req.arg argc)) := rfl
  rw [hsearch]
  cases hfound : (w.clientSearch (req.arg argc) <|> w.clientSearchServer (req.arg argc)) with
  | none => exact .bind (.clientID u) fun _ _ _ ⟨hv, _⟩ => .pure _ ⟨hv, nofun⟩
  | some target =>
    refine .bind (.deref target) fun c _ _ ⟨hv, hc⟩ => .pure _ ⟨hv, fun t ht => ?_⟩
    rw [← Except.ok.inj ht]
    exact hhere (Nat.lt_of_not_le hargc) target c hfound hc

variable (h : Asks C u i l w) (req : Request)
include h req

theorem QTwin.replySender_user
    (hnext : QTwin l (.lost i) w (next u) (next' u)) :
    QTwin l (.lost i) w (replySender req u next) (replySender req u next') := by
  refine .bind (.lift (.senderOf_user h req)) fun r v _ ⟨hv, hr⟩ => ?_
  obtain rfl := hv
  rw [hr]
  exact hnext

theorem QTwin.replyTarget_here (argc : Nat) (hhere : argc < req.argc → w.Here (req.arg argc))
    (hnext : QTwin l (.lost i) w (next w.thisServer) (next' w.thisServer)) :
    QTwin l (.lost i) w (replyTarget req argc u next) (replyTarget req argc u next') := by
  refine .bind (.lift (.targetServerOf_here req argc hhere)) fun r v hv ⟨hvw, hr⟩ => ?_
  cases r with
  | error text => exact .replyErr_user (hv.asks h) text
  | ok t =>
    obtain rfl := hvw
    rw [hr t rfl]
    exact hnext

theorem QTwin.ircNames (hargc : 0 < req.argc) (hhere : 1 < req.argc → w.Here (req.arg 1)) :
    QTwin l (.lost i) w (ircNames u req) (ircNames u req) := by
  refine .replySender_user h req (.replyTarget_here h req 1 hhere ?_)
  refine .bind (.lift .thisServer) fun this v hv ⟨_, hthis⟩ => ?_
  rw [hthis, if_neg fun hne => hne rfl]
  refine .ite (fun _ => ?_) fun hnone => absurd hargc hnone
  refine .forEach fun name _ v₁ hv₁ => .get ?_
  have h₁ := (hv.trans hv₁).asks h
  have hsearch : (v₁.setMembers l).channelSearch name = v₁.channelSearch name := rfl
  rw [hsearch]
  cases v₁.channelSearch name with
  | none => exact .named_user h₁ _
  | some ch =>
    exact .bind (.ircSendNames h₁ ch) fun _ v₂ hv₂ _ => .named_user (hv₂.asks h₁) _

theorem QTwin.ircWhois (hhere : req.argc = 2 → w.Here (req.arg 0)) :
    QTwin l (.lost i) w (ircWhois u req) (ircWhois u req) := by
  refine .ite (fun _ => ?_) fun _ => .ite (fun _ => ?_) fun hmany => ?_
  · exact .bind (.lift (.clientID u)) fun _ _ hv _ => .replyErr_user (hv.asks h) _
  · exact .bind (.lift (.clientID u)) fun _ _ hv _ => .replyErr_user (hv.asks h) _
  · refine .replySender_user h req (.ite (fun htwo => ?_) fun _ => .answerWhois h req)
    have hargc : req.argc = 2 := by omega
    refine .replyTarget_here h req 0 (fun _ => hhere hargc) ?_
    refine .bind (.lift .thisServer) fun this v hv ⟨_, hthis⟩ => ?_
    rw [hthis, if_neg fun hne => hne rfl]
    exact .answerWhois (hv.asks h) req

theorem QTwin.ircList (hhere : req.argc = 2 → w.Here (req.arg 1)) :
    QTwin l (.lost i) w (ircList u req) (ircList u req) := by
  refine .replySender_user h req (.ite (fun htwo => .get ?_) fun _ => .answerList h req)
  have hsearch : (w.setMembers l).clientSearch (req.arg 1) = w.clientSearch (req.arg 1) := rfl
  have hthis : (w.setMembers l).thisServer = w.thisServer := rfl
  rw [hsearch, hthis]
  cases hfound : w.clientSearch (req.arg 1) with
  | none => exact .bind (.lift (.clientID u)) fun _ _ hv _ => .replyErr_user (hv.asks h) _
  | some target =>
    refine .bind (.lift (.clientType target)) fun t v hv ⟨_, c, hc, ht⟩ => ?_
    refine .ite (fun _ => ?_) fun hserver => ?_
    · exact .bind (.lift (.clientID u)) fun _ _ hv' _ =>
        .replyErr_user ((hv.trans hv').asks h) _
    · have hhome := hhere htwo target c (by rw [hfound]; rfl) hc
      rw [if_pos (by rw [← ht]; exact not_not.mp hserver)] at hhome
      rw [if_neg fun hne => hne hhome]
      exact .answerList (hv.asks h) req

end

/-! ## What the user is told -/

/-- The request is a LIST, a WHO, a WHOIS or a NAMES with a parameter. -/
def Handler.shows (req : Request) : Handler → Bool
  | .names => decide (0 < req.argc)
  | .list | .who | .whois => true
  | _ => false

/-- The request is answered by this server: where it names a server, that is this one. -/
def World.AnswersHere (w : World) (req : Request) : Handler → Prop
  | .names => 1 < req.argc → w.Here (req.arg 1)
  | .list => req.argc = 2 → w.Here (req.arg 1)
  | .whois => req.argc = 2 → w.Here (req.arg 0)
  | _ => True

/-- The same has been queued on a connection, in two runs that have come to an end.  If
only one of them has, its connection is closed; a run without an end is one in which the
daemon has crashed. -/
def SameReplies (i : ConnId) : Except Fault (Bool × World) → Except Fault (Bool × World) → Prop
  | .ok (_, v), .ok (_, v') => v'.linesTo i = v.linesTo i
  | .ok (_, v), .error _ => (v.conns i).sock = none
  | .error _, .ok (_, v') => (v'.conns i).sock = none
  | .error _, .error _ => True

theorem QTwin.sameReplies {q : Query Unit} (hq : QTwin l (.lost i) w q q) (n : Nat) :
    SameReplies i (execMsg n q.toMsg w) (execMsg n q.toMsg (w.setMembers l)) := by
  have hrun : Exec.Alike (Exits.lost i).holds
      (fun (_ _ : Bool) t t' => t'.linesTo i = t.linesTo i)
      (execMsg n q.toMsg w) (execMsg n q.toMsg (w.setMembers l)) := by
    rw [Query.execMsg_toMsg]
    refine Exec.Alike.bind (hq n) ?_ (fun _ => .pure _) fun _ => .pure _
    rintro o _ t _ ⟨-, rfl, -, -⟩
    exact .inl rfl
  cases hleft : execMsg n q.toMsg w with
  | error e =>
    cases hright : execMsg n q.toMsg (w.setMembers l) with
    | error e' => trivial
    | ok y =>
      rw [hleft, hright] at hrun
      obtain ⟨lines, hlost⟩ := hrun
      exact hlost.1
  | ok x =>
    cases hright : execMsg n q.toMsg (w.setMembers l) with
    | error e' =>
      rw [hleft, hright] at hrun
      obtain ⟨lines, hlost⟩ := hrun
      exact hlost.1
    | ok y =>
      rw [hleft, hright] at hrun
      rcases hrun with hsame | ⟨lines, hlost, hlost'⟩
      · exact hsame
      · exact hlost'.2.trans hlost.2.symm

/-- Every reachable state is one in which users can ask. -/
theorem Reachable.asks (hw : Reachable w) {c : Client} {chan : Channel} (hu : w.heap u = some c)
    (htype : c.type = .user) (hi : c.connId = some i) (hoper : c.hasMode 'o' = false)
    (hchan : w.chans.heap C = some chan) (hsecret : chan.hasMode 's' = true)
    (hothers : w.chans.cl2chan.filter (·.channel ≠ C) = l.filter (·.channel ≠ C))
    (hout : w.channelIsMemberOf C u = false)
    (hout' : (w.setMembers l).channelIsMemberOf C u = false) : Asks C u i l w := by
  have houtside (v : World) (hv : v.channelIsMemberOf C u = false) :
      ∀ e ∈ v.chans.cl2chan, e.channel = C → e.client ≠ u := by
    intro e he hch hcl
    have hnone : v.getCl2Chan C u = none := by
      simpa [World.channelIsMemberOf] using hv
    exact List.find?_eq_none.mp hnone e he (by simp [Cl2Chan.isFor, hch, hcl])
  exact
    { toSeated := hw.parked.toSeated
      hop := fun r d j hd hj => hw.linked.nextHop_eq hd hj
      user := ⟨c, hu, htype, hi, hoper⟩
      secret := ⟨chan, hchan, hsecret⟩
      others := hothers
      outside := houtside w hout
      outside' := houtside (w.setMembers l) hout' }

/-- Secret channels do not tell who is in them: if only the members of a channel with mode
`s` differ, a local user who is neither one of them nor an IRC operator gets the same
replies to NAMES with a parameter, LIST, WHO and WHOIS. -/
theorem secret_channel_hides_members {w : World} (hw : Reachable w) {C : ChanRef} {u : ClientRef}
    {c : Client} {i : ConnId} {chan : Channel} {l : List Cl2Chan} (hu : w.heap u = some c)
    (htype : c.type = .user) (hi : c.connId = some i) (hoper : c.hasMode 'o' = false)
    (hchan : w.chans.heap C = some chan) (hsecret : chan.hasMode 's' = true)
    (hothers : w.chans.cl2chan.filter (·.channel ≠ C) = l.filter (·.channel ≠ C))
    (hout : w.channelIsMemberOf C u = false)
    (hout' : (w.setMembers l).channelIsMemberOf C u = false)
    (req : Request) (handler : Handler) (hshows : handler.shows req = true)
    (hhere : w.AnswersHere req handler) (n : Nat) :
    SameReplies i (exec n (callHandler u req handler) w)
      (exec n (callHandler u req handler) (w.setMembers l)) := by
  have h := hw.asks hu htype hi hoper hchan hsecret hothers hout hout'
  have hcall (q : Query Unit) : exec n (liftM q.toMsg) = execMsg n q.toMsg := by simp
  cases handler with
  | names =>
    have hargc : 0 < req.argc := of_decide_eq_true hshows
    simp only [callHandler, hcall]
    exact (QTwin.ircNames h req hargc hhere).sameReplies n
  | list =>
    simp only [callHandler, hcall]
    exact (QTwin.ircList h req hhere).sameReplies n
  | who =>
    simp only [callHandler, hcall]
    exact (QTwin.ircWho h req).sameReplies n
  | whois =>
    simp only [callHandler, hcall]
    exact (QTwin.ircWhois h req hhere).sameReplies n
  | _ => exact absurd hshows Bool.false_ne_true

end

/-- Three users, of whom the first is in a secret channel. -/
def secretEvents : List Event :=
  [.accept 1 "127.0.0.1", .line 1 "NICK ann" [], .line 1 "USER a 0 * :Ann" [],
    .accept 2 "127.0.0.1", .line 2 "NICK bob" [], .line 2 "USER b 0 * :Bob" [],
    .accept 3 "127.0.0.1", .line 3 "NICK eve" [], .line 3 "USER e 0 * :Eve" [],
    .line 1 "JOIN #c" [], .line 1 "MODE #c +s" []]

/-- The third user asks for the names in the channel, with the second user in it in place
of the first. -/
theorem secret_channel_hides_members_eve : ∃ w,
    Reachable w ∧ w.channelIsMemberOf 0 1 = true ∧
      (w.setMembers [{ client := 2, channel := 0 }]).channelIsMemberOf 0 1 = false ∧
      ∀ n, SameReplies 3
        (exec n (callHandler 3 { pfx := none, command := "NAMES", argv := ["#c"] } .names) w)
        (exec n (callHandler 3 { pfx := none, command := "NAMES", argv := ["#c"] } .names)
          (w.setMembers [{ client := 2, channel := 0 }])) := by
  obtain ⟨w, hw, hmember, hout, ⟨c, hc, htype, hconn, hoper⟩, ⟨chan, hchan, hsecret⟩, hothers⟩ :
      ∃ w ∈ Event.runAll 1 secretEvents (World.start {} {} "localhost"),
        w.channelIsMemberOf 0 1 = true ∧ w.channelIsMemberOf 0 3 = false ∧
        (∃ c ∈ w.heap 3, c.type = .user ∧ c.connId = some 3 ∧ c.hasMode 'o' = false) ∧
        (∃ chan ∈ w.chans.heap 0, chan.hasMode 's' = true) ∧
        w.chans.cl2chan.filter (·.channel ≠ 0) = [] := by decide +kernel
  have hreach := (Reachable.start {} {} "localhost").runAll hw
  have hothers' : w.chans.cl2chan.filter (·.channel ≠ 0) =
      [({ client := 2, channel := 0 } : Cl2Chan)].filter (·.channel ≠ 0) := hothers
  have hhere : w.AnswersHere { pfx := none, command := "NAMES", argv := ["#c"] } .names :=
    fun h => absurd h (by decide)
  refine ⟨w, hreach, hmember, rfl, fun n => ?_⟩
  exact secret_channel_hides_members hreach hc htype hconn hoper hchan hsecret hothers' hout rfl _ _
    rfl hhere n

end Ngircd
