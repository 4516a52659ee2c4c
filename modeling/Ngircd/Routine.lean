import Ngircd.ModeReads
import Ngircd.Upkeep

/-!
# Basic programs uphold invariants

The lemmas here go through the functions that are basic programs and through the
handlers that reply: what they do to client and channel structures is made of the
effects that `Upkeep` is about.  Where a function may set the user mode `a`, take
the mode `P` from a channel, let somebody join or create a channel, its lemma asks
for that part.
-/

namespace Ngircd

open Lib Prog

variable {J A : World → Prop} {C : World → World → Prop} {m : Char} {client target : ClientRef}
  {name channame : Str} {w : World} {req : Request} {f : List ListElem → List ListElem}
  {args : List Str}

variable (client : ClientRef) (req : Request)

namespace Upkeep

variable (h : Upkeep J C)
include h

/-! ## Channels and messages -/

theorem channelUserModeAdd (ch : ChanRef) (cl : ClientRef) (m : Char) :
    UpholdsBasic J (channelUserModeAdd ch cl m) C :=
  h.past fun _ => .bind (h.userModes _ _ _) fun _ => .pure _

theorem channelUserModeDel (ch : ChanRef) (cl : ClientRef) (m : Char) :
    UpholdsBasic J (channelUserModeDel ch cl m) C :=
  h.past fun _ => .bind (h.userModes _ _ _) fun _ => .pure _

theorem channelModeAdd (ch : ChanRef) (m : Char) : UpholdsBasic J (channelModeAdd ch m) C := by
  have hedit : UpholdsBasic J
      (Ngircd.editChannel ch fun c => { c with modes := modesAdd c.modes m }) C :=
    fun w hw => ⟨fun c hc => h.chanModeAdd w ch c m hc hw, fun _ => trivial⟩
  exact h.past fun _ => .bind hedit fun _ => .pure _

theorem channelModeDel (ch : ChanRef) (hm : m ≠ 'P') :
    UpholdsBasic J (channelModeDel ch m) C := by
  have hedit : UpholdsBasic J
      (Ngircd.editChannel ch fun c => { c with modes := modesDel c.modes m }) C :=
    fun w hw => ⟨fun c hc => h.chanModeDel w ch c m hm hc hw, fun _ => trivial⟩
  exact h.past fun _ => .bind hedit fun _ => .pure _

theorem channelSetTopic (ch : ChanRef) (client : Option ClientRef) (topic : Str) :
    UpholdsBasic J (channelSetTopic ch client topic) C := by
  refine h.past fun w => ?_
  cases client with
  | none => exact h.editPlain ch (fun _ => rfl) (fun _ => rfl) .same
  | some cl =>
    refine h.past fun _ => .ite (h.editPlain ch (fun _ => rfl) (fun _ => rfl) .same) ?_
    exact h.past fun _ => h.editPlain ch (fun _ => rfl) (fun _ => rfl) .same

/-- `Channel_Join`: a client joins a channel that is there, or one that is created for it. -/
theorem joins_at {client : ClientRef} (hw : J w)
    (hmember : ∀ ch, channelIsValidName name = true → w.channelSearch name = some ch →
      w.channelIsMemberOf ch client = false →
      J (w.setMembers ({ client, channel := ch } :: w.chans.cl2chan)))
    (hcreate : ∀ c, channelIsValidName name = true → w.channelSearch name = none →
      NewChannel name c →
      J ((w.addChannel c).setMembers ({ client, channel := w.chans.nextRef } :: w.chans.cl2chan))) :
    (channelJoin client name).wp (upBasic C) (fun _ => J) w := by
  unfold channelJoin
  by_cases hvalid : channelIsValidName name = true
  · rw [if_neg (by simp [hvalid])]
    simp only [wp_msg, wp_getWorld]
    cases hsearch : w.channelSearch name with
    | some ch =>
      dsimp only
      split_ifs with hmem
      · exact hw
      · exact hmember ch hvalid hsearch (by simpa using hmem)
    | none =>
      simp only [channelCreate, wp_msg, wp_getWorld, wp_newChannel]
      exact hcreate _ hvalid hsearch ⟨rfl, rfl, rfl, rfl, rfl⟩
  · rw [if_pos (by simpa using hvalid)]
    exact h.past (fun _ => h.past fun _ => .pure _) w hw

/-- Anybody can join a channel. -/
theorem joins {client : ClientRef}
    (hmember : ∀ w ch, channelIsValidName name = true → w.channelSearch name = some ch →
      w.channelIsMemberOf ch client = false → J w →
      J (w.setMembers ({ client, channel := ch } :: w.chans.cl2chan)))
    (hcreate : ∀ w c, channelIsValidName name = true → w.channelSearch name = none →
      NewChannel name c → J w →
      J ((w.addChannel c).setMembers ({ client, channel := w.chans.nextRef } :: w.chans.cl2chan))) :
    UpholdsBasic J (channelJoin client name) C :=
  fun w hw => h.joins_at hw (fun ch hvalid hsearch hmem => hmember w ch hvalid hsearch hmem hw)
    fun c hvalid hsearch hnew => hcreate w c hvalid hsearch hnew hw

section

variable (ch : ChanRef)

theorem channelListCheck (list : Channel → List ListElem) {put : List ListElem → Channel → Channel}
    (hput : ∀ e, Channel.MildEdit fun c => put (listsUsed (list c) e) c) (client : ClientRef) :
    UpholdsBasic J (channelListCheck ch list put client) C := by
  refine h.past fun c => h.past fun found => ?_
  cases found with
  | none => exact .pure _
  | some e => exact .bind (h.editChan ch (hput e)) fun _ => .pure _

theorem checkBans (client : ClientRef) : UpholdsBasic J (checkBans ch client) C := by
  refine h.channelListCheck ch _ (fun e => ?_) client
  exact ⟨fun _ => rfl, fun _ => rfl, fun c => ⟨.used _ e, .same _, .same _⟩⟩

theorem checkExcepts (client : ClientRef) :
    UpholdsBasic J (checkExcepts ch client) C := by
  refine h.channelListCheck ch _ (fun e => ?_) client
  exact ⟨fun _ => rfl, fun _ => rfl, fun c => ⟨.same _, .used _ e, .same _⟩⟩

theorem checkInvites (client : ClientRef) :
    UpholdsBasic J (checkInvites ch client) C := by
  refine h.channelListCheck ch _ (fun e => ?_) client
  exact ⟨fun _ => rfl, fun _ => rfl, fun c => ⟨.same _, .same _, .used _ e⟩⟩

theorem canSendToChannel (source : ClientRef) :
    UpholdsBasic J (canSendToChannel ch source) C := by
  refine h.past fun w => .ite (.pure _) (.ite (h.past fun privileged => ?_) ?_)
  all_goals
    refine h.past fun chan => .ite (.pure _) (h.past fun s => ?_)
    refine .ite (.pure _) (.ite (.pure _) (.ite (.pure _) ?_))
    refine .bind (h.checkExcepts ch source) fun _ => .ite (.pure _) ?_
    exact .bind (h.checkBans ch source) fun _ => .pure _

theorem channelWrite (source client : ClientRef) (command : Str) (errors : Bool) (text : Str) :
    UpholdsBasic J (channelWrite ch source client command errors text) C := by
  refine .bind (h.canSendToChannel ch source) fun ok => .ite ?_ ?_
  · refine .ite (.pure _) (h.past fun _ => h.past fun _ => ?_)
    exact h.basicMsg _
  · refine h.past fun _ => h.past fun _ => ?_
    exact h.past fun _ => .pure _

end

theorem sendToTarget (client source : ClientRef) (force : ClientType) (errors : Bool)
    (message command target : Str) :
    UpholdsBasic J (sendToTarget client source force errors message command target) C := by
  refine h.past fun found => ?_
  cases found with
  | some cl => exact h.basicMsg _
  | none =>
    refine h.past fun w => ?_
    split
    · refine .bind (h.channelWrite _ _ _ _ _ _) fun ok => .ite (.pure _) (.pure _)
    · refine .ite ?_ (.ite (.pure _) ?_)
      · exact h.past fun _ => .ite (.pure _) (.pure _)
      · exact h.past fun _ => h.past fun _ => .ite (.pure _) (.pure _)

theorem sendToTargets (client source : ClientRef) (force : ClientType) (errors : Bool)
    (message command : Str) (seen targets : List Str) :
    UpholdsBasic J (sendToTargets client source force errors message command seen targets) C := by
  induction targets generalizing command seen with
  | nil => exact .pure _
  | cons target rest ih =>
    refine .ite (.bind (.pure _) fun result => ?_)
      (.bind (h.sendToTarget _ _ _ _ _ _ _) fun result => ?_)
    all_goals
      cases result with
      | stop b => exact .pure _
      | goOn command =>
        cases rest with
        | nil => exact .pure _
        | cons next rest =>
          refine h.past fun _ => h.past fun _ => ?_
          refine h.past fun _ => .ite (h.basicMsg _) ?_
          exact ih command (seen ++ [target])

/-! ## Joining and leaving -/

theorem joinAllowed (client : ClientRef) (ch : ChanRef) (channame : Str) (key : Option Str) :
    UpholdsBasic J (joinAllowed client ch channame key) C := by
  refine h.past fun _ => .bind (h.checkBans _ _) fun _ => ?_
  refine .bind (h.checkExcepts _ _) fun _ => .bind (h.checkInvites _ _) fun _ => ?_
  refine h.past fun _ => h.past fun _ => ?_
  refine h.past fun _ => h.past fun _ => ?_
  dsimp only
  split
  · exact .pure _
  · exact h.past fun _ => h.past fun _ => .pure _

theorem setDefaultModes (ch : ChanRef) : UpholdsBasic J (setDefaultModes ch) C := by
  have hadd (m : Char) : UpholdsBasic J (do let _ ← Ngircd.channelModeAdd ch m) C :=
    .bind (h.channelModeAdd ch m) fun _ => .pure _
  refine h.past fun w => .bind (.forEach hadd _) fun _ => ?_
  refine h.past fun c => .ite ?_ (.pure _)
  exact .bind (h.channelModeAdd ch 't') fun _ => hadd 'n'

theorem joinSetChannelmodes (ch : ChanRef) (target : ClientRef) (flags : Str) :
    UpholdsBasic J (joinSetChannelmodes ch target flags) C := by
  have hadd (m : Char) : UpholdsBasic J (do let _ ← Ngircd.channelUserModeAdd ch target m) C :=
    .bind (h.channelUserModeAdd ch target m) fun _ => .pure _
  refine .bind (.forEach hadd _) fun _ => h.past fun _ => ?_
  refine h.past fun _ => h.past fun _ => ?_
  exact .ite (hadd 'o') (.pure _)

theorem planJoinUser (client : ClientRef) (channame : Str) (key : Option Str) :
    UpholdsBasic J (planJoinUser client channame key) C := by
  refine h.past fun w => ?_
  dsimp only
  split
  · refine .ite (.pure _) (.ite ?_ (.bind (h.joinAllowed _ _ _ _) fun ok => ?_))
    · exact h.past fun _ => h.past fun _ => .ite (.pure _) (.pure _)
    · exact .ite (.pure _) (.bind (.pure _) fun _ => h.past fun _ => .pure _)
  · refine .ite ?_ (.ite ?_ ?_)
    · exact h.past fun _ => h.past fun _ => .pure _
    · exact h.past fun _ => h.past fun _ => .ite (.pure _) (.pure _)
    · exact .bind (.pure _) fun _ => h.past fun _ => .pure _

theorem planJoinServer (target : ClientRef) (channame flags : Str) :
    UpholdsBasic J (planJoinServer target channame flags) C := by
  refine h.past fun w => ?_
  dsimp only
  split
  · exact .bind (h.checkInvites _ _) fun _ => .pure _
  · exact .pure _

theorem enterChannel {client : ClientRef}
    (hjoin : (channelJoin target channame).wp (upBasic C) (fun _ => J) w)
    (chan : Option ChanRef) (flags : Str) :
    (enterChannel client target channame chan flags).wp (upBasic C) (fun _ => J) w := by
  unfold Ngircd.enterChannel
  rw [wp_bind]
  refine wp_mono (fun ok w' hw' => ?_) hjoin
  refine UpholdsBasic.ite (.pure _) ?_ w' hw'
  cases chan
  case' none =>
    refine h.past fun w => ?_
    cases w.channelSearch channame
    case' none => refine h.past fun ch => ?_
    case' some ch => refine .bind (h.setDefaultModes ch) fun _ => .bind (.pure ch) fun _ => ?_
  case' some ch => refine .bind (.pure ch) fun _ => ?_
  all_goals
    refine .bind (h.joinSetChannelmodes _ target flags) fun _ => h.past fun _ => ?_
    refine h.past fun _ => .ite ?_ (.pure _)
    refine h.past fun _ => .ite (.pure _) ?_
    exact h.past fun _ => .ite (.pure _) (.pure _)

end Upkeep

/-- Does the plan lead to `Channel_Join`? -/
def JoinPlan.enters : JoinPlan → Bool
  | .enter _ _ => true
  | .skip _ => false

/-- What `IRC_JOIN` does by a plan. -/
def JoinPlan.carryOut (client target : ClientRef) (channame : Str) : JoinPlan → Basic JoinResult
  | .skip r => return r
  | .enter chan flags => enterChannel client target channame chan flags

/-- `IRC_JOIN` upholds `J` and calls `Channel_Join` only where `A` holds. -/
structure JoinPlans (J A : World → Prop) (client target : ClientRef) (C : World → World → Prop) :
    Prop where
  user : ∀ w c channame key, J w → w.heap client = some c → c.type = .user →
    (planJoinUser client channame key).wp (upBasic C)
      (fun plan w' => J w' ∧ (plan.enters = true → A w')) w
  server : ∀ w c channame flags, J w → w.heap client = some c → c.type ≠ .user →
    (planJoinServer target channame flags).wp (upBasic C)
      (fun plan w' => J w' ∧ (plan.enters = true → A w')) w
  join : ∀ w name, J w → A w → (channelJoin target name).wp (upBasic C) (fun _ => J) w

namespace JoinPlans

variable {client : ClientRef}

variable (hp : JoinPlans J A client target C) (h : Upkeep J C)
include hp h

theorem joinChannel (name : Str) (key : Option Str) :
    UpholdsBasic J (joinChannel client target name key) C := by
  have hplan (channame : Str) (plan : JoinPlan) (w : World) :
      (J w ∧ (plan.enters = true → A w)) → (plan.carryOut client target channame).wp
        (upBasic C) (fun _ => J) w := by
    rintro ⟨hw, hA⟩
    cases plan with
    | skip r => exact hw
    | enter chan flags => exact h.enterChannel (hp.join w channame hw (hA rfl)) chan flags
  intro w hw
  unfold Ngircd.joinChannel
  rw [wp_bind, liftM_msg_basic]
  simp only [wp_ofLeave, wp_ofMsg, wp_clientType, onClient_anyFault]
  intro c hc
  split
  all_goals
    simp only [wp_bind, wp_ofLeave, wp_ofMsg, wp_clientType, onClient_of_some hc]
    by_cases huser : c.type = .user
    · rw [if_pos huser, wp_bind]
      exact wp_mono (hplan _) (hp.user w c _ key hw hc huser)
    · rw [if_neg huser, wp_bind]
      exact wp_mono (hplan _) (hp.server w c _ _ hw hc huser)

theorem joinChannels (targets : List (Str × Option Str)) :
    UpholdsBasic J (joinChannels client target targets) C := by
  induction targets with
  | nil => exact .pure _
  | cons entry rest ih =>
    refine .bind (hp.joinChannel h entry.1 entry.2) fun result => ?_
    cases result with
    | next => exact ih
    | leave r => exact .pure _

end JoinPlans

namespace Upkeep

variable (h : Upkeep J C)
include h

section

variable {client : ClientRef} (hjoin : ∀ name, UpholdsBasic J (channelJoin target name) C)
include hjoin

/-- `Channel_Join` can be called anywhere. -/
theorem joinPlans :
    JoinPlans J (fun _ => True) client target C where
  user w _ channame key hw _ _ :=
    wp_mono (fun _ _ hw' => ⟨hw', fun _ => trivial⟩) (h.planJoinUser client channame key w hw)
  server w _ channame flags hw _ _ :=
    wp_mono (fun _ _ hw' => ⟨hw', fun _ => trivial⟩) (h.planJoinServer target channame flags w hw)
  join w name hw _ := hjoin name w hw

theorem joinChannels (targets : List (Str × Option Str)) :
    UpholdsBasic J (joinChannels client target targets) C :=
  (h.joinPlans hjoin).joinChannels h targets

end

theorem channelPart (client origin : ClientRef) (name reason : Str) :
    UpholdsBasic J (channelPart client origin name reason) C := by
  refine h.past fun w => ?_
  cases w.channelSearch name with
  | none => exact h.past fun _ => h.past fun _ => .pure _
  | some ch =>
    refine .ite ?_ (h.removal _ _ _ _ _ _)
    exact h.past fun _ => h.past fun _ => .pure _

theorem partChannels (client target : ClientRef) (n : Nat) :
    UpholdsBasic J (partChannels client target n) C := by
  induction n with
  | zero => exact h.basicMsg _
  | succ n ih =>
    refine h.past fun w => ?_
    cases w.channelsOf target with
    | nil => exact .pure _
    | cons ch rest =>
      refine h.past fun _ => h.past fun _ => ?_
      exact .bind (h.channelPart _ _ _ _) fun _ => ih

section

variable {req : Request} {client : ClientRef} {next : ClientRef → Basic Bool}

theorem withSender (hnext : ∀ sender, UpholdsBasic J (next sender) C) :
    UpholdsBasic J (withSender req client next) C := by
  refine h.past fun sender => ?_
  cases sender with
  | error text => exact h.basicMsg _
  | ok sender => exact hnext sender

/-- The sender of a command is the client itself, or whoever a server names. -/
theorem withSender_of (hw : J w)
    (hnext : ∀ c sender, w.heap client = some c → c.type ≠ .server ∧ sender = client ∨
      c.type = .server ∧ (∃ p, req.pfx = some p ∧ w.clientSearch p = some sender) →
      (next sender).wp (upBasic C) (fun _ => J) w) :
    (Ngircd.withSender req client next).wp (upBasic C) (fun _ => J) w := by
  have hrefuse (text : Str) : (liftM (ircWriteErrClient client text) : Basic Bool).wp
      (upBasic C) (fun _ => J) w := h.basicMsg _ w hw
  unfold Ngircd.withSender senderOf
  rw [wp_bind, liftM_msg_basic]
  simp only [wp_msg, wp_clientType, onClient_anyFault]
  intro c hc
  by_cases htype : c.type = .server
  · rw [if_pos htype]
    cases hpfx : req.pfx with
    | none =>
      simp only [wp_bind, wp_clientID, onClient_of_some hc]
      exact hrefuse _
    | some p =>
      simp only [wp_bind, wp_getWorld]
      cases hfound : w.clientSearch p with
      | none =>
        simp only [wp_bind, wp_clientID, onClient_of_some hc]
        exact hrefuse _
      | some sender => exact hnext c sender hc (.inr ⟨htype, p, hpfx, hfound⟩)
  · rw [if_neg htype]
    exact hnext c client hc (.inl ⟨htype, rfl⟩)

end

theorem ircJoin (hjoin : ∀ target name, UpholdsBasic J (channelJoin target name) C) :
    UpholdsBasic J (ircJoin client req) C := by
  refine h.withSender fun target => .ite ?_ (.ite (h.basicMsg _) ?_)
  · refine h.past fun _ => .bind (h.partChannels _ _ _) fun _ => .pure _
  · refine .bind (h.joinChannels (hjoin target) _) fun result => ?_
    cases result <;> exact .pure _

theorem ircPart : UpholdsBasic J (ircPart client req) C := by
  refine h.withSender fun target => .ite (h.basicMsg _) ?_
  have hpart (name : Str) :
      UpholdsBasic J (do let _ ← Ngircd.channelPart target client name (req.arg 1)) C :=
    .bind (h.channelPart _ _ _ _) fun _ => .pure _
  exact .bind (.forEach hpart _) fun _ => h.past fun _ => .pure _

theorem ircTopic : UpholdsBasic J (ircTopic client req) C := by
  have hchange (source : ClientRef) (ch : ChanRef) :
      UpholdsBasic J (changeTopic client source ch req) C := by
    refine h.past fun w => h.past fun c => .ite ?_ ?_
    · refine h.past fun _ => h.past fun _ => .opt ?_ fun hset =>
        h.past fun _ => hset
      exact .bind (h.channelSetTopic _ _ _) fun _ => h.past fun _ =>
        .ite (h.basicMsg _) (.pure _)
    · refine h.past fun _ => .opt ?_ fun hset => h.past fun _ => hset
      exact .bind (h.channelSetTopic _ _ _) fun _ => h.past fun _ =>
        .ite (h.basicMsg _) (.pure _)
  refine h.withSender fun source => h.past fun w => ?_
  cases w.channelSearch (req.arg 0) with
  | none => exact h.past fun _ => h.basicMsg _
  | some ch =>
    refine h.past fun _ => h.past fun _ => .ite ?_ (.ite ?_ ?_)
    · exact h.past fun _ => h.basicMsg _
    · exact h.basicMsg _
    · refine h.past fun _ => .ite (.ite ?_ (hchange _ _)) (hchange _ _)
      refine h.past fun _ => .ite ?_ (hchange _ _)
      exact h.past fun _ => h.past fun _ => h.basicMsg _

theorem chaninfoModes (client source : ClientRef) (ch : ChanRef) (req : Request)
    (hmodes : ∀ w c modes, w.chans.heap ch = some c → J w →
      J (w.setChannel ch (some { c with modes }))) :
    UpholdsBasic J (chaninfoModes client source ch req) C := by
  have hset (f : Channel → Str) :
      UpholdsBasic J (Ngircd.editChannel ch fun c => { c with modes := f c }) C :=
    fun w hw => ⟨fun c hc => hmodes w c _ hc hw, fun _ => trivial⟩
  refine .ite (.pure _) (h.past fun c => .ite (.pure _) ?_)
  refine .bind (hset _) fun _ => .ite (.bind ?_ fun _ => ?_) (.bind (hset _) fun _ => ?_)
  · exact h.editPlain ch (fun _ => rfl) (fun _ => rfl) .same
  all_goals exact h.past fun _ => h.basicMsg _

theorem ircChaninfo (hmodes : ∀ w ch c modes, w.chans.heap ch = some c → J w →
      J (w.setChannel ch (some { c with modes })))
    (hcreate : ∀ w c, w.channelSearch (req.arg 0) = none →
      NewChannel (req.arg 0) c → J w → J (w.addChannel c)) :
    UpholdsBasic J (ircChaninfo client req) C := by
  refine .ite (h.basicMsg _) (h.withSender fun source => ?_)
  intro w hw
  rw [wp_bind, liftM_msg_basic]
  simp only [wp_ofLeave, wp_ofMsg, wp_getWorld]
  cases hsearch : w.channelSearch (req.arg 0)
  case' none =>
    have hnew : (channelCreate (req.arg 0)).wp (upBasic C) (fun _ => J) w := by
      simp only [channelCreate, wp_msg, wp_getWorld, wp_newChannel]
      exact hcreate w _ hsearch ⟨rfl, rfl, rfl, rfl, rfl⟩ hw
    refine (wp_bind _ _ _).mpr (wp_mono (fun ch w hw => ?_) hnew)
  all_goals
    refine UpholdsBasic.bind (h.chaninfoModes client source _ req fun w => hmodes w _) (fun _ => ?_)
      _ hw
    refine .opt (h.past fun _ => .pure _) fun hend => ?_
    refine h.past fun c => .ite ?_ hend
    refine .bind (h.channelSetTopic _ _ _) fun _ => h.past fun _ => ?_
    exact h.past fun _ => hend

/-! ## User modes and AWAY -/

theorem clientModeAdd (r : ClientRef) (hm : m ≠ 'a') :
    UpholdsBasic J (clientModeAdd r m) C := by
  refine h.past fun _ => .bind (fun w hw => ?_) fun _ => .pure _
  exact ⟨fun c hc => h.userModeAdd w r c m hm hc hw, fun _ => trivial⟩

theorem clientModeDel (r : ClientRef) (m : Char) : UpholdsBasic J (clientModeDel r m) C := by
  refine h.past fun _ => .bind (fun w hw => ?_) fun _ => .pure _
  exact ⟨fun c hc => h.userModeDel w r c m hc hw, fun _ => trivial⟩

theorem clientSetAway (r : ClientRef) (txt : Str) : UpholdsBasic J (clientSetAway r txt) C :=
  fun w hw => ⟨fun c hc => h.setAway w r c _ hc hw, fun _ => trivial⟩

theorem applyUserMode (target origin : ClientRef) (isServer : Bool) (st : UserModeRun)
    (hadd : UpholdsBasic J (Ngircd.clientModeAdd target m) C) :
    UpholdsBasic J (applyUserMode target origin isServer st m) C := by
  refine .opt ?_ fun hchange => .bind (h.clientSetAway _ _) fun _ => hchange
  exact .ite (.bind hadd fun _ => .pure _) (.bind (h.clientModeDel target m) fun _ => .pure _)

theorem clientModeLoop (client origin target : ClientRef) (isServer : Bool)
    (happly : ∀ st m, UpholdsBasic J (Ngircd.applyUserMode target origin isServer st m) C)
    (st : UserModeRun) (letters : Str) :
    UpholdsBasic J (clientModeLoop client origin target isServer st letters) C := by
  induction letters generalizing st with
  | nil => exact .pure _
  | cons m rest ih =>
    refine .ite (ih _) (h.past fun w => ?_)
    refine h.past fun c => h.past fun o => ?_
    cases validateUserMode w isServer st.set c o m with
    | refuse msg =>
      refine h.past fun _ => h.past fun ok => ?_
      exact .ite (.pure _) (ih _)
    | nothing => exact ih _
    | change m => exact .bind (happly st m) fun st => ih st

theorem clientMode (origin target : ClientRef)
    (happly : ∀ isServer st m,
      UpholdsBasic J (Ngircd.applyUserMode target origin isServer st m) C) :
    UpholdsBasic J (clientMode client req origin target) C := by
  refine h.past fun type => .ite ?_ (.ite ?_ ?_)
  · exact h.past fun _ => h.basicMsg _
  · exact h.past fun _ => h.past fun _ => h.basicMsg _
  · split
    all_goals first
      | exact h.past fun _ => h.basicMsg _
      | skip
    all_goals
      refine .bind (h.clientModeLoop client origin target _ (happly _) _ _) fun result => ?_
      exact h.basicMsg _

theorem ircAway (haway : UpholdsBasic J (Ngircd.clientModeAdd client 'a') C) :
    UpholdsBasic J (ircAway client req) C := by
  refine .ite (.bind (h.clientSetAway _ _) fun _ => .bind haway fun _ => ?_)
    (.bind (h.clientModeDel _ _) fun _ => ?_)
  all_goals
    refine h.past fun _ => h.past fun _ => ?_
    exact h.past fun _ => h.basicMsg _

/-! ## Channel modes -/

omit h in
/-- An edit of one of the lists that MODE is about. -/
theorem editOneList (hlists : MindsNoLists J) (what : Char) (ch : ChanRef)
    (hf : ∀ w l, ListEdit (World.Storable w) l (f l)) :
    UpholdsBasic J
      (Ngircd.editChannel ch fun c => setChannelList what (f (channelListOf what c)) c) C := by
  refine fun w hw => ⟨fun c hc => hlists w ch c _ ⟨?_, ?_, ?_⟩ hc hw, fun _ => trivial⟩
  · unfold setChannelList
    split_ifs <;> rfl
  · unfold setChannelList
    split_ifs <;> rfl
  · unfold setChannelList channelListOf
    split_ifs
    · exact ⟨.same _, .same _, hf w _⟩
    · exact ⟨hf w _, .same _, .same _⟩
    · exact ⟨.same _, hf w _, .same _⟩

theorem editList (hlists : MindsNoLists J) (set : Bool) (m : Char) (r : ModeRequest)
    (pattern : Str) :
    UpholdsBasic J (Ngircd.editList set m r pattern) C := by
  cases set with
  | true =>
    refine h.past fun c => .ite (.pure _) (h.past fun t => .ite ?_ ?_)
    · exact h.past fun _ => h.basicMsg _
    · refine h.past fun w => h.past fun who => ?_
      have hedit (w' : World) (l : List ListElem) :
          ListEdit w'.Storable l (listsAdd l (listsMakeMask pattern) w.now who false) :=
        .add l _ _ who false (.inl (fitsEntry_listsMakeMask pattern))
      exact .bind (editOneList hlists m r.ch hedit) fun _ => h.basicMsg _
  | false =>
    refine h.past fun c => .ite (.pure _) ?_
    have hedit (w : World) (l : List ListElem) :
        ListEdit w.Storable l (listsDel l (listsMakeMask pattern)) := .del l _
    exact .bind (editOneList hlists m r.ch hedit) fun _ => h.basicMsg _

section

variable (r : ModeRequest)

section

variable (power : ModePower) (args : List Str)

theorem setKeyMode :
    UpholdsBasic J (setKeyMode r power args) C := by
  cases args with
  | nil =>
    refine .ite (.pure _) (h.past fun _ => ?_)
    exact h.past fun _ => .pure _
  | cons key args =>
    refine .ite (.ite (.pure _) (h.past fun _ => .pure _)) (.ite ?_ ?_)
    · refine .bind (h.channelModeDel _ (by decide)) fun _ => ?_
      refine .bind (h.editPlain _ (fun _ => rfl) (fun _ => rfl) .same) fun _ => ?_
      exact h.past fun _ => .pure _
    · exact h.past fun _ => .pure _

theorem unsetKeyMode :
    UpholdsBasic J (unsetKeyMode r power args) C :=
  .ite (h.past fun _ => .pure _) (h.past fun _ => .pure _)

theorem setLimitMode :
    UpholdsBasic J (setLimitMode r power args) C := by
  cases args with
  | nil =>
    refine .ite (.pure _) (h.past fun _ => ?_)
    exact h.past fun _ => .pure _
  | cons limit args =>
    refine .ite (.ite (.pure _) (h.past fun _ => .pure _)) (.ite ?_ ?_)
    · refine .bind (h.channelModeDel _ (by decide)) fun _ => ?_
      exact .bind (h.editPlain _ (fun _ => rfl) (fun _ => rfl) .same) fun _ => .pure _
    · exact h.past fun _ => .pure _

end

theorem listMode (power : ModePower) (set : Bool) (m : Char)
    (hlist : ∀ pattern left, args = pattern :: left →
      UpholdsBasic J (Ngircd.editList set m r pattern) C) :
    UpholdsBasic J (listMode r power set m args) C := by
  cases args with
  | nil => exact h.past fun _ => .pure _
  | cons pattern args =>
    have hedit := hlist pattern args rfl
    cases set with
    | true => exact .ite (.bind hedit fun _ => .pure _) (h.past fun _ => .pure _)
    | false => exact .ite (.bind hedit fun _ => .pure _) (h.past fun _ => .pure _)

theorem validateMode (type : ClientType) (power : ModePower) (set : Bool) (m : Char)
    (hlist : ∀ pattern left, args = pattern :: left →
      UpholdsBasic J (Ngircd.editList set m r pattern) C) :
    UpholdsBasic J (validateMode r type power set m args) C := by
  have hwrite {β γ : Type} (p : Msg β) (f : β → γ) :
      UpholdsBasic J (do return f (← p) : Basic γ) C :=
    h.past fun _ => .pure _
  refine .ite (.ite (hwrite _ _) (hwrite _ _)) (.ite (hwrite _ _) (.ite ?_ (.ite ?_ ?_)))
  · exact .ite (h.setKeyMode _ _ _) (h.unsetKeyMode _ _ _)
  · exact .ite (h.setLimitMode _ _ _) (hwrite _ _)
  · refine .ite (hwrite _ _) (.ite (hwrite _ _) (.ite (hwrite _ _) (.ite (hwrite _ _) ?_)))
    exact .ite (h.basicMsg _) (.ite (h.listMode r power set m hlist) (hwrite _ _))

theorem applyMode (st : ModeRun) (change : ModeChange)
    (hdel : UpholdsBasic J (Ngircd.channelModeDel r.ch 'P') C) :
    UpholdsBasic J (applyMode r st change) C := by
  cases change with
  | leave ok => exact .pure _
  | nothing ok => exact .pure _
  | channel m argadd =>
    refine .ite (.bind (h.channelModeAdd _ _) fun _ => .pure _) (.bind ?_ fun _ => .pure _)
    by_cases hm : m = 'P'
    · exact hm ▸ hdel
    · exact h.channelModeDel _ hm
  | member m cl =>
    refine h.past fun w => .ite ?_ (.ite (.bind (h.channelUserModeAdd _ _ _) fun changed => ?_)
      (.bind (h.channelUserModeDel _ _ _) fun changed => ?_))
    · refine h.past fun _ => h.past fun _ => ?_
      exact h.past fun _ => h.past fun _ => .pure _
    all_goals exact .ite (.pure _) (h.past fun _ => .pure _)

theorem modeLetter (type : ClientType) (st : ModeRun) (m : Char)
    (hdel : UpholdsBasic J (Ngircd.channelModeDel r.ch 'P') C)
    (hlist : ∀ pattern left, st.args = pattern :: left →
      UpholdsBasic J (Ngircd.editList st.set m r pattern) C) :
    UpholdsBasic J (modeLetter r type st m) C := by
  unfold Ngircd.modeLetter
  dsimp only
  refine .ite (.bind (.pure _) fun power => ?_) (h.past fun _ => .bind (.pure _) fun power => ?_)
  all_goals
    refine .ite (.pure _) (.bind (h.validateMode _ _ _ _ _ hlist) fun result => ?_)
    exact .bind (h.applyMode r _ _ hdel) fun result => .pure _

theorem channelModeLoop (type : ClientType) (beyond : Str)
    (hdel : UpholdsBasic J (Ngircd.channelModeDel r.ch 'P') C) (n : Nat) (st : ModeRun) (rest : Str)
    (hlist : ∀ sign m pattern left,
      ModeReads beyond st.set rest st.args sign m (pattern :: left) →
      UpholdsBasic J (Ngircd.editList sign m r pattern) C) :
    UpholdsBasic J (channelModeLoop r type beyond n st rest) C := by
  induction n generalizing st rest with
  | zero => exact h.basicMsg _
  | succ n ih =>
    unfold Ngircd.channelModeLoop
    split
    · exact .pure _
    · rename_i m rest' args hnext
      by_cases hsign : m = '+' ∨ m = '-'
      · rw [if_pos hsign]
        exact ih _ _ fun sign k pattern left hreads => hlist _ _ _ _ (.sign hnext hsign hreads)
      · rw [if_neg hsign]
        have hletter := h.modeLetter r type { st with args } m hdel fun pattern left hargs =>
          hlist _ _ _ left (hargs ▸ .here hnext hsign)
        -- What the letter leaves of the parameters is read from then on.
        refine .bind_returns (modeLetter_takes r type m { st with args }) hletter
          fun result hres => ?_
        refine .ite (ih _ _ fun sign k pattern left hreads => ?_) (.pure _)
        rw [hres.1] at hreads
        exact hlist _ _ _ _ (.letter hnext hsign hres.2 hreads)

end

theorem channelMode (origin : ClientRef) (ch : ChanRef)
    (hdel : UpholdsBasic J (Ngircd.channelModeDel ch 'P') C)
    (hlist : ∀ sign m pattern left, req.modeReads sign m (pattern :: left) →
      UpholdsBasic J (Ngircd.editList sign m ⟨client, origin, ch, req.command⟩ pattern) C) :
    UpholdsBasic J (channelMode client req origin ch) C := by
  refine h.past fun chan => .ite ?_ (.ite (h.basicMsg _) ?_)
  · exact h.past fun _ => h.basicMsg _
  · refine h.past fun w => h.past fun c => .ite ?_ ?_
    · exact h.past fun _ => h.basicMsg _
    · refine .bind (h.channelModeLoop ⟨client, origin, ch, req.command⟩ c.type req.beyond hdel
        (modeBound req) _ _ ?_) fun result => h.basicMsg _
      exact hlist

theorem ircMode (happly : ∀ target origin isServer st m,
      UpholdsBasic J (Ngircd.applyUserMode target origin isServer st m) C)
    (hdel : ∀ ch, UpholdsBasic J (Ngircd.channelModeDel ch 'P') C)
    (hlist : ∀ r sign m pattern left, req.modeReads sign m (pattern :: left) →
      UpholdsBasic J (Ngircd.editList sign m r pattern) C) :
    UpholdsBasic J (ircMode client req) C := by
  refine h.withSender fun origin => h.past fun w => ?_
  dsimp only
  split
  · exact h.clientMode _ req origin _ fun isServer => happly _ _ isServer
  · exact h.channelMode _ req origin _ (hdel _) fun sign m pattern left =>
      hlist _ sign m pattern left
  · exact h.past fun _ => h.basicMsg _

/-! ## Logging in -/

theorem clientSetUser (r : ClientRef) (user : Str) (idented : Bool) :
    UpholdsBasic J (clientSetUser r user idented) C :=
  h.past fun _ => h.edit r ⟨fun _ => rfl, fun _ => rfl, fun _ => rfl⟩

theorem clientSetInfo (r : ClientRef) (info : Str) : UpholdsBasic J (clientSetInfo r info) C :=
  h.past fun _ => h.edit r ⟨fun _ => rfl, fun _ => rfl, fun _ => rfl⟩

theorem clientSetHostname (r : ClientRef) (hostname : Str) :
    UpholdsBasic J (clientSetHostname r hostname) C :=
  h.past fun _ => h.edit r ⟨fun _ => rfl, fun _ => rfl, fun _ => rfl⟩

theorem classGetMemberReason {list : Misc → List ListElem} {put : List ListElem → Misc → Misc}
    (hput : ∀ e (m : Misc), m.ListsEdit (put (listsUsed (list m) e) m)) (label : Str)
    (client : ClientRef) :
    UpholdsBasic J (classGetMemberReason list put label client) C := by
  refine h.past fun w => h.past fun found => ?_
  cases found with
  | none => exact .pure _
  | some e => exact .bind (h.editMisc (hput e)) fun _ => .pure _

theorem serverBan (client : ClientRef) : UpholdsBasic J (serverBan client) C := by
  refine .bind (h.classGetMemberReason (fun e m => ⟨.used _ e, .same _⟩) _ _) fun reason => ?_
  cases reason with
  | some reason => exact .pure _
  | none => exact h.classGetMemberReason (fun e m => ⟨.same _, .used _ e⟩) _ _

theorem loginAutojoin (client : ClientRef)
    (hjoin : ∀ req, UpholdsBasic J (Ngircd.ircJoin client req) C) :
    UpholdsBasic J (loginAutojoin client) C := by
  refine h.past fun w => .forEach (fun c => ?_) _
  refine h.past fun w => .ite ?_ (.pure _)
  refine h.past fun _ => h.past fun _ => ?_
  exact .bind (hjoin _) fun _ => .pure _

theorem greetUser (client : ClientRef)
    (hmode : ∀ req, UpholdsBasic J (Ngircd.ircMode client req) C)
    (hjoin : ∀ req, UpholdsBasic J (Ngircd.ircJoin client req) C) :
    UpholdsBasic J (greetUser client) C := by
  refine h.past fun ok => .ite (.pure _) (h.past fun w => .ite (h.past fun _ => ?_) ?_)
  on_goal 2 => refine h.past fun _ => h.past fun _ => h.past fun _ => .bind (hmode _) fun _ => ?_
  all_goals exact .bind (h.loginAutojoin client hjoin) fun _ => .pure _

theorem ircWebirc : UpholdsBasic J (ircWebirc client req) C := by
  refine h.past fun w => .ite (h.past fun _ => h.basicMsg _) ?_
  refine .bind (h.clientSetUser _ _ _) fun _ => .bind (h.clientSetHostname _ _) fun _ => ?_
  exact .bind (h.edit _ ⟨fun _ => rfl, fun _ => rfl, fun _ => rfl⟩) fun _ => .pure _

/-! ## Operators -/

theorem replySender {req : Request} {client : ClientRef} {next : ClientRef → Reply Unit}
    (hnext : ∀ sender, UpholdsReply J (next sender) C) :
    UpholdsReply J (Ngircd.replySender req client next) C := by
  refine .bind (h.query _) fun sender => ?_
  cases sender with
  | error text => exact h.query _
  | ok sender => exact hnext sender

theorem ircOper : UpholdsReply J (ircOper client req) C := by
  refine .bind (h.replyMsg _) fun mask => .bind (h.replyMsg _) fun w => ?_
  cases w.conf.opers.find? fun op => op.name = req.arg 0 with
  | none => exact h.query _
  | some op =>
    refine .ite (h.query _) (.ite (h.query _) (.bind (h.replyMsg _) fun o => .opt ?_ ?_))
    · refine .bind (h.replyMsg _) fun _ => .bind (h.replyMsg _) fun _ => ?_
      exact .bind (h.replyMsg _) fun _ => h.query _
    · intro hend
      refine .bind (.basic (h.clientModeAdd client (by decide))) fun _ => ?_
      refine .bind (h.replyMsg _) fun _ => .bind (h.query _) fun _ => ?_
      exact .bind (h.replyMsg _) fun _ => .bind (h.replyMsg _) fun _ => hend

theorem ircDie : UpholdsReply J (ircDie client req) C := by
  refine .bind (h.replyMsg _) fun source => .ite (h.query _) ?_
  cases req.argv.head?
  case' some =>
    refine .bind (h.replyMsg _) fun w => .bind (.forEach (fun i => h.replyMsg _) _) fun _ => ?_
  all_goals
    refine .bind (h.replyMsg _) fun _ => .bind (h.replyMsg _) fun _ => ?_
    exact .basic (h.editMisc .same)

theorem ircRehash : UpholdsReply J (ircRehash client req) C := by
  refine .bind (h.replyMsg _) fun source => .ite (h.query _) ?_
  refine .bind (h.replyMsg _) fun _ => .bind (h.replyMsg _) fun _ =>
    .bind (h.replyMsg _) fun _ => ?_
  exact .bind (h.replyMsg _) fun _ => .basic (h.editMisc .same)

theorem ircRestart : UpholdsReply J (ircRestart client req) C := by
  refine .bind (h.replyMsg _) fun source => .ite (h.query _) ?_
  exact .bind (h.replyMsg _) fun _ => .bind (h.replyMsg _) fun _ => .basic (h.editMisc .same)

theorem connectServer (req : Request) : UpholdsBasic J (connectServer req) C := by
  have hpassive (name : Str) : UpholdsBasic J (confEnablePassiveServer name) C := by
    refine h.past fun w => ?_
    dsimp only
    split
    · exact .pure _
    · exact .bind (h.editServers _) fun _ => .pure _
  have henable (name : Str) (port : Nat) : UpholdsBasic J (confEnableServer name port) C := by
    refine h.past fun w => ?_
    dsimp only
    split
    · exact .pure _
    · exact .bind (h.editServers _) fun _ => .pure _
  have hadd (name : Str) (port : Nat) (host myPwd peerPwd : Str) :
      UpholdsBasic J (confAddServer name port host myPwd peerPwd) C := by
    refine h.past fun w => ?_
    split
    · exact .pure _
    · exact .bind (h.editServers _) fun _ => .pure _
  unfold Ngircd.connectServer
  split
  · exact hpassive _
  · exact henable _ _
  · exact henable _ _
  · exact hadd _ _ _ _ _
  · exact .pure _
  · exact .pure _

theorem connectHere (client source : ClientRef) (req : Request) :
    UpholdsReply J (connectHere client source req) C := by
  refine .bind (h.replyMsg _) fun sender => .ite (h.query _) ?_
  refine .bind (.basic (h.connectServer req)) fun ok => .ite ?_ ?_
  · exact .bind (h.replyMsg _) fun _ => h.query _
  · refine .bind (h.replyMsg _) fun _ => .bind (h.replyMsg _) fun _ => ?_
    exact .bind (h.replyMsg _) fun _ => .bind (h.replyMsg _) fun _ => h.replyMsg _

theorem connectTarget (client source : ClientRef) (req : Request) (name : Str) :
    UpholdsReply J (connectTarget client source req name) C := by
  refine .bind (h.replyMsg _) fun w => ?_
  dsimp only
  cases (w.clientSearch name).filter fun r => (w.heap r).any fun c => c.type = .server with
  | none => exact .bind (h.replyMsg _) fun _ => h.query _
  | some target =>
    refine .ite (h.connectHere client source req) (.ite ?_ ?_)
    · exact .bind (h.replyMsg _) fun _ => .pure _
    · exact .bind (h.replyMsg _) fun _ => .pure _

theorem ircConnect : UpholdsReply J (ircConnect client req) C := by
  refine .ite ?_ (.ite ?_ (.bind (h.replyMsg _) fun c => .ite (h.query _) (.ite ?_ ?_)))
  · exact .bind (h.replyMsg _) fun _ => h.query _
  · exact .bind (h.replyMsg _) fun _ => h.query _
  · refine .bind (h.replyMsg _) fun w => ?_
    dsimp only
    split
    · exact .bind (h.replyMsg _) fun _ => h.query _
    · exact h.connectTarget client _ req _
  · exact h.connectHere client client req

omit h in
/-- One of the two lists is edited. -/
theorem listsEdit_put (cls : LineClass)
    (hf : ∀ l, ListEdit FitsEntry l (f l)) (m : Misc) :
    m.ListsEdit (cls.put (f (cls.list m)) m) := by
  cases cls with
  | gline => exact ⟨hf _, .same _⟩
  | kline => exact ⟨.same _, hf _⟩

theorem deleteLine (client source : ClientRef) (req : Request) (cls : LineClass) :
    UpholdsBasic J (deleteLine client source req cls) C := by
  refine .bind (h.editMisc (listsEdit_put cls fun l => .del l (listsMakeMask (req.arg 0))))
    fun _ => ?_
  refine h.past fun _ => h.past fun _ => ?_
  exact .ite (h.basicMsg _) (.pure _)

theorem addLine (client source : ClientRef) (req : Request) (cls : LineClass) :
    UpholdsBasic J (addLine client source req cls) C := by
  refine h.past fun w => .bind (h.editMisc (listsEdit_put cls fun l =>
    .add l _ _ (req.arg 2) false (fitsEntry_listsMakeMask (req.arg 0)))) fun _ => ?_
  refine h.past fun t => .opt (.ite (h.basicMsg _) (.pure _)) fun hend => ?_
  exact h.past fun _ => h.past fun _ => hend

/-! ## KICK, INVITE and METADATA -/

theorem channelKick (peer target origin : ClientRef) (name reason : Str) :
    UpholdsBasic J (channelKick peer target origin name reason) C := by
  refine h.past fun w => ?_
  cases w.channelSearch name with
  | none => exact h.past fun _ => h.past fun _ => .pure _
  | some ch =>
    refine h.past fun err => ?_
    cases err with
    | some text => exact h.past fun _ => .pure _
    | none => exact .bind (h.removal _ _ _ _ _ _) fun _ => .pure _

theorem ircKick : UpholdsReply J (ircKick client req) C := by
  have hkick (source : ClientRef) (nick channel : Str) :
      UpholdsReply J (tryKick client source nick channel req.argv[2]?) C := by
    refine .bind (h.replyMsg _) fun w => ?_
    cases w.clientSearch nick with
    | none => exact .bind (h.replyMsg _) fun _ => h.query _
    | some target => exact .bind (h.replyMsg _) fun _ => .basic (h.channelKick _ _ _ _ _)
  refine h.replySender fun source => ?_
  dsimp only
  split
  · exact .forEach (fun nick => hkick source nick _) _
  · refine .ite ?_ (.bind (h.replyMsg _) fun _ => h.query _)
    exact .forEach (fun p : Str × Str => hkick source p.1 p.2) _

theorem inviteCheck (ch : ChanRef) (source target : ClientRef) (me : Str) (req : Request) :
    UpholdsBasic J (inviteCheck ch source target me req) C := by
  refine h.past fun w => h.past fun chan => ?_
  refine .ite (.pure _) (.ite (h.past fun _ => .pure _) (.ite (h.past fun _ => .ite ?_ ?_) ?_))
  · exact h.past fun _ => .pure _
  all_goals exact .ite (h.past fun _ => .pure _) (.bind (h.checkBans _ _) fun _ => .pure _)

/-- The mask that `IRC_INVITE` remembers fits into an entry unless it is the ID of a server. -/
theorem clientMaskCloaked_storable (target : ClientRef) (hw : J w) :
    (clientMaskCloaked target).wp (msgWp (closing C) anyFault)
      (fun mask w' => J w' ∧ w'.Storable mask) w := by
  have hfits (args : List Str) : FitsEntry (snprintf getidLen "%s!%s@%s" args) :=
    Nat.lt_of_le_of_lt (List.length_take_le _ _) (by decide)
  simp only [clientMaskCloaked, wp_bind, wp_deref, onClient_anyFault]
  intro c hc
  split_ifs
  · refine ⟨hw, ?_⟩
    simp only [Client.mask]
    split_ifs
    · exact .inr ⟨target, c, hc, rfl⟩
    · exact .inl (hfits _)
  · simp only [wp_bind]
    refine h.messages.wp (fun _ => trivial) _ fun shown w' hkeep => ?_
    exact ⟨hkeep hw, .inl (hfits _)⟩

omit h in
theorem addInvite (hlists : MindsNoLists J) (w : World) (ch : ChanRef) (mask who : Str)
    (hmask : w.Storable mask) (hw : J w) :
    (channelAddInvite ch mask true who).wp (upBasic C) (fun _ => J) w := by
  simp only [channelAddInvite, wp_msg, wp_getWorld, wp_editChannel, onChannel_anyFault]
  intro c hc
  exact hlists w ch c _ ⟨rfl, rfl, .same _, .same _, .add _ _ _ _ _ hmask⟩ hc hw

/-- Remember an invitation and go on. -/
theorem rememberInvite (ch : ChanRef) (source target : ClientRef) {rest : Reply Unit}
    (hadd : ∀ w mask who, w.Storable mask → J w →
      (Ngircd.channelAddInvite ch mask true who).wp (upBasic C) (fun _ => J) w)
    (hrest : UpholdsReply J rest C) :
    UpholdsReply J (do
      Ngircd.channelAddInvite ch (← clientMaskCloaked target) true (← clientID source)
      rest : Reply Unit) C := by
  intro w hw
  rw [wp_bind, wp_reply_ofMsg]
  refine wp_mono (fun mask w₁ h₁ => ?_) (h.clientMaskCloaked_storable target hw)
  rw [wp_bind, wp_reply_ofMsg, wp_clientID, onClient_anyFault]
  intro s _
  rw [wp_bind, wp_reply_ofBasic]
  exact wp_mono (fun _ w₂ hw₂ => hrest w₂ hw₂) (hadd w₁ mask _ h₁.2 h₁.1)

theorem ircInvite (hadd : ∀ w ch mask who, w.Storable mask → J w →
      (Ngircd.channelAddInvite ch mask true who).wp (upBasic C) (fun _ => J) w) :
    UpholdsReply J (ircInvite client req) C := by
  refine h.replySender fun source => .bind (h.replyMsg _) fun w => ?_
  dsimp only
  cases (w.clientSearch (req.arg 0)).filter fun r => (w.heap r).any fun c => c.type = .user with
  | none => exact .bind (h.replyMsg _) fun _ => h.query _
  | some target =>
    refine .bind (h.replyMsg _) fun me => .bind (h.replyMsg _) fun t => .ite (h.query _) ?_
    cases w.channelSearch (req.arg 1) with
    | none => exact h.query _
    | some ch =>
      refine .bind (.basic (h.inviteCheck _ _ _ _ _)) fun checked => ?_
      cases checked with
      | error text => exact h.query _
      | ok remember =>
        exact .ite (h.rememberInvite ch source target (fun w => hadd w ch) (h.query _)) (h.query _)

theorem setMetadata (target pfx : ClientRef) (key value : Str) :
    UpholdsBasic J (setMetadata target pfx key value) C := by
  refine .ite ?_ (.ite (h.clientSetInfo _ _) (.ite (h.clientSetUser _ _ _) (.ite ?_ (.pure _))))
  · refine .bind (h.clientSetHostname _ _) fun _ => h.past fun _ => ?_
    exact .ite (h.basicMsg _) (.pure _)
  · exact h.edit _ ⟨fun _ => rfl, fun _ => rfl, fun _ => rfl⟩

theorem ircMetadata : UpholdsReply J (ircMetadata client req) C := by
  refine h.replySender fun pfx => .bind (h.replyMsg _) fun w => ?_
  cases w.clientSearch (req.arg 0) with
  | none => exact .bind (h.replyMsg _) fun _ => h.query _
  | some target =>
    refine .bind (h.replyMsg _) fun t => .opt ?_ fun hend => .bind (.basic ?_) fun _ => hend
    · refine .ite (.bind (h.replyMsg _) fun _ => .bind (h.replyMsg _) fun t => ?_) ?_
      · exact .ite (h.replyMsg _) (.pure _)
      · refine .bind (.basic (h.setMetadata _ _ _ _)) fun _ => ?_
        exact .bind (h.replyMsg _) fun _ => h.replyMsg _
    · exact h.edit _ ⟨fun _ => rfl, fun _ => rfl, fun _ => rfl⟩

end Upkeep

end Ngircd
