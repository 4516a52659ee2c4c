import Ngircd.Reloads

/-!
# Invariants of the channels

Some invariants are about the list of channels and the table of memberships and about
nothing else.  Who the clients are does not matter to them, and neither do connections.
Only the handlers that let somebody join a channel, create one or set its modes need a
closer look.
-/

namespace Ngircd

open Lib

/-- The invariant is about channels and memberships, and what happens to a channel that is
there upholds it, if closes keep to `C`. -/
structure ChannelUpkeep (J : World → Prop) (C : World → World → Prop := Keeps J) : Prop
    extends ChannelCare J C where
  same : ∀ w w', w'.chans = w.chans → J w → J w'

namespace ChannelUpkeep

variable {J : World → Prop} {C : World → World → Prop} {w w' : World} {r : ClientRef}
  {P : LineCheck} (h : ChannelUpkeep J C)
include h

theorem upkeep : Upkeep J C where
  __ := h.toChannelCare
  messages :=
    { refl := fun _ hw => hw
      trans := fun _ _ _ h₁ h₂ hw => h₂ (h₁ hw)
      queue := fun _ _ _ _ _ => h.same _ _ rfl
      fail := fun w _ _ _ _ hk hw => (h.closes _ _ hk).2 (h.same w _ rfl hw)
      editConn := fun _ _ _ => h.same _ _ rfl
      cloak := fun _ _ _ _ _ => h.same _ _ rfl }
  misc w _ hw _ := h.same w _ rfl hw
  servers _ _ := h.same _ _ rfl
  editClient _ _ _ _ _ _ := h.same _ _ rfl
  userModeAdd _ _ _ _ _ _ := h.same _ _ rfl
  userModeDel _ _ _ _ _ := h.same _ _ rfl
  setAway _ _ _ _ _ := h.same _ _ rfl
  rand _ _ := h.same _ _ rfl
  setCaps _ _ _ _ _ := h.same _ _ rfl
  setPwd _ _ _ := h.same _ _ rfl
  setAuthPing _ _ _ := h.same _ _ rfl

/-! ## Clients come and go -/

theorem shutting : Shutting J C :=
  h.upkeep.shutting (fun _ _ => h.same _ _ rfl) (fun _ _ => h.same _ _ rfl)
    fun _ _ _ _ => h.same _ _ rfl

theorem personal (hgreet : UpholdsBasic J (greetUser r) C) : Personal J r C where
  upkeep := h.upkeep
  setType _ _ _ _ := h.same _ _ rfl
  setId _ _ _ _ _ _ := h.same _ _ rfl
  ownIntroducer _ _ _ := h.same _ _ rfl
  greet := hgreet

theorem prepare (hw : J w) (e : Event) : J (e.prepare w) := by
  cases e <;> exact h.same w _ rfl hw

/-! ## Modes of users -/

theorem clientModeAdd (r : ClientRef) (m : Char) : UpholdsBasic J (clientModeAdd r m) C := by
  refine .bind (h.upkeep.basicMsg _) fun _ => .bind (fun w hw => ?_) fun _ => .pure _
  exact ⟨fun _ _ => h.same w _ rfl hw, fun _ => trivial⟩

theorem applyUserMode (target origin : ClientRef) (isServer : Bool) (st : UserModeRun)
    (m : Char) : UpholdsBasic J (applyUserMode target origin isServer st m) C :=
  h.upkeep.applyUserMode target origin isServer st (h.clientModeAdd target m)

/-! ## Lines -/

/-- An event upholds the invariant if joining does, and CHANINFO, INVITE and MODE do, for lines
that meet the condition. -/
theorem step (hclose : ∀ n, (closing C).RightAbout anyFault (closer n)) {e : Event} (hl : Linked w)
    (hw : J w) (hmeets : e.meets P w = true)
    (hjoin : ∀ client name, UpholdsBasic J (channelJoin client name) C)
    (hgreet : ∀ client, UpholdsBasic J (greetUser client) C)
    (hchaninfo : ∀ i r c cmd req w₁, w.Has i r c → Penalised w i w₁ → Dispatched w r c req cmd →
      cmd.handler = .chaninfo → P w r c .chaninfo req = true → J w₁ →
      (ircChaninfo r req).wp (upBasic C) (fun _ => J) w₁)
    (hinvite : ∀ i r c cmd req w₁, w.Has i r c → Penalised w i w₁ → Dispatched w r c req cmd →
      cmd.handler = .invite → P w r c .invite req = true → J w₁ →
      (ircInvite r req).toBasic.wp (upBasic C) (fun _ => J) w₁)
    (hmode : ∀ i r c cmd req w₁, w.Has i r c → Penalised w i w₁ → Dispatched w r c req cmd →
      cmd.handler = .mode → P w r c .mode req = true → J w₁ →
      (ircMode r req).wp (upBasic C) (fun _ => J) w₁)
    (hstep : Step w e w') : J w' := by
  have hup := h.upkeep
  refine hup.step_of_lines hclose hl hw (h.prepare hw e) hmeets ?_ ?_ hstep
  · exact fun r _ req _ _ => (h.personal (hgreet r)).handleNumeric req w hw
  · intro i r c cmd req w₁ hi hpenalty hd _ hmeet hcell hlive hw₁
    have hself := h.personal (hgreet r)
    by_cases hout : cmd.handler.reachesOut = false
    · by_cases hchanges : cmd.handler.changesSelf = false
      · by_cases hmodes : cmd.handler.setsModes = false
        · exact hup.callHandler r req hout hchanges hmodes w₁ hw₁
        · cases hhandler : cmd.handler with
          | away =>
            exact UpholdsFull.basic (hup.ircAway r req (h.clientModeAdd r 'a')) w₁ hw₁
          | join => exact UpholdsFull.basic (hup.ircJoin r req hjoin) w₁ hw₁
          | chaninfo =>
            rw [hhandler] at hmeet
            exact (wp_ofPlain _).mpr ((wp_ofBasic _).mpr
              (hchaninfo i r c cmd req w₁ hi hpenalty hd hhandler hmeet hw₁))
          | invite =>
            rw [hhandler] at hmeet
            exact (wp_ofPlain _).mpr ((wp_ofBasic _).mpr
              (hinvite i r c cmd req w₁ hi hpenalty hd hhandler hmeet hw₁))
          | mode =>
            rw [hhandler] at hmeet
            exact (wp_ofPlain _).mpr ((wp_ofBasic _).mpr
              (hmode i r c cmd req w₁ hi hpenalty hd hhandler hmeet hw₁))
          | _ => exact absurd (by rw [hhandler]; rfl) hmodes
      · exact hself.entry.callHandler_self (hself.ircSvsnick req) hw₁ hcell hlive
          (by simpa using hchanges)
    · refine h.shutting.removing.callHandler_out hw₁ (.nobody ..)
        (fun _ target _ => hself.ircNickUser target _ w₁ hw₁) hcell hlive (by simpa using hout)
        (fun _ target => hjoin target _) (fun _ _ => hself.registerServer req w₁ hw₁) ?_ ?_
        (fun _ _ => hself.entry.registerUser req w₁ hw₁) ?_
      · exact fun _ _ _ _ _ _ _ _ => h.same w₁ _ rfl hw₁
      · exact fun _ _ _ _ _ => h.same w₁ _ rfl hw₁
      · exact fun v _ _ _ hv _ _ _ => h.same v _ rfl hv

end ChannelUpkeep

end Ngircd
