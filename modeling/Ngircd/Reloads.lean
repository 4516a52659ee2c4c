import Ngircd.Lines
import Ngircd.Reload

/-!
# Runs with reloads

The daemon creates predefined channels when it starts, and it may read its
configuration again at any time.  This module takes runs with such steps apart and says
which invariants they uphold.
-/

namespace Ngircd

open Lib Prog

variable {n : Nat} {new : Conf} {valid : Bool} {w w' : World} {I J : World → Prop}

/-! ## What a reload does -/

/-- The settings after a successful reload. -/
def Conf.reloaded (old new : Conf) : Conf :=
  { new with serverName := old.serverName, maxNickLength := old.maxNickLength }

/-- A reload tells that it starts.  If the configuration is not valid, it leaves all the
new settings; otherwise it sets the information of this server, puts two settings back,
creates channels and tells that it is done. -/
theorem rehash_run (h : rehash n new valid w = .ok ((), w')) :
    ∃ w₁, execMsg n (logSnotice "Re-reading configuration NOW!") w = .ok ((), w₁) ∧
      (valid = false ∧ w' = { w₁ with conf := new } ∨
        valid = true ∧ ∃ w₂ w₃,
          execBasic n (do clientSetInfo (← thisServer) new.serverInfo) { w₁ with conf := new } =
            .ok ((), w₂) ∧
          execBasic n channelInitPredefined { w₂ with conf := w₁.conf.reloaded w₂.conf } =
            .ok ((), w₃) ∧
          execMsg n (logSnotice "Re-reading of configuration done.") w₃ = .ok ((), w')) := by
  unfold rehash at h
  obtain ⟨⟨⟩, w₁, hnotice, h⟩ := Exec.bind_eq_ok.mp h
  refine ⟨w₁, hnotice, ?_⟩
  cases valid with
  | false =>
    refine .inl ⟨rfl, ?_⟩
    exact (congrArg Prod.snd (Except.ok.inj h)).symm
  | true =>
    refine .inr ⟨rfl, ?_⟩
    obtain ⟨old, w₁', hget, h⟩ := Exec.bind_eq_ok.mp h
    obtain ⟨rfl, rfl⟩ := Prod.mk.inj (Except.ok.inj hget)
    obtain ⟨⟨⟩, w₁', hset, h⟩ := Exec.bind_eq_ok.mp h
    obtain ⟨-, rfl⟩ := Prod.mk.inj (Except.ok.inj hset)
    rw [if_pos rfl] at h
    obtain ⟨⟨⟩, w₂, hinfo, h⟩ := Exec.bind_eq_ok.mp h
    obtain ⟨⟨⟩, w₂', hback, h⟩ := Exec.bind_eq_ok.mp h
    obtain ⟨-, rfl⟩ := Prod.mk.inj (Except.ok.inj hback)
    obtain ⟨⟨⟩, w₃, hchannels, h⟩ := Exec.bind_eq_ok.mp h
    exact ⟨w₂, w₃, hinfo, hchannels, h⟩

/-! ## Invariants -/

section

variable {C : World → World → Prop}

/-- `Channel_InitPredefined` upholds the invariant, if MODE of this server and new channels
with valid names do. -/
theorem channelInitPredefined_upholds (h : Upkeep J C)
    (hmode : ∀ client req, UpholdsBasic J (ircMode client req) C)
    (hmodes : ∀ w ch c modes, w.chans.heap ch = some c → J w →
      J (w.setChannel ch (some { c with modes })))
    (hcreate : ∀ w c name, channelIsValidName name = true → w.channelSearch name = none →
      NewChannel name c → J w → J (w.addChannel c)) :
    UpholdsBasic J channelInitPredefined C := by
  have hkeys (ch : ChanRef) (conf : ConfChannel) :
      UpholdsBasic J (setKeyFile ch conf.keyfile conf.keys) C := by
    refine .ite ?_ (.bind ?_ fun _ => ?_)
    · exact h.editPlain ch (fun _ => rfl) (fun _ => rfl) .same
    · exact h.editPlain ch (fun _ => rfl) (fun _ => rfl) .same
    · exact h.past fun _ => h.basicMsg _
  have hstring (ch : ChanRef) (conf : ConfChannel) (modes : Str) :
      UpholdsBasic J (predefineModes ch conf modes) C := by
    refine .ite (.pure _) (.opt (.opt ?_ fun hend => ?_) fun hlimit => ?_)
    · refine h.past fun this => h.past fun _ => ?_
      exact .bind (hmode _ _) fun _ => .pure _
    · refine .bind (h.editPlain ch (fun _ => rfl) (fun _ => rfl) .same) fun _ => ?_
      exact .bind (h.channelModeAdd ch 'l') fun _ => hend
    · refine .bind (h.editPlain ch (fun _ => rfl) (fun _ => rfl) .same) fun _ => ?_
      exact .bind (h.channelModeAdd ch 'k') fun _ => hlimit
  have hnew {name : Str} (hvalid : channelIsValidName name = true)
      {rest : ChanRef → Basic Unit} (hrest : ∀ ch, UpholdsBasic J (rest ch) C) (w : World)
      (hsearch : w.channelSearch name = none) (hw : J w) :
      (channelCreate name >>= rest).wp (upBasic C) (fun _ => J) w := by
    rw [wp_bind]
    simp only [channelCreate, wp_msg, wp_getWorld, wp_newChannel]
    refine hrest _ _ ?_
    exact hcreate w _ name hvalid hsearch ⟨rfl, rfl, rfl, rfl, rfl⟩ hw
  have hchannel (conf : ConfChannel) : UpholdsBasic J (predefineChannel conf) C := by
    intro w hw
    unfold predefineChannel
    by_cases hempty : conf.name.isEmpty = true
    · rw [if_pos hempty]
      exact hw
    rw [if_neg hempty]
    by_cases hvalid : (!channelIsValidName conf.name) = true
    · rw [if_pos hvalid]
      exact hw
    rw [if_neg hvalid]
    rw [wp_bind, liftM_msg_basic]
    simp only [wp_ofLeave, wp_ofMsg, wp_getWorld]
    cases hsearch : w.channelSearch conf.name with
    | some ch => exact hkeys ch conf w hw
    | none =>
      refine hnew (by simpa using hvalid) (fun ch => ?_) w hsearch hw
      refine .bind (h.channelModeAdd ch 'P') fun _ => .opt ?_ fun hend => ?_
      · exact .bind (.forEach (fun modes => hstring ch conf modes) _) fun _ => hkeys ch conf
      · exact .bind (h.channelSetTopic ch none _) fun _ => hend
  have hserver : UpholdsBasic J predefineServerChannel C := by
    intro w hw
    unfold predefineServerChannel
    rw [wp_bind, liftM_msg_basic]
    simp only [wp_ofLeave, wp_ofMsg, wp_getWorld]
    split_ifs with hnone
    · refine hnew (by decide) (fun ch => ?_) w (by simpa using hnone) hw
      refine .bind (fun w hw => ⟨fun c hc => hmodes w ch c _ hc hw, fun _ => trivial⟩) fun _ => ?_
      exact h.past fun _ => h.channelSetTopic _ _ _
    · exact hw
  exact h.past fun w => .bind (.forEach hchannel _) fun _ => hserver

theorem Indifferent.predefines (h : Indifferent J C) : UpholdsBasic J channelInitPredefined C :=
  channelInitPredefined_upholds h.toUpkeep h.ircMode h.channelModes fun w c name _ _ =>
    h.create w c name

/-- A reload leads from `I` to `J` if the change of settings does. -/
theorem rehash_leads (hI : Upkeep I C) (hJ : Upkeep J C)
    (hclose : ∀ n, (closing C).RightAbout anyFault (closer n))
    (hchannels : UpholdsBasic J channelInitPredefined C)
    (hw : I w) (hrun : rehash n new valid w = .ok ((), w'))
    (hfail : valid = false → ∀ w, I w → J { w with conf := new })
    (hdone : valid = true → ∀ w, I w → J { w with conf := w.conf.reloaded new }) : J w' := by
  obtain ⟨w₁, hnotice, hrest⟩ := rehash_run hrun
  have hw₁ : I w₁ :=
    (execMsg_ends (hclose n) (hI.msgFrame.wp (fun _ => trivial) _
      fun _ _ hkeep => hkeep.2 hw)).of_ok hnotice
  rcases hrest with ⟨hvalid, rfl⟩ | ⟨hvalid, w₂, w₃, hinfo, hinit, hend⟩
  · exact hfail hvalid w₁ hw₁
  · -- The information of this server is set before the settings are put back.
    have hw₂ : J { w₂ with conf := w₁.conf.reloaded w₂.conf } := by
      refine (execBasic_ends (Closing.never_rightAbout (closer n)) (E := anyFault)
        (Q := fun _ v => J { v with conf := w₁.conf.reloaded v.conf }) ?_).of_ok hinfo
      simp only [thisServer, clientSetInfo, wp_msg, wp_getWorld, wp_pure, wp_editClient]
      refine ⟨fun c hc => ?_, fun _ => trivial⟩
      let info (c : Client) : Str := if new.cloakUserToNick then c.id else new.serverInfo
      let e : ClientEdit := { edit := fun c => { c with info := strlcpy (info c) clientInfoLen } }
      exact hJ.editClient { w₁ with conf := w₁.conf.reloaded new } w₁.thisServer e c {} hc
        (hdone hvalid w₁ hw₁)
    have hw₃ : J w₃ := (execBasic_ends (hclose n) (hchannels _ hw₂)).of_ok hinit
    exact (execMsg_ends (hclose n) (hJ.msgFrame.wp (fun _ => trivial) _
      fun _ _ hkeep => hkeep.2 hw₃)).of_ok hend

end

/-! ## Runs -/

/-- A condition on the state, the settings that a reload reads and whether they are valid. -/
abbrev ReloadCheck := World → Conf → Bool → Bool

/-- The states that events lead to which meet the first condition, predefined channels, and
reloads that meet the second one. -/
inductive Served (P : LineCheck) (Q : ReloadCheck) : World → Prop where
  | start (conf : Conf) (env : Env) (host : Str) : conf.IsRead →
      Served P Q (World.start conf env host)
  | predefine {w w' : World} {n : Nat} : Served P Q w →
      execBasic n channelInitPredefined w = .ok ((), w') → Served P Q w'
  | step {w w' : World} {e : Event} : Served P Q w → e.meets P w = true → Step w e w' →
      Served P Q w'
  | reload {w w' : World} {n : Nat} {new : Conf} {valid : Bool} : Served P Q w → new.IsRead →
      Q w new valid = true → rehash n new valid w = .ok ((), w') → Served P Q w'

section

variable {P : LineCheck} {Q : ReloadCheck}

/-- What is kept by basic programs and by another configuration, is kept by a reload. -/
theorem rehash_keeps (hbasic : ∀ n (p : Basic Unit) w w', execBasic n p w = .ok ((), w') → J w → J w')
    (hconf : ∀ w conf, J w → J { w with conf })
    (hrun : rehash n new valid w = .ok ((), w')) (hw : J w) : J w' := by
  have hmsg (n : Nat) (p : Msg Unit) (w w' : World) (hrun : execMsg n p w = .ok ((), w')) :
      J w → J w' :=
    hbasic n (liftM p) w w' ((congrFun (execBasic_ofMsg n p) w).trans hrun)
  obtain ⟨w₁, hnotice, hrest⟩ := rehash_run hrun
  have h₁ := hmsg _ _ _ _ hnotice hw
  rcases hrest with ⟨-, rfl⟩ | ⟨-, w₂, w₃, hinfo, hinit, hend⟩
  · exact hconf w₁ _ h₁
  · have h₂ := hbasic _ _ _ _ hinfo (hconf w₁ _ h₁)
    have h₃ := hbasic _ _ _ _ hinit (hconf w₂ _ h₂)
    exact hmsg _ _ _ _ hend h₃

/-- What holds at the start and is kept by basic programs, by another configuration and by
events, holds in the whole run. -/
theorem Served.induct (h : Served P Q w)
    (hstart : ∀ conf env host, J (World.start conf env host))
    (hbasic : ∀ n (p : Basic Unit) w w', execBasic n p w = .ok ((), w') → J w → J w')
    (hconf : ∀ w conf, J w → J { w with conf })
    (hstep : ∀ w e w', Step w e w' → J w → J w') : J w := by
  induction h with
  | start conf env host _ => exact hstart conf env host
  | predefine _ hrun ih => exact hbasic _ _ _ _ hrun ih
  | step _ _ hevent ih => exact hstep _ _ _ hevent ih
  | reload _ _ _ hrun ih => exact rehash_keeps hbasic hconf hrun ih

theorem Served.linked (h : Served P Q w) : Linked w := by
  refine h.induct Linked.start (fun n p w w' hrun hl => ?_) (fun w conf hl => ?_)
    fun _ _ _ hstep hl => hstep.linked hl
  · exact ((execBasic_ends (closer_settled n) (basic_settled p fun _ _ hs => hs)).of_ok hrun).linked hl
  · exact ⟨hl.slot, hl.cell, hl.link, hl.home⟩

theorem Served.tidy (h : Served P Q w) : Tidy w := by
  have hind := Tidy.indifferent
  induction h with
  | start conf env host _ => exact .start conf env host
  | predefine _ hrun ih =>
    exact (execBasic_ends (closesTidily.rightAbout _) (hind.predefines _ ih)).of_ok hrun
  | step hserved _ hstep ih => exact ih.step hserved.linked hstep
  | reload _ _ _ hrun ih =>
    exact rehash_leads hind.toUpkeep hind.toUpkeep closesTidily.rightAbout hind.predefines
      ih hrun (fun _ _ h => h) fun _ _ h => h

theorem Served.runIf (h : Served P Q w) {es : List Event}
    (hrun : Event.runIf P n es w = some w') : Served P Q w' := by
  induction es generalizing w with
  | nil =>
    obtain rfl : w = w' := Option.some.inj hrun
    exact h
  | cons e es ih =>
    simp only [Event.runIf] at hrun
    split_ifs at hrun with hmeets
    obtain ⟨w₁, hstep, hrest⟩ := Option.bind_eq_some_iff.mp hrun
    exact ih (h.step hmeets (Event.step_of_runAll hstep)) hrest

end

end Ngircd
