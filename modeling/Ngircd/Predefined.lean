import Ngircd.Reloads

/-!
# The mode strings of predefined channels

`Channel_InitPredefined` evaluates the `Modes` strings of a CHANNEL section when it creates
the channel, and releases each of them right after.  The section itself stays, with the
number of its strings, and the next reload visits it again: nothing tells it that the strings
are gone but the channel, if it still exists.
-/

namespace Ngircd

open Lib Prog

variable {n : Nat} {w w' : World} {sections more : List ConfChannel} {conf : Conf} {α : Type}
  {events : List Event}

/-! ## Visits -/

/-- The loop over the mode strings of a section, numbered: each is evaluated and then
released.  It tells which ones. -/
def useModes (ch : ChanRef) (conf : ConfChannel) : List (Str × Nat) → Basic (List Nat)
  | [] => return []
  | (modes, k) :: rest => do
      predefineModes ch conf modes
      let used ← useModes ch conf rest
      return k :: used

/-- `predefineChannel`, with the numbers of the strings that it uses up. -/
def visitChannel (conf : ConfChannel) : Basic (List Nat) := do
  if conf.name.isEmpty then return []
  if !channelIsValidName conf.name then return []
  match (← getWorld).channelSearch conf.name with
  | some ch => do
      setKeyFile ch conf.keyfile conf.keys
      return []
  | none => do
      let ch ← channelCreate conf.name
      let _ ← channelModeAdd ch 'P'
      if !conf.topic.isEmpty then channelSetTopic ch none conf.topic
      let used ← useModes ch conf conf.modes.zipIdx
      setKeyFile ch conf.keyfile conf.keys
      return used

/-- A visit of a section by `Channel_InitPredefined`: its number in `Conf_Channels`, the
state that the visit finds, and the strings that it uses up. -/
structure Visit where
  number : Nat
  conf : ConfChannel
  before : World
  used : List Nat

/-- The loop over the sections, which are numbered from `i`. -/
def visitChannels (n : Nat) : Nat → List ConfChannel → M (List Visit)
  | _, [] => pure []
  | i, conf :: rest => do
      let before ← get
      let used ← execBasic n (visitChannel conf)
      let visits ← visitChannels n (i + 1) rest
      return { number := i, conf, before, used } :: visits

/-- `Channel_InitPredefined`, with its visits. -/
def initPredefinedVisits (n : Nat) : M (List Visit) := do
  let visits ← visitChannels n 0 (← get).conf.channels
  execBasic n predefineServerChannel
  return visits

/-- `Rehash`, with the visits. -/
def rehashVisits (n : Nat) (new : Conf) (valid : Bool) : M (List Visit) := do
  execMsg n (logSnotice "Re-reading configuration NOW!")
  let old := (← get).conf
  update fun w => { w with conf := new }
  if valid then
    execBasic n (do clientSetInfo (← thisServer) new.serverInfo)
    update fun w => { w with conf :=
      { w.conf with serverName := old.serverName, maxNickLength := old.maxNickLength } }
    let visits ← initPredefinedVisits n
    execMsg n (logSnotice "Re-reading of configuration done.")
    return visits
  else return []

/-! ## Nothing else has changed -/

theorem useModes_erase (ch : ChanRef) (conf : ConfChannel) (k : Nat) (rest : Basic Unit)
    (modes : List Str) :
    (useModes ch conf (modes.zipIdx k) >>= fun _ => rest) =
      (Prog.forEach (fun m => predefineModes ch conf m) modes >>= fun _ => rest) := by
  induction modes generalizing k with
  | nil => rfl
  | cons m modes ih =>
    simp only [List.zipIdx_cons, useModes, Prog.forEach, bind_assoc, pure_bind, ih]

theorem visitChannel_erase (conf : ConfChannel) :
    (visitChannel conf >>= fun _ => pure ()) = predefineChannel conf := by
  have hmodes (ch : ChanRef) := useModes_erase ch conf 0 (setKeyFile ch conf.keyfile conf.keys)
    conf.modes
  have hunit (p : Basic Unit) : (p >>= fun _ => pure ()) = p := bind_pure p
  unfold visitChannel predefineChannel
  by_cases hempty : conf.name.isEmpty = true
  · rw [if_pos hempty, if_pos hempty]
    rfl
  rw [if_neg hempty, if_neg hempty]
  by_cases hvalid : (!channelIsValidName conf.name) = true
  · rw [if_pos hvalid, if_pos hvalid]
    rfl
  rw [if_neg hvalid, if_neg hvalid, bind_assoc]
  refine congrArg _ (funext fun w => ?_)
  cases w.channelSearch conf.name with
  | some ch => simp only [bind_assoc, pure_bind, hunit]
  | none =>
    simp only [bind_assoc]
    refine congrArg _ (funext fun ch => congrArg _ (funext fun _ => ?_))
    by_cases htopic : (!conf.topic.isEmpty) = true
    · simp only [if_pos htopic, bind_assoc, pure_bind, hunit, hmodes]
    · simp only [if_neg htopic, bind_assoc, pure_bind, hunit, hmodes]

/-- The visits leave the state that the loop leaves. -/
theorem visitChannels_erase (n i : Nat) (sections : List ConfChannel) :
    (visitChannels n i sections >>= fun _ => pure ()) =
      execBasic n (Prog.forEach predefineChannel sections) := by
  induction sections generalizing i with
  | nil => rfl
  | cons conf rest ih =>
    have hvisit : execBasic n (predefineChannel conf) =
        (execBasic n (visitChannel conf) >>= fun _ => pure ()) := by
      rw [← visitChannel_erase]
      exact Prog.run_bind _ _ _
    have hrest : execBasic n (Prog.forEach predefineChannel (conf :: rest)) =
        (execBasic n (predefineChannel conf) >>= fun _ =>
          execBasic n (Prog.forEach predefineChannel rest)) :=
      Prog.run_bind _ _ _
    rw [hrest, hvisit, ← ih (i + 1)]
    simp only [visitChannels, bind_assoc, pure_bind]
    rfl

theorem initPredefinedVisits_erase (n : Nat) :
    (initPredefinedVisits n >>= fun _ => pure ()) = execBasic n channelInitPredefined := by
  have hrest (w : World) : execBasic n (do
      Prog.forEach predefineChannel w.conf.channels
      predefineServerChannel) =
      (visitChannels n 0 w.conf.channels >>= fun _ => execBasic n predefineServerChannel) := by
    refine (Prog.run_bind _ _ _).trans ?_
    rw [show Prog.run (stepBasic (closer n)) (Prog.forEach predefineChannel w.conf.channels) =
      (visitChannels n 0 w.conf.channels >>= fun _ => pure ()) from
        (visitChannels_erase n 0 _).symm, bind_assoc]
    rfl
  funext w
  have hread : execBasic n channelInitPredefined w = execBasic n (do
      Prog.forEach predefineChannel w.conf.channels
      predefineServerChannel) w := rfl
  have hunit (m : M Unit) : (m >>= fun _ => pure ()) = m := bind_pure m
  rw [hread, hrest]
  simp only [initPredefinedVisits, bind_assoc, pure_bind, hunit]
  rfl

/-- Without its record, a reload with the visits is `Rehash`. -/
theorem rehashVisits_erase (n : Nat) (new : Conf) (valid : Bool) :
    (rehashVisits n new valid >>= fun _ => pure ()) = rehash n new valid := by
  have hunit (m : M Unit) : (m >>= fun _ => pure ()) = m := bind_pure m
  unfold rehashVisits rehash
  cases valid with
  | false => simp only [bind_assoc, pure_bind, Bool.false_eq_true, if_false]
  | true => simp only [← initPredefinedVisits_erase, bind_assoc, pure_bind, if_true, hunit]

/-! ## What a visit uses up -/

/-- The section names a channel that can be created and does not exist. -/
def ConfChannel.missing (conf : ConfChannel) (w : World) : Bool :=
  !conf.name.isEmpty && channelIsValidName conf.name && (w.channelSearch conf.name).isNone

section

variable {i k : Nat} {conf : ConfChannel} {used : List Nat} {v : Visit} {visits : List Visit}

theorem useModes_used (ch : ChanRef) (conf : ConfChannel) (w : World) (l : List (Str × Nat)) :
    (useModes ch conf l).wp (basicWp (.within fun _ => Settled) anyFault)
      (fun used _ => used = l.map Prod.snd) w := by
  induction l generalizing w with
  | nil => rfl
  | cons m l ih =>
    simp only [useModes, wp_bind]
    refine basic_settled _ fun _ w₁ _ => ?_
    rw [wp_bind]
    refine wp_mono (fun used _ hused => ?_) (ih w₁)
    exact congrArg (m.2 :: ·) hused

/-- A visit uses up all strings of the section if the channel is missing, and none
otherwise. -/
theorem visitChannel_used (hrun : execBasic n (visitChannel conf) w = .ok (used, w')) :
    used = if conf.missing w then List.range conf.modes.length else [] := by
  refine (execBasic_ends (closer_settled n) (Q := fun used _ => used =
    if conf.missing w then List.range conf.modes.length else []) ?_).of_ok hrun
  unfold visitChannel ConfChannel.missing
  by_cases hempty : conf.name.isEmpty = true
  · rw [if_pos hempty]
    simp [hempty]
  rw [if_neg hempty]
  by_cases hvalid : (!channelIsValidName conf.name) = true
  · rw [if_pos hvalid]
    simp [show channelIsValidName conf.name = false by simpa using hvalid]
  rw [if_neg hvalid, wp_bind, liftM_msg_basic]
  simp only [wp_ofLeave, wp_ofMsg, wp_getWorld]
  cases hsearch : w.channelSearch conf.name with
  | some ch =>
    rw [wp_bind]
    refine basic_settled _ fun _ _ _ => ?_
    simp
  | none =>
    have hall : (conf.modes.zipIdx).map Prod.snd = List.range conf.modes.length := by
      simp [List.range_eq_range']
    have hmissing : (!conf.name.isEmpty && channelIsValidName conf.name &&
        (none : Option ChanRef).isNone) = true := by
      simp_all
    rw [if_pos hmissing]
    rw [wp_bind]
    refine basic_settled _ fun ch _ _ => ?_
    rw [wp_bind]
    refine basic_settled _ fun _ w₁ _ => ?_
    by_cases htopic : (!conf.topic.isEmpty) = true
    on_goal 1 =>
      rw [if_pos htopic, wp_bind]
      refine basic_settled _ fun _ w₂ _ => ?_
    on_goal 2 => rw [if_neg htopic]
    all_goals
      rw [wp_bind]
      refine wp_mono (fun used w₂ hused => ?_) (useModes_used ch conf _ _)
      rw [wp_bind]
      exact basic_settled _ fun _ _ _ => hused.trans hall

/-- What is true of each visit of a pass over the sections. -/
structure Visit.Right (v : Visit) (sections : List ConfChannel) : Prop where
  conf : sections[v.number]? = some v.conf
  used : v.used = if v.conf.missing v.before then List.range v.conf.modes.length else []

theorem visitChannels_right (before : List ConfChannel)
    (hrun : visitChannels n before.length sections w = .ok (visits, w')) :
    ∀ v ∈ visits, v.Right (before ++ sections) := by
  induction sections generalizing before w w' visits with
  | nil =>
    obtain ⟨rfl, -⟩ := Prod.mk.inj (Except.ok.inj hrun)
    exact fun v hv => nomatch hv
  | cons conf rest ih =>
    unfold visitChannels at hrun
    obtain ⟨w₀, w₁, hget, hrun⟩ := Exec.bind_eq_ok.mp hrun
    obtain ⟨rfl, rfl⟩ := Prod.mk.inj (Except.ok.inj hget)
    obtain ⟨used, w₂, hvisit, hrun⟩ := Exec.bind_eq_ok.mp hrun
    obtain ⟨later, w₃, hrest, hrun⟩ := Exec.bind_eq_ok.mp hrun
    obtain ⟨rfl, -⟩ := Prod.mk.inj (Except.ok.inj hrun)
    intro v hv
    rcases List.mem_cons.mp hv with rfl | hv
    · exact ⟨by simp, visitChannel_used hvisit⟩
    · have hright := ih (before ++ [conf]) (by simpa using hrest) v hv
      simpa using hright

theorem initPredefinedVisits_right (hrun : initPredefinedVisits n w = .ok (visits, w')) :
    ∀ v ∈ visits, v.Right w.conf.channels := by
  unfold initPredefinedVisits at hrun
  obtain ⟨w₀, w₁, hget, hrun⟩ := Exec.bind_eq_ok.mp hrun
  obtain ⟨rfl, rfl⟩ := Prod.mk.inj (Except.ok.inj hget)
  obtain ⟨visits', w₂, hvisits, hrun⟩ := Exec.bind_eq_ok.mp hrun
  obtain ⟨-, w₃, -, hrun⟩ := Exec.bind_eq_ok.mp hrun
  obtain ⟨rfl, -⟩ := Prod.mk.inj (Except.ok.inj hrun)
  exact visitChannels_right [] hvisits

theorem Visit.Right.append (h : v.Right sections) :
    v.Right (sections ++ more) where
  conf := by
    have hlt := (List.getElem?_eq_some_iff.mp h.conf).1
    rw [List.getElem?_append_left hlt]
    exact h.conf
  used := h.used

end

/-! ## Runs -/

/-- The runs of the daemon with the visits of sections so far: it starts with any
configuration, events happen, and it reads its configuration again.  A reload adds the
sections that it reads to those that are there, valid or not. -/
inductive VisitRun : List Visit → World → Prop where
  | start {n : Nat} {visits : List Visit} {w : World} (conf : Conf) (env : Env) (host : Str) :
      initPredefinedVisits n (World.start conf env host) = .ok (visits, w) → VisitRun visits w
  | step {visits : List Visit} {w w' : World} {e : Event} : VisitRun visits w → Step w e w' →
      VisitRun visits w'
  | reload {visits new : List Visit} {w w' : World} {n : Nat} {conf : Conf} {valid : Bool}
      {sections : List ConfChannel} : VisitRun visits w →
      conf.channels = w.conf.channels ++ sections →
      rehashVisits n conf valid w = .ok (new, w') → VisitRun (visits ++ new) w'

section

variable {valid : Bool} {visits new : List Visit}

theorem Steady.channels (h : Steady w w') : w'.conf.channels = w.conf.channels := by
  have hconf := congrArg Conf.channels h.conf
  exact hconf

theorem execBasic_channels {p : Basic α} {a : α}
    (hrun : execBasic n p w = .ok (a, w')) : w'.conf.channels = w.conf.channels :=
  ((execBasic_ends (closer_settled n) (basic_settled p fun _ _ h => h)).of_ok hrun).channels

theorem execMsg_channels {p : Msg α} {a : α} (hrun : execMsg n p w = .ok (a, w')) :
    w'.conf.channels = w.conf.channels :=
  ((execMsg_ends (closer_settled n) (msg_settled p fun _ _ h => h)).of_ok hrun).channels

theorem initPredefinedVisits_channels (hrun : initPredefinedVisits n w = .ok (visits, w')) :
    w'.conf.channels = w.conf.channels := by
  refine execBasic_channels (p := channelInitPredefined) (n := n) (a := ()) ?_
  rw [← initPredefinedVisits_erase]
  exact Exec.bind_eq_ok.mpr ⟨visits, w', hrun, rfl⟩

/-- A reload leaves the sections of the configuration it has read, and its visits are right
about them. -/
theorem rehashVisits_right (hrun : rehashVisits n conf valid w = .ok (new, w')) :
    w'.conf.channels = conf.channels ∧ ∀ v ∈ new, v.Right conf.channels := by
  unfold rehashVisits at hrun
  obtain ⟨⟨⟩, w₁, -, hrun⟩ := Exec.bind_eq_ok.mp hrun
  obtain ⟨old, w₂, hget, hrun⟩ := Exec.bind_eq_ok.mp hrun
  obtain ⟨rfl, rfl⟩ := Prod.mk.inj (Except.ok.inj hget)
  obtain ⟨⟨⟩, w₂, hset, hrun⟩ := Exec.bind_eq_ok.mp hrun
  obtain ⟨-, rfl⟩ := Prod.mk.inj (Except.ok.inj hset)
  cases valid with
  | false =>
    obtain ⟨rfl, rfl⟩ := Prod.mk.inj (Except.ok.inj hrun)
    exact ⟨rfl, fun v hv => nomatch hv⟩
  | true =>
    rw [if_pos rfl] at hrun
    obtain ⟨⟨⟩, w₃, hinfo, hrun⟩ := Exec.bind_eq_ok.mp hrun
    obtain ⟨⟨⟩, w₄, hback, hrun⟩ := Exec.bind_eq_ok.mp hrun
    obtain ⟨-, rfl⟩ := Prod.mk.inj (Except.ok.inj hback)
    obtain ⟨visits, w₅, hvisits, hrun⟩ := Exec.bind_eq_ok.mp hrun
    obtain ⟨⟨⟩, w₆, hdone, hrun⟩ := Exec.bind_eq_ok.mp hrun
    obtain ⟨rfl, rfl⟩ := Prod.mk.inj (Except.ok.inj hrun)
    have hchannels : w₃.conf.channels = conf.channels := execBasic_channels hinfo
    refine ⟨?_, fun v hv => ?_⟩
    · exact (execMsg_channels hdone).trans ((initPredefinedVisits_channels hvisits).trans hchannels)
    · rw [← hchannels]
      exact initPredefinedVisits_right hvisits v hv

/-- The sections stay where they are, so that a number always means the same section. -/
theorem VisitRun.right (h : VisitRun visits w) : ∀ v ∈ visits, v.Right w.conf.channels := by
  induction h with
  | start conf env host hrun =>
    intro v hv
    rw [initPredefinedVisits_channels hrun]
    exact initPredefinedVisits_right hrun v hv
  | step _ hstep ih =>
    have hconf := congrArg Conf.channels hstep.conf
    intro v hv
    exact hconf ▸ ih v hv
  | reload _ hsections hrun ih =>
    obtain ⟨hchannels, hnew⟩ := rehashVisits_right hrun
    intro v hv
    rw [hchannels]
    rcases List.mem_append.mp hv with hv | hv
    · rw [hsections]
      exact (ih v hv).append
    · exact hnew v hv

/-- The strings that a visit evaluates and releases: the number of the section and the number
of the string. -/
def Visit.strings (v : Visit) : List (Nat × Nat) := v.used.map (v.number, ·)

theorem Visit.strings_nodup {v : Visit} (h : v.Right sections) :
    v.strings.Nodup := by
  unfold Visit.strings
  refine List.Nodup.map (fun _ _ heq => (Prod.mk.inj heq).2) ?_
  rw [h.used]
  split_ifs
  · exact List.nodup_range
  · exact List.nodup_nil

/-- Two visits use up the same string if and only if both find the channel of one section
missing, and the section has strings. -/
theorem Visit.disjoint_iff {v v' : Visit} (h : v.Right sections)
    (h' : v'.Right sections) :
    List.Disjoint v.strings v'.strings ↔
      ¬ (v.number = v'.number ∧ v.conf.modes ≠ [] ∧ v.conf.missing v.before = true ∧
        v'.conf.missing v'.before = true) := by
  have hmem : ∀ {v : Visit}, v.Right sections → ∀ s k, (s, k) ∈ v.strings ↔
      s = v.number ∧ v.conf.missing v.before = true ∧ k < v.conf.modes.length := by
    intro v hv s k
    unfold Visit.strings
    rw [hv.used]
    split_ifs with hmissing
    · simp [hmissing, and_comm, eq_comm]
    · simp [hmissing]
  constructor
  · rintro hdisjoint ⟨hnumber, hmodes, hmissing, hmissing'⟩
    have hconf : v'.conf = v.conf := by
      have := h'.conf
      rw [← hnumber, h.conf] at this
      exact (Option.some.inj this).symm
    have hlength : 0 < v.conf.modes.length := List.length_pos_iff.mpr hmodes
    refine hdisjoint ((hmem h v.number 0).mpr ⟨rfl, hmissing, hlength⟩)
      ((hmem h' v.number 0).mpr ⟨hnumber, hmissing', ?_⟩)
    rwa [hconf]
  · rintro hnot ⟨s, k⟩ hk hk'
    obtain ⟨rfl, hmissing, hlt⟩ := (hmem h s k).mp hk
    obtain ⟨hnumber, hmissing', -⟩ := (hmem h' v.number k).mp hk'
    refine hnot ⟨hnumber, ?_, hmissing, hmissing'⟩
    exact List.length_pos_iff.mp (Nat.zero_lt_of_lt hlt)

/-- Over a whole run, each mode string is evaluated and released at most once if and only if no
visit of a section that has strings finds its channel missing, after an earlier one did. -/
theorem modes_used_once_iff (h : VisitRun visits w) :
    (visits.flatMap Visit.strings).Nodup ↔
      visits.Pairwise fun v v' => v.number = v'.number → v.conf.modes ≠ [] →
        v.conf.missing v.before = true → v'.conf.missing v'.before = false := by
  have hright := h.right
  rw [List.nodup_flatMap, and_iff_right fun v hv => Visit.strings_nodup (hright v hv)]
  refine List.Pairwise.iff_of_mem fun {v v'} hv hv' => ?_
  refine (Visit.disjoint_iff (hright v hv) (hright v' hv')).trans ?_
  simp only [not_and, Bool.not_eq_true]

end

/-! ## A run that uses a string twice -/

/-- A start, events, and a reload of the same configuration without sections. -/
def startAndReload (conf : Conf) (events : List Event) : Option (List Visit × World) :=
  match initPredefinedVisits 1 (World.start conf {} "localhost") with
  | .ok (visits, w) =>
    (Event.runAll 1 events w).bind fun w₁ =>
      match rehashVisits 1 w₁.conf true w₁ with
      | .ok (new, w') => some (visits ++ new, w')
      | .error _ => none
  | .error _ => none

theorem VisitRun.runAll {visits : List Visit} (h : VisitRun visits w)
    (hrun : Event.runAll n events w = some w') : VisitRun visits w' := by
  induction events generalizing w with
  | nil =>
    obtain rfl : w = w' := Option.some.inj hrun
    exact h
  | cons e events ih =>
    obtain ⟨w₁, hstep, hrest⟩ := Event.runAll_cons hrun
    exact ih (h.step hstep) hrest

theorem visitRun_startAndReload {visits : List Visit}
    (h : startAndReload conf events = some (visits, w)) : VisitRun visits w := by
  unfold startAndReload at h
  split at h
  · rename_i visits₀ w₀ hstart
    obtain ⟨w₁, hevents, h⟩ := Option.bind_eq_some_iff.mp h
    split at h
    · rename_i new w₂ hreload
      obtain ⟨rfl, rfl⟩ := Prod.mk.inj (Option.some.inj h)
      have hrun := (VisitRun.start conf {} "localhost" hstart).runAll hevents
      exact hrun.reload (List.append_nil _).symm hreload
    · cases h
  · cases h

/-- An operator, and a predefined channel with a mode string. -/
def persistentConf : Conf :=
  { opers := [{ name := "o", pwd := "p", mask := none }]
    channels := [{ name := "#a", key := [], autojoin := false, modes := ["+t"] }] }

/-- An operator joins the predefined channel, takes its mode P away and leaves. -/
def persistentGone : List Event :=
  [.accept 1 "127.0.0.1", .line 1 "NICK ann" [], .line 1 "USER a 0 * :A" [], .line 1 "OPER o p" [],
    .line 1 "JOIN #a" [], .line 1 "MODE #a -P" [], .line 1 "PART #a" []]

/-- If the channel stays, a reload leaves the strings alone. -/
theorem modes_used_once_kept : ∃ visits w, VisitRun visits w ∧
    visits.map Visit.strings = [[(0, 0)], []] ∧ (visits.flatMap Visit.strings).Nodup := by
  obtain ⟨⟨visits, w⟩, hw, hstrings, hmissing⟩ : ∃ r ∈ startAndReload persistentConf [],
      r.1.map Visit.strings = [[(0, 0)], []] ∧
        r.1.map (fun v => v.conf.missing v.before) = [true, false] := by
    decide +kernel
  have hvisits := visitRun_startAndReload hw
  refine ⟨visits, w, hvisits, hstrings, (modes_used_once_iff hvisits).mpr ?_⟩
  obtain ⟨v, rest, rfl, -, hrest⟩ := List.map_eq_cons_iff.mp hmissing
  obtain ⟨v', rest', rfl, hkept, hnil⟩ := List.map_eq_cons_iff.mp hrest
  obtain rfl := List.map_eq_nil_iff.mp hnil
  exact List.pairwise_pair.mpr fun _ _ _ => hkept

/-- When the operator has removed the channel, the reload evaluates and releases the string
again that the start has released. -/
theorem modes_used_twice : ∃ visits w, VisitRun visits w ∧
    visits.map Visit.strings = [[(0, 0)], [(0, 0)]] ∧
    ¬ (visits.flatMap Visit.strings).Nodup := by
  obtain ⟨⟨visits, w⟩, hw, hstrings⟩ : ∃ r ∈ startAndReload persistentConf persistentGone,
      r.1.map Visit.strings = [[(0, 0)], [(0, 0)]] := by
    decide +kernel
  refine ⟨visits, w, visitRun_startAndReload hw, hstrings, ?_⟩
  rw [List.flatMap_def, hstrings]
  decide

end Ngircd
