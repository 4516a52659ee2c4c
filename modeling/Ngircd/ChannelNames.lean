import Ngircd.ChannelUpkeep
import Ngircd.Names

/-!
# Names of channels

`Channel_Join` and `Channel_InitPredefined` create a channel only under a name that
`Channel_IsValidName` accepts and that no other channel has.  CHANINFO does not look at
the name: it creates channels with names that nobody could join, and it stores only the
first 50 characters of a name that it has looked for as a whole.
-/

namespace Ngircd

open Lib

variable {r client : ClientRef} {d : Client} {req : Request}

/-- The channels on the list have valid names, and each of them another one. -/
structure ChannelNames (w : World) : Prop where
  nodup : w.chans.order.Nodup
  fresh : ∀ ch ∈ w.chans.order, ch < w.chans.nextRef
  valid : ∀ ch ∈ w.chans.order, ∃ c, w.chans.heap ch = some c ∧ channelIsValidName c.name = true
  unique : ∀ ch ∈ w.chans.order, ∀ ch' ∈ w.chans.order, ∀ c c', w.chans.heap ch = some c →
    w.chans.heap ch' = some c' → strcaseEq c.name c'.name = true → ch' = ch

section

variable {w w' : World} {ch : ChanRef} {c c' : Channel} {name : Str}

/-- A valid name is stored as it is. -/
theorem strlcpy_of_valid (h : channelIsValidName name = true) :
    strlcpy name channelNameLen = name := by
  simp only [channelIsValidName, Bool.and_eq_true, decide_eq_true_eq] at h
  have hlength : name.length ≤ channelNameLen - 1 := by
    have := h.1.2
    omega
  exact List.take_of_length_le hlength

/-- A channel that is not found has no name like that. -/
theorem World.name_of_channelSearch (h : w.channelSearch name = none)
    (hch : ch ∈ w.chans.order) (hc : w.chans.heap ch = some c) : strcaseEq name c.name = false := by
  have hskip := List.find?_eq_none.mp h ch hch
  simpa [hc] using hskip

namespace ChannelNames

section

variable (h : ChannelNames w)
include h

theorem of_chans (hsame : w'.chans = w.chans) : ChannelNames w' := by
  obtain ⟨hnodup, hfresh, hvalid, hunique⟩ := h
  rw [← hsame] at hnodup hfresh hvalid hunique
  exact ⟨hnodup, hfresh, hvalid, hunique⟩

/-- A channel changes and keeps its name. -/
theorem setChannel (hc : w.chans.heap ch = some c) (hname : c'.name = c.name) :
    ChannelNames (w.setChannel ch (some c')) := by
  have hback (k : ChanRef) (d : Channel) (hd : (w.setChannel ch (some c')).chans.heap k = some d) :
      ∃ d₀, w.chans.heap k = some d₀ ∧ d.name = d₀.name := by
    by_cases hk : k = ch
    · subst hk
      simp only [World.setChannel, Function.update_self, Option.some.injEq] at hd
      exact ⟨c, hc, hd ▸ hname⟩
    · simp only [World.setChannel, Function.update_of_ne hk] at hd
      exact ⟨d, hd, rfl⟩
  refine ⟨h.nodup, h.fresh, fun k hk => ?_, fun k hk k' hk' d d' hd hd' heq => ?_⟩
  · obtain ⟨d, hd, hvalid⟩ := h.valid k hk
    by_cases hkc : k = ch
    · subst hkc
      obtain rfl : c = d := Option.mem_unique hc hd
      exact ⟨c', by simp [World.setChannel], hname ▸ hvalid⟩
    · exact ⟨d, by simpa [World.setChannel, hkc] using hd, hvalid⟩
  · obtain ⟨e, he, hname_e⟩ := hback k d hd
    obtain ⟨e', he', hname_e'⟩ := hback k' d' hd'
    rw [hname_e, hname_e'] at heq
    exact h.unique k hk k' hk' e e' he he' heq

theorem dropChannel (ch : ChanRef) : ChannelNames (w.dropChannel ch) := by
  have hkept (k : ChanRef) (hk : k ∈ w.chans.order.erase ch) :
      k ∈ w.chans.order ∧ (w.dropChannel ch).chans.heap k = w.chans.heap k := by
    have hne : k ≠ ch := by
      rintro rfl
      exact h.nodup.not_mem_erase hk
    exact ⟨List.mem_of_mem_erase hk, Function.update_of_ne hne _ _⟩
  refine ⟨h.nodup.erase ch, fun k hk => h.fresh k (hkept k hk).1, fun k hk => ?_,
    fun k hk k' hk' d d' hd hd' heq => ?_⟩
  · rw [(hkept k hk).2]
    exact h.valid k (hkept k hk).1
  · rw [(hkept k hk).2] at hd
    rw [(hkept k' hk').2] at hd'
    exact h.unique k (hkept k hk).1 k' (hkept k' hk').1 d d' hd hd' heq

/-- A new channel with a valid name that no channel has. -/
theorem addChannel (hvalid : channelIsValidName name = true) (hsearch : w.channelSearch name = none)
    (hname : c.name = strlcpy name channelNameLen) :
    ChannelNames (w.addChannel c) := by
  rw [strlcpy_of_valid hvalid] at hname
  have hnew : w.chans.nextRef ∉ w.chans.order := fun hmem => Nat.lt_irrefl _ (h.fresh _ hmem)
  have hself : (w.addChannel c).chans.heap w.chans.nextRef = some c := Function.update_self _ _ _
  have hother (k : ChanRef) (hk : k ∈ w.chans.order) :
      (w.addChannel c).chans.heap k = w.chans.heap k :=
    Function.update_of_ne (fun hkn : k = w.chans.nextRef => hnew (hkn ▸ hk)) _ _
  refine ⟨List.nodup_cons.mpr ⟨hnew, h.nodup⟩, fun k hk => ?_, fun k hk => ?_,
    fun k hk k' hk' d d' hd hd' heq => ?_⟩
  · rcases List.mem_cons.mp hk with rfl | hk
    · exact Nat.lt_succ_self _
    · exact Nat.lt_succ_of_lt (h.fresh k hk)
  · rcases List.mem_cons.mp hk with rfl | hk
    · exact ⟨c, hself, hname ▸ hvalid⟩
    · rw [hother k hk]
      exact h.valid k hk
  · rcases List.mem_cons.mp hk with rfl | hk <;> rcases List.mem_cons.mp hk' with rfl | hk'
    · rfl
    · -- The new name is not the name of a channel that was there.
      obtain rfl : c = d := Option.mem_unique hself hd
      rw [hother k' hk'] at hd'
      rw [hname, World.name_of_channelSearch hsearch hk' hd'] at heq
      exact nomatch heq
    · obtain rfl : c = d' := Option.mem_unique hself hd'
      rw [hother k hk] at hd
      rw [hname, strcaseEq_comm, World.name_of_channelSearch hsearch hk hd] at heq
      exact nomatch heq
    · rw [hother k hk] at hd
      rw [hother k' hk'] at hd'
      exact h.unique k hk k' hk' d d' hd hd' heq

end

/-- Whatever happens to channels that are there upholds it. -/
theorem upkeep : ChannelUpkeep ChannelNames where
  closes _ _ hk := hk
  same _ _ hsame h := h.of_chans hsame
  editChannel _ _ _ _ hf hc h := h.setChannel hc (hf.name _)
  chanModeAdd _ _ _ _ hc h := h.setChannel hc rfl
  chanModeDel _ _ _ _ _ hc h := h.setChannel hc rfl
  memberModes _ _ _ _ h := ⟨h.nodup, h.fresh, h.valid, h.unique⟩
  removeClient kind ch client origin reason inform w hw := by
    have hframe : LeaveFrame (fun _ => Keeps ChannelNames) fun w w' =>
        ChannelNames w → ChannelNames w' :=
      { refl := fun _ h => h
        trans := fun _ _ _ h₁ h₂ h => h₂ (h₁ h)
        queue := fun w _ _ _ _ h => h.of_chans (w := w) rfl
        fail := fun w _ _ _ _ hk h => hk.2 (h.of_chans (w := w) rfl)
        editConn := fun w _ _ h => h.of_chans (w := w) rfl
        cloak := fun w _ _ _ _ h => h.of_chans (w := w) rfl
        removeMember := fun _ _ _ h => ⟨h.nodup, h.fresh, h.valid, h.unique⟩
        dropChannel := fun _ ch h => h.dropChannel ch
        misc := fun w _ h => h.of_chans (w := w) rfl
        servers := fun w _ h => h.of_chans (w := w) rfl }
    exact hframe.wp (fun _ => trivial) _ fun _ _ hkeep => hkeep hw

theorem setModes (w : World) (ch : ChanRef) (c : Channel) (modes : Str)
    (hc : w.chans.heap ch = some c) (h : ChannelNames w) :
    ChannelNames (w.setChannel ch (some { c with modes })) :=
  h.setChannel hc rfl

theorem channelJoin (client : ClientRef) (name : Str) :
    UpholdsBasic ChannelNames (channelJoin client name) := by
  refine (ChannelUpkeep.upkeep upkeep).joins (fun w ch _ _ _ h => ?_)
    fun w c hvalid hsearch hnew h => ?_
  · exact ⟨h.nodup, h.fresh, h.valid, h.unique⟩
  · have hadded := h.addChannel hvalid hsearch hnew.name
    exact ⟨hadded.nodup, hadded.fresh, hadded.valid, hadded.unique⟩

theorem relists : MindsNoLists ChannelNames := fun _ _ _ _ hd hc h => h.setChannel hc hd.name

theorem ircMode (client : ClientRef) (req : Request) :
    UpholdsBasic ChannelNames (ircMode client req) := by
  have hup := ChannelUpkeep.upkeep upkeep
  refine hup.ircMode client req (ChannelUpkeep.applyUserMode upkeep) (fun ch => ?_)
    fun r sign m pattern _ _ => hup.editList relists sign m r pattern
  refine .bind (hup.basicMsg _) fun _ => .bind (fun w h => ?_) fun _ => .pure _
  exact ⟨fun c hc => h.setModes w ch c _ hc, fun _ => trivial⟩

theorem greetUser (client : ClientRef) : UpholdsBasic ChannelNames (greetUser client) :=
  (ChannelUpkeep.upkeep upkeep).greetUser client (ircMode client) fun req =>
    (ChannelUpkeep.upkeep upkeep).ircJoin client req channelJoin

theorem closes (n : Nat) : (upholding ChannelNames).RightAbout anyFault (closer n) :=
  closer_upholds (ChannelUpkeep.shutting upkeep).connClose n

theorem predefines : UpholdsBasic ChannelNames channelInitPredefined :=
  channelInitPredefined_upholds (ChannelUpkeep.upkeep upkeep) ircMode setModes
    fun _ _ _ hvalid hsearch hnew h => h.addChannel hvalid hsearch hnew.name

end ChannelNames

/-! ## Lines -/

/-- CHANINFO is about a channel with a valid name, unless it is refused anyway. -/
def chaninfoNamed : LineCheck := fun _ _ _ handler req =>
  handler != .chaninfo || req.pfx.isNone || decide (req.argc < 2 ∨ req.argc = 4 ∨ req.argc > 5) ||
    channelIsValidName (req.arg 0)

/-- CHANINFO is for servers. -/
theorem Dispatched.type_of_chaninfo {cmd : Command}
    (h : Dispatched w r d req cmd) (hhandler : cmd.handler = .chaninfo) : d.type = .server := by
  have htable : ∀ cmd ∈ myCommands, cmd.handler = .chaninfo → cmd.mask = .server := by decide
  have hallowed := h.allowed
  rw [htable cmd (List.mem_of_find?_eq_some h.found) hhandler] at hallowed
  simpa [TypeMask.allows] using hallowed

theorem ChannelNames.ircChaninfo
    (h : ChannelNames w) (hclient : w.heap client = some d) (htype : d.type = .server)
    (hnamed : req.pfx = none ∨ (req.argc < 2 ∨ req.argc = 4 ∨ req.argc > 5) ∨
      channelIsValidName (req.arg 0) = true) :
    (ircChaninfo client req).wp (basicWp (upholding ChannelNames) anyFault)
      (fun _ => ChannelNames) w := by
  have hup := ChannelUpkeep.upkeep upkeep
  have hrefused (hargc : req.argc < 2 ∨ req.argc = 4 ∨ req.argc > 5) :
      (Ngircd.ircChaninfo client req).wp (basicWp (upholding ChannelNames) anyFault)
        (fun _ => ChannelNames) w := by
    unfold Ngircd.ircChaninfo
    rw [if_pos hargc]
    exact hup.basicMsg _ w h
  rcases hnamed with hpfx | hargc | hvalid
  · by_cases hargc : req.argc < 2 ∨ req.argc = 4 ∨ req.argc > 5
    · exact hrefused hargc
    · unfold Ngircd.ircChaninfo
      rw [if_neg hargc]
      -- A server does not say who the sender is.
      refine hup.withSender_of h ?_
      rintro d' sender hd' (⟨hother, -⟩ | ⟨-, p, hp, -⟩)
      · obtain rfl : d = d' := Option.mem_unique hclient hd'
        exact absurd htype hother
      · exact nomatch hpfx.symm.trans hp
  · exact hrefused hargc
  · refine hup.ircChaninfo client req setModes (fun _ _ hsearch hnew hv => ?_) w h
    exact hv.addChannel hvalid hsearch hnew.name

theorem ChannelNames.step {e : Event} (hl : Linked w) (h : ChannelNames w)
    (hmeets : e.meets chaninfoNamed w = true) (hstep : Step w e w') : ChannelNames w' := by
  refine ChannelUpkeep.step upkeep closes hl h hmeets channelJoin greetUser ?_ ?_ ?_ hstep
  · intro i r d cmd req w₁ hi hpenalty hd hhandler hmeet hw₁
    have hheap : w₁.heap = w.heap := by cases hpenalty <;> rfl
    refine hw₁.ircChaninfo (hheap ▸ hi.cell) (hd.type_of_chaninfo hhandler) ?_
    simpa [chaninfoNamed, or_assoc] using hmeet
  · intro i r d cmd req w₁ _ _ _ _ _ hw₁
    have hup := ChannelUpkeep.upkeep upkeep
    exact (hup.ircInvite r req (Upkeep.addInvite relists)).toBasic w₁ hw₁
  · exact fun _ r _ _ req w₁ _ _ _ _ _ hw₁ => ircMode r req w₁ hw₁

/-- As long as no server sends a CHANINFO with a name that is not valid, every channel on the
list has a valid name, and no two channels have the same one, upper and lower case being the
same. -/
theorem channel_names_valid_unique (h : Served chaninfoNamed (fun _ _ _ => true) w) :
    w.chans.order.Nodup ∧
    (∀ ch ∈ w.chans.order, ∃ c, w.chans.heap ch = some c ∧ channelIsValidName c.name = true) ∧
    ∀ ch ∈ w.chans.order, ∀ ch' ∈ w.chans.order, ∀ c c', w.chans.heap ch = some c →
      w.chans.heap ch' = some c' → strcaseEq c.name c'.name = true → ch' = ch := by
  have hnames : ChannelNames w := by
    induction h with
    | start conf env host _ => exact ⟨List.nodup_nil, nofun, nofun, nofun⟩
    | predefine _ hrun ih =>
      exact (execBasic_ends (ChannelNames.closes _) (ChannelNames.predefines _ ih)).of_ok hrun
    | step hserved hmeets hstep ih => exact ih.step hserved.linked hmeets hstep
    | reload _ _ _ hrun ih =>
      have hup := ChannelUpkeep.upkeep ChannelNames.upkeep
      exact rehash_leads hup hup ChannelNames.closes ChannelNames.predefines ih hrun
        (fun _ _ h => h.of_chans rfl) fun _ _ h => h.of_chans rfl
  exact ⟨hnames.nodup, hnames.valid, hnames.unique⟩

end

/-- A server tells about a channel, and a user of it joins another one. -/
def chaninfoLink : List Event :=
  peerLink ++ [.line 1 ":irc.b CHANINFO #a +t" [], .line 1 ":irc.b NICK ann 1 a host 1 + :A" [],
    .line 1 ":irc.b NJOIN #b :ann" []]

theorem channel_names_valid_unique_chaninfoLink : ∃ w,
    Served chaninfoNamed (fun _ _ _ => true) w ∧ w.chans.order = [1, 0] ∧
    ∃ c, w.chans.heap 0 = some c ∧ channelIsValidName c.name = true := by
  obtain ⟨w, hw, horder⟩ : ∃ w ∈ Event.runIf chaninfoNamed 1 chaninfoLink
      (World.start peerConf {} "localhost"), w.chans.order = [1, 0] := by
    decide +kernel
  have hserved : Served chaninfoNamed (fun _ _ _ => true) w :=
    Served.runIf (.start peerConf {} "localhost" (.inl rfl)) hw
  refine ⟨w, hserved, horder, (channel_names_valid_unique hserved).2.1 0 ?_⟩
  rw [horder]
  decide

/-- CHANINFO creates a channel whose name is not valid; and with a name that is too long it
creates the same channel twice. -/
theorem chaninfo_names_not_valid_unique :
    (∃ w c, Served (fun _ _ _ _ _ => true) (fun _ _ _ => false) w ∧ 0 ∈ w.chans.order ∧
      w.chans.heap 0 = some c ∧ channelIsValidName c.name = false) ∧
    ∃ w c c', Served (fun _ _ _ _ _ => true) (fun _ _ _ => false) w ∧ 0 ∈ w.chans.order ∧
      1 ∈ w.chans.order ∧ w.chans.heap 0 = some c ∧ w.chans.heap 1 = some c' ∧
      c.name = c'.name := by
  let long : Str := '#' :: List.replicate 50 'x'
  constructor
  · obtain ⟨w, hw, hlisted, c, hc, hinvalid⟩ : ∃ w ∈ Event.runIf (fun _ _ _ _ _ => true) 1
        (peerLink ++ [.line 1 ":irc.b CHANINFO bad +t" []]) (World.start peerConf {} "localhost"),
        0 ∈ w.chans.order ∧ ∃ c ∈ w.chans.heap 0, channelIsValidName c.name = false := by
      decide +kernel
    exact ⟨w, c, Served.runIf (.start peerConf {} "localhost" (.inl rfl)) hw, hlisted, hc, hinvalid⟩
  · obtain ⟨w, hw, hlisted, hlisted', c, hc, c', hc', hname⟩ :
        ∃ w ∈ Event.runIf (fun _ _ _ _ _ => true) 1
          (peerLink ++ [.line 1 (":irc.b CHANINFO " ++ long ++ " +t") [],
            .line 1 (":irc.b CHANINFO " ++ long ++ " +t") []])
          (World.start peerConf {} "localhost"), 0 ∈ w.chans.order ∧ 1 ∈ w.chans.order ∧
          ∃ c ∈ w.chans.heap 0, ∃ c' ∈ w.chans.heap 1, c.name = c'.name := by
      decide +kernel
    exact ⟨w, c, c', Served.runIf (.start peerConf {} "localhost" (.inl rfl)) hw, hlisted, hlisted',
      hc, hc', hname⟩

end Ngircd
