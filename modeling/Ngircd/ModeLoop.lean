import Ngircd.ModeReads
import Ngircd.Peers

/-!
# The modes of a channel

`Channel_Mode` changes modes, key and limit of a channel and the flags of its
members.  What it does to them is a sequence of changes, and a request of a
server does just the changes its letters and parameters stand for.
-/

namespace Ngircd

open Lib Prog

variable {w w' : World} {ch : ChanRef} {c d : Channel} {cl : ClientRef}
  {flags letters rest name : Str} {m : Char} {args args' : List Str} {more : List (Bool × Char)}

/-! ## Changes -/

/-- The flags of a member of a channel. -/
def Channels.flagsOf (t : Channels) (ch : ChanRef) (cl : ClientRef) : Option Str :=
  (t.cl2chan.find? (·.isFor ch cl)).map (·.modes)

/-- What MODE is about. -/
structure ModeState where
  modes : Str
  key : Str
  limit : Nat
  flags : ClientRef → Option Str

/-- What MODE is about, for a channel and its members. -/
def Channels.modeState (t : Channels) (ch : ChanRef) (c : Channel) : ModeState where
  modes := c.modes
  key := c.key
  limit := c.maxusers
  flags := t.flagsOf ch

/-- Set or unset a mode. -/
def changeModes (set : Bool) (modes : Str) (m : Char) : Str :=
  if set then modesAdd modes m else modesDel modes m

/-- A change by one letter of a MODE request. -/
inductive Change where
  | mode (set : Bool) (m : Char)
  | setKey (key : Str)
  | unsetKey
  | limit (n : Nat)
  | member (set : Bool) (m : Char) (cl : ClientRef)

namespace Change

/-- The state after a change.  Modes with a parameter are set anew. -/
def apply : Change → ModeState → ModeState
  | .mode set m, s => { s with modes := changeModes set s.modes m }
  | .setKey key, s => { s with modes := modesAdd (modesDel s.modes 'k') 'k', key }
  | .unsetKey, s => { s with modes := modesDel s.modes 'k' }
  | .limit n, s => { s with modes := modesAdd (modesDel s.modes 'l') 'l', limit := n }
  | .member set m cl, s =>
    { s with flags := Function.update s.flags cl ((s.flags cl).map (changeModes set · m)) }

/-- Does the change set something? -/
def sets : Change → Bool
  | .mode set _ => set
  | .setKey _ => true
  | .unsetKey => false
  | .limit _ => true
  | .member set _ _ => set

/-- The letter of a change. -/
def letter : Change → Char
  | .mode _ m => m
  | .setKey _ => 'k'
  | .unsetKey => 'k'
  | .limit _ => 'l'
  | .member _ m _ => m

/-- A change that a request of a user can make. -/
def Proper : Change → Prop
  | .mode set m => m ∈ "RsziVMmnNQtOP".toList ∨ m = 'l' ∧ set = false
  | .setKey key => key ≠ [] ∧ ' ' ∉ key ∧ key.length < clientPassLen
  | .unsetKey => True
  | .limit n => 0 < n ∧ n < 0xFFFF
  | .member _ m _ => m ∈ "qaohv".toList

end Change

/-! ## States that differ in the modes of one channel -/

/-- The state is as `w`, but for the modes of the channel `ch`, which are now `s`, and for
lists of masks and topics of channels. -/
structure ModesAt (w : World) (ch : ChanRef) (s : ModeState) (w' : World) : Prop extends
    Placid w w' where
  conf : w'.conf = w.conf
  channels : w'.chans.order = w.chans.order
  names : ∀ k, (w'.chans.heap k).map (·.name) = (w.chans.heap k).map (·.name)
  pairs : w'.chans.cl2chan.map (fun e => (e.client, e.channel)) =
    w.chans.cl2chan.map fun e => (e.client, e.channel)
  state : ∃ c, w'.chans.heap ch = some c ∧ w'.chans.modeState ch c = s

namespace ModesAt

variable {w'' : World} {s : ModeState}

theorem start (hc : w.chans.heap ch = some c) : ModesAt w ch (w.chans.modeState ch c) w :=
  ⟨Placid.refl w, rfl, rfl, fun _ => rfl, rfl, c, hc, rfl⟩

section

variable (h : ModesAt w ch s w')
include h

theorem quiet (hq : Quiet w' w'') : ModesAt w ch s w'' where
  toPlacid := h.toPlacid.trans hq.toPlacid
  conf := hq.conf.trans h.conf
  channels := by rw [hq.chans, h.channels]
  names k := by rw [hq.chans, h.names]
  pairs := by rw [hq.chans, h.pairs]
  state := by
    rw [hq.chans]
    exact h.state

theorem withCounts (counts : Str → Nat × Nat × Nat) : ModesAt w ch s (w'.withCounts counts) :=
  ⟨{ h.toPlacid with }, h.conf, h.channels, h.names, h.pairs, h.state⟩

/-- The members are the same. -/
theorem member_before {e : Cl2Chan} (he : e ∈ w'.chans.cl2chan) :
    ∃ e' ∈ w.chans.cl2chan, e'.client = e.client := by
  have hpair : (e.client, e.channel) ∈ w.chans.cl2chan.map fun e => (e.client, e.channel) := by
    rw [← h.pairs]
    exact List.mem_map_of_mem he
  obtain ⟨e', he', heq⟩ := List.mem_map.mp hpair
  exact ⟨e', he', congrArg Prod.fst heq⟩

theorem healthy (hw : Healthy w) : Healthy w' := by
  refine h.healthy_of_reached (fun e he => ?_) hw
  obtain ⟨e', he', hclient⟩ := h.member_before he
  rw [← hclient]
  exact hw.member e' he'

/-- Channels are found as before. -/
theorem channelSearch (name : Str) : w'.channelSearch name = w.channelSearch name := by
  unfold World.channelSearch
  rw [h.channels]
  congr 1
  funext k
  have hname := h.names k
  cases hold : w.chans.heap k with
  | none =>
    rw [hold, Option.map_none, Option.map_eq_none_iff] at hname
    rw [hname]
  | some c =>
    rw [hold, Option.map_some, Option.map_eq_some_iff] at hname
    obtain ⟨c', hnew, hsame⟩ := hname
    rw [hnew]
    exact congrArg (strcaseEq name) hsame

end

/-- A message changes nothing. -/
theorem message {α : Type} (h : ModesAt w ch s w') {p : Msg α} (hp : Tame p w')
    {Q : α → World → Prop} (hQ : ∀ a w'', ModesAt w ch s w'' → Q a w'') : p.wp quietWp Q w' :=
  wp_mono (fun a w'' hq => hQ a w'' (h.quiet hq)) hp

section

variable (h : ModesAt w ch s w') (hc : w'.chans.heap ch = some c)
include h hc

/-- A change of the structure of the channel. -/
theorem setChannel (hname : d.name = c.name) :
    ModesAt w ch { s with modes := d.modes, key := d.key, limit := d.maxusers }
      (w'.setChannel ch (some d)) where
  toPlacid := { h.toPlacid with }
  conf := h.conf
  channels := h.channels
  names k := by
    rw [← h.names k]
    by_cases hk : k = ch
    · subst hk
      simp [World.setChannel, hc, hname]
    · simp [World.setChannel, hk]
  pairs := h.pairs
  state := by
    obtain ⟨c', hc', rfl⟩ := h.state
    exact ⟨d, by simp [World.setChannel], rfl⟩

/-- Lists and topic may change. -/
theorem storeOther (hname : d.name = c.name) (hmodes : d.modes = c.modes)
    (hkey : d.key = c.key) (hlimit : d.maxusers = c.maxusers) :
    ModesAt w ch s (w'.setChannel ch (some d)) := by
  obtain ⟨c', hc', rfl⟩ := h.state
  obtain rfl : c' = c := Option.mem_unique hc' hc
  have hset := h.setChannel hc hname
  rw [hmodes, hkey, hlimit] at hset
  exact hset

theorem storeKey (key : Str) :
    ModesAt w ch { s with key } (w'.setChannel ch (some { c with key })) := by
  obtain ⟨c', hc', rfl⟩ := h.state
  obtain rfl : c' = c := Option.mem_unique hc' hc
  exact h.setChannel hc (d := { c' with key }) rfl

theorem storeLimit (limit : Nat) :
    ModesAt w ch { s with limit } (w'.setChannel ch (some { c with maxusers := limit })) := by
  obtain ⟨c', hc', rfl⟩ := h.state
  obtain rfl : c' = c := Option.mem_unique hc' hc
  exact h.setChannel hc (d := { c' with maxusers := limit }) rfl

end

/-- The flags after a change of those of one member. -/
theorem flagsOf_setFlags (t : Channels) (ch : ChanRef) (cl : ClientRef) (f : Str → Str) :
    { t with cl2chan := t.cl2chan.map fun (e : Cl2Chan) =>
        if e.isFor ch cl then { e with modes := f e.modes } else e }.flagsOf ch =
      Function.update (t.flagsOf ch) cl ((t.flagsOf ch cl).map f) := by
  have hsame (e : Cl2Chan) (k : ClientRef) :
      (if e.isFor ch cl then { e with modes := f e.modes } else e).isFor ch k = e.isFor ch k := by
    split <;> rfl
  funext k
  unfold Channels.flagsOf
  simp only [List.find?_map, Function.comp_def, hsame, Option.map_map]
  by_cases hk : k = cl
  · subst hk
    rw [Function.update_self]
    cases hfind : t.cl2chan.find? (·.isFor ch k) with
    | none => rfl
    | some e =>
      have he : e.isFor ch k = true := List.find?_some hfind
      simp [he]
  · rw [Function.update_of_ne hk]
    cases hfind : t.cl2chan.find? (·.isFor ch k) with
    | none => rfl
    | some e =>
      have he : e.isFor ch cl = false := by
        have hek : e.isFor ch k = true := List.find?_some hfind
        simp only [Cl2Chan.isFor, Bool.and_eq_true, beq_iff_eq] at hek
        simp [Cl2Chan.isFor, hek.2, hk]
      simp [he]

variable (h : ModesAt w ch s w')
include h

/-- A change of the flags of a member. -/
theorem setFlags (cl : ClientRef) (f : Str → Str) :
    ModesAt w ch { s with flags := Function.update s.flags cl ((s.flags cl).map f) }
      (w'.setMembers (w'.chans.cl2chan.map fun e =>
        if e.isFor ch cl then { e with modes := f e.modes } else e)) where
  toPlacid := { h.toPlacid with }
  conf := h.conf
  channels := h.channels
  names := h.names
  pairs := by
    rw [← h.pairs]
    simp only [World.setMembers, List.map_map]
    refine List.map_congr_left fun e _ => ?_
    simp only [Function.comp_apply]
    split <;> rfl
  state := by
    obtain ⟨c', hc', rfl⟩ := h.state
    refine ⟨c', hc', ?_⟩
    exact congrArg (fun flags => ({ w'.chans.modeState ch c' with flags } : ModeState))
      (flagsOf_setFlags w'.chans ch cl f)

/-- Reading the channel. -/
theorem chan :
    ∃ c, w'.chans.heap ch = some c ∧ c.modes = s.modes ∧ c.key = s.key := by
  obtain ⟨c, hc, rfl⟩ := h.state
  exact ⟨c, hc, rfl, rfl⟩

/-- Reading the flags of a member. -/
theorem member (hcl : s.flags cl = some flags) :
    ∃ e, w'.getCl2Chan ch cl = some e ∧ e.modes = flags := by
  obtain ⟨c, -, rfl⟩ := h.state
  exact Option.map_eq_some_iff.mp hcl

theorem isMember (cl : ClientRef) :
    w'.channelIsMemberOf ch cl = (s.flags cl).isSome := by
  obtain ⟨c, -, rfl⟩ := h.state
  simp only [World.channelIsMemberOf, World.getCl2Chan, Channels.modeState, Channels.flagsOf,
    Option.isSome_map]

end ModesAt

/-! ## Effects of one letter -/

section

variable {s : ModeState}

/-- Set or unset a mode of a channel. -/
def changeMode (set : Bool) (ch : ChanRef) (m : Char) : Basic Bool :=
  if set then channelModeAdd ch m else channelModeDel ch m

/-- Set or unset a flag of a member. -/
def changeFlag (set : Bool) (ch : ChanRef) (cl : ClientRef) (m : Char) : Basic Bool :=
  if set then channelUserModeAdd ch cl m else channelUserModeDel ch cl m

theorem changeMode_at (h : ModesAt w ch s w') (set : Bool) (m : Char) :
    (changeMode set ch m).wp calmWp (fun changed w'' => changed = (s.modes.contains m != set) ∧
      ModesAt w ch { s with modes := changeModes set s.modes m } w'') w' := by
  obtain ⟨c, hc, rfl⟩ := h.state
  cases set with
  | true =>
    simp only [changeMode, if_true, channelModeAdd, channelHasMode, wp_msg, wp_derefChan,
      onChannel_of_some hc, wp_pure, wp_editChannel]
    refine ⟨by simp [Channel.hasMode, Channels.modeState], ?_⟩
    exact h.setChannel hc (d := { c with modes := modesAdd c.modes m }) rfl
  | false =>
    simp only [changeMode, Bool.false_eq_true, if_false, channelModeDel, channelHasMode, wp_msg,
      wp_derefChan, onChannel_of_some hc, wp_pure, wp_editChannel]
    refine ⟨by simp [Channel.hasMode, Channels.modeState], ?_⟩
    exact h.setChannel hc (d := { c with modes := modesDel c.modes m }) rfl

theorem changeFlag_at (h : ModesAt w ch s w') (set : Bool) (m : Char)
    (hcl : s.flags cl = some flags) :
    (changeFlag set ch cl m).wp calmWp (fun changed w'' => changed = (flags.contains m != set) ∧
      ModesAt w ch ((Change.member set m cl).apply s) w'') w' := by
  obtain ⟨e, he, rfl⟩ := h.member hcl
  cases set with
  | true =>
    simp only [changeFlag, if_true, channelUserModeAdd, channelUserHasMode, channelUserModes,
      wp_msg, wp_getWorld, he, wp_pure, wp_setUserModes]
    exact ⟨by simp, h.setFlags cl _⟩
  | false =>
    simp only [changeFlag, Bool.false_eq_true, if_false, channelUserModeDel, channelUserHasMode,
      channelUserModes, wp_msg, wp_getWorld, he, wp_pure, wp_setUserModes]
    exact ⟨by simp, h.setFlags cl _⟩

/-! ## Requests of servers -/

/-- The parameters a change takes from those of a request; `args'` are left. -/
def Change.Takes (p : World) (s : ModeState) : Change → List Str → List Str → Prop
  | .mode _ _, args, args' => args' = args
  | .setKey key, args, args' => args = key :: args'
  | .unsetKey, args, args' => args' = args.tail
  | .limit n, args, args' => args = natStr n :: args'
  | .member _ _ cl, args, args' =>
    ∃ nick, args = nick :: args' ∧ p.clientSearch nick = some cl ∧ s.flags cl ≠ none

/-- The state once `Channel_Mode` has validated the letter of a change: a new key or limit is
stored, and the mode is taken away so that it is set anew. -/
def Change.validated : Change → ModeState → ModeState
  | .setKey key, s => { s with modes := modesDel s.modes 'k', key }
  | .limit n, s => { s with modes := modesDel s.modes 'l', limit := n }
  | _, s => s

/-- The validation of the letter of a change asks for just this change. -/
def Change.Asked : Change → ModeChange → Prop
  | .member _ m cl, a => a = .member m cl
  | δ, a => ∃ arg, a = .channel δ.letter arg

variable {r : ModeRequest} {power : ModePower}

theorem ModePower.of_machine (h : power.machine = true) : power.trusted = true ∧
    power.ownerOr = true ∧ power.adminOr = true ∧ power.opOr = true ∧ power.halfopOr = true := by
  simp [trusted, ownerOr, adminOr, opOr, halfopOr, h]

/-- Where `Channel_Mode` treats the letters without a parameter. -/
theorem plainLetter_cases (hm : m ∈ "RsziVMmnNQtOP".toList) :
    (m = 'R' ∨ m = 's' ∨ m = 'z') ∨
      (¬(m = 'R' ∨ m = 's' ∨ m = 'z') ∧ "iVMmnNQt".toList.contains m = true) ∨
      (¬(m = 'R' ∨ m = 's' ∨ m = 'z') ∧ ¬"iVMmnNQt".toList.contains m = true ∧ m ≠ 'k' ∧ m ≠ 'l' ∧
        (m = 'O' ∨ m = 'P')) := by
  have hall : ∀ m ∈ "RsziVMmnNQtOP".toList, (m = 'R' ∨ m = 's' ∨ m = 'z') ∨
      (¬(m = 'R' ∨ m = 's' ∨ m = 'z') ∧ "iVMmnNQt".toList.contains m = true) ∨
      (¬(m = 'R' ∨ m = 's' ∨ m = 'z') ∧ ¬"iVMmnNQt".toList.contains m = true ∧ m ≠ 'k' ∧ m ≠ 'l' ∧
        (m = 'O' ∨ m = 'P')) := by decide
  exact hall m hm

/-- Where `Channel_Mode` treats the flags of members. -/
theorem memberLetter_cases (hm : m ∈ "qaohv".toList) :
    ¬(m = 'R' ∨ m = 's' ∨ m = 'z') ∧ ¬"iVMmnNQt".toList.contains m = true ∧ m ≠ 'k' ∧ m ≠ 'l' ∧
      ¬(m = 'O' ∨ m = 'P') ∧ (m = 'q' ∨ m = 'a' ∨ m = 'o' ∨ m = 'h' ∨ m = 'v') := by
  have hall : ∀ m ∈ "qaohv".toList, ¬(m = 'R' ∨ m = 's' ∨ m = 'z') ∧
      ¬"iVMmnNQt".toList.contains m = true ∧ m ≠ 'k' ∧ m ≠ 'l' ∧ ¬(m = 'O' ∨ m = 'P') ∧
      (m = 'q' ∨ m = 'a' ∨ m = 'o' ∨ m = 'h' ∨ m = 'v') := by decide
  exact hall m hm

section

variable (r : ModeRequest) (type : ClientType) (power : ModePower) (set : Bool) (args : List Str)

theorem validateMode_key : validateMode r type power set 'k' args =
    if set then setKeyMode r power args else unsetKeyMode r power args := rfl

theorem validateMode_limit : validateMode r type power set 'l' args =
    if set then setLimitMode r power args else do return (← plainMode r power 'l', args) := rfl

theorem validateMode_member (hm : m ∈ "qaohv".toList) (howner : power.ownerOr = true)
    (hadmin : power.adminOr = true) (hop : power.opOr = true) :
    validateMode r type power set m args = liftM (memberMode r power m args) := by
  obtain ⟨h₁, h₂, hk, hl, h₃, h₄⟩ := memberLetter_cases hm
  simp only [validateMode, if_neg h₁, if_neg h₂, if_neg hk, if_neg hl, if_neg h₃, howner,
    hadmin, hop,
    Bool.not_true, Bool.false_eq_true, and_false, if_false, if_pos h₄]

end

/-- A server may make every change. -/
theorem validateMode_machine (h : ModesAt w r.ch s w') (hpower : power.machine = true) {δ : Change}
    (hδ : δ.Proper) (htakes : δ.Takes w s args args') :
    (validateMode r .server power δ.sets δ.letter args).wp calmWp
      (fun a w'' => δ.Asked a.1 ∧ a.2 = args' ∧ ModesAt w r.ch (δ.validated s) w'') w' := by
  obtain ⟨htrusted, howner, hadmin, hop, hhalfop⟩ := ModePower.of_machine hpower
  obtain ⟨c, hc, hmodes, hkey⟩ := h.chan
  cases δ with
  | mode set m =>
    obtain rfl : args' = args := htakes
    unfold validateMode
    rcases hδ with hm | ⟨rfl, rfl⟩
    · rcases plainLetter_cases hm with hm | ⟨hm, hm'⟩ | ⟨hm, hm', hk, hl, hm''⟩
      · simp only [Change.letter, if_pos hm, hop, plainMode, hhalfop, liftM_msg_basic]
        exact ⟨⟨[], rfl⟩, rfl, h⟩
      · simp only [Change.letter, if_neg hm, if_pos hm', plainMode, hhalfop]
        exact ⟨⟨[], rfl⟩, rfl, h⟩
      · simp only [Change.letter, if_neg hm, if_neg hm', if_neg hk, if_neg hl, if_pos hm'',
          operMode,
          htrusted, hop]
        cases set
        · exact ⟨⟨[], rfl⟩, rfl, h⟩
        · exact ⟨⟨[], rfl⟩, rfl, h⟩
    · simp only [Change.letter, Change.sets, plainMode, hhalfop]
      exact ⟨⟨[], rfl⟩, rfl, h⟩
  | setKey key =>
    obtain ⟨hne, hspace, hlength⟩ := hδ
    obtain rfl : args = key :: args' := htakes
    have hbad : ¬(key.isEmpty = true ∨ key.contains ' ' = true) := by simp [hne, hspace]
    have hcopy : strlcpy key clientPassLen = key := List.take_of_length_le (by omega)
    rw [Change.letter, validateMode_key, Change.sets, if_pos rfl, setKeyMode, if_neg hbad,
      if_pos hhalfop, wp_bind]
    refine wp_mono (fun _ w₁ h₁ => ?_) (changeMode_at h false 'k')
    obtain ⟨c₁, hc₁, -, -⟩ := h₁.2.chan
    have hstored := h₁.2.storeKey hc₁ key
    have hc₂ : (w₁.setChannel r.ch (some { c₁ with key })).chans.heap r.ch =
        some { c₁ with key } := by simp [World.setChannel]
    simp only [wp_msg, wp_editChannel, onChannel_of_some hc₁, hcopy, wp_derefChan,
      onChannel_of_some hc₂, wp_pure]
    exact ⟨⟨key, rfl⟩, trivial, hstored⟩
  | unsetKey =>
    obtain rfl : args' = args.tail := htakes
    rw [Change.letter, validateMode_key, Change.sets, if_neg Bool.false_ne_true, unsetKeyMode,
      if_pos hhalfop]
    simp only [channelHasMode, wp_msg, wp_derefChan, onChannel_of_some hc, wp_pure]
    exact ⟨⟨_, rfl⟩, trivial, h⟩
  | limit n =>
    obtain ⟨hpos, hlt⟩ := hδ
    obtain rfl : args = natStr n :: args' := htakes
    have hrange : ¬((n : Int) ≤ 0 ∨ 0xFFFF ≤ (n : Int)) := by omega
    rw [Change.letter, validateMode_limit, Change.sets, if_pos rfl, setLimitMode]
    simp only [atoi_natStr, if_neg hrange, hhalfop, if_true]
    rw [wp_bind]
    refine wp_mono (fun _ w₁ h₁ => ?_) (changeMode_at h false 'l')
    obtain ⟨c₁, hc₁, -, -⟩ := h₁.2.chan
    simp only [wp_bind, wp_editChannel, onChannel_of_some hc₁, wp_pure]
    exact ⟨⟨_, rfl⟩, trivial, h₁.2.storeLimit hc₁ n⟩
  | member set m cl =>
    obtain ⟨nick, rfl, hnick, hflags⟩ := htakes
    rw [Change.letter, validateMode_member _ _ _ _ _ hδ howner hadmin hop, memberMode]
    simp only [hhalfop, if_true, wp_msg, wp_getWorld, h.clientSearch, hnick]
    exact ⟨rfl, rfl, h⟩

variable {st : ModeRun}

/-- The record of a change with its parameter. -/
def ModeRun.record (st : ModeRun) (m : Char) (arg : Str) : ModeRun :=
  { st with
    theModes := strlcat st.theModes [m] commandLen
    theArgs := strlcat (strlcat st.theArgs " " commandLen) arg commandLen }

theorem applyMode_channel (h : ModesAt w r.ch s w') (m : Char) (arg : Str) :
    (applyMode r st (.channel m arg)).wp calmWp (fun a w'' =>
      a = ({ st with
        theModes := if s.modes.contains m != st.set then strlcat st.theModes [m] commandLen
          else st.theModes
        theArgs := if arg.isEmpty then st.theArgs
          else strlcat (strlcat st.theArgs " " commandLen) arg commandLen }, true) ∧
      ModesAt w r.ch { s with modes := changeModes st.set s.modes m } w'') w' := by
  have hbind : applyMode r st (.channel m arg) = changeMode st.set r.ch m >>= fun changed =>
      pure ({ st with
        theModes := if changed then strlcat st.theModes [m] commandLen else st.theModes
        theArgs := if arg.isEmpty then st.theArgs
          else strlcat (strlcat st.theArgs " " commandLen) arg commandLen }, true) := by
    simp only [applyMode, changeMode]
    split <;> rfl
  rw [hbind, wp_bind]
  refine wp_mono (fun changed w₁ hw₁ => ?_) (changeMode_at h st.set m)
  obtain ⟨rfl, hw₁⟩ := hw₁
  exact ⟨rfl, hw₁⟩

theorem applyMode_member (h : ModesAt w r.ch s w') (m : Char)
    (hflags : s.flags cl = some flags) {d : Client} (hd : w.heap cl = some d) :
    (applyMode r st (.member m cl)).wp calmWp (fun a w'' =>
      a = (if flags.contains m != st.set then st.record m d.nameOrStar else st, true) ∧
      ModesAt w r.ch ((Change.member st.set m cl).apply s) w'') w' := by
  have hmember : w'.channelIsMemberOf r.ch cl = true := by
    rw [h.isMember, hflags, Option.isSome_some]
  have hbind : ((do
      let changed ← changeFlag st.set r.ch cl m
      if !changed then return (st, true)
      return (st.record m (← clientID cl), true)) : Basic (ModeRun × Bool)).wp calmWp (fun a w'' =>
        a = (if flags.contains m != st.set then st.record m d.nameOrStar else st, true) ∧
        ModesAt w r.ch ((Change.member st.set m cl).apply s) w'') w' := by
    rw [wp_bind]
    refine wp_mono (fun changed w₁ hw₁ => ?_) (changeFlag_at h st.set m hflags)
    obtain ⟨rfl, hw₁⟩ := hw₁
    obtain ⟨host, hd₁⟩ := hw₁.heap_some hd
    by_cases hchanged : (flags.contains m != st.set) = true
    · simp only [hchanged, Bool.not_true, Bool.false_eq_true, if_false, if_true, wp_msg,
        wp_clientID, onClient_of_some hd₁, wp_pure]
      exact ⟨rfl, hw₁⟩
    · simp only [Bool.not_eq_true] at hchanged
      simp only [hchanged, Bool.not_false, if_true]
      exact ⟨rfl, hw₁⟩
  unfold applyMode
  simp only [wp_msg, wp_getWorld, hmember, Bool.not_true, Bool.false_eq_true, if_false]
  by_cases hset : st.set = true
  · rw [if_pos hset]
    rw [changeFlag, if_pos hset] at hbind
    exact hbind
  · rw [if_neg hset]
    rw [changeFlag, if_neg hset] at hbind
    exact hbind

/-- The structure of a member. -/
theorem ModesAt.client (hw : Healthy w) (h : ModesAt w ch s w')
    (hflags : s.flags cl = some flags) : ∃ d, w.heap cl = some d := by
  obtain ⟨e, he, -⟩ := h.member hflags
  have hisFor : e.isFor ch cl = true := List.find?_some he
  have hclient : e.client = cl := by
    simp only [Cl2Chan.isFor, Bool.and_eq_true, beq_iff_eq] at hisFor
    exact hisFor.2
  obtain ⟨d, k, kc, hd, -⟩ := (h.healthy hw).member e (List.mem_of_find?_eq_some he)
  rw [hclient] at hd
  obtain ⟨d₀, host, hd₀, -⟩ := h.heap_some_before hd
  exact ⟨d₀, hd₀⟩

/-- What is asked for is done. -/
theorem applyMode_asked (hw : Healthy w) {δ : Change} (h : ModesAt w r.ch (δ.validated s) w')
    (hset : st.set = δ.sets) {a : ModeChange} (hasked : δ.Asked a)
    (hmember : ∀ set m cl, δ = .member set m cl → s.flags cl ≠ none) :
    (applyMode r st a).wp calmWp
      (fun res w'' => res.2 = true ∧ res.1.set = st.set ∧ res.1.power = st.power ∧
        res.1.args = st.args ∧ ModesAt w r.ch (δ.apply s) w'') w' := by
  have hchannel (m : Char) (arg : Str)
      (happly : { δ.validated s with modes := changeModes st.set (δ.validated s).modes m } =
        δ.apply s) : (applyMode r st (.channel m arg)).wp calmWp
        (fun res w'' => res.2 = true ∧ res.1.set = st.set ∧ res.1.power = st.power ∧
          res.1.args = st.args ∧ ModesAt w r.ch (δ.apply s) w'') w' := by
    refine wp_mono (fun res w₁ hw₁ => ?_) (applyMode_channel h m arg)
    obtain ⟨rfl, hw₁⟩ := hw₁
    rw [happly] at hw₁
    exact ⟨rfl, rfl, rfl, rfl, hw₁⟩
  cases δ with
  | member set m cl =>
    obtain rfl : a = .member m cl := hasked
    obtain rfl : st.set = set := hset
    obtain ⟨flags, hflags⟩ := Option.ne_none_iff_exists'.mp (hmember _ m cl rfl)
    obtain ⟨d, hd⟩ := h.client hw hflags
    refine wp_mono (fun res w₁ hw₁ => ?_) (applyMode_member h m hflags hd)
    obtain ⟨rfl, hw₁⟩ := hw₁
    split
    · exact ⟨rfl, rfl, rfl, rfl, hw₁⟩
    · exact ⟨rfl, rfl, rfl, rfl, hw₁⟩
  | mode set m =>
    obtain ⟨arg, rfl⟩ := hasked
    exact hchannel m arg (by rw [hset]; rfl)
  | setKey key =>
    obtain ⟨arg, rfl⟩ := hasked
    exact hchannel 'k' arg (by rw [hset]; rfl)
  | unsetKey =>
    obtain ⟨arg, rfl⟩ := hasked
    exact hchannel 'k' arg (by rw [hset]; rfl)
  | limit n =>
    obtain ⟨arg, rfl⟩ := hasked
    exact hchannel 'l' arg (by rw [hset]; rfl)

/-- One letter of a server makes the change it stands for. -/
theorem modeLetter_machine (hw : Healthy w) (h : ModesAt w r.ch s w')
    (hpower : st.power.machine = true) {δ : Change} (hδ : δ.Proper) (hset : st.set = δ.sets)
    (htakes : δ.Takes w s st.args args') :
    (modeLetter r .server st δ.letter).wp calmWp
      (fun a w'' => a.2.1 = true ∧ a.1.set = st.set ∧ a.1.power = st.power ∧ a.1.args = args' ∧
        ModesAt w r.ch (δ.apply s) w'') w' := by
  obtain ⟨htrusted, -, -, -, -⟩ := ModePower.of_machine hpower
  have hlimit (n : Nat) : modeLimitReached .server n = false := rfl
  have hmember (set : Bool) (m : Char) (cl : ClientRef) (heq : δ = .member set m cl) :
      s.flags cl ≠ none := by
    subst heq
    obtain ⟨-, -, -, hflags⟩ := htakes
    exact hflags
  unfold modeLetter
  simp only [htrusted, if_true, hlimit, Bool.false_eq_true, and_false, if_false, wp_bind, wp_pure]
  rw [hset]
  refine wp_mono (fun a w₁ hw₁ => ?_) (validateMode_machine h hpower hδ htakes)
  obtain ⟨hasked, hargs, hw₁⟩ := hw₁
  rw [wp_bind]
  refine wp_mono (fun res w₂ hw₂ => ?_) (applyMode_asked hw hw₁ (by rfl) hasked hmember)
  exact ⟨hw₂.1, hw₂.2.1, hw₂.2.2.1, hw₂.2.2.2.1.trans hargs, hw₂.2.2.2.2⟩

/-- The letters of a string of modes, each with its sign. -/
def signed : Bool → Str → List (Bool × Char)
  | _, [] => []
  | set, m :: rest =>
    if m = '+' ∨ m = '-' then signed (decide (m = '+')) rest else (set, m) :: signed set rest

theorem signed_letters (set : Bool) (h : ∀ m ∈ letters, m ≠ '+' ∧ m ≠ '-') :
    signed set letters = letters.map (set, ·) := by
  induction letters with
  | nil => rfl
  | cons m rest ih =>
    obtain ⟨hplus, hminus⟩ := h m (.head _)
    rw [signed, if_neg (by simp [hplus, hminus]), ih fun x hx => h x (.tail m hx)]
    rfl

/-- Changes that take all the parameters of a request. -/
def TakesAll (w : World) : ModeState → List Change → List Str → Prop
  | _, [], args => args = []
  | s, δ :: δs, args => ∃ args', δ.Takes w s args args' ∧ TakesAll w (δ.apply s) δs args'

/-- The state after some changes. -/
def applyAll (δs : List Change) (s : ModeState) : ModeState := δs.foldl (fun s δ => δ.apply s) s

/-- A flag of a member ends the request if there is no parameter left. -/
theorem modeLetter_end (h : ModesAt w r.ch s w') (hpower : st.power.machine = true)
    (hm : m ∈ "qaohv".toList) (hargs : st.args = []) :
    (modeLetter r .server st m).wp calmWp (fun a w'' => a.2.1 = false ∧ ModesAt w r.ch s w'')
      w' := by
  obtain ⟨htrusted, howner, hadmin, hop, -⟩ := ModePower.of_machine hpower
  have hlimit (n : Nat) : modeLimitReached .server n = false := rfl
  unfold modeLetter
  simp only [htrusted, if_true, hlimit, Bool.false_eq_true, and_false, if_false, wp_bind,
    wp_pure, validateMode_member _ _ _ _ _ hm howner hadmin hop, hargs, memberMode]
  exact ⟨rfl, h⟩

/-- A request of a server makes the changes its letters stand for.  A flag of a member for
which no parameter is left ends it. -/
theorem channelModeLoop_machine (hw : Healthy w) (beyond : Str) {δs : List Change}
    (hproper : ∀ δ ∈ δs, δ.Proper)
    (hmore : ∀ x ∈ more.head?, x.2 ∈ "qaohv".toList) {n : Nat} (hn : rest.length < n)
    (h : ModesAt w r.ch s w') (hpower : st.power.machine = true)
    (hsigned : signed st.set rest = δs.map (fun δ => (δ.sets, δ.letter)) ++ more)
    (htakes : TakesAll w s δs st.args) :
    (channelModeLoop r .server beyond n st rest).wp calmWp
      (fun _ w'' => ModesAt w r.ch (applyAll δs s) w'') w' := by
  induction rest generalizing n δs s st w' with
  | nil =>
    obtain ⟨n, rfl⟩ := Nat.exists_eq_succ_of_ne_zero (Nat.ne_of_gt hn)
    have hnil : δs = [] := by
      have hempty := hsigned.symm
      simp only [signed, List.append_eq_nil_iff, List.map_eq_nil_iff] at hempty
      exact hempty.1
    subst hnil
    have hargs : st.args = [] := htakes
    simp only [channelModeLoop, hargs, nextModeChar]
    exact h
  | cons m rest ih =>
    obtain ⟨n, rfl⟩ := Nat.exists_eq_succ_of_ne_zero (Nat.ne_of_gt (Nat.zero_lt_of_lt hn))
    have hn' : rest.length < n := by simpa using hn
    simp only [channelModeLoop, nextModeChar]
    by_cases hsign : m = '+' ∨ m = '-'
    · rw [if_pos hsign]
      rw [signed, if_pos hsign] at hsigned
      exact ih hproper hn' h hpower hsigned htakes
    · rw [if_neg hsign, wp_bind]
      rw [signed, if_neg hsign] at hsigned
      cases δs with
      | nil =>
        -- The letter is the first of those that are left.
        have hm : m ∈ "qaohv".toList := hmore (st.set, m) (by simp [← show _ = more from hsigned])
        refine wp_mono (fun a w₁ hw₁ => ?_)
          (modeLetter_end h hpower hm (show st.args = [] from htakes))
        rw [hw₁.1, if_neg Bool.false_ne_true]
        exact hw₁.2
      | cons δ δs =>
        obtain ⟨args', htake, htakes⟩ := htakes
        simp only [List.map_cons, List.cons_append, List.cons.injEq, Prod.mk.injEq] at hsigned
        obtain ⟨⟨hset, rfl⟩, hsigned⟩ := hsigned
        refine wp_mono (fun a w₁ hw₁ => ?_)
          (modeLetter_machine hw h hpower (hproper δ (.head _)) hset htake)
        obtain ⟨hgo, hset', hpower', hargs', hw₁⟩ := hw₁
        rw [hgo, if_pos rfl]
        refine ih (fun ε hε => hproper ε (.tail _ hε)) hn' hw₁ ?_ ?_ ?_
        · rw [hpower', hpower]
        · rw [hset', hsigned]
        · rw [hargs']
          exact htakes

/-! ## Whole requests of servers -/

/-- The announcement of the changes. -/
theorem announceModes_tame (hw : Healthy w) (hcalm : w.Calm) (hclient : w.Reached r.client)
    {d : Client} (horigin : w.heap r.origin = some d)
    (hc : w.chans.heap r.ch = some c) (st : ModeRun) (ok : Bool) :
    Tame (announceModes r st ok) w := by
  obtain ⟨cl, hop, hopc, hcl, hreached⟩ := hclient
  have hchan {w' : World} (hq : Quiet w w') : w'.chans.heap r.ch = some c := by rw [hq.chans, hc]
  have htext {w' : World} (hq : Quiet w w') : (do
      return format "MODE %s %s%s" [← channelName r.ch, trimSign st.theModes, st.theArgs] :
        Msg Str).wp quietWp (fun text w'' =>
          text = format "MODE %s %s%s" [c.name, trimSign st.theModes, st.theArgs] ∧
            w'' = w') w' := by
    simp only [channelName, wp_bind, wp_derefChan, onChannel_of_some (hchan hq), wp_pure, and_self]
  have hderef {w' : World} (hq : Quiet w w') :
      (derefChan r.ch).wp quietWp (fun c' w'' => c' = c ∧ w'' = w') w' := by
    simp only [wp_derefChan, onChannel_of_some (hchan hq), and_self]
  -- Members are told in the name of a client that is there.
  have hmembers {w' : World} (hq : Quiet w w') {pfx : ClientRef} {p : Client}
      (hp : w.heap pfx = some p) (a : Bool) (text : Str) : Tame (do
        ircWriteStrChannelPrefix r.client r.ch pfx false text
        return a) w' := by
    obtain ⟨host, hp'⟩ := hq.heap_some hp
    exact .bind (ircWriteStrChannelPrefix_tame (hq.healthy hw) (hq.calm hcalm) hp' _ _ _ _)
      fun _ _ _ => .pure a
  have hservers {w' : World} (hq : Quiet w w') {pfx : ClientRef} {p : Client}
      (hp : w.heap pfx = some p) (text : Str) :
      Tame (ircWriteStrServersPrefix (some r.client) pfx text) w' := by
    obtain ⟨host, hp'⟩ := hq.heap_some hp
    exact ircWriteStrServersPrefix_tame (hq.healthy hw) (hq.calm hcalm) hp' _ _
  unfold announceModes
  refine .ite (.pure ok) (.read (a := w) (by simp) (.read (a := cl.type) ?_ (.ite ?_ ?_)))
  · simp [onClient_of_some hcl]
  · refine .read (hderef (.refl w)) (.ite (.pure _) (.read (htext (.refl w)) ?_))
    refine .bind (hservers (.refl w) horigin _) fun _ w₁ hq₁ => ?_
    exact .read (htext hq₁) (hmembers hq₁ horigin ok _)
  · obtain ⟨p, hp⟩ : ∃ p, w.heap (if w.conf.operServerMode then w.thisServer else r.origin) =
      some p := by
      split
      · exact hw.this
      · exact ⟨d, horigin⟩
    refine .read (htext (.refl w)) (.bind (ircWriteStrClientPrefix_reached hw hcalm
      ⟨cl, hop, hopc, hcl, hreached⟩ hp _) fun ok' w₁ hq₁ => ?_)
    refine .read (hderef hq₁) (.ite (.read (htext hq₁) (.bind (hservers hq₁ hp _)
      fun _ w₂ hq₂ => ?_)) ?_)
    · exact .read (htext (hq₁.trans hq₂)) (hmembers (hq₁.trans hq₂) hp ok' _)
    · exact .read (htext hq₁) (hmembers hq₁ hp ok' _)

/-- The client that sends a command from behind a link. -/
structure World.Sender (w : World) (r : ClientRef) (name : Str) (o : ClientRef) : Prop where
  behind : w.BehindLink r name o
  other : o ≠ w.thisServer
  cell : ∃ d, w.heap o = some d

/-- The name of a channel is no nickname. -/
theorem clientIsValidNick_channel (w : World) (hvalid : channelIsValidName name = true) :
    w.clientIsValidNick name = false := by
  cases name with
  | nil => rfl
  | cons first rest =>
    simp only [channelIsValidName, Bool.and_eq_true, Bool.or_eq_true, beq_iff_eq] at hvalid
    obtain ⟨⟨(rfl | rfl) | rfl, -⟩, -⟩ := hvalid
    all_goals simp [World.clientIsValidNick]

theorem signed_modeStart (modes : Str) :
    signed (modeStart modes).1 (modeStart modes).2 = signed true modes ∧
      (modeStart modes).2.length ≤ modes.length := by
  unfold modeStart
  split
  · simp [signed]
  · simp [signed]
  · exact ⟨rfl, Nat.le_refl _⟩

variable {j : ConnId} {peer o : ClientRef} {sender modes : Str} {req : Request}

/-- A MODE command of a server for a channel. -/
theorem wp_ircMode_server (h : w.Hears j peer) (ho : w.Sender peer sender o)
    (hch : w.channelSearch name = some ch) (hvalid : channelIsValidName name = true)
    (hpfx : req.pfx = some sender) (harg : req.arg 0 = name) {Q : Bool → World → Prop}
    (hmode : (channelMode peer req o ch).wp calmWp Q w) : (ircMode peer req).wp calmWp Q w := by
  obtain ⟨cl, hhas, htype⟩ := h.link.has
  have hother : ¬some o = some w.thisServer := fun heq => ho.other (Option.some.inj heq)
  unfold ircMode withSender senderOf
  simp only [wp_msg, wp_clientType, onClient_of_some hhas.cell, htype, if_true, hpfx, wp_getWorld,
    ho.behind.1, wp_pure, Option.bind_some, if_neg hother, harg,
    clientIsValidNick_channel w hvalid, Bool.false_eq_true, if_false, hvalid, hch]
  exact hmode

/-- There are no modes to change on a modeless channel. -/
theorem channelMode_modeless (h : w.Hears j peer) (hc : w.chans.heap ch = some c)
    (hmodeless : c.isModeless = true) : (channelMode peer req o ch).wp calmWp
      (fun _ w' => ModesAt w ch (w.chans.modeState ch c) w') w := by
  obtain ⟨cl, hhas, htype⟩ := h.link.has
  unfold channelMode
  simp only [wp_msg, wp_derefChan, onChannel_of_some hc, hmodeless, if_true, wp_clientID,
    onClient_of_some hhas.cell]
  exact (ModesAt.start hc).message (ircWriteErrClient_tame h.healthy h.calm h.back _)
    fun _ _ h' => h'

/-- A MODE command of a server makes the changes its letters stand for. -/
theorem ircMode_machine (h : w.Hears j peer) (ho : w.Sender peer sender o)
    (hch : w.channelSearch name = some ch)
    (hc : w.chans.heap ch = some c) (hvalid : channelIsValidName name = true)
    (hmodeless : c.isModeless = false) (hpfx : req.pfx = some sender)
    (hargv : req.argv = name :: modes :: args) {δs : List Change}
    (hproper : ∀ δ ∈ δs, δ.Proper) (hmore : ∀ x ∈ more.head?, x.2 ∈ "qaohv".toList)
    (hsigned : signed true modes = δs.map (fun δ => (δ.sets, δ.letter)) ++ more)
    (htakes : TakesAll w (w.chans.modeState ch c) δs args) :
    (ircMode peer req).wp calmWp
      (fun _ w' => ModesAt w ch (applyAll δs (w.chans.modeState ch c)) w') w := by
  obtain ⟨cl, hhas, htype⟩ := h.link.has
  obtain ⟨d, hd⟩ := ho.cell
  have harg0 : req.arg 0 = name := by simp [Request.arg, hargv]
  have harg1 : req.arg 1 = modes := by simp [Request.arg, hargv]
  have hargc : ¬req.argc ≤ 1 := by simp [Request.argc, hargv]
  have hdrop : req.argv.drop 2 = args := by simp [hargv]
  obtain ⟨hset, hlength⟩ := signed_modeStart modes
  have hbound : (modeStart modes).2.length < modeBound req := by
    simp only [modeBound, hargv, List.map_cons, List.sum_cons]
    omega
  refine wp_ircMode_server h ho hch hvalid hpfx harg0 ?_
  unfold channelMode
  simp only [wp_msg, wp_derefChan, onChannel_of_some hc, hmodeless, Bool.false_eq_true, if_false,
    hargc, wp_getWorld, wp_deref, onClient_of_some hhas.cell, htype, decide_true, Bool.true_or,
    ModePower.trusted, Bool.or_true, Bool.not_true, and_false, harg1, hdrop]
  refine wp_mono (fun res w₁ hw₁ => ?_) (channelModeLoop_machine (r :=
    { client := peer, origin := o, ch, command := req.command }) h.healthy req.beyond hproper hmore
    hbound (.start hc) rfl (hset.trans hsigned) htakes)
  obtain ⟨c₁, hc₁, -⟩ := hw₁.state
  obtain ⟨host, hd₁⟩ := hw₁.heap_some hd
  rw [wp_ofLeave, wp_ofMsg]
  exact hw₁.message (announceModes_tame (hw₁.healthy h.healthy) (hw₁.calm h.calm)
    (hw₁.reached h.back) hd₁ hc₁ res.1 res.2) fun _ _ hw₂ => hw₂

end

end Ngircd
