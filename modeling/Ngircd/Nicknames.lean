import Ngircd.Names
import Ngircd.Reloads

/-!
# The length of nicknames

`Client_CheckNick` accepts only nicknames shorter than `Conf_MaxNickLength`, and
`Client_ID` relies on it for every user.  Servers have longer names; and a nickname that
another server introduces is not checked, nor are the names in use when a reload that
fails leaves another length.
-/

namespace Ngircd

open Lib

variable {n m : Nat} {t : ClientType} {req : Request} {conf new : Conf}

/-- The types of clients that have a nickname, or get one before they become users.  A
client that has sent PASS may still become a server, with a name of any length. -/
def ClientType.nicknamed : ClientType → Bool
  | .unknown | .gotNick | .gotUser | .user | .waitAuthPing | .waitCapEnd => true
  | .gotPass | .gotPass2813 | .unknownServer | .server | .service => false

/-- What the length of nicknames is about. -/
def Client.typeAndId (c : Client) : ClientType × Str := (c.type, c.id)

theorem Client.typeAndId_view : Client.View Client.typeAndId where
  edit e c _ := by rw [Client.typeAndId, Client.typeAndId, e.type_eq, e.id_eq]

section

variable {w w' : World} {r s client target : ClientRef} {c c' new : Client} {nick : Str}

/-- Nicknames are shorter than `Conf_MaxNickLength`. -/
structure Short (w : World) : Prop where
  room : 1 < w.conf.maxNickLength
  short : ∀ r c, w.heap r = some c → c.type.nicknamed = true → c.id.length < w.conf.maxNickLength

/-- Moreover, the client has a short identifier. -/
structure ShortFor (client : ClientRef) (w : World) : Prop extends Short w where
  self : ∀ c, w.heap client = some c → c.id.length < w.conf.maxNickLength

/-- Moreover, the nickname is short. -/
structure ShortNick (nick : Str) (w : World) : Prop extends Short w where
  fits : nick.length < w.conf.maxNickLength

/-- Moreover, the nickname is short, or the client does not need one. -/
structure ShortOrFree (target : ClientRef) (nick : Str) (w : World) : Prop extends Short w where
  fits : nick.length < w.conf.maxNickLength ∨ ∀ c, w.heap target = some c → c.type.nicknamed = false

/-! ## The invariants are upheld -/

theorem Remains.maxNickLength {α : Type} {f : Client → α} (h : Remains f w w') :
    w'.conf.maxNickLength = w.conf.maxNickLength := by
  obtain ⟨servers, hconf⟩ := h.conf
  rw [hconf]

theorem Remains.type_id (h : Remains Client.typeAndId w w') (hc' : w'.heap r = some c') :
    ∃ c, w.heap r = some c ∧ c'.type = c.type ∧ c'.id = c.id := by
  obtain ⟨c, hc, heq⟩ := h.cell r c' hc'
  exact ⟨c, hc, Prod.mk.inj heq⟩

theorem Short.of_remains (h : Short w) (hsame : Remains Client.typeAndId w w') : Short w' where
  room := by
    rw [hsame.maxNickLength]
    exact h.room
  short r c' hc' htype := by
    obtain ⟨c, hc, hc_type, hc_id⟩ := hsame.type_id hc'
    rw [hsame.maxNickLength, hc_id]
    exact h.short r c hc (hc_type ▸ htype)

theorem ShortFor.of_remains (h : ShortFor client w) (hsame : Remains Client.typeAndId w w') :
    ShortFor client w' where
  toShort := h.toShort.of_remains hsame
  self c' hc' := by
    obtain ⟨c, hc, -, hc_id⟩ := hsame.type_id hc'
    rw [hsame.maxNickLength, hc_id]
    exact h.self c hc

theorem ShortNick.of_remains (h : ShortNick nick w) (hsame : Remains Client.typeAndId w w') :
    ShortNick nick w' where
  toShort := h.toShort.of_remains hsame
  fits := by
    rw [hsame.maxNickLength]
    exact h.fits

theorem ShortOrFree.of_remains (h : ShortOrFree target nick w)
    (hsame : Remains Client.typeAndId w w') : ShortOrFree target nick w' where
  toShort := h.toShort.of_remains hsame
  fits := by
    rw [hsame.maxNickLength]
    refine h.fits.imp_right fun hfree c' hc' => ?_
    obtain ⟨c, hc, hc_type, -⟩ := hsame.type_id hc'
    rw [hc_type]
    exact hfree c hc

theorem short_indifferent {J : World → Prop}
    (hJ : ∀ w w', Remains Client.typeAndId w w' → J w → J w') :
    Indifferent J (ClosesFor Client.typeAndId) :=
  Client.View.indifferent Client.typeAndId_view (fun _ _ _ => rfl) hJ

theorem Short.indifferent : Indifferent Short (ClosesFor Client.typeAndId) :=
  short_indifferent fun _ _ hsame h => Short.of_remains h hsame

theorem World.length_of_nickError (h : w.nickError t nick = none) :
    nick.length < w.conf.maxNickLength := by
  have hvalid := (World.nickError_eq_none h).1
  unfold World.clientIsValidNick at hvalid
  cases nick with
  | nil => exact nomatch hvalid
  | cons first rest =>
    simp only [Bool.and_eq_true, decide_eq_true_eq] at hvalid
    exact hvalid.1.2

theorem length_strlcpy_le (s : Str) (size : Nat) : (strlcpy s size).length ≤ s.length := by
  rw [strlcpy, List.length_take]
  exact Nat.min_le_right _ _

namespace Short

/-- A client gets a new structure: with a short identifier, or with a type that does not
need one. -/
theorem setHeap (h : Short w)
    (hnew : c'.type.nicknamed = true → c'.id.length < w.conf.maxNickLength) :
    Short (w.setHeap r (some c')) where
  room := h.room
  short s d hd htype := by
    rcases World.setHeap_heap_cases hd with ⟨rfl, rfl⟩ | ⟨-, hd⟩
    · exact hnew htype
    · exact h.short s d hd htype

theorem addClient (h : Short w)
    (hnew : new.type.nicknamed = true → new.id.length < w.conf.maxNickLength) :
    Short (w.addClient new) := by
  have hset : Short (w.setHeap w.nextRef (some new)) := h.setHeap hnew
  exact ⟨hset.room, hset.short⟩

theorem entry (client : ClientRef) :
    Entry (ShortFor client) Short client (ClosesFor Client.typeAndId) where
  before := (short_indifferent fun _ _ hsame h => ShortFor.of_remains h hsame).toUpkeep
  after := Indifferent.toUpkeep indifferent
  weaken _ h := h.toShort
  setType _ c _ _ hc h := h.toShort.setHeap fun _ => h.self c hc
  greet := Indifferent.greetUser indifferent client

theorem renames (target : ClientRef) (nick : Str) :
    Renaming (ShortOrFree target nick) Short target nick (ClosesFor Client.typeAndId) where
  free := (short_indifferent fun _ _ hsame h => ShortOrFree.of_remains h hsame).toUpkeep
  upkeep := Indifferent.toUpkeep indifferent
  weaken _ h := h.toShort
  setId w c hc h := by
    refine h.toShort.setHeap fun htype => ?_
    rcases h.fits with hfits | hfree
    · exact Nat.lt_of_le_of_lt (length_strlcpy_le nick _) hfits
    · rw [hfree c hc] at htype
      exact nomatch htype

/-- A client that gets a short nickname may log in afterwards. -/
theorem clientSetID_self (client : ClientRef) (nick : Str) :
    Leads (ShortNick nick) (clientSetID client nick) (ShortFor client)
      (ClosesFor Client.typeAndId) := by
  refine .clientSetID (entry client).before fun w c hc h => ?_
  have hshort := Nat.lt_of_le_of_lt (length_strlcpy_le nick clientIdLen) h.fits
  refine ⟨h.toShort.setHeap fun _ => hshort, fun d hd => ?_⟩
  rw [World.setHeap_heap_self] at hd
  rw [← Option.some.inj hd]
  exact hshort

/-- `Client_CheckNick` accepts only short nicknames. -/
theorem clientCheckNick_short (h : Short w) (client : ClientRef) (nick : Str) :
    (clientCheckNick client nick).wp (msgWp (closing (ClosesFor Client.typeAndId)) anyFault)
      (fun ok w' => if ok then ShortNick nick w' else Short w') w :=
  (Indifferent.toUpkeep indifferent).clientCheckNick h fun _ hnone =>
    ⟨h, World.length_of_nickError hnone⟩

/-- A client changes the case of its identifier only. -/
theorem length_of_case (hcase : strcaseEq c.nameOrStar nick = true) (hroom : 1 < n)
    (hid : c.id.length < n) : nick.length < n := by
  rw [length_of_strcaseEq hcase, Client.nameOrStar]
  split_ifs
  · exact hroom
  · exact hid

/-- A client that is not a server asks for a nickname. -/
theorem ircNickUser_self (h : Short w) (hc : w.heap client = some c)
    (hown : strcaseEq c.nameOrStar nick = true → c.id.length < w.conf.maxNickLength) :
    (ircNickUser client client nick).wp (fullWp (closing (ClosesFor Client.typeAndId)) anyFault)
      (fun _ => Short) w := by
  have hrename : Renaming (ShortNick nick) Short client nick (ClosesFor Client.typeAndId) :=
    { free := (short_indifferent fun _ _ hsame h => ShortNick.of_remains h hsame).toUpkeep
      upkeep := Indifferent.toUpkeep indifferent
      weaken := fun _ h => h.toShort
      setId := fun _ _ hc h => (renames client nick).setId _ _ hc ⟨h.toShort, .inl h.fits⟩ }
  refine hrename.ircNickUser h ?_ (h.clientCheckNick_short client nick) ?_
  · intro d hd _ hcase
    obtain rfl : c = d := Option.mem_unique hc hd
    exact ⟨h, length_of_case hcase h.room (hown hcase)⟩
  · intro w' d _ _ _ _ _ hfits
    exact (entry client).registerNick (clientSetID_self client nick) w' hfits

/-- A server passes on a nickname. -/
theorem ircNickUser_relayed (h : Short w) (hs : w.StillServer client) (target : ClientRef)
    (nick : Str) :
    (ircNickUser client target nick).wp (fullWp (closing (ClosesFor Client.typeAndId)) anyFault)
      (fun _ => Short) w := by
  have hrename := renames target nick
  refine hrename.ircNickUser h ?_ ?_ ?_
  · intro c hc _ hcase
    refine ⟨h, ?_⟩
    cases htype : c.type.nicknamed with
    | true => exact .inl (length_of_case hcase h.room (h.short target c hc htype))
    | false =>
      refine .inr fun d hd => ?_
      rw [← Option.mem_unique hc hd]
      exact htype
  · refine Prog.wp_mono (fun ok w' hw' => ?_) (h.clientCheckNick_short target nick)
    cases ok with
    | false => exact hw'
    | true => exact ⟨hw'.toShort, .inl hw'.fits⟩
  · intro w' c hkept _ _ _ _ hfree
    exact (Indifferent.toUpkeep indifferent).registerNick_server (hrename.clientSetID w' hfree)
      (hkept.stillServer hs)

theorem ircSvsnick (client : ClientRef) (req : Request) :
    UpholdsFull Short (ircSvsnick client req) (ClosesFor Client.typeAndId) :=
  (Indifferent.toUpkeep indifferent).ircSvsnick (renames · _) fun _ _ _ h hnone =>
    ⟨h, .inl (World.length_of_nickError hnone)⟩

/-- A type that does not need a nickname can be set at any time. -/
theorem clientSetType (ht : t.nicknamed = false) :
    UpholdsFull Short (clientSetType client t) (ClosesFor Client.typeAndId) := by
  intro w h
  refine wp_clientSetType trivial fun c m _ hm => ?_
  refine (Indifferent.toUpkeep indifferent).misc _ m (h.setHeap fun htype => ?_) hm
  exact absurd htype (by simp [World.retype, ht])

theorem ircNumEndofmotd (client : ClientRef) :
    UpholdsFull Short (ircNumEndofmotd client) (ClosesFor Client.typeAndId) :=
  fun _ h => (Indifferent.toUpkeep indifferent).ircNumEndofmotd fun _ _ => h.setHeap fun htype =>
    nomatch htype

theorem registerServer (h : Short w) (hc : w.heap client = some c)
    (htype : c.type = .gotPass ∨ c.type = .gotPass2813) :
    (registerServer client req).wp (fullWp (closing (ClosesFor Client.typeAndId)) anyFault)
      (fun _ => Short) w := by
  have hup := Indifferent.toUpkeep indifferent
  refine hup.registerServer h fun i srv servers _ _ => ?_
  refine hup.acceptServer (renames client (req.arg 0)).clientSetID
    (fun v c hc hv => hv.of_remains (.setHeap hc rfl)) (clientSetType rfl) (ircNumEndofmotd client)
    _ ?_
  refine ⟨hup.servers w servers h, .inr fun d hd => ?_⟩
  rw [← Option.mem_unique hc hd]
  rcases htype with htype | htype <;> rw [htype] <;> rfl

theorem prepare (h : Short w) (e : Event) : Short (e.prepare w) := by
  refine Remains.prepare (fun _ _ hsame h => of_remains h hsame) (fun w c hid _ _ h => ?_) h e
  refine h.addClient fun _ => ?_
  rw [hid]
  exact Nat.lt_trans Nat.zero_lt_one h.room

end Short

/-! ## Lines and reloads -/

/-- The lines that keep nicknames short.  A server introduces users with short nicknames
only.  A client that has the name of a server does not ask for it as a nickname, and does
not go on like a user. -/
def nicknameFits : LineCheck := fun w _ c handler req =>
  let fits (name : Str) : Bool := decide (name.length < w.conf.maxNickLength)
  match handler with
  | .nick =>
    if nickCheckContext c.type req.argc = .serverIntroduce then fits (req.arg 0)
    else c.type = .server || !strcaseEq c.nameOrStar (req.arg 0) || fits c.id
  | .user => c.type != .gotPass || fits c.id
  | .cap => !(req.argc = 1 && strcaseEq (req.arg 0) "END") || c.type = .user || fits c.id
  | _ => true

theorem nicknameFits_introduced (h : nicknameFits w r c .nick req = true)
    (hcontext : nickCheckContext c.type req.argc = .serverIntroduce) :
    (req.arg 0).length < w.conf.maxNickLength := by
  simp only [nicknameFits, hcontext, if_true, decide_eq_true_eq] at h
  exact h

theorem nicknameFits_own (h : nicknameFits w r c .nick req = true) (htype : c.type ≠ .server)
    (hcontext : nickCheckContext c.type req.argc ≠ .serverIntroduce)
    (hcase : strcaseEq c.nameOrStar (req.arg 0) = true) :
    c.id.length < w.conf.maxNickLength := by
  simp only [nicknameFits, if_neg hcontext, htype, hcase, decide_false, Bool.not_true,
    Bool.false_or, decide_eq_true_eq] at h
  exact h

theorem nicknameFits_user (h : nicknameFits w r c .user req = true) (htype : c.type = .gotPass) :
    c.id.length < w.conf.maxNickLength := by
  simp only [nicknameFits, htype, bne_self_eq_false, Bool.false_or, decide_eq_true_eq] at h
  exact h

theorem nicknameFits_cap (h : nicknameFits w r c .cap req = true) (hargc : req.argc = 1)
    (hend : strcaseEq (req.arg 0) "END" = true) (htype : c.type ≠ .user) :
    c.id.length < w.conf.maxNickLength := by
  unfold nicknameFits at h
  rw [hargc, hend] at h
  simp only [htype, decide_true, Bool.and_self, Bool.not_true, decide_false, Bool.false_or,
    decide_eq_true_eq] at h
  exact h

/-- The reloads that keep them short: those that succeed, and those that leave a length that
is enough for all nicknames. -/
def lengthFits : ReloadCheck := fun w new valid =>
  valid || w.order.all fun r => (w.heap r).all fun c =>
    !c.type.nicknamed || decide (c.id.length < new.maxNickLength)

/-- Every event keeps nicknames short, if lines keep to the condition. -/
theorem Short.step {e : Event} (hl : Linked w) (hw : Short w)
    (hmeets : e.meets nicknameFits w = true) (hstep : Step w e w') : Short w' := by
  have h := Indifferent.toUpkeep Short.indifferent
  have hclose := Client.View.closesFor Client.typeAndId_view
  refine h.step_of_lines hclose.rightAbout hl hw (hw.prepare e) hmeets ?_ ?_ hstep
  · exact fun r c req _ _ => h.handleNumeric hw fun _ _ => Short.ircNumEndofmotd r w hw
  · intro i r c cmd req w₁ hi hpenalty _ _ hmeet hcell hlive hw₁
    have hconf : w₁.conf = w.conf := by cases hpenalty <;> rfl
    have hentry := Short.entry r
    have hself (hid : c.id.length < w.conf.maxNickLength) : ShortFor r w₁ := by
      refine ⟨hw₁, fun d hd => ?_⟩
      rw [hconf, ← Option.mem_unique hcell hd]
      exact hid
    have hself_of_type (htype : c.type.nicknamed = true) : ShortFor r w₁ :=
      hself (hw.short r c hi.cell htype)
    by_cases hout : cmd.handler.reachesOut = false
    · by_cases hchanges : cmd.handler.changesSelf = false
      · exact Indifferent.callHandler Short.indifferent r req hout hchanges w₁ hw₁
      refine h.callHandler_self hw₁ hcell hlive (by simpa using hchanges) ?_ ?_ ?_
        (Short.ircSvsnick r req)
      · intro hhandler hargc hend htype caps
        rw [hhandler] at hmeet
        exact hentry.loginUser _ (hentry.before.setCaps w₁ r c caps hcell
          (hself (nicknameFits_cap hmeet hargc hend htype)))
      · refine fun _ => Leads.ircPass h h (fun _ hv => hv) (fun t ht => ?_) req w₁ hw₁
        exact Short.clientSetType (by rcases ht with rfl | rfl <;> rfl)
      · intro htype i
        refine hentry.loginUser _ (hentry.before.setAuthPing w₁ i 0 (hself_of_type ?_))
        rw [htype]
        rfl
    · refine (hclose.shutting h).removing.callHandler_out hw₁ (.nobody ..) ?_ hcell hlive
        (by simpa using hout)
        (fun _ target => Indifferent.join Short.indifferent target _)
        (fun _ htype => hw₁.registerServer hcell htype) ?_ ?_ ?_ ?_
      · rintro hhandler target (⟨htype, hcontext, rfl⟩ | ⟨htype, -⟩)
        · rw [hhandler] at hmeet
          refine hw₁.ircNickUser_self hcell fun hcase => ?_
          rw [hconf]
          exact nicknameFits_own hmeet htype (by simp [hcontext]) hcase
        · refine hw₁.ircNickUser_relayed ⟨hlive, fun d hd => ?_⟩ target _
          rw [← Option.mem_unique hcell hd]
          exact htype
      · intro server _ nick new _ _ hline hnew
        refine hw₁.addClient fun hneeds => ?_
        rcases hline with ⟨hhandler, hcontext, rfl⟩ | ⟨hhandler, -, htype, -⟩
        · rw [hhandler] at hmeet
          rw [hconf, hnew.id]
          exact Nat.lt_of_le_of_lt (length_strlcpy_le _ _) (nicknameFits_introduced hmeet hcontext)
        · rw [htype] at hneeds
          exact nomatch hneeds
      · exact fun new _ _ hnew _ => hw₁.addClient fun htype => by rw [hnew.type] at htype; nomatch htype
      · intro hhandler htype
        rw [hhandler] at hmeet
        refine hentry.registerUser req w₁ ?_
        rcases htype with htype | htype | htype
        · exact hself_of_type (by rw [htype]; rfl)
        · exact hself_of_type (by rw [htype]; rfl)
        · exact hself (nicknameFits_user hmeet htype)
      · intro v s d t hv hd htype _
        exact hv.setHeap fun _ => hv.short s d hd (by rw [htype]; rfl)

theorem Conf.IsRead.room (h : conf.IsRead) : 1 < conf.maxNickLength := by
  rcases h with h | ⟨arg, h⟩
  · rw [h]
    decide
  · rw [h, handleMaxNickLength]
    split_ifs
    · decide
    · decide
    · omega

theorem Short.start (hread : conf.IsRead) (env : Env) (host : Str) :
    Short (World.start conf env host) where
  room := hread.room
  short r c hc htype := by
    rw [(World.start_cell hc).type] at htype
    exact nomatch htype

/-- Moreover, nicknames are shorter than another length. -/
structure ShorterThan (m : Nat) (w : World) : Prop extends Short w where
  other : ∀ r c, w.heap r = some c → c.type.nicknamed = true → c.id.length < m

theorem ShorterThan.of_remains (h : ShorterThan m w)
    (hsame : Remains Client.typeAndId w w') : ShorterThan m w' where
  toShort := h.toShort.of_remains hsame
  other r c' hc' htype := by
    obtain ⟨c, hc, hc_type, hc_id⟩ := hsame.type_id hc'
    rw [hc_id]
    exact h.other r c hc (hc_type ▸ htype)

/-- A reload keeps nicknames short if it succeeds or leaves a length that is enough. -/
theorem Short.reload {new : Conf} {valid : Bool} (h : Short w) (htidy : Tidy w)
    (hread : new.IsRead) (hfits : lengthFits w new valid = true)
    (hrun : rehash n new valid w = .ok ((), w')) : Short w' := by
  have hind := Short.indifferent
  have hclose := Client.View.closesFor Client.typeAndId_view
  cases valid with
  | true =>
    exact rehash_leads hind.toUpkeep hind.toUpkeep hclose.rightAbout hind.predefines h hrun
      (fun hvalid => nomatch hvalid) fun _ _ h => ⟨h.room, h.short⟩
  | false =>
    have hother : Indifferent (ShorterThan new.maxNickLength) (ClosesFor Client.typeAndId) :=
      short_indifferent fun _ _ hsame h => ShorterThan.of_remains h hsame
    refine rehash_leads hother.toUpkeep hind.toUpkeep hclose.rightAbout hind.predefines ⟨h, ?_⟩
      hrun (fun _ _ h => ⟨hread.room, h.other⟩) fun hvalid => nomatch hvalid
    intro r c hc htype
    simp only [lengthFits, Bool.false_or, List.all_eq_true] at hfits
    simpa [hc, htype] using hfits r (htidy r c hc)

/-- As long as servers introduce users with short nicknames only, a connection with the
name of a server does not go on like a user, and a reload that fails leaves a length that is
enough for the nicknames in use, the nickname of every user is shorter than
`Conf_MaxNickLength`. -/
theorem user_nicknames_short (h : Served nicknameFits lengthFits w) :
    ∀ r ∈ w.order, ∀ c, w.heap r = some c → c.type = .user →
      c.id.length < w.conf.maxNickLength := by
  have hshort : Short w := by
    induction h with
    | start conf env host hread => exact .start hread env host
    | predefine _ hrun ih =>
      exact (execBasic_ends ((Client.View.closesFor Client.typeAndId_view).rightAbout _)
        (Indifferent.predefines Short.indifferent _ ih)).of_ok hrun
    | step hserved hmeets hstep ih => exact ih.step hserved.linked hmeets hstep
    | reload hserved hread hfits hrun ih => exact ih.reload hserved.tidy hread hfits hrun
  intro r _ c hc htype
  exact hshort.short r c hc (by rw [htype]; rfl)

end

/-- A server introduces a user with a nickname of the greatest length that is allowed. -/
def nicknameLink : List Event :=
  peerLink ++ [.line 1 ":irc.b NICK abcdefghi 1 a host 1 + :A" []]

theorem user_nicknames_short_nicknameLink : ∃ w c, Served nicknameFits lengthFits w ∧
    2 ∈ w.order ∧ w.heap 2 = some c ∧ c.type = .user ∧ c.id = "abcdefghi".toList ∧
    c.id.length < w.conf.maxNickLength := by
  obtain ⟨w, hw, hlisted, c, hc, htype, hid⟩ :
      ∃ w ∈ Event.runIf nicknameFits 1 nicknameLink (World.start peerConf {} "localhost"),
        2 ∈ w.order ∧ ∃ c ∈ w.heap 2, c.type = .user ∧ c.id = "abcdefghi".toList := by
    decide +kernel
  have hserved : Served nicknameFits lengthFits w :=
    Served.runIf (.start peerConf {} "localhost" (.inl rfl)) hw
  exact ⟨w, c, hserved, hlisted, hc, htype, hid, user_nicknames_short hserved 2 hlisted c hc htype⟩

/-- A nickname that a server introduces is not checked; and a reload that fails leaves the
length that it has read, whatever nicknames are in use. -/
theorem user_nickname_too_long :
    (∃ w c, Served (fun _ _ _ _ _ => true) (fun _ _ _ => false) w ∧ 2 ∈ w.order ∧
      w.heap 2 = some c ∧ c.type = .user ∧ c.id = "abcdefghij".toList ∧
      w.conf.maxNickLength = 10) ∧
    ∃ w c, Served nicknameFits (fun _ _ _ => true) w ∧ 2 ∈ w.order ∧ w.heap 2 = some c ∧
      c.type = .user ∧ c.id = "abcdefghi".toList ∧ w.conf.maxNickLength = 2 := by
  constructor
  · obtain ⟨w, hw, hlisted, hlength, c, hc, htype, hid⟩ :
        ∃ w ∈ Event.runIf (fun _ _ _ _ _ => true) 1
          (peerLink ++ [.line 1 ":irc.b NICK abcdefghij 1 a host 1 + :A" []])
          (World.start peerConf {} "localhost"), 2 ∈ w.order ∧ w.conf.maxNickLength = 10 ∧
          ∃ c ∈ w.heap 2, c.type = .user ∧ c.id = "abcdefghij".toList := by
      decide +kernel
    exact ⟨w, c, Served.runIf (.start peerConf {} "localhost" (.inl rfl)) hw, hlisted, hc, htype,
      hid, hlength⟩
  · obtain ⟨w, hw, r, hr, hlisted, hlength, c, hc, htype, hid⟩ :
        ∃ w ∈ Event.runIf nicknameFits 1 nicknameLink (World.start peerConf {} "localhost"),
          ∃ r ∈ (rehash 1 { maxNickLength := 2 } false w).toOption, 2 ∈ r.2.order ∧
            r.2.conf.maxNickLength = 2 ∧
            ∃ c ∈ r.2.heap 2, c.type = .user ∧ c.id = "abcdefghi".toList := by
      decide +kernel
    cases hreload : rehash 1 { maxNickLength := 2 } false w with
    | error e =>
      rw [hreload] at hr
      exact nomatch hr
    | ok r' =>
      rw [hreload] at hr
      obtain rfl : r' = r := Option.some.inj hr
      have hserved : Served nicknameFits (fun _ _ _ => true) w :=
        Served.runIf (.start peerConf {} "localhost" (.inl rfl)) hw
      exact ⟨r'.2, c, hserved.reload (.inr ⟨"1".toList, by decide⟩) rfl hreload, hlisted, hc, htype,
        hid, hlength⟩

end Ngircd
