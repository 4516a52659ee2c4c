import Ngircd.Handlers

/-!
# Handlers that change who a client is

Clients are created, change their type and get identifiers.  The lemmas here say
what an invariant has to provide for these operations, so that the handlers of
registration commands uphold it.  Where a client changes its type or its
identifier, one condition may hold before and another one afterwards.
-/

namespace Ngircd

open Lib Prog

variable {w w' : World} {r introducer client s target : ClientRef} {t type : ClientType}
  {nick user hostname modes info id : Str} {hops token : Int} {Q K : ClientRef → World → Prop}
  {c : Client} {req : Request} {handler : Handler}

section

variable {α β : Type} {I J L : World → Prop} {C : World → World → Prop}

/-- The program leads from the condition `I` to `J`, if closes keep to `C`. -/
def Leads (I : World → Prop) (p : Full α) (J : World → Prop) (C : World → World → Prop) : Prop :=
  ∀ w, I w → p.wp (upFull C) (fun _ => J) w

namespace Leads

theorem pure (hIJ : ∀ w, I w → J w) (a : α) : Leads I (pure a : Full α) J C := hIJ

theorem bind {p : Full α} {f : α → Full β} (hp : Leads I p J C) (hf : ∀ a, Leads J (f a) L C) :
    Leads I (p >>= f) L C := by
  intro w hw
  rw [wp_bind]
  exact wp_mono (fun a w' hw' => hf a w' hw') (hp w hw)

theorem ite {c : Prop} [Decidable c] {p q : Full α} (hp : Leads I p J C) (hq : Leads I q J C) :
    Leads I (if c then p else q) J C := by
  split
  · exact hp
  · exact hq

theorem weaken {p : Full α} (hIJ : ∀ w, I w → J w) (hp : UpholdsFull I p C) : Leads I p J C :=
  fun w hw => wp_mono (fun _ w' hw' => hIJ w' hw') (hp w hw)

end Leads

/-! ## Setting a type -/

/-- `Client_SetType` on a client structure: a new server also gets a token. -/
def World.retype (w : World) (c : Client) (t : ClientType) : Client :=
  { c with type := t, mytoken := if t = .server then w.freeToken else c.mytoken }

section

variable {K : Closing} {E : Fault → Prop}

/-- The next token depends on the tokens that are in use. -/
theorem World.freeToken_congr (horder : w'.order = w.order)
    (htokens : ∀ s, (w'.heap s).map Client.mytoken = (w.heap s).map Client.mytoken) :
    w'.freeToken = w.freeToken := by
  have hmap (v : World) : v.listed.map (fun rc => rc.2.mytoken) =
      v.order.filterMap fun s => (v.heap s).map Client.mytoken := by
    rw [World.listed, List.map_filterMap]
    refine List.filterMap_congr fun s _ => ?_
    rw [Option.map_map]
    rfl
  have hsame : w'.listed.map (fun rc => rc.2.mytoken) = w.listed.map fun rc => rc.2.mytoken := by
    rw [hmap, hmap, horder]
    exact List.filterMap_congr fun s _ => htokens s
  have hused (k : Int) : (w'.listed.any fun rc => decide (rc.2.mytoken = k)) =
      w.listed.any fun rc => decide (rc.2.mytoken = k) := by
    have hany := congrArg (List.any · fun t => decide (t = k)) hsame
    simpa only [List.any_map, Function.comp_def] using hany
  simp only [World.freeToken, horder, hused]

section

variable {Q : Unit → World → Prop} (hE : E (.data (.freedClient r)))
include hE

theorem wp_adjustCounters (hQ : ∀ m, w.misc.ListsEdit m → Q () { w with misc := m }) :
    (adjustCounters r).wp (basicWp K E) Q w := by
  unfold adjustCounters
  simp only [wp_msg, liftM_leave_basic, wp_deref]
  refine ⟨fun c _ => ?_, fun _ => hE⟩
  dsimp only
  by_cases huser : c.type = .user
  · rw [if_pos huser]
    simp only [wp_msg, wp_getWorld, wp_editMisc]
    exact hQ _ (.same w.misc)
  · rw [if_neg huser]
    exact hQ w.misc (.same w.misc)

theorem wp_clientSetType (hQ : ∀ c m, w.heap r = some c → w.misc.ListsEdit m →
      Q () { w.setHeap r (some (w.retype c t)) with misc := m }) :
    (clientSetType r t).wp (fullWp K E) Q w := by
  unfold clientSetType
  simp only [liftM_msg_full, liftM_basic_full, wp_bind, wp_setType]
  refine ⟨fun c hc => ?_, fun _ => hE⟩
  by_cases ht : t = .server
  · subst ht
    simp only [if_true, wp_msg, wp_getWorld, wp_editClient]
    refine ⟨fun d hd => ?_, fun _ => hE⟩
    refine wp_adjustCounters hE fun m hm => ?_
    rw [World.setHeap_heap_self] at hd
    obtain rfl := Option.some.inj hd
    have htoken : (w.setHeap r (some { c with type := .server })).freeToken = w.freeToken := by
      refine World.freeToken_congr rfl fun s => ?_
      by_cases hs : s = r
      · rw [hs, World.setHeap_heap_self, hc]
        rfl
      · rw [World.setHeap_heap_ne w hs]
    have hcell := hQ c m hc hm
    have hsame : w.setHeap r (some (w.retype c .server)) =
        (w.setHeap r (some { c with type := .server })).setHeap r (some { c with
          type := .server
          mytoken := (w.setHeap r (some { c with type := .server })).freeToken }) := by
      rw [htoken]
      simp [World.retype, World.setHeap]
    rw [hsame] at hcell
    exact hcell
  · rw [if_neg ht]
    simp only [wp_ofPlain, wp_ofBasic]
    refine wp_adjustCounters hE fun m hm => ?_
    have hcell := hQ c m hc hm
    simpa [World.retype, ht] using hcell


end

/-! ## Remote clients -/

/-- What `Client_NewRemoteUser` fills in, and `Client_Introduce` may go on to change
the type of. -/
structure RemoteUser (introducer : ClientRef) (nick : Str) (c : Client) : Prop where
  connId : c.connId = none
  introducer : c.introducer = introducer
  topserver : c.topserver = none
  id : c.id = strlcpy nick clientIdLen
  away : c.hasMode 'a' = true → c.away ≠ none
  mytoken : c.mytoken = -1
  type : c.type = .user ∨ c.type = .service ∨ c.type = .gotNick

/-- The structure of a server that another server introduces with a name that
`Client_CheckID` accepts. -/
structure NewServer (w : World) (name : Str) (c : Client) : Prop where
  connId : c.connId = none
  type : c.type = .server
  id : c.id = strlcpy name clientIdLen
  mytoken : c.mytoken = w.freeToken
  modes : c.modes = []
  length : name.length ≤ clientIdLen
  free : (w.listed.any fun rc => strcaseEq rc.2.id name) = false

theorem wp_clientNewRemoteUser
    (hE : E (.data (.freedClient w.nextRef)))
    (hQ : ∀ c m, RemoteUser introducer nick c → w.misc.ListsEdit m →
      Q w.nextRef { w.addClient c with misc := m }) :
    (clientNewRemoteUser introducer nick hops user hostname token modes info).wp
      (plainWp K E) Q w := by
  unfold clientNewRemoteUser
  simp only [wp_msg, liftM_basic_plain, wp_getWorld, wp_newRemote]
  refine wp_adjustCounters hE fun m hm => hQ _ m
    { connId := rfl, introducer := rfl, topserver := rfl, id := rfl, away := fun ha => ?_
      mytoken := rfl, type := .inl rfl } hm
  have ha' : (strlcpy modes channelModeLen).contains 'a' = true := ha
  simpa using ha'

end

namespace Upkeep

variable (h : Upkeep J C)
include h

/-- A client that another server has introduced is told to the others, as a user or as
a service. -/
theorem clientIntroduce_remote
    (htype : type = .user ∨ type = .service) (hc : w.heap r = some c)
    (hJ : ∀ t, t = type ∨ t = .service → J (w.setHeap r (some { c with type := t }))) :
    (clientIntroduce (some s) r type).wp (upFull C) (fun _ => J) w := by
  have hretype (t : ClientType) (ht : t = .user ∨ t = .service) (v : World) (d : Client) :
      v.retype d t = { d with type := t } := by
    rcases ht with rfl | rfl <;> rfl
  have hannounce : UpholdsFull J (ircWriteStrServersPrefixFlagCB (some s) none fun peer => do
      let _ ← (clientAnnounce peer ((some s).getD (← thisServer)) r).toMsg : Full Unit) C :=
    h.fullMsg _
  unfold clientIntroduce
  rw [wp_bind]
  refine wp_clientSetType trivial fun d m hd hm => ?_
  obtain rfl : c = d := Option.mem_unique hc hd
  rw [hretype type htype]
  have hfirst := h.misc _ m (hJ type (.inl rfl)) hm
  simp only [wp_msg, wp_getWorld, wp_deref, wp_clientID, onClient_anyFault]
  intro e _ d hd
  split_ifs
  · rw [wp_bind]
    refine wp_clientSetType trivial fun d' m' hd' hm' => ?_
    rw [hretype .service (.inr rfl)]
    have hd'' : d' = { c with type := type } := by
      refine Option.mem_unique hd' ?_
      exact World.setHeap_heap_self w r _
    subst hd''
    refine hannounce _ ?_
    have hsecond := h.misc _ m' (h.misc _ m (hJ .service (.inr rfl)) hm) hm'
    simpa [World.setHeap] using hsecond
  · exact hannounce _ hfirst

/-- A server introduces a user. -/
theorem remoteUser {server : ClientRef}
    (htype : type = .user ∨ type = .service)
    (hnew : ∀ c, RemoteUser server nick c → c.type = type ∨ c.type = .service → J (w.addClient c)) :
    (do
      let r ← clientNewRemoteUser server nick hops user hostname token modes info
      clientIntroduce (some s) r type
      return connected : Full Bool).wp (upFull C) (fun _ => J) w := by
  rw [wp_bind, liftM_plain_full, wp_ofPlain]
  refine wp_clientNewRemoteUser trivial fun c m hc hm => ?_
  rw [wp_bind]
  have hcell : (World.heap { w.addClient c with misc := m }) w.nextRef = some c :=
    World.setHeap_heap_self w _ _
  refine wp_mono (fun _ _ hw => hw) (h.clientIntroduce_remote htype hcell fun t ht => ?_)
  have hJ := h.misc _ m (hnew { c with type := t } { hc with type := ?_ } ht) hm
  · simpa [World.addClient, World.setHeap] using hJ
  · rcases ht with rfl | rfl
    · exact htype.imp_right .inl
    · exact .inr (.inl rfl)

theorem ircNickIntroduce (hw : J w)
    (hkill : ∀ reason, Upholds J (ircKillClient (some client) none (req.arg 0) reason) C)
    (hnew : ∀ server token c, w.clientSearch (req.arg 0) = none →
      w.clientGetFromToken client token = some server →
      RemoteUser server (req.arg 0) c → J (w.addClient c)) :
    (ircNickIntroduce client req).wp (upFull C) (fun _ => J) w := by
  unfold Ngircd.ircNickIntroduce
  simp only [wp_msg, wp_getWorld]
  by_cases hfree : (w.clientSearch (req.arg 0)).isSome = true
  · rw [if_pos hfree]
    exact UpholdsFull.plain (hkill _) w hw
  rw [if_neg hfree]
  have hnone : w.clientSearch (req.arg 0) = none := by simpa using hfree
  split
  · exact UpholdsFull.plain (hkill _) w hw
  · rename_i server hserver
    by_cases hlong : decide (req.argc ≥ 7) = true
    · rw [if_pos hlong]
      exact h.remoteUser (.inl rfl) fun c hc _ => hnew server _ c hnone hserver hc
    · -- A user of an older server comes without user name and host name yet.
      rw [if_neg hlong]
      simp only [liftM_plain_full, wp_msg, wp_clientID, onClient_anyFault]
      intro d _
      refine wp_clientNewRemoteUser trivial fun c m hc hm => ?_
      rw [wp_bind]
      refine wp_clientSetType trivial fun c' m' hc' hm' => ?_
      have hcell : c' = c := Option.some.inj (hc'.symm.trans (World.setHeap_heap_self w _ _))
      subst hcell
      have hJ := h.misc _ m' (h.misc _ m (hnew server _ { c' with type := .gotNick } hnone
        hserver { hc with type := .inr (.inr rfl) }) hm) hm'
      simpa [World.addClient, World.setHeap, World.retype] using hJ

theorem ircService (hw : J w) (hc : w.heap client = some c)
    (hkill : ∀ reason, Upholds J (ircKillClient (some client) none (req.arg 0) reason) C)
    (hnew : ∀ server token nick new, c.type = .server → w.clientSearch (req.arg 0) = none →
      w.clientGetFromToken client token = some server →
      nick = (cutAt '!' (cutAt '@' (req.arg 0)).1).1 → new.type = .service →
      RemoteUser server nick new → J (w.addClient new)) :
    (ircService client req).wp (upFull C) (fun _ => J) w := by
  have herror (p : Msg Str) (f : Str → Msg Bool) :
      UpholdsFull J (do return ← f (← p) : Full Bool) C :=
    .bind (h.fullMsg _) fun _ => h.fullMsg _
  unfold Ngircd.ircService
  simp only [wp_msg, wp_clientType, onClient_of_some hc]
  by_cases hpeer : c.type ≠ .gotPass ∧ c.type ≠ .server
  · rw [if_pos hpeer]
    exact herror _ _ w hw
  rw [if_neg hpeer]
  by_cases hserver : c.type ≠ .server
  · rw [if_pos hserver]
    exact herror _ _ w hw
  rw [if_neg hserver]
  simp only [wp_msg, wp_getWorld]
  by_cases hfree : (w.clientSearch (req.arg 0)).isSome = true
  · rw [if_pos hfree]
    exact UpholdsFull.plain (hkill _) w hw
  rw [if_neg hfree]
  have hnone : w.clientSearch (req.arg 0) = none := by simpa using hfree
  split
  · exact UpholdsFull.plain (hkill _) w hw
  · rename_i server hfound
    simp only [wp_msg, wp_deref, onClient_anyFault]
    intro d _
    rw [← wp_bind]
    exact h.remoteUser (.inr rfl) fun new hnew' htype =>
      hnew server _ _ new (not_not.mp hserver) hnone hfound rfl (htype.elim id id) hnew'

/-- USER of a server may complete the introduction of a user. -/
theorem ircUserServer
    (hset : ∀ w r c t, J w → w.heap r = some c → c.type = .gotNick → t = .user ∨ t = .service →
      J (w.setHeap r (some { c with type := t }))) :
    UpholdsFull J (ircUserServer client req) C := by
  unfold Ngircd.ircUserServer
  cases req.pfx with
  | none => exact h.fullMsg _
  | some p =>
    refine .bind (h.fullMsg _) fun w => ?_
    cases w.clientSearch p with
    | none => exact .bind (h.fullMsg _) fun _ => h.fullMsg _
    | some r =>
      refine .bind (.basic (h.clientSetUser _ _ _)) fun _ => ?_
      refine .bind (.basic (h.clientSetHostname _ _)) fun _ => ?_
      refine .bind (.basic (h.clientSetInfo _ _)) fun _ => ?_
      intro w hw
      simp only [wp_msg, wp_clientType, onClient_anyFault]
      intro c hc
      split_ifs with htype
      · rw [wp_bind]
        exact wp_mono (fun _ _ hw' => hw')
          (h.clientIntroduce_remote (.inl rfl) hc fun t ht => hset w r c t hw hc htype ht)
      · exact hw

/-- `Client_CheckID` does nothing about an identifier that is free. -/
theorem clientCheckID_spec (hw : J w) (id : Str) :
    (Ngircd.clientCheckID client id).wp (upPlain C)
      (fun ok w' => J w' ∧ (ok = true → w' = w ∧ id.length ≤ clientIdLen ∧
        (w.listed.any fun rc => strcaseEq rc.2.id id) = false)) w := by
  unfold Ngircd.clientCheckID
  simp only [wp_msg, wp_deref, onClient_anyFault, wp_connOf]
  intro c _
  refine ⟨fun i _ => ?_, fun _ => trivial⟩
  by_cases hlong : id.length > clientIdLen
  · rw [if_pos hlong]
    simp only [wp_msg, wp_clientID, onClient_anyFault]
    intro d _
    refine h.msgFrame.wp (fun _ => trivial) _ fun _ w' hkeep => ?_
    exact ⟨hkeep.2 hw, fun hok => absurd hok Bool.false_ne_true⟩
  · rw [if_neg hlong]
    simp only [wp_msg, wp_getWorld]
    by_cases hused : (w.listed.any fun rc => strcaseEq rc.2.id id) = true
    · rw [if_pos hused, wp_bind]
      intro w' hkeep
      exact ⟨(h.closes _ _ hkeep).2 hw, fun hok => absurd hok Bool.false_ne_true⟩
    · rw [if_neg hused]
      exact ⟨hw, fun _ => ⟨rfl, Nat.le_of_not_lt hlong, by simpa using hused⟩⟩

/-- A server introduces another one. -/
theorem introduceServer (hw : J w)
    (hnew : ∀ source p c, NewServer w (req.arg 0) c → req.pfx = some p →
      w.clientSearch p = some source → c.introducer = client → c.topserver = some source →
      J (w.addClient c)) :
    (introduceServer client req).wp (upPlain C) (fun _ => J) w := by
  unfold Ngircd.introduceServer
  by_cases hargs : req.argc ≠ 4
  · rw [if_pos hargs]
    exact h.msg _ w hw
  rw [if_neg hargs]
  simp only [wp_msg, wp_deref, onClient_anyFault, wp_connOf]
  intro c _
  refine ⟨fun i _ => ?_, fun _ => trivial⟩
  refine wp_mono (fun ok w₁ hw₁ => ?_) (h.clientCheckID_spec hw (req.arg 0))
  cases ok with
  | false => exact hw₁.1
  | true =>
    obtain ⟨rfl, hlength, hfree⟩ := hw₁.2 rfl
    simp only [Bool.not_true, Bool.false_eq_true, if_false, wp_msg, wp_getWorld]
    cases hpfx : req.pfx with
    | none => exact Upholds.bind (h.close _ _ _ _) (fun _ => .pure _) w₁ hw
    | some p =>
      dsimp only
      cases hsource : w₁.clientSearch p with
      | none => exact Upholds.bind (h.close _ _ _ _) (fun _ => .pure _) w₁ hw
      | some source =>
        dsimp only
        rw [wp_bind, wp_newRemote]
        refine Upholds.bind (h.msg _) (fun s => .bind (h.msg _) fun _ =>
          .bind (h.msg _) fun _ => .bind (h.msg _) fun _ => .bind (h.msg _) fun _ =>
          .bind (h.msg _) fun _ => .bind (h.msg _) fun _ => .pure _) _ ?_
        refine hnew source p _ ?_ hpfx hsource rfl rfl
        exact
          { connId := rfl, type := rfl, id := rfl, mytoken := rfl, modes := rfl
            length := hlength, free := hfree }

/-! ## Becoming a server -/

theorem ircNumEndofmotd
    (hset : ∀ c, w.heap client = some c → J (w.setHeap client (some (w.retype c .server)))) :
    (ircNumEndofmotd client).wp (upFull C) (fun _ => J) w := by
  unfold Ngircd.ircNumEndofmotd
  rw [wp_bind]
  refine wp_clientSetType trivial fun c m hc hm => ?_
  refine UpholdsFull.bind (h.fullMsg _) (fun c => .bind (h.fullMsg _) fun i => ?_) _
    (h.misc _ m (hset c hc) hm)
  exact .bind (h.fullMsg _) fun _ => .bind (h.fullMsg _) fun _ => h.fullMsg _

end Upkeep

/-! ## Logging in -/

/-- A client changes its type: `I` holds before and `J` afterwards. -/
structure Retyping (I J : World → Prop) (client : ClientRef) (C : World → World → Prop) :
    Prop where
  before : Upkeep I C
  after : Upkeep J C
  weaken : ∀ w, I w → J w
  setType : ∀ w c t, t ≠ .server → w.heap client = some c → I w →
    J (w.setHeap client (some { c with type := t }))

/-- A client logs in: `I` holds before, `G` while it is greeted, and `J` afterwards. -/
structure Login (I G J : World → Prop) (client : ClientRef) (C : World → World → Prop) :
    Prop extends Retyping I J client C where
  during : Upkeep G C
  setUser : ∀ w c, w.heap client = some c → I w →
    G (w.setHeap client (some { c with type := .user }))
  greet : Leads G (liftM (greetUser client) : Full Bool) J C

/-- Such a client is greeted under `J`. -/
structure Entry (I J : World → Prop) (client : ClientRef) (C : World → World → Prop) :
    Prop extends Retyping I J client C where
  greet : UpholdsBasic J (greetUser client) C

/-- Nothing more is needed to greet the client. -/
theorem Entry.login (h : Entry I J client C) : Login I J J client C where
  __ := h.toRetyping
  during := h.after
  setUser w c := h.setType w c .user nofun
  greet := UpholdsFull.basic h.greet

namespace Upkeep

variable (h : Upkeep J C)
include h

theorem caps (r : ClientRef) (f : Caps → Caps) : UpholdsFull J (Ngircd.setCaps r f) C :=
  fun w hw => ⟨fun c hc => h.setCaps w r c _ hc hw, fun _ => trivial⟩

theorem authPing (i : ConnId) (token : Int) : UpholdsFull J (connSetAuthPing i token) C :=
  fun w hw => h.setAuthPing w i token hw

theorem password (i : ConnId) (pwd : Str) : UpholdsFull J (connSetPassword i pwd) C :=
  fun w hw => h.setPwd w i _ hw

end Upkeep

/-- PASS makes a client one that wants to register. -/
theorem Leads.ircPass (hI : Upkeep I C) (hJ : Upkeep J C)
    (hweaken : ∀ w, I w → J w)
    (hset : ∀ t, t = .gotPass ∨ t = .gotPass2813 → Leads I (clientSetType client t) J C)
    (req : Request) : Leads I (ircPass client req) J C := by
  refine .bind (hI.fullMsg _) fun c => ?_
  cases loginCheckPass c.type req.argc with
  | needMoreParams => exact .weaken hweaken (hI.fullMsg _)
  | alreadyRegistered =>
    exact .weaken hweaken (.bind (hI.fullMsg _) fun _ => hI.fullMsg _)
  | allowed =>
    refine .bind (hI.fullMsg _) fun i => .bind (hI.password i _) fun _ => ?_
    refine .bind (hset _ ?_) fun _ => .ite ?_ (.pure (fun _ hw => hw) _)
    · split_ifs
      · exact .inr rfl
      · exact .inl rfl
    · refine .bind (UpholdsFull.basic ?_) fun _ => .pure (fun _ hw => hw) _
      exact hJ.edit client ⟨fun _ => rfl, fun _ => rfl, fun _ => rfl⟩

namespace Login

variable {G : World → Prop} (h : Login I G J client C)
include h

theorem clientSetType (ht : t ≠ .server) :
    Leads I (clientSetType client t) J C := by
  intro w hw
  refine wp_clientSetType trivial fun c m hc hm => h.after.misc _ m ?_ hm
  have hset := h.setType w c t ht hc hw
  simpa [World.retype, ht] using hset

theorem ircPass (req : Request) : Leads I (ircPass client req) J C :=
  .ircPass h.before h.after h.weaken
    (fun _ ht => h.clientSetType (by rcases ht with rfl | rfl <;> exact nofun)) req

theorem loginUserPostAuth : Leads I (loginUserPostAuth client) J C := by
  have hI := h.before
  have hG := h.during
  have huser : Leads I (Ngircd.clientSetType client .user) G C := by
    intro w hw
    refine wp_clientSetType trivial fun c m hc hm => hG.misc _ m ?_ hm
    exact h.setUser w c hc hw
  have hintroduce : Leads I (clientIntroduce none client .user) G C := by
    refine .bind huser fun _ => UpholdsFull.bind (hG.fullMsg _) fun w => ?_
    refine .bind (hG.fullMsg _) fun c => .bind (hG.fullMsg _) fun i => ?_
    exact .bind (hG.fullMsg _) fun _ => .bind (hG.fullMsg _) fun _ => hG.fullMsg _
  refine .bind (UpholdsFull.plain (hI.classHandleServerBans client)) fun _ => ?_
  exact .ite (.pure h.weaken _) (.bind hintroduce fun _ => h.greet)

theorem loginUser : Leads I (loginUser client) J C := by
  have hI := h.before
  refine .bind (hI.fullMsg _) fun c => .bind (hI.fullMsg _) fun i => ?_
  refine .bind (hI.fullMsg _) fun w => .ite ?_ ?_
  · exact .bind (h.clientSetType nofun) fun _ => .pure (fun _ hw => hw) _
  · refine .bind (hI.fullMsg _) fun c => .ite (.bind (hI.caps client _) fun _ => ?_) ?_
    all_goals
      refine .ite (.bind (UpholdsFull.plain (hI.clientReject client _ false)) fun _ => ?_)
        h.loginUserPostAuth
      exact .pure h.weaken _

theorem sendAuthPing : UpholdsFull I (sendAuthPing client) C := by
  have hI := h.before
  refine .bind (hI.fullMsg _) fun c => .bind (hI.fullMsg _) fun i => ?_
  refine .bind (.basic hI.drawRand) fun token => .bind (hI.authPing i token) fun _ => ?_
  exact .bind (hI.fullMsg _) fun _ => .pure _

/-- NICK of a client that registers. -/
theorem registerNick
    (hid : Leads L (clientSetID target nick) I C) :
    Leads L (registerNick client target nick) J C := by
  have hI := h.before
  refine .bind hid fun _ => .bind (hI.fullMsg _) fun w => ?_
  refine .ite (.bind h.sendAuthPing fun _ => ?_) ?_
  all_goals
    refine .bind (hI.fullMsg _) fun c => .bind (hI.fullMsg _) fun i => ?_
    refine .bind (hI.fullMsg _) fun w => ?_
    dsimp only
    cases loginFlowOnNick c.type (c.type == .gotUser) c.capabilities.pending
        ((w.conns i).authPing != 0) with
    | loginNow => exact h.loginUser
    | setState => exact .bind (h.clientSetType nofun) fun _ => .pure (fun _ hw => hw) _
    | keepState => exact .pure h.weaken _

theorem registerUser (req : Request) : Leads I (registerUser client req) J C := by
  have hI := h.before
  refine .bind (UpholdsFull.basic (hI.clientSetUser _ _ _)) fun _ => ?_
  refine .bind (UpholdsFull.basic (hI.clientSetInfo _ _)) fun _ => ?_
  refine .bind (hI.fullMsg _) fun c => .bind (hI.fullMsg _) fun i => ?_
  refine .bind (hI.fullMsg _) fun w => ?_
  dsimp only
  cases loginFlowOnUser c.type (c.type == .gotNick) c.capabilities.pending
      ((w.conns i).authPing != 0) with
  | loginNow => exact h.loginUser
  | setState => exact .bind (h.clientSetType nofun) fun _ => .pure (fun _ hw => hw) _
  | keepState => exact .pure h.weaken _

end Login

namespace Entry

variable (h : Entry I J client C)
include h

theorem ircPass (req : Request) : Leads I (ircPass client req) J C := h.login.ircPass req

theorem loginUser : Leads I (loginUser client) J C := h.login.loginUser

/-- NICK of a client that registers. -/
theorem registerNick
    (hid : Leads L (clientSetID target nick) I C) :
    Leads L (registerNick client target nick) J C :=
  h.login.registerNick hid

theorem registerUser (req : Request) : Leads I (registerUser client req) J C :=
  h.login.registerUser req

end Entry

namespace Upkeep

variable (h : Upkeep J C)
include h

/-- PASS of a client that is registered is refused. -/
theorem ircPass (hw : J w) (hc : w.heap client = some c)
    (hpass : c.type = .unknown ∨ c.type = .unknownServer →
      (ircPass client req).wp (upFull C) (fun _ => J) w) :
    (ircPass client req).wp (upFull C) (fun _ => J) w := by
  by_cases htype : c.type = .unknown ∨ c.type = .unknownServer
  · exact hpass htype
  rw [not_or] at htype
  have hrefused : loginCheckPass c.type req.argc = .alreadyRegistered := by
    simp [loginCheckPass, htype]
  unfold Ngircd.ircPass
  simp only [wp_msg, wp_deref, onClient_of_some hc]
  rw [hrefused]
  exact UpholdsFull.bind (h.fullMsg _) (fun _ => h.fullMsg _) w hw

theorem receivePong
    (hw : J w) (hlogin : ∀ c, w.heap client = some c → c.type = .waitAuthPing → ∀ i,
      (loginUser client).wp (upFull C) (fun _ => J)
        (w.setConn i { w.conns i with authPing := 0 })) :
    (receivePong client req).wp (upFull C) (fun _ => J) w := by
  have hend (i : ConnId) (alive : Bool) : UpholdsFull J (if !alive then return disconnected
      else do
        let _ ← clientType client
        editConn i noPongPending
        return connected : Full Bool) C :=
    .ite (.pure _) (.bind (h.fullMsg _) fun _ => .bind (h.fullMsg _) fun _ => .pure _)
  unfold Ngircd.receivePong
  simp only [wp_msg, wp_deref, onClient_anyFault, wp_connOf, wp_getWorld]
  intro c hc
  refine ⟨fun i _ => ?_, fun _ => trivial⟩
  by_cases hnone : (w.conns i).authPing = 0
  · rw [if_pos hnone]
    exact hend i connected w hw
  rw [if_neg hnone]
  by_cases hright : (w.conns i).authPing = atoi (req.arg 0)
  · rw [if_pos hright]
    have hset := h.setAuthPing w i 0 hw
    simp only [wp_msg, wp_connSetAuthPing, wp_clientType, onClient_anyFault]
    intro d hd
    split_ifs with hwait
    · rw [wp_bind]
      exact wp_mono (fun _ w' hw' => hend i connected w' hw') (hlogin d hd hwait i)
    · exact hend i connected _ hset
  · rw [if_neg hright]
    exact UpholdsFull.bind (h.fullMsg _)
      (fun _ => .bind (h.fullMsg _) fun alive => hend i alive) w hw

variable (hw : J w) (hc : w.heap client = some c)
include hw hc

/-- PONG logs a client in that waits for it. -/
theorem ircPong (hknown : client < w.nextRef) (hlogin : c.type = .waitAuthPing → ∀ i,
      (loginUser client).wp (upFull C) (fun _ => J)
        (w.setConn i { w.conns i with authPing := 0 })) :
    (ircPong client req).wp (upFull C) (fun _ => J) w := by
  have hreceive : (Ngircd.receivePong client req).wp (upFull C) (fun _ => J) w := by
    refine h.receivePong hw fun d hd hwait => ?_
    obtain rfl : c = d := Option.mem_unique hc hd
    exact hlogin hwait
  unfold Ngircd.ircPong
  simp only [wp_msg, wp_clientType, onClient_of_some hc]
  by_cases hnone : req.argc < 1
  · rw [if_pos hnone]
    exact UpholdsFull.ite (.bind (h.fullMsg _) fun _ => h.fullMsg _) (.pure _) w hw
  rw [if_neg hnone]
  by_cases hmany : c.type = .user ∧ req.argc > 2
  · rw [if_pos hmany]
    exact h.fullMsg _ w hw
  rw [if_neg hmany]
  by_cases hforward : req.argc = 2 ∧ c.type = .server
  · rw [if_pos hforward]
    cases req.pfx with
    | none => exact h.fullMsg _ w hw
    | some p =>
      simp only [wp_msg]
      refine h.msgFrame.wp (fun _ => trivial) _ fun result w' hkeep => ?_
      cases result with
      | some result => exact hkeep.2 hw
      | none =>
        -- The client of the connection is still a server.
        refine h.receivePong (hkeep.2 hw) fun d hd hwait => ?_
        obtain ⟨c', hc', hsame⟩ := hkeep.1.cell client d hknown hd
        obtain rfl : c = c' := Option.mem_unique hc hc'
        rw [hsame.1.type, hforward.2] at hwait
        cases hwait
  · rw [if_neg hforward]
    exact hreceive

/-- CAP END logs a client in that is no user yet. -/
theorem ircCap
    (hlogin : req.argc = 1 → strcaseEq (req.arg 0) "END" = true → c.type ≠ .user → ∀ caps,
      (loginUser client).wp (upFull C) (fun _ => J)
        (w.setHeap client (some { c with capabilities := caps }))) :
    (ircCap client req).wp (upFull C) (fun _ => J) w := by
  have hnegotiate : UpholdsFull J (setCapNegotiation client) C :=
    .bind (h.fullMsg _) fun _ => h.caps client _
  have hclear : UpholdsFull J (handleCapClear client) C :=
    .bind (h.fullMsg _) fun _ => .bind (h.caps client _) fun _ => .bind (h.fullMsg _) fun _ =>
      h.fullMsg _
  have hend (hcommand : req.argc = 1 ∧ strcaseEq (req.arg 0) "END" = true) :
      (handleCapEnd client).wp (upFull C) (fun _ => J) w := by
    unfold handleCapEnd
    simp only [wp_msg, wp_clientType, onClient_of_some hc]
    by_cases huser : c.type = .user
    · rw [if_pos huser]
      exact hw
    rw [if_neg huser]
    simp only [wp_msg, wp_setCaps, onClient_of_some hc, wp_clientID, onClient_anyFault]
    intro d _
    split_ifs
    · exact hlogin hcommand.1 hcommand.2 huser _
    · exact h.setCaps w client c _ hc hw
  have hreq : UpholdsFull J (handleCapReq client (req.arg 1)) C := by
    refine .bind hnegotiate fun _ => .bind (h.fullMsg _) fun c => ?_
    cases parseCap c.capabilities (req.arg 1) with
    | none => exact .bind (h.fullMsg _) fun _ => h.fullMsg _
    | some caps =>
      exact .bind (h.caps client _) fun _ => .bind (h.fullMsg _) fun _ => h.fullMsg _
  unfold Ngircd.ircCap
  dsimp only
  split_ifs with _ hcommand
  · exact hclear w hw
  · exact hend hcommand
  · exact UpholdsFull.bind hnegotiate (fun _ => .bind (h.fullMsg _) fun _ => h.fullMsg _) w hw
  · exact UpholdsFull.bind (h.fullMsg _) (fun _ => .bind (h.fullMsg _) fun _ => h.fullMsg _) w hw
  · exact hreq w hw
  · exact hw
  · exact UpholdsFull.bind (h.fullMsg _) (fun _ => h.fullMsg _) w hw

/-- USER registers a client, or is about a remote one. -/
theorem ircUser (hnew : c.type = .gotNick ∨ c.type = .unknown ∨ c.type = .gotPass →
      (registerUser client req).wp (upFull C) (fun _ => J) w)
    (hserver : UpholdsFull J (Ngircd.ircUserServer client req) C) :
    (ircUser client req).wp (upFull C) (fun _ => J) w := by
  have herror (p : Msg Str) (f : Str → Msg Bool) :
      UpholdsFull J (do return ← f (← p) : Full Bool) C :=
    .bind (h.fullMsg _) fun _ => h.fullMsg _
  have hregister (htype : userCheckContext c.type = .newConnection) :
      (registerUser client req).wp (upFull C) (fun _ => J) w := by
    refine hnew ?_
    revert htype
    cases c.type <;> decide
  unfold Ngircd.ircUser
  simp only [wp_msg, wp_deref, onClient_of_some hc]
  cases hcontext : userCheckContext c.type with
  | newConnection =>
    dsimp only
    by_cases hargs : req.argc ≠ 4
    · rw [if_pos hargs]
      exact h.fullMsg _ w hw
    rw [if_neg hargs]
    by_cases hname : (!userNameOk (req.arg 0)) = true
    · rw [if_pos hname]
      exact UpholdsFull.bind (h.fullMsg _)
        (fun _ => .bind (.plain (h.close _ _ _ _)) fun _ => .pure _) w hw
    · rw [if_neg hname]
      exact hregister hcontext
  | serverUpdate => exact UpholdsFull.ite (h.fullMsg _) hserver w hw
  | alreadyRegistered => exact herror _ _ w hw
  | notRegistered => exact herror _ _ w hw

end Upkeep

/-! ## Clients that stay servers -/

/-- The client is a server as long as it is there. -/
structure World.StillServer (w : World) (r : ClientRef) : Prop where
  known : r < w.nextRef
  type : ∀ c, w.heap r = some c → c.type = .server

theorem Persists.stillServer (h : Persists w w')
    (hr : w.StillServer r) : w'.StillServer r where
  known := Nat.lt_of_lt_of_le hr.known h.nextRef
  type c hc := by
    obtain ⟨c', hc', hsame⟩ := h.cell r c hr.known hc
    rw [hsame.1.type]
    exact hr.type c' hc'

theorem clientSetID_stillServer (hs : w.StillServer client)
    (target : ClientRef) (id : Str) :
    (clientSetID target id).wp (upFull C) (fun _ w' => w'.StillServer client)
      w := by
  have hset {v : World} {d d' : Client} (hv : v.StillServer client) (hd : v.heap target = some d)
      (htype : d'.type = d.type) : (v.setHeap target (some d')).StillServer client := by
    refine ⟨hv.known, fun c hc => ?_⟩
    by_cases hr : client = target
    · subst hr
      rw [World.setHeap_heap_self] at hc
      rw [← Option.some.inj hc, htype]
      exact hv.type d hd
    · rw [World.setHeap_heap_ne v hr] at hc
      exact hv.type c hc
  unfold clientSetID
  simp only [wp_msg, wp_setId, wp_getWorld, onClient_anyFault]
  intro d hd
  have hnamed : (w.setHeap target (some { d with id := strlcpy id clientIdLen })).StillServer
      client := hset hs hd rfl
  split_ifs
  · simp only [liftM_basic_full, wp_ofPlain, wp_ofBasic, wp_editClient, onClient_anyFault]
    exact fun e he => hset hnamed he rfl
  · exact hnamed

/-- NICK of a server for somebody who registers elsewhere gives a name, and nothing
else. -/
theorem Upkeep.registerNick_server (h : Upkeep J C)
    (hid : (clientSetID target nick).wp (upFull C) (fun _ => J) w)
    (hs : w.StillServer client) :
    (registerNick client target nick).wp (upFull C) (fun _ => J) w := by
  have hping (w : World) (hw : J w ∧ w.StillServer client) :
      (sendAuthPing client).wp (upFull C) (fun _ w' => J w' ∧ w'.StillServer client) w := by
    unfold sendAuthPing
    simp only [wp_msg, liftM_basic_full, wp_deref, onClient_anyFault, wp_connOf, wp_drawRand,
      wp_connSetAuthPing]
    intro c _
    refine ⟨fun i _ => ?_, fun _ => trivial⟩
    refine h.msgFrame.wp (fun _ => trivial) _ fun _ w' hkeep => ?_
    refine ⟨hkeep.2 (h.setAuthPing _ i _ (h.rand w _ hw.1)), hkeep.1.stillServer ?_⟩
    exact ⟨hw.2.known, hw.2.type⟩
  unfold Ngircd.registerNick
  rw [wp_bind]
  refine wp_mono (fun _ w₁ hw₁ => ?_)
    (Prog.wp_and fullWp_and hid (clientSetID_stillServer hs target nick))
  simp only [wp_msg, wp_getWorld]
  split_ifs
  on_goal 1 =>
    rw [wp_bind]
    refine wp_mono (fun _ w₂ hw₂ => ?_) (hping w₁ hw₁)
    replace hw₁ := hw₂
  all_goals
    simp only [wp_msg, wp_deref, onClient_anyFault, wp_connOf, wp_getWorld]
    intro c hc
    refine ⟨fun i _ => ?_, fun _ => trivial⟩
    rw [hw₁.2.type c hc]
    exact hw₁.1

/-! ## Identifiers -/

theorem Leads.clientSetID (hup : Upkeep J C)
    (hset : ∀ w c, w.heap target = some c → I w →
      J (w.setHeap target (some { c with id := strlcpy nick clientIdLen }))) :
    Leads I (clientSetID target nick) J C := by
  have hid : Leads I (setId target (strlcpy nick clientIdLen)) J C :=
    fun w hw => ⟨fun c hc => hset w c hc hw, fun _ => trivial⟩
  refine .bind hid fun _ => .bind (hup.fullMsg _) fun w => ?_
  refine .ite (UpholdsFull.basic ?_) (.pure (fun _ hw => hw) _)
  exact hup.edit target ⟨fun _ => rfl, fun _ => rfl, fun _ => rfl⟩

/-- A client gets an identifier: `I` holds as long as the identifier is free for it, and
`J` anyway. -/
structure Renaming (I J : World → Prop) (r : ClientRef) (id : Str) (C : World → World → Prop) :
    Prop where
  free : Upkeep I C
  upkeep : Upkeep J C
  weaken : ∀ w, I w → J w
  setId : ∀ w c, w.heap r = some c → I w →
    J (w.setHeap r (some { c with id := strlcpy id clientIdLen }))

namespace Renaming

variable (h : Renaming I J target nick C)
include h

theorem clientSetID : Leads I (clientSetID target nick) J C := .clientSetID h.upkeep h.setId

theorem changeNick (origin : ClientRef) (inform : Bool) :
    Leads I (changeNick origin target nick inform) J C := by
  have hI := h.free
  refine .bind (hI.fullMsg _) fun _ => .ite (.bind (hI.fullMsg _) fun _ => ?_) ?_
  all_goals
    refine .bind (hI.fullMsg _) fun _ => .bind (hI.fullMsg _) fun _ => ?_
    exact .bind (UpholdsFull.basic (.leave (hI.clientRegisterWhowas target))) fun _ =>
      h.clientSetID

theorem ircNickChange (client : ClientRef) : Leads I (ircNickChange client target nick) J C := by
  have hI := h.free
  refine .bind (hI.fullMsg _) fun w => .bind (hI.fullMsg _) fun c => ?_
  dsimp only
  split
  · refine .weaken h.weaken (.bind (hI.fullMsg _) fun _ => .bind (hI.fullMsg _) fun _ => ?_)
    exact hI.fullMsg _
  · refine .bind (h.changeNick client _) fun _ => ?_
    exact .bind (h.upkeep.fullMsg _) fun _ => .pure (fun _ hw => hw) _

/-- A nickname that `Client_CheckNick` accepts, or that differs from the old one in case
only, is free. -/
theorem ircNickUser (hw : J w)
    (hown : ∀ c, w.heap target = some c → c.nameOrStar ≠ nick →
      strcaseEq c.nameOrStar nick = true → I w)
    (hcheck : (clientCheckNick target nick).wp (msgWp (closing C) anyFault)
      (fun ok w' => if ok then I w' else J w') w)
    (hregister : ∀ w' c, Persists w w' → w'.heap target = some c → c.type ≠ .user →
      c.type ≠ .service → c.type ≠ .server → I w' →
      (Ngircd.registerNick client target nick).wp (upFull C) (fun _ => J) w') :
    (ircNickUser client target nick).wp (upFull C) (fun _ => J) w := by
  unfold Ngircd.ircNickUser
  simp only [wp_msg, wp_clientID, onClient_anyFault]
  intro c hc
  by_cases hsame : c.nameOrStar = nick
  · rw [if_pos hsame]
    exact hw
  rw [if_neg hsame]
  by_cases hcase : strcaseEq c.nameOrStar nick = true
  on_goal 1 =>
    rw [if_neg (by simp [hcase])]
    obtain ⟨hfree, hkept⟩ := And.intro (hown c hc hsame hcase) (persists_frame.refl w)
  on_goal 2 =>
    rw [if_pos (by simpa using hcase)]
    simp only [wp_msg]
    have hkept : (clientCheckNick target nick).wp (msgWp (closing C) anyFault)
        (fun _ w' => Persists w w') w :=
      h.upkeep.msgFrame.wp (fun _ => trivial) _ fun _ _ hkeep => hkeep.1
    refine wp_mono (fun ok w' hw' => ?_) (Prog.wp_and msgWp_and hcheck hkept)
    cases ok
    case false => exact hw'.1
    obtain ⟨hfree, hkept⟩ := hw'
    rw [if_neg (by simp)]
  all_goals
    simp only [wp_msg, wp_clientType, onClient_anyFault]
    intro d hd
    split_ifs with htype
    · exact hregister _ d hkept hd htype.1 htype.2.1 htype.2.2 hfree
    · exact h.ircNickChange client _ hfree

omit h in
/-- Every nickname is free for an invariant that does not depend on identifiers. -/
theorem ircNickUser_same (h : Renaming J J target nick C)
    (hw : J w) (hregister : ∀ w', J w' → Persists w w' →
      (Ngircd.registerNick client target nick).wp (upFull C) (fun _ => J) w') :
    (Ngircd.ircNickUser client target nick).wp (upFull C) (fun _ => J) w := by
  refine h.ircNickUser hw (fun _ _ _ _ => hw) ?_ fun w' _ hkept _ _ _ _ hw' =>
    hregister w' hw' hkept
  refine h.upkeep.msgFrame.wp (fun _ => trivial) _ fun ok w' hkeep => ?_
  have hw' := hkeep.2 hw
  split <;> exact hw'

end Renaming

/-- The first parameter of a status code stands for this server. -/
def Request.forThisServer (req : Request) (w : World) : Bool :=
  (req.argv.head?.bind fun name => if name = "*" then some w.thisServer else w.clientSearch name) ==
    some w.thisServer

theorem Entry.ircNickUser (h : Entry J J client C)
    (hr : Renaming J J target nick C) : UpholdsFull J (ircNickUser client target nick) C :=
  fun _ hw => hr.ircNickUser_same hw fun w' hw' _ => h.registerNick hr.clientSetID w' hw'

namespace Upkeep

variable (h : Upkeep J C)
include h

/-- An invariant that does not depend on identifiers that fit into their array. -/
theorem renames (hset : ∀ w c id, id.length < clientIdLen →
    w.heap r = some c → J w → J (w.setHeap r (some { c with id }))) : Renaming J J r id C where
  free := h
  upkeep := h
  weaken _ hw := hw
  setId w c hc hw := hset w c _ (Nat.lt_of_le_of_lt (List.length_take_le _ _) (by decide)) hc hw

/-- `IRC_NICK`: a user changes its nickname, a server passes on such a change, or
introduces a user. -/
theorem ircNick (hw : J w) (hc : w.heap client = some c)
    (huser : c.type ≠ .server → nickCheckContext c.type req.argc = .userOrChange →
      (ircNickUser client client (req.arg 0)).wp (upFull C) (fun _ => J) w)
    (hrelay : ∀ p target, c.type = .server → req.pfx = some p → w.clientSearch p = some target →
      (ircNickUser client target (req.arg 0)).wp (upFull C) (fun _ => J) w)
    (hintroduce : nickCheckContext c.type req.argc = .serverIntroduce →
      (Ngircd.ircNickIntroduce client req).wp (upFull C) (fun _ => J) w) :
    (ircNick client req).wp (upFull C) (fun _ => J) w := by
  have herror (p : Msg Str) (f : Str → Msg Bool) :
      UpholdsFull J (do return ← f (← p) : Full Bool) C :=
    .bind (h.fullMsg _) fun _ => h.fullMsg _
  unfold Ngircd.ircNick
  simp only [wp_msg, wp_deref, onClient_of_some hc]
  cases hcontext : nickCheckContext c.type req.argc with
  | serverIntroduce => exact hintroduce hcontext
  | alreadyRegistered => exact herror _ _ w hw
  | userOrChange =>
    dsimp only
    by_cases hargs : req.argc ≠ 1
    · rw [if_pos hargs]
      exact h.fullMsg _ w hw
    rw [if_neg hargs]
    by_cases hserver : c.type = .server
    · rw [if_pos hserver]
      cases hpfx : req.pfx with
      | none => exact h.fullMsg _ w hw
      | some p =>
        simp only [wp_msg, wp_getWorld]
        cases htarget : w.clientSearch p with
        | none => exact herror _ _ w hw
        | some target => exact hrelay p target hserver hpfx htarget
    · rw [if_neg hserver]
      by_cases hrestricted : c.hasMode 'r' = true
      · rw [if_pos hrestricted]
        exact herror _ _ w hw
      · rw [if_neg hrestricted]
        exact huser hserver hcontext

/-- `Client_CheckNick` accepts a nickname in which it finds no error. -/
theorem clientCheckNick (hw : J w) (hok : ∀ t, w.nickError t nick = none → I w) :
    (clientCheckNick client nick).wp (msgWp (closing C) anyFault)
      (fun ok w' => if ok then I w' else J w') w := by
  have hrefuse (p : Msg Bool) : p.wp (msgWp (closing C) anyFault) (fun _ => J) w :=
    h.msgFrame.wp (fun _ => trivial) _ fun _ _ hkeep => hkeep.2 hw
  unfold Ngircd.clientCheckNick
  simp only [wp_bind, wp_getWorld, wp_clientType, onClient_anyFault]
  intro c _
  cases herror : w.nickError c.type nick with
  | none => exact hok c.type herror
  | some error =>
    cases error <;>
      (simp only [wp_clientID, wp_bind, onClient_anyFault]; exact fun d _ => hrefuse _)

/-- `IRC_SVSNICK`: a server changes the nickname of a user of this server. -/
theorem ircSvsnick
    (hr : ∀ target, Renaming (K target) J target (req.arg 1) C)
    (hok : ∀ w t target, J w → w.nickError t (req.arg 1) = none → K target w) :
    UpholdsFull J (ircSvsnick client req) C := by
  intro w hw
  unfold Ngircd.ircSvsnick
  simp only [wp_msg, wp_getWorld]
  cases req.pfx with
  | none => exact h.fullMsg _ w hw
  | some p =>
    dsimp only
    cases w.clientSearch (req.arg 0) with
    | none => exact UpholdsFull.basic (h.past fun _ => h.basicMsg _) w hw
    | some target =>
      simp only [wp_msg, wp_deref, onClient_anyFault]
      intro t _
      by_cases huser : t.type ≠ .user
      · rw [if_pos huser]
        exact UpholdsFull.basic (h.past fun _ => h.basicMsg _) w hw
      rw [if_neg huser]
      by_cases hremote : t.connId.isNone = true
      · rw [if_pos hremote]
        exact UpholdsFull.bind (h.fullMsg _) (fun _ => h.fullMsg _) w hw
      · rw [if_neg hremote]
        rw [wp_bind]
        simp only [wp_ofPlain, wp_ofBasic, wp_ofLeave, wp_ofMsg]
        refine wp_mono (fun ok w' hw' => ?_) (h.clientCheckNick hw fun t => hok w t target hw)
        cases ok with
        | false => exact hw'
        | true =>
          rw [if_pos rfl, wp_bind]
          exact wp_mono (fun _ _ h => h) ((hr target).changeNick _ true w' hw')

theorem ircSvsnick_renames (hr : ∀ target, Renaming J J target (req.arg 1) C) :
    UpholdsFull J (Ngircd.ircSvsnick client req) C :=
  h.ircSvsnick hr fun _ _ _ hw _ => hw

/-! ## SERVER -/

/-- The part of `IRC_SERVER` after its checks, if the identifier is free. -/
theorem acceptServer {i : ConnId} {srv : ConfServer}
    (hid : Leads I (clientSetID client (req.arg 0)) J C)
    (hown : ∀ w c, w.heap client = some c → J w →
      J (w.setHeap client (some { c with introducer := client })))
    (htype : UpholdsFull J (clientSetType client .unknownServer) C)
    (hserver : UpholdsFull J (Ngircd.ircNumEndofmotd client) C) :
    Leads I (acceptServer client i srv req) J C := by
  refine .bind hid fun _ => ?_
  show UpholdsFull J _ C
  refine .bind (.basic (h.edit client ⟨fun _ => rfl, fun _ => rfl, fun _ => rfl⟩)) fun _ => ?_
  refine .bind (.basic (h.clientSetInfo client _)) fun _ => .bind (h.fullMsg _) fun w => ?_
  have hset : UpholdsFull J (clientSetIntroducer client) C :=
    fun w hw => ⟨fun c hc => hown w c hc hw, fun _ => trivial⟩
  refine .bind (h.fullMsg _) fun c => .ite (.bind (h.fullMsg _) fun greeted => .ite
    (.bind hset fun _ => .bind (.basic ?_) fun _ => .bind (.pure true) fun _ => ?_)
    (.bind (h.fullMsg _) fun c => .bind (h.fullMsg _) fun j =>
      .bind (.plain (h.close _ _ _ _)) fun _ => .bind (.pure false) fun _ => ?_))
    (.bind (.basic ?_) fun _ => .bind (.pure true) fun _ => ?_)
  on_goal 1 => exact h.edit client ⟨fun _ => rfl, fun _ => rfl, fun _ => rfl⟩
  on_goal 3 => exact h.edit client ⟨fun _ => rfl, fun _ => rfl, fun _ => rfl⟩
  all_goals
    refine .ite (.pure _) (.bind (h.fullMsg _) fun t => .opt ?_ fun hset =>
      .bind (h.fullMsg _) fun _ => hset)
    exact .bind htype fun _ => .bind (h.fullMsg _) fun c => .ite (h.fullMsg _) hserver

/-- `IRC_SERVER` of a peer that wants to become a server. -/
theorem registerServer (hw : J w)
    (haccept : ∀ i srv servers, (w.listed.any fun rc => strcaseEq rc.2.id (req.arg 0)) = false →
      (req.arg 0).length ≤ clientIdLen →
      (Ngircd.acceptServer client i srv req).wp (upFull C) (fun _ => J)
        { w with conf := { w.conf with servers } }) :
    (registerServer client req).wp (upFull C) (fun _ => J) w := by
  unfold Ngircd.registerServer
  by_cases hargs : req.argc ≠ 2 ∧ req.argc ≠ 3
  · rw [if_pos hargs]
    exact h.fullMsg _ w hw
  rw [if_neg hargs]
  simp only [wp_msg, wp_deref, onClient_anyFault, wp_connOf, wp_getWorld]
  intro c _
  refine ⟨fun i _ => ?_, fun _ => trivial⟩
  split
  · exact UpholdsFull.plain (.bind (h.close _ _ _ _) fun _ => .pure _) w hw
  · rename_i k _
    by_cases hpwd : (w.conns i).pwd ≠ (w.conf.servers.getD k {}).pwdIn
    · rw [if_pos hpwd]
      exact UpholdsFull.plain (.bind (h.close _ _ _ _) fun _ => .pure _) w hw
    rw [if_neg hpwd]
    rw [wp_bind, liftM_plain_full, wp_ofPlain]
    refine wp_mono (fun ok w₁ hw₁ => ?_) (h.clientCheckID_spec hw (req.arg 0))
    cases ok with
    | false => exact hw₁.1
    | true =>
      obtain ⟨rfl, hlength, hfree⟩ := hw₁.2 rfl
      have hgo (servers : List ConfServer) :=
        haccept i (w₁.conf.servers.getD k {}) servers hfree hlength
      simp only [Bool.not_true, Bool.false_eq_true, if_false]
      rw [wp_bind, liftM_plain_full, wp_ofPlain]
      unfold Ngircd.confSetServer
      simp only [wp_msg, liftM_basic_plain, wp_getWorld]
      split
      · rename_i j _
        by_cases hbusy : j ≠ i
        · rw [if_pos hbusy, wp_bind]
          exact fun w' hkeep => (h.closes _ _ hkeep).2 hw
        · rw [if_neg hbusy]
          exact hgo w₁.conf.servers
      · exact hgo _

theorem ircServer (hw : J w) (hc : w.heap client = some c)
    (hregister : c.type = .gotPass ∨ c.type = .gotPass2813 →
      (Ngircd.registerServer client req).wp (upFull C) (fun _ => J) w)
    (hintroduce : c.type = .server →
      (Ngircd.introduceServer client req).wp (upPlain C) (fun _ => J) w) :
    (ircServer client req).wp (upFull C) (fun _ => J) w := by
  unfold Ngircd.ircServer
  simp only [wp_msg, wp_deref, onClient_of_some hc]
  split_ifs
  · exact UpholdsFull.bind (h.fullMsg _) (fun _ => h.fullMsg _) w hw
  · cases htype : c.type with
    | gotPass | gotPass2813 => exact hregister (by simp [htype])
    | server => exact (wp_ofPlain _).mpr (hintroduce htype)
    | _ => exact h.fullMsg _ w hw

/-- A status code for this server is 376 or changes nothing, apart from closing the
connection. -/
theorem handleNumeric (hw : J w)
    (hmotd : req.forThisServer w = true → atoi req.command = 376 →
      (Ngircd.ircNumEndofmotd client).wp (upFull C) (fun _ => J) w) :
    (handleNumeric client req).wp (upFull C) (fun _ => J) w := by
  unfold Ngircd.handleNumeric
  simp only [wp_msg, wp_getWorld]
  split
  · exact hw
  · rename_i target htarget
    split_ifs with hthis
    · have hmine : req.forThisServer w = true := by
        rw [Request.forThisServer, htarget, hthis, beq_self_eq_true]
      split
      · exact UpholdsFull.plain (h.ircNumIsupport client req) w hw
      · rename_i hcode
        exact hmotd hmine hcode
      · exact hw
    · split
      · exact hw
      · exact h.fullMsg _ w hw

/-- A handler is called, and the command is counted. -/
theorem finish_command {cmd : Command}
    (hhandler : (callHandler client req cmd.handler).wp (upFull C) (fun _ => J) w) :
    (Dispatch.finish (.command client type cmd req)).wp (upFull C) (fun _ => J) w := by
  have hcount (before : Nat) : UpholdsBasic J (countCommand cmd (type == .server) before) C :=
    h.past fun _ => h.editMisc .same
  simp only [Dispatch.finish, wp_msg, wp_getWorld]
  refine wp_mono (fun ok w' hw' => ?_) hhandler
  exact UpholdsFull.bind (.basic (hcount _)) (fun _ => .pure _) w' hw'

end Upkeep

/-! ## Invariants that do not depend on types and identifiers -/

/-- The invariant is upheld when the type of a client or an identifier changes. -/
structure Personal (J : World → Prop) (client : ClientRef) (C : World → World → Prop) :
    Prop where
  upkeep : Upkeep J C
  setType : ∀ w c t, w.heap client = some c → J w → J (w.setHeap client (some (w.retype c t)))
  setId : ∀ w r c id, id.length < clientIdLen → w.heap r = some c → J w →
    J (w.setHeap r (some { c with id }))
  ownIntroducer : ∀ w c, w.heap client = some c → J w →
    J (w.setHeap client (some { c with introducer := client }))
  greet : UpholdsBasic J (greetUser client) C

namespace Personal

variable (h : Personal J client C)
include h

theorem entry : Entry J J client C where
  before := h.upkeep
  after := h.upkeep
  weaken _ hw := hw
  setType w c t ht hc hw := by
    have hset := h.setType w c t hc hw
    simpa [World.retype, ht] using hset
  greet := h.greet

theorem clientSetType (t : ClientType) : UpholdsFull J (clientSetType client t) C :=
  fun w hw => wp_clientSetType trivial fun c m hc hm => h.upkeep.misc _ m (h.setType w c t hc hw) hm

theorem renames (r : ClientRef) (id : Str) : Renaming J J r id C :=
  h.upkeep.renames fun w c id hid hc hw => h.setId w r c id hid hc hw

theorem ircNickUser (target : ClientRef) (nick : Str) :
    UpholdsFull J (ircNickUser client target nick) C :=
  h.entry.ircNickUser (h.renames target nick)

theorem ircSvsnick (req : Request) : UpholdsFull J (ircSvsnick client req) C :=
  h.upkeep.ircSvsnick_renames fun target => h.renames target _

theorem ircNumEndofmotd : UpholdsFull J (ircNumEndofmotd client) C :=
  fun w hw => h.upkeep.ircNumEndofmotd fun c hc => h.setType w c .server hc hw

theorem handleNumeric (req : Request) : UpholdsFull J (handleNumeric client req) C :=
  fun w hw => h.upkeep.handleNumeric hw fun _ _ => h.ircNumEndofmotd w hw

theorem registerServer (req : Request) : UpholdsFull J (registerServer client req) C := by
  intro w hw
  refine h.upkeep.registerServer hw fun i srv servers _ _ => ?_
  refine h.upkeep.acceptServer (h.renames client _).clientSetID h.ownIntroducer
    (h.clientSetType _) h.ircNumEndofmotd _ ?_
  exact h.upkeep.servers w servers hw

end Personal

/-! ## The table of handlers -/

/-- The handlers that create or remove clients other than the one of the
connection. -/
def Handler.reachesOut : Handler → Bool
  | .xLine | .kill | .nick | .njoin | .quit | .quitHttp | .server | .service | .squit | .user => true
  | _ => false

/-- The ten of them. -/
theorem Handler.cases_of_reachesOut (h : handler.reachesOut = true) :
    handler = .xLine ∨ handler = .kill ∨ handler = .nick ∨ handler = .njoin ∨ handler = .quit ∨
      handler = .quitHttp ∨ handler = .server ∨ handler = .service ∨ handler = .squit ∨
      handler = .user := by
  cases handler <;> first | decide | exact absurd h (by decide)

/-- The other handlers that change who a connection is. -/
def Handler.changesSelf : Handler → Bool
  | .cap | .pass | .pong | .svsnick => true
  | _ => false

/-- The handlers of commands that set user modes, modes or lists of a channel, or that let
somebody join one. -/
def Handler.setsModes : Handler → Bool
  | .away | .chaninfo | .invite | .join | .mode => true
  | _ => false

namespace Upkeep

/-- Every handler upholds the invariant that changes nobody's identity. -/
theorem callHandler (h : Upkeep J C) (client : ClientRef) (req : Request)
    (hout : handler.reachesOut = false)
    (hself : handler.changesSelf = false) (hmodes : handler.setsModes = false) :
    UpholdsFull J (callHandler client req handler) C := by
  cases handler with
  | xLine | kill | nick | njoin | quit | quitHttp | server | service | squit | user =>
    exact nomatch hout
  | cap | pass | pong | svsnick => exact nomatch hself
  | away | chaninfo | invite | join | mode => exact nomatch hmodes
  | disconnect => exact .plain (h.ircDisconnect client req)
  | error => exact .plain (h.ircError client req)
  | notice | privmsg | squery => exact .plain (h.sendMessage client req _ _)
  | connect => exact .basic (h.ircConnect client req).toBasic
  | die => exact .basic (h.ircDie client req).toBasic
  | kick => exact .basic (h.ircKick client req).toBasic
  | metadata => exact .basic (h.ircMetadata client req).toBasic
  | oper => exact .basic (h.ircOper client req).toBasic
  | part => exact .basic (h.ircPart client req)
  | rehash => exact .basic (h.ircRehash client req).toBasic
  | restart => exact .basic (h.ircRestart client req).toBasic
  | topic => exact .basic (h.ircTopic client req)
  | webirc => exact .basic (h.ircWebirc client req)
  | _ => exact h.fullMsg _

end Upkeep

namespace Indifferent

variable (h : Indifferent J C)
include h

theorem clientModeAdd (r : ClientRef) (m : Char) : UpholdsBasic J (clientModeAdd r m) C := by
  by_cases hm : m = 'a'
  · subst hm
    refine h.past fun _ => .bind (fun w hw => ?_) fun _ => .pure _
    exact ⟨fun c hc => h.away w r c hc hw, fun _ => trivial⟩
  · exact h.toUpkeep.clientModeAdd r hm

variable (client : ClientRef)

theorem ircMode (req : Request) : UpholdsBasic J (ircMode client req) C := by
  have hdel (ch : ChanRef) : UpholdsBasic J (channelModeDel ch 'P') C := by
    refine h.past fun _ => .bind (fun w hw => ?_) fun _ => .pure _
    exact ⟨fun c hc => h.channelModes w ch c _ hc hw, fun _ => trivial⟩
  exact h.toUpkeep.ircMode client req (fun target origin isServer st m =>
      h.toUpkeep.applyUserMode target origin isServer st (h.clientModeAdd target m)) hdel
    fun r sign m pattern _ _ => h.toUpkeep.editList h.lists sign m r pattern

theorem ircJoin (req : Request) : UpholdsBasic J (ircJoin client req) C :=
  h.toUpkeep.ircJoin client req h.join

theorem greetUser : UpholdsBasic J (greetUser client) C :=
  h.toUpkeep.greetUser client (h.ircMode client) (h.ircJoin client)

/-- Every handler upholds the invariant that changes nobody's identity. -/
theorem callHandler (req : Request) (hout : handler.reachesOut = false)
    (hself : handler.changesSelf = false) :
    UpholdsFull J (callHandler client req handler) C := by
  by_cases hmodes : handler.setsModes = false
  · exact h.toUpkeep.callHandler client req hout hself hmodes
  · cases handler with
    | away => exact .basic (h.toUpkeep.ircAway client req (h.clientModeAdd client 'a'))
    | chaninfo =>
      exact .basic (h.toUpkeep.ircChaninfo client req h.channelModes fun w c _ => h.create w c _)
    | invite =>
      exact .basic (h.toUpkeep.ircInvite client req (Upkeep.addInvite h.lists)).toBasic
    | join => exact .basic (h.ircJoin client req)
    | mode => exact .basic (h.ircMode client req)
    | _ => exact absurd rfl hmodes

end Indifferent

/-- The handlers that change who a connection is uphold the invariant, if logins do. -/
theorem Upkeep.callHandler_self (h : Upkeep J C)
    (hw : J w) (hc : w.heap client = some c) (hknown : client < w.nextRef)
    (hchanges : handler.changesSelf = true)
    (hcap : handler = .cap → req.argc = 1 → strcaseEq (req.arg 0) "END" = true →
      c.type ≠ .user → ∀ caps, (loginUser client).wp (upFull C) (fun _ => J)
        (w.setHeap client (some { c with capabilities := caps })))
    (hpass : c.type = .unknown ∨ c.type = .unknownServer →
      (Ngircd.ircPass client req).wp (upFull C) (fun _ => J) w)
    (hpong : c.type = .waitAuthPing → ∀ i,
      (loginUser client).wp (upFull C) (fun _ => J) (w.setConn i { w.conns i with authPing := 0 }))
    (hsvsnick : UpholdsFull J (Ngircd.ircSvsnick client req) C) :
    (Ngircd.callHandler client req handler).wp (upFull C) (fun _ => J) w := by
  cases handler with
  | cap => exact h.ircCap hw hc (hcap rfl)
  | pass => exact h.ircPass hw hc hpass
  | pong => exact h.ircPong hw hc hknown hpong
  | svsnick => exact hsvsnick w hw
  | _ => exact nomatch hchanges

theorem Entry.callHandler_self (hself : Entry J J client C)
    (hsvsnick : UpholdsFull J (ircSvsnick client req) C) (hw : J w)
    (hc : w.heap client = some c) (hknown : client < w.nextRef)
    (hchanges : handler.changesSelf = true) :
    (callHandler client req handler).wp (upFull C) (fun _ => J) w := by
  have hup := hself.after
  exact hup.callHandler_self hw hc hknown hchanges
    (fun _ _ _ _ caps => hself.loginUser _ (hup.setCaps w client c caps hc hw))
    (fun _ => hself.ircPass req w hw)
    (fun _ i => hself.loginUser _ (hup.setAuthPing w i 0 hw)) hsvsnick

/-- Every handler that is about the client of the connection upholds the invariant. -/
theorem Entry.callHandler (hself : Entry J J client C) (h : Indifferent J C)
    (hsvsnick : UpholdsFull J (ircSvsnick client req) C)
    (hw : J w) (hc : w.heap client = some c) (hknown : client < w.nextRef)
    (hout : handler.reachesOut = false) :
    (Ngircd.callHandler client req handler).wp (upFull C) (fun _ => J) w := by
  by_cases hchanges : handler.changesSelf = false
  · exact h.callHandler client req hout hchanges w hw
  · exact hself.callHandler_self hsvsnick hw hc hknown (by simpa using hchanges)

end

end Ngircd
