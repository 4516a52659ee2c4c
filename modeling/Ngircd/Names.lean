import Ngircd.Lines
import Ngircd.Remains
import Ngircd.Topserver

/-!
# Identifiers of clients

A nickname that a user asks for is looked up before it is given out.  A server that
introduces users, services and other servers has its names looked up as well, but not
always in the form in which they are stored afterwards: `Client_Search` cuts a name at
an exclamation mark, `IRC_SERVICE` stores the part before the host name and
`Client_CheckID` compares names that are stored without their last character.
-/

namespace Ngircd

open Lib

variable {s name : Str} {t : ClientType} {req : Request}

/-! ## Names that are free -/

section

variable {w w' : World} {r s client target : ClientRef} {c c' new : Client} {id nick : Str}

/-- No other client on the list has the identifier. -/
def World.FreeFor (w : World) (r : ClientRef) (id : Str) : Prop :=
  ∀ s ∈ w.order, s ≠ r → ∀ d, w.heap s = some d → d.id ≠ [] → strcaseEq d.id id = false

theorem takeWhile_of_not_mem {s : Str} (h : '!' ∉ s) : s.takeWhile (· != '!') = s := by
  have hall : ∀ x ∈ s, (x != '!') = true := by
    intro x hx
    have hne : x ≠ '!' := fun hxc => h (hxc ▸ hx)
    simpa using hne
  have happend : (s ++ []).takeWhile (· != '!') = s ++ [].takeWhile (· != '!') :=
    List.takeWhile_append_of_pos hall
  simpa using happend

theorem not_mem_strlcpy {s : Str} {size : Nat} {x : Char} (h : x ∉ s) : x ∉ strlcpy s size :=
  fun hx => h (List.mem_of_mem_take hx)

/-- A name without an exclamation mark that is not found is free in the form in which it
is stored. -/
theorem World.freeFor_of_search (hplain : '!' ∉ nick) (hnone : w.clientSearch nick = none)
    (r : ClientRef) : w.FreeFor r (strlcpy nick clientIdLen) := by
  intro s hs _ d hd hid
  simp only [World.clientSearch, Option.map_eq_none_iff, List.find?_eq_none] at hnone
  have hother := hnone (s, d) (World.mem_listed hs hd)
  rw [takeWhile_of_not_mem (not_mem_strlcpy hplain)] at hother
  simpa [hid] using hother

/-- What `Client_IsValidNick` accepts has no exclamation mark. -/
theorem World.not_mem_of_isValidNick (h : w.clientIsValidNick nick = true) : '!' ∉ nick := by
  intro hmem
  unfold World.clientIsValidNick at h
  cases nick with
  | nil => exact nomatch hmem
  | cons first rest =>
    simp only [Bool.and_eq_true, List.all_eq_true] at h
    have hchar := h.2 '!' hmem
    revert hchar
    decide

theorem World.nickError_eq_none (h : w.nickError t nick = none) :
    w.clientIsValidNick nick = true ∧ w.clientSearch nick = none := by
  unfold World.nickError at h
  split_ifs at h with hvalid _ hblocked hused
  exact ⟨by simpa using hvalid, by simpa using hused⟩

theorem mem_of_strcaseEq {a b : Str} (h : strcaseEq a b = true) (hb : '!' ∈ b) : '!' ∈ a := by
  rw [strcaseEq, beq_iff_eq] at h
  have hlower : '!' ∈ lowerStr b := List.mem_map.mpr ⟨'!', hb, rfl⟩
  rw [← h] at hlower
  obtain ⟨x, hx, hx'⟩ := List.mem_map.mp hlower
  rwa [eq_of_toLower (by decide) hx'] at hx

theorem eq_star_of_strcaseEq {s : Str} (h : strcaseEq "*" s = true) : s = "*".toList := by
  rw [strcaseEq, beq_iff_eq] at h
  have hlength : s.length = 1 :=
    (List.length_map _).symm.trans (congrArg List.length h).symm
  obtain ⟨x, rfl⟩ := List.length_eq_one_iff.mp hlength
  have hx : x.toLower = '*' := (List.cons.inj h).1.symm
  rw [eq_of_toLower (by decide) hx]
  rfl

/-! ## The invariant -/

theorem Client.id_view : Client.View Client.id where
  edit e c _ := e.id_eq c

/-- The identifier is one that `Client_Search` looks for as it is. -/
def Searchable (id : Str) : Prop := '!' ∉ id ∧ id.length < clientIdLen

theorem searchable_strlcpy (h : '!' ∉ nick) : Searchable (strlcpy nick clientIdLen) := by
  refine ⟨not_mem_strlcpy h, ?_⟩
  simp [strlcpy, clientIdLen]

/-- Identifiers can be searched for, and are unique. -/
structure Named (w : World) : Prop where
  searchable : ∀ r ∈ w.order, ∀ c, w.heap r = some c → Searchable c.id
  unique : ∀ r ∈ w.order, ∀ s ∈ w.order, ∀ c d, w.heap r = some c → w.heap s = some d →
    c.id ≠ [] → strcaseEq d.id c.id = true → s = r

/-- Moreover, a nickname is free for a client. -/
structure NamedFree (r : ClientRef) (nick : Str) (w : World) : Prop extends Named w where
  plain : '!' ∉ nick
  free : w.FreeFor r (strlcpy nick clientIdLen)

theorem Named.of_remains (h : Named w) (hsame : Remains Client.id w w') : Named w' := by
  have hback {r : ClientRef} {c' : Client} (hr : r ∈ w'.order) (hc' : w'.heap r = some c') :
      r ∈ w.order ∧ ∃ c, w.heap r = some c ∧ c'.id = c.id := by
    obtain ⟨c, hc, heq⟩ := hsame.cell r c' hc'
    exact ⟨hsame.order.subset hr, c, hc, heq⟩
  constructor
  · intro r hr c' hc'
    obtain ⟨hr, c, hc, hid⟩ := hback hr hc'
    rw [hid]
    exact h.searchable r hr c hc
  · intro r hr s hs c' d' hc' hd' hne heq
    obtain ⟨hr, c, hc, hc_id⟩ := hback hr hc'
    obtain ⟨hs, d, hd, hd_id⟩ := hback hs hd'
    rw [hc_id] at hne heq
    rw [hd_id] at heq
    exact h.unique r hr s hs c d hc hd hne heq

theorem World.FreeFor.of_remains (h : w.FreeFor r id) (hsame : Remains Client.id w w') :
    w'.FreeFor r id := by
  intro s hs hne d' hd' hid
  obtain ⟨d, hd, heq⟩ := hsame.cell s d' hd'
  rw [heq] at hid ⊢
  exact h s (hsame.order.subset hs) hne d hd hid

theorem NamedFree.of_remains (h : NamedFree r nick w) (hsame : Remains Client.id w w') :
    NamedFree r nick w' where
  toNamed := h.toNamed.of_remains hsame
  plain := h.plain
  free := h.free.of_remains hsame

namespace Named

/-- One client gets an identifier that is free, or comes with one. -/
theorem put (h : Named w) (horder : ∀ k ∈ w'.order, k ≠ r → k ∈ w.order)
    (hold : ∀ k, k ≠ r → w'.heap k = w.heap k) (hnew : ∀ d, w'.heap r = some d → d.id = id)
    (hid : Searchable id) (hfree : w.FreeFor r id) : Named w' := by
  have hother {k : ClientRef} {d : Client} (hk : k ∈ w'.order) (hkr : k ≠ r)
      (hd : w'.heap k = some d) : k ∈ w.order ∧ w.heap k = some d :=
    ⟨horder k hk hkr, (hold k hkr).symm.trans hd⟩
  constructor
  · intro k hk d hd
    by_cases hkr : k = r
    · subst hkr
      rw [hnew d hd]
      exact hid
    · obtain ⟨hk, hd⟩ := hother hk hkr hd
      exact h.searchable k hk d hd
  · intro k hk s hs d e hd he hne heq
    by_cases hkr : k = r
    · by_cases hsr : s = r
      · rw [hkr, hsr]
      · -- The other client would have the identifier that is free.
        subst hkr
        obtain ⟨hs, he⟩ := hother hs hsr he
        rw [hnew d hd] at heq hne
        have hlength := length_of_strcaseEq heq
        have hused := hfree s hs hsr e he fun hnil => hne (by simpa [hnil] using hlength)
        rw [hused] at heq
        exact nomatch heq
    · by_cases hsr : s = r
      · subst hsr
        obtain ⟨hk, hd⟩ := hother hk hkr hd
        rw [hnew e he, strcaseEq_comm, hfree k hk hkr d hd hne] at heq
        exact nomatch heq
      · obtain ⟨hk, hd⟩ := hother hk hkr hd
        obtain ⟨hs, he⟩ := hother hs hsr he
        exact h.unique k hk s hs d e hd he hne heq

theorem setId (h : Named w) (hid : Searchable id) (hfree : w.FreeFor r id) (c : Client) :
    Named (w.setHeap r (some { c with id })) := by
  refine h.put (fun _ hk _ => hk) (fun k hk => World.setHeap_heap_ne w hk _) (fun d hd => ?_) hid
    hfree
  rw [World.setHeap_heap_self] at hd
  rw [← Option.some.inj hd]

theorem addClient (h : Named w) (hid : Searchable new.id) (hfree : w.FreeFor w.nextRef new.id) :
    Named (w.addClient new) := by
  refine h.put (fun _ hk hne => (List.mem_cons.mp hk).resolve_left hne)
    (fun k hk => World.setHeap_heap_ne w hk _) (fun d hd => ?_) hid hfree
  have hself : (w.addClient new).heap w.nextRef = some new := World.setHeap_heap_self w _ _
  rw [Option.mem_unique hd hself]

/-- `Client_Search` finds a client by its identifier. -/
theorem clientSearch_id (h : Named w) (hr : r ∈ w.order) (hc : w.heap r = some c)
    (hid : c.id ≠ []) : w.clientSearch c.id = some r := by
  obtain ⟨hplain, hlength⟩ := h.searchable r hr c hc
  have hcopy : strlcpy c.id clientIdLen = c.id := List.take_of_length_le (by omega)
  have hname : (strlcpy c.id clientIdLen).takeWhile (· != '!') = c.id := by
    rw [hcopy, takeWhile_of_not_mem hplain]
  unfold World.clientSearch
  simp only [hname]
  have hmem := World.mem_listed hr hc
  cases hfind : w.listed.find? fun rc => !rc.2.id.isEmpty && strcaseEq rc.2.id c.id with
  | none =>
    have hself := List.find?_eq_none.mp hfind (r, c) hmem
    simp [hid] at hself
  | some found =>
    obtain ⟨s, d⟩ := found
    have hfound := List.find?_some hfind
    simp only [Bool.and_eq_true] at hfound
    obtain ⟨k, hk, hkd⟩ := List.mem_filterMap.mp (List.mem_of_find?_eq_some hfind)
    obtain ⟨d', hd', heq⟩ := Option.map_eq_some_iff.mp hkd
    cases heq
    exact congrArg some (h.unique r hr s hk c d hc hd' hid hfound.2)

theorem indifferent : Indifferent Named (ClosesFor Client.id) :=
  Client.View.indifferent Client.id_view (fun _ _ _ => rfl) fun _ _ hsame h => h.of_remains hsame

theorem renames (target : ClientRef) (nick : Str) :
    Renaming (NamedFree target nick) Named target nick (ClosesFor Client.id) where
  free := (Client.View.indifferent Client.id_view (fun _ _ _ => rfl)
    fun _ _ hsame h => NamedFree.of_remains h hsame).toUpkeep
  upkeep := Indifferent.toUpkeep indifferent
  weaken _ h := h.toNamed
  setId _ c _ h := h.toNamed.setId (searchable_strlcpy h.plain) h.free c

theorem free_of_nickError (h : Named w) (hnone : w.nickError t nick = none)
    (target : ClientRef) : NamedFree target nick w := by
  obtain ⟨hvalid, hfound⟩ := World.nickError_eq_none hnone
  have hplain := World.not_mem_of_isValidNick hvalid
  exact ⟨h, hplain, World.freeFor_of_search hplain hfound target⟩

/-- A client may change the case of its own identifier. -/
theorem own_free (h : Named w) (hr : target ∈ w.order) (hc : w.heap target = some c)
    (hne : c.nameOrStar ≠ nick) (hcase : strcaseEq c.nameOrStar nick = true) :
    NamedFree target nick w := by
  have hid : c.id ≠ [] := by
    intro hnil
    simp only [Client.nameOrStar, hnil, List.isEmpty_nil, if_true] at hne hcase
    exact hne (eq_star_of_strcaseEq hcase).symm
  have hname : c.nameOrStar = c.id := by simp [Client.nameOrStar, hid]
  rw [hname] at hcase
  obtain ⟨hplain, hlength⟩ := h.searchable target hr c hc
  have hcopy : strlcpy nick clientIdLen = nick := by
    refine List.take_of_length_le ?_
    have hsame := length_of_strcaseEq hcase
    omega
  refine ⟨h, fun hmem => hplain (mem_of_strcaseEq hcase hmem), ?_⟩
  rw [hcopy]
  intro s hs hsr d hd hd_id
  by_contra hused
  have hcase' : strcaseEq d.id c.id = true :=
    strcaseEq_trans (by simpa using hused) (by rwa [strcaseEq_comm])
  exact hsr (h.unique target hr s hs c d hc hd hid hcase')

theorem entry (client : ClientRef) : Entry Named Named client (ClosesFor Client.id) where
  before := Indifferent.toUpkeep indifferent
  after := Indifferent.toUpkeep indifferent
  weaken _ h := h
  setType _ _ _ _ hc h := h.of_remains (.setHeap hc rfl)
  greet := Indifferent.greetUser indifferent client

theorem ircNickUser (h : Named w) (hr : target ∈ w.order) (client : ClientRef) (nick : Str) :
    (ircNickUser client target nick).wp (fullWp (closing (ClosesFor Client.id)) anyFault)
      (fun _ => Named) w := by
  have hrename := renames target nick
  refine hrename.ircNickUser h (fun c hc hne hcase => h.own_free hr hc hne hcase)
    ((Indifferent.toUpkeep indifferent).clientCheckNick h fun _ hnone =>
      h.free_of_nickError hnone target) ?_
  intro w' c _ _ _ _ _ hfree
  exact (entry client).registerNick hrename.clientSetID w' hfree

theorem ircSvsnick (client : ClientRef) (req : Request) :
    UpholdsFull Named (ircSvsnick client req) (ClosesFor Client.id) :=
  (Indifferent.toUpkeep indifferent).ircSvsnick (renames · _) fun _ _ target h hnone =>
    h.free_of_nickError hnone target

/-- A peer may become a server under a name that is free. -/
theorem registerServer (h : Named w) (hplain : '!' ∉ req.arg 0)
    (hnone : w.clientSearch (req.arg 0) = none) :
    (registerServer client req).wp (fullWp (closing (ClosesFor Client.id)) anyFault)
      (fun _ => Named) w := by
  have hup := Indifferent.toUpkeep indifferent
  have hset (t : ClientType) : UpholdsFull Named (clientSetType client t) (ClosesFor Client.id) :=
    fun v hv => wp_clientSetType trivial fun c m hc hm =>
      hup.misc _ m (hv.of_remains (.setHeap hc rfl)) hm
  have hmotd : UpholdsFull Named (ircNumEndofmotd client) (ClosesFor Client.id) :=
    fun v hv => hup.ircNumEndofmotd fun c hc => hv.of_remains (.setHeap hc rfl)
  refine hup.registerServer h fun i srv servers _ _ => ?_
  refine hup.acceptServer (renames client (req.arg 0)).clientSetID
    (fun v c hc hv => hv.of_remains (.setHeap hc rfl)) (hset _) hmotd _ ?_
  exact ⟨hup.servers w servers h, hplain, World.freeFor_of_search hplain hnone client⟩

theorem prepare (h : Named w) (e : Event) : Named (e.prepare w) := by
  refine Remains.prepare (fun _ _ hsame h => of_remains h hsame) (fun w c hid _ _ h => ?_) h e
  refine h.addClient ?_ fun s hs _ d hd hne => ?_
  · rw [hid]
    exact ⟨nofun, by decide⟩
  · -- Nobody has the empty identifier of a new connection.
    by_contra hcase
    have hlength := length_of_strcaseEq (by simpa using hcase)
    rw [hid] at hlength
    exact hne (List.eq_nil_of_length_eq_zero hlength.symm)

end Named

/-! ## The lines that give names away -/

/-- The name that a line gives a new server, or a client that another server introduces:
`Client_CheckNick` is not asked about it. -/
def World.introduces (w : World) (t : ClientType) (req : Request) : Handler → Option Str
  | .nick =>
    if nickCheckContext t req.argc = .serverIntroduce ∧ (w.clientSearch (req.arg 0)).isNone then
      some (req.arg 0)
    else none
  | .service =>
    if t = .server ∧ (w.clientSearch (req.arg 0)).isNone then
      some (cutAt '!' (cutAt '@' (req.arg 0)).1).1
    else none
  | .server =>
    if (t = .gotPass ∨ t = .gotPass2813 ∨ t = .server) ∧
        !w.listed.any fun rc => strcaseEq rc.2.id (req.arg 0) then
      some (req.arg 0)
    else none
  | _ => none

/-- The name has no exclamation mark and `Client_Search` finds nobody by it. -/
def namesApart : LineCheck := fun w _ c handler req =>
  (w.introduces c.type req handler).all fun name =>
    !name.contains '!' && (w.clientSearch name).isNone

theorem namesApart_spec {handler : Handler}
    (h : namesApart w r c handler req = true)
    (hname : w.introduces c.type req handler = some name) :
    '!' ∉ name ∧ w.clientSearch name = none := by
  simpa [namesApart, hname] using h

/-- Every event keeps identifiers unique, if the names in a line are apart from those
that are in use. -/
theorem Named.step {e : Event} (hl : Linked w) (htidy : Tidy w) (hw : Named w)
    (hmeets : e.meets namesApart w = true) (hstep : Step w e w') : Named w' := by
  have h := Indifferent.toUpkeep Named.indifferent
  have hclose := Client.View.closesFor Client.id_view
  refine h.step_of_lines hclose.rightAbout hl hw (hw.prepare e) hmeets ?_ ?_ hstep
  · intro r c req _ _
    refine h.handleNumeric hw fun _ _ => h.ircNumEndofmotd fun c hc => ?_
    exact hw.of_remains (.setHeap hc rfl)
  · intro i r c cmd req w₁ hi hpenalty _ _ hmeet hcell hlive hw₁
    have horder : w₁.order = w.order := by cases hpenalty <;> rfl
    have hlisted : w₁.listed = w.listed := by cases hpenalty <;> rfl
    have hsearch : w₁.clientSearch = w.clientSearch := by cases hpenalty <;> rfl
    have hself := Named.entry r
    by_cases hout : cmd.handler.reachesOut = false
    · exact hself.callHandler Named.indifferent (Named.ircSvsnick r req) hw₁ hcell hlive hout
    refine (hclose.shutting h).removing.callHandler_out hw₁ (.nobody ..) ?_ hcell hlive
      (by simpa using hout)
      (fun _ target => Indifferent.join Named.indifferent target _) ?_ ?_ ?_
      (fun _ _ => hself.registerUser req w₁ hw₁) ?_
    · rintro - target (⟨-, -, rfl⟩ | ⟨-, p, hfound⟩)
      · exact hw₁.ircNickUser (horder ▸ htidy _ c hi.cell) _ _
      · exact hw₁.ircNickUser (clientSearch_listed hfound) _ _
    · intro hhandler htype
      by_cases hused : (w.listed.any fun rc => strcaseEq rc.2.id (req.arg 0)) = true
      · -- `Client_CheckID` refuses the name.
        refine h.registerServer hw₁ fun i srv servers hfree _ => ?_
        rw [hlisted, hused] at hfree
        exact nomatch hfree
      · have hname : w.introduces c.type req cmd.handler = some (req.arg 0) := by
          rw [hhandler]
          exact if_pos ⟨htype.imp_right .inl, by simpa using hused⟩
        obtain ⟨hplain, hnone⟩ := namesApart_spec hmeet hname
        exact hw₁.registerServer hplain (hsearch ▸ hnone)
    · intro server _ nick new hnone _ hline hnew
      have hname : w.introduces c.type req cmd.handler = some nick := by
        rw [hsearch] at hnone
        rcases hline with ⟨hhandler, hcontext, rfl⟩ | ⟨hhandler, htype, -, rfl⟩
        · rw [hhandler]
          exact if_pos ⟨hcontext, by rw [hnone]; rfl⟩
        · rw [hhandler]
          exact if_pos ⟨htype, by rw [hnone]; rfl⟩
      obtain ⟨hplain, hnone⟩ := namesApart_spec hmeet hname
      refine hw₁.addClient ?_ ?_
      · rw [hnew.id]
        exact searchable_strlcpy hplain
      · rw [hnew.id]
        exact World.freeFor_of_search hplain (hsearch ▸ hnone) _
    · intro new hhandler htype hnew _
      have hname : w.introduces c.type req cmd.handler = some (req.arg 0) := by
        have hfree := hnew.free
        rw [hlisted] at hfree
        rw [hhandler]
        exact if_pos ⟨.inr (.inr htype), by rw [hfree]; rfl⟩
      obtain ⟨hplain, hnone⟩ := namesApart_spec hmeet hname
      refine hw₁.addClient ?_ ?_
      · rw [hnew.id]
        exact searchable_strlcpy hplain
      · rw [hnew.id]
        exact World.freeFor_of_search hplain (hsearch ▸ hnone) _
    · exact fun _ _ _ _ hw hc _ _ => hw.of_remains (.setHeap hc rfl)

/-- The server names that `Validate_Config` accepts. -/
def serverNameOk : Str → Bool
  | [] => false
  | first :: rest =>
    first.isAlphanum && (rest.all fun x => x.isAlphanum || x == '.' || x == '-') &&
      rest.contains '.'

theorem not_mem_of_serverNameOk (h : serverNameOk name = true) : '!' ∉ name := by
  cases name with
  | nil => exact nofun
  | cons first rest =>
    simp only [serverNameOk, Bool.and_eq_true, List.all_eq_true] at h
    obtain ⟨⟨hfirst, hrest⟩, -⟩ := h
    intro hmem
    rcases List.mem_cons.mp hmem with hmark | hmark
    · rw [← hmark] at hfirst
      exact absurd hfirst (by decide)
    · exact absurd (hrest '!' hmark) (by decide)

theorem Named.start (conf : Conf) (env : Env) (host : Str)
    (hname : serverNameOk conf.serverName = true) : Named (World.start conf env host) := by
  constructor
  · intro r hr c hc
    rw [(World.start_cell hc).id]
    exact searchable_strlcpy (not_mem_of_serverNameOk hname)
  · intro r hr s hs c d hc hd _ _
    rw [(World.start_cell hc).ref, (World.start_cell hd).ref]

variable (h : ReachableIf namesApart w) (hname : serverNameOk w.conf.serverName = true)
include h hname

theorem ReachableIf.named : Named w := by
  induction h with
  | start conf env host => exact .start conf env host hname
  | @step w w' e hreach hmeets hstep ih =>
    have hconf := congrArg Conf.serverName hstep.conf
    simp only at hconf
    have hr : Reachable w := ReachableBy.reachable hreach
    exact (ih (hconf ▸ hname)).step hr.linked hr.tidy hmeets hstep

/-- As long as every server that introduces somebody, and every peer that becomes a server,
comes with a name without an exclamation mark by which `Client_Search` finds nobody, no
two clients on the list have the same identifier, and `Client_Search` finds every client
by its identifier. -/
theorem client_names_unique :
    (∀ r ∈ w.order, ∀ s ∈ w.order, ∀ c d, w.heap r = some c → w.heap s = some d →
      c.id ≠ [] → d.id ≠ [] → strcaseEq c.id d.id = true → r = s) ∧
    ∀ r ∈ w.order, ∀ c, w.heap r = some c → c.id ≠ [] → w.clientSearch c.id = some r := by
  have hnamed := h.named hname
  constructor
  · intro r hr s hs c d hc hd _ hne heq
    exact hnamed.unique s hs r hr d c hd hc hne heq
  · exact fun r hr c hc hne => hnamed.clientSearch_id hr hc hne

end

/-- A server introduces a user and then a service. -/
def serviceLink : List Event :=
  peerLink ++ [.line 1 ":irc.b NICK ann 1 a host 1 + :Ann" [],
    .line 1 ":irc.b SERVICE help@host 1 * + 1 :Help" []]

theorem client_names_unique_serviceLink : ∃ w c d, ReachableIf namesApart w ∧ 2 ∈ w.order ∧
    3 ∈ w.order ∧ w.heap 2 = some c ∧ w.heap 3 = some d ∧ c.id = "ann".toList ∧
    d.id = "help".toList ∧ w.clientSearch c.id = some 2 ∧ w.clientSearch d.id = some 3 := by
  obtain ⟨w, hw, h2, h3, hname, ⟨c, hc, hc_id⟩, d, hd, hd_id⟩ :
      ∃ w ∈ Event.runIf namesApart 1 serviceLink (World.start peerConf {} "localhost"),
        2 ∈ w.order ∧ 3 ∈ w.order ∧ serverNameOk w.conf.serverName = true ∧
        (∃ c ∈ w.heap 2, c.id = "ann".toList) ∧ ∃ d ∈ w.heap 3, d.id = "help".toList := by
    decide +kernel
  have hreach : ReachableIf namesApart w :=
    ReachableIf.runIf (ReachableBy.start peerConf {} "localhost") hw
  obtain ⟨-, hfound⟩ := client_names_unique hreach hname
  refine ⟨w, c, d, hreach, h2, h3, hc, hd, hc_id, hd_id, hfound 2 h2 c hc ?_, hfound 3 h3 d hd ?_⟩
  · simp [hc_id]
  · simp [hd_id]

/-- `IRC_SERVICE` looks for the whole name with the host and stores the part before it. -/
theorem service_takes_nickname : ∃ w w' c d, Reachable w ∧ 2 ∈ w.order ∧
    w.heap 2 = some c ∧ c.id = "ann".toList ∧
    Step w (.line 1 ":irc.b SERVICE ann@host 1 * + 1 :Help" []) w' ∧ 2 ∈ w'.order ∧
    3 ∈ w'.order ∧ w'.heap 2 = some c ∧ w'.heap 3 = some d ∧ d.id = c.id ∧
    w'.clientSearch c.id = some 3 := by
  obtain ⟨w, hw, hlisted, c, hc, hid, w', hw', h2, h3, hc', hfound, d, hd, hsame⟩ :
      ∃ w ∈ Event.runAll 1 (peerLink ++ [.line 1 ":irc.b NICK ann 1 a host 1 + :Ann" []])
        (World.start peerConf {} "localhost"), 2 ∈ w.order ∧ ∃ c ∈ w.heap 2, c.id = "ann".toList ∧
        ∃ w' ∈ Event.runAll 1 [.line 1 ":irc.b SERVICE ann@host 1 * + 1 :Help" []] w,
          2 ∈ w'.order ∧ 3 ∈ w'.order ∧ w'.heap 2 = some c ∧ w'.clientSearch c.id = some 3 ∧
            ∃ d ∈ w'.heap 3, d.id = c.id := by
    decide +kernel
  exact ⟨w, w', c, d, (Reachable.start peerConf {} "localhost").runAll hw, hlisted, hc, hid,
    Event.step_of_runAll hw', h2, h3, hc', hd, hsame, hfound⟩

end Ngircd
