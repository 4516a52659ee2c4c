import Ngircd.Reloads

/-!
# Mask lists in a running server

The lists of masks of channels, the G-Lines and the K-Lines are only ever edited by
`Lists_Add`, `Lists_Del` and lookups, and the masks that are put on them fit into an
entry.  So they stay keyed by mask whatever happens.  The masks that MODE, GLINE and
KLINE store come from `Lists_MakeMask`; the one that INVITE stores is the mask of a
client, which fits because names of clients do.
-/

namespace Ngircd

open Lib

variable {w : World} {c c' new : Client} {d : Channel} {name id : Str}

/-- All lists of the server are keyed by mask, and the names of clients fit into an entry. -/
structure KeyedLists (w : World) : Prop where
  ids : ∀ r c, w.heap r = some c → FitsEntry c.id
  chans : ∀ ch c, w.chans.heap ch = some c →
    Keyed c.listBans ∧ Keyed c.listExcepts ∧ Keyed c.listInvites
  glines : Keyed w.misc.glines
  klines : Keyed w.misc.klines

namespace KeyedLists

variable {w' : World} {r client : ClientRef}

/-- Clients have kept their names, and the lists are as they were. -/
theorem of_same (h : KeyedLists w)
    (hids : ∀ r c', w'.heap r = some c' → FitsEntry c'.id ∨ ∃ c, w.heap r = some c ∧ c'.id = c.id)
    (hchans : w'.chans.heap = w.chans.heap) (hglines : w'.misc.glines = w.misc.glines)
    (hklines : w'.misc.klines = w.misc.klines) : KeyedLists w' where
  ids r c' hc' := by
    rcases hids r c' hc' with hfits | ⟨c, hc, hid⟩
    · exact hfits
    · rw [hid]
      exact h.ids r c hc
  chans ch c hc := h.chans ch c (hchans ▸ hc)
  glines := hglines ▸ h.glines
  klines := hklines ▸ h.klines

/-- Nothing has changed that matters. -/
theorem of_eq (h : KeyedLists w) (hheap : w'.heap = w.heap) (hchans : w'.chans.heap = w.chans.heap)
    (hmisc : w'.misc = w.misc) : KeyedLists w' :=
  h.of_same (fun _ c hc => .inr ⟨c, hheap ▸ hc, rfl⟩) hchans (by rw [hmisc]) (by rw [hmisc])

theorem setHeap (h : KeyedLists w)
    (hid : FitsEntry c'.id ∨ w.heap r = some c ∧ c'.id = c.id) :
    KeyedLists (w.setHeap r (some c')) := by
  refine h.of_same (fun s d hd => ?_) rfl rfl rfl
  rcases World.setHeap_heap_cases hd with ⟨rfl, rfl⟩ | ⟨-, hd⟩
  · exact hid.imp_right fun hsame => ⟨c, hsame⟩
  · exact .inr ⟨d, hd, rfl⟩

/-- A client whose name is kept. -/
theorem keepId (h : KeyedLists w) (hc : w.heap r = some c) (hid : c'.id = c.id) :
    KeyedLists (w.setHeap r (some c')) :=
  h.setHeap (.inr ⟨hc, hid⟩)

section

variable (h : KeyedLists w)
include h

theorem free (r : ClientRef) : KeyedLists (w.setHeap r none) := by
  refine h.of_same (fun s d hd => ?_) rfl rfl rfl
  exact .inr ⟨d, World.heap_of_free hd, rfl⟩

theorem addClient (hid : FitsEntry new.id) : KeyedLists (w.addClient new) :=
  (h.setHeap (c := new) (.inl hid)).of_eq rfl rfl rfl

theorem setChannel {ch : ChanRef} {d' : Channel} (hd : w.chans.heap ch = some d)
    (hedit : d.ListsEdit w.Storable d') :
    KeyedLists (w.setChannel ch (some d')) where
  ids := h.ids
  glines := h.glines
  klines := h.klines
  chans k e he := by
    by_cases hk : k = ch
    · subst hk
      simp only [World.setChannel, Function.update_self, Option.some.injEq] at he
      subst he
      have hok (mask : Str) (hmask : w.Storable mask) : FitsEntry mask := by
        rcases hmask with hfits | ⟨r, c, hc, rfl⟩
        · exact hfits
        · exact h.ids r c hc
      obtain ⟨hbans, hexcepts, hinvites⟩ := h.chans k d hd
      exact ⟨hbans.edit hok hedit.1, hexcepts.edit hok hedit.2.1, hinvites.edit hok hedit.2.2⟩
    · simp only [World.setChannel, Function.update_of_ne hk] at he
      exact h.chans k e he

theorem addChannel (hnew : NewChannel name d) :
    KeyedLists (w.addChannel d) where
  ids := h.ids
  glines := h.glines
  klines := h.klines
  chans k e he := by
    by_cases hk : k = w.chans.nextRef
    · subst hk
      simp only [World.addChannel, Function.update_self, Option.some.injEq] at he
      subst he
      rw [hnew.listBans, hnew.listExcepts, hnew.listInvites]
      exact ⟨List.nodup_nil, List.nodup_nil, List.nodup_nil⟩
    · simp only [World.addChannel, Function.update_of_ne hk] at he
      exact h.chans k e he

theorem dropChannel (ch : ChanRef) : KeyedLists (w.dropChannel ch) where
  ids := h.ids
  glines := h.glines
  klines := h.klines
  chans k e he := by
    by_cases hk : k = ch
    · subst hk
      simp only [World.dropChannel, Function.update_self] at he
      cases he
    · simp only [World.dropChannel, Function.update_of_ne hk] at he
      exact h.chans k e he

theorem misc {m : Misc} (hedit : w.misc.ListsEdit m) :
    KeyedLists { w with misc := m } where
  ids := h.ids
  chans := h.chans
  glines := h.glines.edit (fun _ hmask => hmask) hedit.1
  klines := h.klines.edit (fun _ hmask => hmask) hedit.2

end

/-! ## Programs -/

theorem messages : MsgFrame (fun _ => Keeps KeyedLists) fun w w' => KeyedLists w → KeyedLists w' where
  refl _ h := h
  trans _ _ _ h₁ h₂ h := h₂ (h₁ h)
  queue _ _ _ _ _ h := h.of_eq rfl rfl rfl
  fail _ _ _ _ _ hk h := hk.2 (h.of_eq rfl rfl rfl)
  editConn _ _ _ h := h.of_eq rfl rfl rfl
  cloak _ _ _ _ hc h := h.keepId hc rfl

theorem upkeep : Upkeep KeyedLists where
  closes _ _ hk := hk
  messages := messages
  misc _ _ h hedit := h.misc hedit
  servers _ _ h := h.of_eq rfl rfl rfl
  editClient _ _ e c _ hc h := h.keepId hc (e.id_eq c)
  userModeAdd _ _ _ _ _ hc h := h.keepId hc rfl
  userModeDel _ _ _ _ hc h := h.keepId hc rfl
  setAway _ _ _ _ hc h := h.keepId hc rfl
  editChannel _ _ _ c hf hc h := h.setChannel hc (hf.lists c).edit
  chanModeAdd _ _ c _ hc h := h.setChannel hc (Channel.Lookup.same c).edit
  chanModeDel _ _ c _ _ hc h := h.setChannel hc (Channel.Lookup.same c).edit
  memberModes _ _ _ _ h := h.of_eq rfl rfl rfl
  rand _ _ h := h.of_eq rfl rfl rfl
  setCaps _ _ _ _ hc h := h.keepId hc rfl
  setPwd _ _ _ h := h.of_eq rfl rfl rfl
  setAuthPing _ _ _ h := h.of_eq rfl rfl rfl
  removeClient kind ch client origin reason inform := by
    have hmsg (α : Type) (p : Msg α) : p.Stable (msgWp (upholding KeyedLists) anyFault) KeyedLists :=
      fun _ h => messages.wp (fun _ => trivial) p fun _ _ hkeep => hkeep h
    refine removeClient_stable hmsg (fun _ _ h => h.of_eq rfl rfl rfl) ?_ kind ch client origin reason
      inform
    exact fun ch => deleteIfEmpty_stable hmsg (fun _ ch h => h.dropChannel ch) ch

theorem indifferent : Indifferent KeyedLists :=
  { upkeep with
    away := fun _ _ _ hc h => h.keepId hc rfl
    channelModes := fun _ _ c _ hc h => h.setChannel hc (Channel.Lookup.same c).edit
    join := fun _ _ => Upkeep.joins upkeep (fun _ _ _ _ _ h => h.of_eq rfl rfl rfl)
      fun _ _ _ _ hnew h => (h.addChannel hnew).of_eq rfl rfl rfl
    create := fun _ _ _ hnew h => h.addChannel hnew
    lists := fun _ _ _ _ hd hc h => h.setChannel hc hd.lists }

theorem shutting : Shutting KeyedLists (Keeps KeyedLists) :=
  Upkeep.shutting upkeep (fun _ _ h => h.of_eq rfl rfl rfl) (fun _ r h => h.free r)
    fun _ _ _ _ h => h.of_eq rfl rfl rfl

theorem closes (n : Nat) : (upholding KeyedLists).RightAbout anyFault (closer n) :=
  closer_upholds (Shutting.connClose shutting) n

/-! ## Events -/

theorem fitsEntry_of_short (h : id.length < clientIdLen) : FitsEntry id :=
  Nat.lt_trans h (by decide)

theorem fitsEntry_copy (nick : Str) : FitsEntry (strlcpy nick clientIdLen) :=
  fitsEntry_of_short (Nat.lt_of_le_of_lt (List.length_take_le _ _) (by decide))

theorem personal (client : ClientRef) : Personal KeyedLists client (Keeps KeyedLists) where
  upkeep := upkeep
  setType w c t hc h := h.keepId hc (by unfold World.retype; split <;> rfl)
  setId _ _ c _ hid _ h := h.setHeap (c := c) (.inl (fitsEntry_of_short hid))
  ownIntroducer _ _ hc h := h.keepId hc rfl
  greet := Indifferent.greetUser indifferent client

theorem prepare (h : KeyedLists w) (e : Event) : KeyedLists (e.prepare w) := by
  have hopen (i : ConnId) (c : Client) (conn : Conn) (hid : c.id = []) :
      KeyedLists (w.openConn i c conn) := by
    have hgrown : KeyedLists (w.growPool i) := h.of_eq rfl rfl rfl
    have hempty : FitsEntry c.id := hid ▸ fitsEntry_of_short (by decide)
    let new : Client := { c with starttime := w.now, connId := some i, hops := 0, token := 0 }
    have hadded := hgrown.addClient (show FitsEntry new.id from hempty)
    exact hadded.of_eq rfl rfl rfl
  cases e with
  | accept | connect => exact hopen _ _ _ rfl
  | ping | clock => exact h.of_eq rfl rfl rfl
  | resolved | linked | line | close | expire => exact h

theorem step {e : Event} (hl : Linked w) (hw : KeyedLists w) (hstep : Step w e w') :
    KeyedLists w' := by
  refine Indifferent.step_of_personal indifferent personal (Shutting.removing shutting) closes hl hw
    (hw.prepare e) ?_ ?_ (fun _ _ _ _ h hc _ _ => h.keepId hc rfl) hstep
  · intro w server nick new h hnew
    exact h.addClient (hnew.id ▸ fitsEntry_copy nick)
  · intro w name new h hnew
    exact h.addClient (hnew.id ▸ fitsEntry_copy _)

theorem start (conf : Conf) (env : Env) (host : Str) : KeyedLists (World.start conf env host) where
  ids r c hc := by
    rw [(World.start_cell hc).id]
    exact fitsEntry_copy _
  chans ch c hc := by cases hc
  glines := List.nodup_nil
  klines := List.nodup_nil

end KeyedLists

/-- All lists are keyed by mask, whatever happens. -/
theorem Served.keyedLists {P : LineCheck} {Q : ReloadCheck} (h : Served P Q w) :
    KeyedLists w := by
  induction h with
  | start conf env host _ => exact .start conf env host
  | predefine _ hrun ih =>
    have hinit := Indifferent.predefines KeyedLists.indifferent
    exact (execBasic_ends (KeyedLists.closes _) (hinit _ ih)).of_ok hrun
  | step hserved _ hstep ih => exact ih.step hserved.linked hstep
  | reload _ _ _ hrun ih =>
    have hinit := Indifferent.predefines KeyedLists.indifferent
    exact rehash_leads KeyedLists.upkeep KeyedLists.upkeep KeyedLists.closes hinit ih hrun
      (fun _ _ h => h.of_eq rfl rfl rfl) fun _ _ h => h.of_eq rfl rfl rfl

/-- A list of masks of the server: of one of its channels, or one of its own. -/
inductive World.MaskList (w : World) : List ListElem → Prop
  | glines : w.MaskList w.misc.glines
  | klines : w.MaskList w.misc.klines
  | bans {ch : ChanRef} {c : Channel} : w.chans.heap ch = some c → w.MaskList c.listBans
  | excepts {ch : ChanRef} {c : Channel} : w.chans.heap ch = some c → w.MaskList c.listExcepts
  | invites {ch : ChanRef} {c : Channel} : w.chans.heap ch = some c → w.MaskList c.listInvites

theorem KeyedLists.keyed {l : List ListElem} (h : KeyedLists w) (hl : w.MaskList l) :
    Keyed l := by
  cases hl with
  | glines => exact h.glines
  | klines => exact h.klines
  | bans hc => exact (h.chans _ _ hc).1
  | excepts hc => exact (h.chans _ _ hc).2.1
  | invites hc => exact (h.chans _ _ hc).2.2

/-- In every state of the server no list has two entries with the same mask, `Lists_Del`
takes off the entry with the given mask and nothing else, and `Lists_Count` is the number of
masks. -/
theorem mask_lists_keyed {P : LineCheck} {Q : ReloadCheck} {w : World} (h : Served P Q w)
    {l : List ListElem} (hl : w.MaskList l) :
    (l.Pairwise fun a b => strcaseEq a.mask b.mask = false) ∧
    (∀ mask, ((∀ e ∈ l, strcaseEq e.mask mask = false) ∧ listsDel l mask = l) ∨
      ∃ pre e post, l = pre ++ e :: post ∧ strcaseEq e.mask mask = true ∧
        listsDel l mask = pre ++ post) ∧
    listsCount l = (l.map ListElem.key).toFinset.card := by
  have hkeyed := h.keyedLists.keyed hl
  refine ⟨?_, hkeyed.listsDel_eq, hkeyed.listsCount_eq⟩
  have hpairs := List.pairwise_map.mp hkeyed
  refine hpairs.imp fun {a b} hne => ?_
  rw [Bool.eq_false_iff]
  exact fun hsame => hne (strcaseEq_iff_key.mp hsame)

/-- A user bans the same mask twice and another one. -/
def banEvents : List Event :=
  [.accept 1 "127.0.0.1", .line 1 "NICK ann" [], .line 1 "USER a 0 * :A" [],
    .line 1 "JOIN #c" [], .line 1 "MODE #c +bb evil EVIL!*@*" [], .line 1 "MODE #c +b bad" []]

theorem mask_lists_keyed_banEvents : ∃ w c,
    Served (fun _ _ _ _ _ => true) (fun _ _ _ => true) w ∧ w.chans.heap 0 = some c ∧
    c.listBans.map ListElem.mask = ["bad!*@*".toList, "evil!*@*".toList] ∧
    listsCount c.listBans = (c.listBans.map ListElem.key).toFinset.card := by
  obtain ⟨w, hw, c, hc, hmasks⟩ : ∃ w ∈ Event.runIf (fun _ _ _ _ _ => true) 1 banEvents
      (World.start {} {} "localhost"), ∃ c ∈ w.chans.heap 0,
        c.listBans.map ListElem.mask = ["bad!*@*".toList, "evil!*@*".toList] := by
    decide +kernel
  have hserved : Served (fun _ _ _ _ _ => true) (fun _ _ _ => true) w :=
    Served.runIf (.start {} {} "localhost" (.inl rfl)) hw
  exact ⟨w, c, hserved, hc, hmasks, (mask_lists_keyed hserved (.bans hc)).2.2⟩

end Ngircd
