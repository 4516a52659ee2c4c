import Ngircd.Answers
import Ngircd.Recipients

/-!
# WHOWAS

`Client_RegisterWhowas` writes to a ring of 64 entries, and `IRC_WHOWAS` goes backwards
through it, from the newest entry on, for one nickname after the other.  The index is shared
by all nicknames: the search for one of them starts where the search before has ended.
-/

namespace Ngircd

open Lib

variable {k count p newest : Nat} {w w' : World} {i : ConnId} {client pfx : ClientRef}
  {this c : Client} {h : List Whowas} {l : List (ConnId × Str)} {limit : Int} {nick : Str}

/-! ## The ring -/

/-- What `Client_RegisterWhowas` does to the ring. -/
def Misc.remembered (m : Misc) (entry : Whowas) : Misc :=
  let next := (m.lastWhowas.map (· + 1)).getD 0
  let slot := if next ≥ maxWhowas then 0 else next
  { m with whowas := Function.update m.whowas slot entry, lastWhowas := some slot }

/-- The ring after a history, newest client first. -/
def recorded : List Whowas → Misc
  | [] => {}
  | e :: h => (recorded h).remembered e

/-- The ring of a world after a history. -/
def World.Remembers (w : World) (h : List Whowas) : Prop :=
  w.misc.whowas = (recorded h).whowas ∧ w.misc.lastWhowas = (recorded h).lastWhowas

/-- `Client_RegisterWhowas` adds an entry to the history, unless the client is not to be
remembered. -/
theorem clientRegisterWhowas_remembers {r : ClientRef} (hw : Healthy w) (hcalm : w.Calm)
    (hc : w.heap r = some c) (hring : w.Remembers h) :
    (clientRegisterWhowas r).wp (leaveWp .never noFault) (fun _ w' =>
      if w.conf.morePrivacy ∨ w.now - c.starttime < 30 then w' = w
      else ∃ e, w'.Remembers (e :: h)) w := by
  obtain ⟨i, hi⟩ := hw.introducer r c hc
  simp only [clientRegisterWhowas, wp_msg, wp_getWorld, Prog.wp_ite, Prog.wp_pure, wp_deref,
    onClient_of_some hc, wp_clientID]
  refine ⟨fun hprivate => by simp [hprivate], fun hpublic => ⟨fun hyoung => by simp [hyoung],
    fun hold => ?_⟩⟩
  refine wp_quiet (clientHostnameDisplayed_quiet hw hcalm hc) fun host w' _ hq => ?_
  obtain ⟨ihost, hi'⟩ := hq.heap_some hi
  have hkept : ¬(w.conf.morePrivacy ∨ w.now - c.starttime < 30) := not_or.mpr ⟨hpublic, hold⟩
  simp only [wp_msg, wp_clientID, onClient_of_some hi', wp_editMisc, if_neg hkept,
    World.Remembers, recorded, Misc.remembered, hq.misc, hring.1, hring.2]
  exact ⟨_, rfl, trivial⟩

/-- The slot that is `k` slots behind the newest one. -/
def Misc.slotBehind (m : Misc) (k : Nat) : Nat := (m.lastWhowas.getD 0 + maxWhowas - k) % maxWhowas

theorem recorded_last (e : Whowas) (h : List Whowas) :
    (recorded (e :: h)).lastWhowas = some (h.length % maxWhowas) := by
  induction h generalizing e with
  | nil => rfl
  | cons e' h ih =>
    have hlast := ih e'
    rw [recorded, Misc.remembered]
    simp only [hlast, Option.map_some, Option.getD_some, maxWhowas, List.length_cons,
      Option.some.injEq]
    split_ifs <;> omega

theorem recorded_whowas (e : Whowas) (h : List Whowas) :
    (recorded (e :: h)).whowas = Function.update (recorded h).whowas (h.length % maxWhowas) e := by
  have hlast := recorded_last e h
  simp only [recorded, Misc.remembered, Option.some.injEq] at hlast ⊢
  rw [hlast]

/-- Going backwards from the newest entry gives the history. -/
theorem recorded_slot (h : List Whowas) (hk : k < maxWhowas) :
    (recorded h).whowas ((recorded h).slotBehind k) = h.getD k {} := by
  induction h generalizing k with
  | nil => rfl
  | cons e h ih =>
    rw [Misc.slotBehind, recorded_last, recorded_whowas, Option.getD_some]
    cases k with
    | zero => simp [maxWhowas]
    | succ k =>
      have hother : (h.length % maxWhowas + maxWhowas - (k + 1)) % maxWhowas ≠
          h.length % maxWhowas := by
        unfold maxWhowas at hk ⊢
        omega
      rw [Function.update_of_ne hother, List.getD_cons_succ, ← ih (Nat.lt_of_succ_lt hk)]
      cases h with
      | nil => rfl
      | cons e' h =>
        rw [Misc.slotBehind, recorded_last, Option.getD_some]
        congr 1
        simp only [maxWhowas, List.length_cons] at hk ⊢
        omega

/-! ## One nickname -/

/-- The two lines about an entry. -/
def whowasLines (w : World) (i : ConnId) (this requester : Client) (e : Whowas) :
    List (ConnId × Str) :=
  [(i, serverText this.id
      (format rplWhowasuserMsg [requester.nameOrStar, e.id, e.user, e.host, e.info])),
    (i, serverText this.id (format rplWhoisserverMsg [requester.nameOrStar, e.id, e.server,
      w.conf.strftime "%a %b %d %H:%M:%S %Y" e.time]))]

/-- An entry in use has the nickname. -/
def Whowas.isOf (nick : Str) (e : Whowas) : Bool := decide (e.time > 0) && strcaseEq nick e.id

theorem whowasEntryWrite_sends (ha : w.Answers i pfx this) (hc : w.heap pfx = some c) (e : Whowas) :
    (whowasEntryWrite pfx e).Sends (whowasLines w i this c e) () w := by
  refine .read (a := w) (by simp) (.read (clientID_answers hc) ?_)
  refine (reply_answers ha _).bind fun w' htold => ?_
  refine .read (clientID_answers (by rw [htold.sends.heap, hc])) ?_
  exact reply_answers (ha.told htold) _

/-- The places of a nickname's entries in the history, from place `k` on: newest first. -/
def placesFrom (h : List Whowas) (nick : Str) (k : Nat) : List Nat :=
  (List.range' k (maxWhowas - k)).filter fun p => Whowas.isOf nick (h.getD p {})

theorem placesFrom_step (h : List Whowas) (nick : Str) (hk : k < maxWhowas) :
    placesFrom h nick k = (if Whowas.isOf nick (h.getD k {}) then [k] else []) ++
      placesFrom h nick (k + 1) := by
  have hsize : maxWhowas - k = maxWhowas - (k + 1) + 1 := by omega
  unfold placesFrom
  rw [hsize, List.range'_succ, List.filter_cons]
  split_ifs <;> rfl

theorem placesFrom_end (h : List Whowas) (nick : Str) : placesFrom h nick maxWhowas = [] := rfl

/-- The place behind the `m`-th of the places, and the newest one when there are fewer. -/
def placeBehind (places : List Nat) (m : Nat) : Nat :=
  ((places[m - 1]?).map (· + 1)).getD 0 % maxWhowas

theorem slotBehind_succ (h : List Whowas) (hk : k < maxWhowas) :
    (if (recorded h).slotBehind k = 0 then maxWhowas - 1 else (recorded h).slotBehind k - 1) =
      (recorded h).slotBehind (k + 1) := by
  unfold Misc.slotBehind maxWhowas at *
  split_ifs <;> omega

theorem recorded_last_lt (h : List Whowas) : (recorded h).lastWhowas.getD 0 < maxWhowas := by
  cases h with
  | nil => decide
  | cons e h =>
    rw [recorded_last]
    exact Nat.mod_lt _ (by decide)

theorem slotBehind_zero (h : List Whowas) :
    (recorded h).slotBehind 0 = (recorded h).lastWhowas.getD 0 := by
  rw [Misc.slotBehind, Nat.sub_zero, Nat.add_mod_right, Nat.mod_eq_of_lt (recorded_last_lt h)]

theorem slotBehind_eq_last (h : List Whowas) (hk : k < maxWhowas) :
    (recorded h).slotBehind (k + 1) = (recorded h).lastWhowas.getD 0 ↔ k + 1 = maxWhowas := by
  have hlast := recorded_last_lt h
  unfold Misc.slotBehind maxWhowas at *
  omega

theorem slotBehind_mod (m : Misc) (hk : k ≤ maxWhowas) :
    m.slotBehind (k % maxWhowas) = m.slotBehind k := by
  unfold Misc.slotBehind maxWhowas at *
  omega

theorem whowasLines_told (htold : Tells l w w') :
    whowasLines w' i this c = whowasLines w i this c := by
  funext e
  rw [whowasLines, whowasLines, htold.quiet.conf]

/-- The search for a nickname from a place on, when the limit is reached with the `m`-th of its
entries: it shows the first `m` entries and ends behind the last of them, or else it ends at
the newest entry. -/
theorem whowasScan_sends (ha : w.Answers i pfx this) (hc : w.heap pfx = some c) (nick : Str)
    {n nc m : Nat} (hn : maxWhowas ≤ n + k) (hk : k < maxWhowas)
    (hring : w.misc.whowas = (recorded h).whowas)
    (hgo : ∀ r < m + 1, ¬(nc + r > 0 ∧ ((count + r : Nat) : Int) ≥ limit))
    (hlimit : ((count + (m + 1) : Nat) : Int) ≥ limit) :
    Query.Sends (whowasScan pfx nick limit ((recorded h).lastWhowas.getD 0) n
        ((recorded h).slotBehind k) nc count)
      (((placesFrom h nick k).take (m + 1)).flatMap fun p => whowasLines w i this c (h.getD p {}))
      ((recorded h).slotBehind (placeBehind (placesFrom h nick k) (m + 1)),
        nc + ((placesFrom h nick k).take (m + 1)).length,
        count + ((placesFrom h nick k).take (m + 1)).length) w := by
  induction n generalizing w k nc count m with
  | zero => omega
  | succ n ih =>
    have hentry : w.misc.whowas ((recorded h).slotBehind k) = h.getD k {} := by
      rw [hring]
      exact recorded_slot h hk
    have hhit : (decide ((h.getD k {}).time > 0 ∧ strcaseEq nick (h.getD k {}).id = true)) =
        Whowas.isOf nick (h.getD k {}) := by
      simp [Whowas.isOf]
    rw [placesFrom_step h nick hk, whowasScan]
    refine .read (a := w) (by simp) ?_
    simp only [hentry, hhit, slotBehind_succ h hk]
    cases hof : Whowas.isOf nick (h.getD k {}) with
    | false =>
      have hmore : ¬(nc > 0 ∧ (count : Int) ≥ limit) := hgo 0 m.succ_pos
      simp only [Bool.false_eq_true, ↓reduceIte, List.nil_append, hmore, false_or]
      by_cases hend : k + 1 = maxWhowas
      · rw [if_pos ((slotBehind_eq_last h hk).mpr hend), hend, placesFrom_end,
          ← slotBehind_mod _ le_rfl]
        exact .pure _ w
      · rw [if_neg ((slotBehind_eq_last h hk).not.mpr hend)]
        exact ih ha hc (by omega) (Nat.lt_of_le_of_ne hk hend) hring hgo hlimit
    | true =>
      have hwrite := whowasEntryWrite_sends ha hc (h.getD k {})
      simp only [↓reduceIte, List.singleton_append, List.take_succ_cons, List.flatMap_cons]
      refine hwrite.bind fun w' htold => ?_
      by_cases hstop : m = 0 ∨ k + 1 = maxWhowas
      · have hnone : (placesFrom h nick (k + 1)).take m = [] := by
          rcases hstop with rfl | hend
          · rfl
          · rw [hend, placesFrom_end, List.take_nil]
        have hbehind : (recorded h).slotBehind
            (placeBehind (k :: placesFrom h nick (k + 1)) (m + 1)) =
              (recorded h).slotBehind (k + 1) := by
          rw [← slotBehind_mod _ hk]
          rcases hstop with rfl | hend
          · rfl
          · rw [Nat.succ_eq_add_one, hend, placesFrom_end]
            cases m with
            | zero => simp [placeBehind, hend]
            | succ m => rfl
        rw [if_pos (hstop.imp (fun hm => ⟨nc.succ_pos, by simpa [hm] using hlimit⟩)
          (slotBehind_eq_last h hk).mpr), hnone, hbehind]
        exact .pure _ w'
      · obtain ⟨hm, hend⟩ := not_or.mp hstop
        obtain ⟨m, rfl⟩ := Nat.exists_eq_succ_of_ne_zero hm
        have hring' : w'.misc.whowas = (recorded h).whowas := by rw [htold.quiet.misc, hring]
        have hgo' (r : Nat) (hr : r < m + 1) :
            ¬(nc + 1 + r > 0 ∧ ((count + 1 + r : Nat) : Int) ≥ limit) := by
          have := hgo (r + 1) (Nat.succ_lt_succ hr)
          rwa [← Nat.add_assoc, ← Nat.add_assoc, Nat.add_right_comm nc,
            Nat.add_right_comm count] at this
        have hrest := ih (ha.told htold) (by rw [htold.sends.heap, hc]) (by omega)
          (Nat.lt_of_le_of_ne hk hend) hring' hgo' (by omega)
        rw [if_neg (not_or.mpr ⟨hgo' 0 m.succ_pos, (slotBehind_eq_last h hk).not.mpr hend⟩),
          List.length_cons, Nat.add_comm (List.length _) 1, ← Nat.add_assoc, ← Nat.add_assoc,
          ← whowasLines_told htold]
        exact hrest

/-! ## A list of nicknames -/

/-- The search for one of the nicknames: where it starts and which entries it shows. -/
structure WhowasSearch where
  nick : Str
  start : Nat
  shown : List Nat

/-- The searches of a request: each of them starts where the one before has ended. -/
def whowasSearches (h : List Whowas) (limit : Int) : Nat → Nat → List Str → List WhowasSearch
  | _, _, [] => []
  | k, count, nick :: rest =>
    -- At least one entry is shown, even when the nicknames before have used up the limit.
    let m := max 1 (limit - count).toNat
    let shown := (placesFrom h nick k).take m
    ⟨nick, k, shown⟩ ::
      whowasSearches h limit (placeBehind (placesFrom h nick k) m) (count + shown.length) rest

/-- What a requester reads about a nickname. -/
def WhowasSearch.lines (w : World) (i : ConnId) (this requester : Client) (h : List Whowas)
    (s : WhowasSearch) : List (ConnId × Str) :=
  if s.shown = [] then
    [(i, serverText this.id (format errWasnosuchnickMsg [requester.nameOrStar, s.nick]))]
  else s.shown.flatMap fun p => whowasLines w i this requester (h.getD p {})

/-- The number of entries a request asks for. -/
def whowasLimit (req : Request) : Int :=
  if req.argc > 1 then if atoi (req.arg 1) < 1 then maxRplWhowas else atoi (req.arg 1)
  else defRplWhowas

/-- What `IRC_WHOWAS` does for a nickname. -/
def whowasNickname (pfx : ClientRef) (limit : Int) (last : Nat) (st : Nat × Nat) (nick : Str) :
    Query (Option (Nat × Nat)) := do
  let (i, nc, count) ← whowasScan pfx nick limit last maxWhowas st.1 0 st.2
  if nc = 0 then replyErr pfx (format errWasnosuchnickMsg [← clientID pfx, nick])
  return some (i, count)

theorem WhowasSearch.lines_told (htold : Tells l w w') :
    WhowasSearch.lines w' i this c h = WhowasSearch.lines w i this c h := by
  funext s
  rw [WhowasSearch.lines, WhowasSearch.lines, whowasLines_told htold]

theorem whowasNickname_sends (ha : w.Answers i pfx this) (hc : w.heap pfx = some c)
    (hring : w.misc.whowas = (recorded h).whowas) (limit : Int) (hk : k < maxWhowas)
    (count : Nat) (nick : Str) :
    let m := max 1 (limit - count).toNat
    let shown := (placesFrom h nick k).take m
    (whowasNickname pfx limit ((recorded h).lastWhowas.getD 0) ((recorded h).slotBehind k, count)
        nick).Sends (WhowasSearch.lines w i this c h ⟨nick, k, shown⟩)
      (some ((recorded h).slotBehind (placeBehind (placesFrom h nick k) m), count + shown.length))
      w := by
  obtain ⟨m, hm⟩ : ∃ m, max 1 (limit - count).toNat = m + 1 :=
    Nat.exists_eq_succ_of_ne_zero (by omega)
  simp only [hm]
  have hgo (r : Nat) (hr : r < m + 1) : ¬(0 + r > 0 ∧ ((count + r : Nat) : Int) ≥ limit) := by omega
  have hlimit : ((count + (m + 1) : Nat) : Int) ≥ limit := by omega
  have hscan := whowasScan_sends ha hc nick (Nat.le_add_right maxWhowas k) hk hring hgo hlimit
  unfold whowasNickname WhowasSearch.lines
  by_cases hnone : (placesFrom h nick k).take (m + 1) = []
  · rw [hnone] at hscan ⊢
    refine hscan.bind fun w' htold => ?_
    refine .read (clientID_answers (by rw [htold.sends.heap, hc])) ?_
    exact (replyErr_answers (ha.told htold) _).bind fun w'' _ => .pure _ w''
  · rw [if_neg hnone, ← List.append_nil (List.flatMap _ _)]
    refine hscan.bind fun w' _ => ?_
    have hsome : 0 + ((placesFrom h nick k).take (m + 1)).length ≠ 0 := by
      rwa [Nat.zero_add, Ne, List.length_eq_zero_iff]
    simp only [hsome, ↓reduceIte]
    exact .pure _ w'

/-- The loop over the nicknames. -/
theorem whowasNicknames_send (limit : Int) (nicks : List Str) (hk : k < maxWhowas)
    (count : Nat) : ∃ st, ∀ w : World, w.Answers i pfx this → w.heap pfx = some c →
      w.misc.whowas = (recorded h).whowas →
      Query.Sends (replyFold (whowasNickname pfx limit ((recorded h).lastWhowas.getD 0))
        ((recorded h).slotBehind k, count) nicks)
      ((whowasSearches h limit k count nicks).flatMap (WhowasSearch.lines w i this c h)) st w := by
  induction nicks generalizing k count with
  | nil => exact ⟨_, fun w _ _ _ => .pure _ w⟩
  | cons nick rest ih =>
    let m := max 1 (limit - count).toNat
    obtain ⟨st, hrest⟩ := ih (k := placeBehind (placesFrom h nick k) m)
      (Nat.mod_lt _ (by decide)) (count + ((placesFrom h nick k).take m).length)
    refine ⟨st, fun w ha hc hring => ?_⟩
    refine (whowasNickname_sends ha hc hring limit hk count nick).bind fun w' htold => ?_
    rw [← WhowasSearch.lines_told htold]
    exact hrest w' (ha.told htold) (by rw [htold.sends.heap, hc]) (by rw [htold.quiet.misc, hring])

/-! ## The answer -/

/-- The nicknames of a request. -/
def whowasNicks (req : Request) : List Str := strtok (strlcpy (req.arg 0) commandLen) ","

/-- A nickname is said to be unknown if it has no entry, and otherwise its newest entry is shown
with one of the nicknames. -/
def WhowasSearch.Right (h : List Whowas) (all : List WhowasSearch) (s : WhowasSearch) : Prop :=
  (s.shown = [] ↔ placesFrom h s.nick 0 = []) ∧
    ∀ newest ∈ (placesFrom h s.nick 0).head?, ∃ t ∈ all, newest ∈ t.shown

/-- The search for a nickname starts at one of its entries or before, and at its newest entry or
before in one of the searches for it. -/
def WhowasSearch.InTime (h : List Whowas) (all : List WhowasSearch) (s : WhowasSearch) : Prop :=
  ∀ newest ∈ (placesFrom h s.nick 0).head?, (∃ p ∈ placesFrom h s.nick 0, s.start ≤ p) ∧
    ∃ t ∈ all, newest ∈ placesFrom h t.nick 0 ∧ t.start ≤ newest

section

variable {nicks : List Str} {s : WhowasSearch}

theorem mem_placesFrom : p ∈ placesFrom h nick k ↔
    p ∈ placesFrom h nick 0 ∧ k ≤ p := by
  have hrange : p ∈ List.range' k (maxWhowas - k) ↔ p ∈ List.range' 0 (maxWhowas - 0) ∧ k ≤ p := by
    rw [List.mem_range'_1, List.mem_range'_1]
    omega
  rw [placesFrom, placesFrom, List.mem_filter, List.mem_filter, hrange, and_right_comm]

/-- What a search shows starts with the first entry behind its start. -/
theorem shown_of_searches (hs : s ∈ whowasSearches h limit k count nicks) :
    ∃ m, s.shown = (placesFrom h s.nick s.start).take (m + 1) := by
  induction nicks generalizing k count with
  | nil => cases hs
  | cons nick rest ih =>
    rcases List.mem_cons.mp hs with rfl | hs
    · obtain ⟨m, hm⟩ : ∃ m, max 1 (limit - count).toNat = m + 1 :=
        Nat.exists_eq_succ_of_ne_zero (by omega)
      exact ⟨m, by rw [hm]⟩
    · exact ih hs

theorem shown_eq_nil_iff (hs : s ∈ whowasSearches h limit k count nicks) :
    s.shown = [] ↔ ∀ p ∈ placesFrom h s.nick 0, ¬ s.start ≤ p := by
  obtain ⟨m, hm⟩ := shown_of_searches hs
  rw [hm, List.take_eq_nil_iff, List.eq_nil_iff_forall_not_mem]
  simp only [mem_placesFrom (k := s.start), not_and, Nat.succ_ne_zero, false_or]

theorem placesFrom_pairwise (h : List Whowas) (nick : Str) (k : Nat) :
    (placesFrom h nick k).Pairwise (· < ·) := (List.pairwise_lt_range' ..).filter _

/-- Two nicknames with a common entry have the same entries. -/
theorem placesFrom_congr {nick' : Str} (hp : p ∈ placesFrom h nick 0)
    (hp' : p ∈ placesFrom h nick' 0) : placesFrom h nick 0 = placesFrom h nick' 0 := by
  have hid {n : Str} (hn : p ∈ placesFrom h n 0) : lowerStr n = lowerStr (h.getD p {}).id := by
    have hof := (List.mem_filter.mp hn).2
    simp only [Whowas.isOf, strcaseEq, Bool.and_eq_true, beq_iff_eq] at hof
    exact hof.2
  simp only [placesFrom, Whowas.isOf, strcaseEq, hid hp, hid hp']

/-- The newest entry of a nickname is shown by the searches for it that start in time. -/
theorem newest_mem_shown (hs : s ∈ whowasSearches h limit k count nicks)
    (hnewest : newest ∈ (placesFrom h nick 0).head?) : newest ∈ s.shown ↔
      newest ∈ placesFrom h s.nick 0 ∧ s.start ≤ newest := by
  obtain ⟨m, hm⟩ := shown_of_searches hs
  rw [hm, ← mem_placesFrom]
  refine ⟨List.mem_of_mem_take, fun hmem => ?_⟩
  have hall := placesFrom_congr (List.mem_of_mem_head? hnewest) (mem_placesFrom.mp hmem).1
  obtain ⟨front, rest, hsplit⟩ := List.append_of_mem hmem
  -- Whatever stands before it would be a newer entry of the nickname.
  cases front with
  | nil =>
    rw [hsplit]
    exact .head _
  | cons p front =>
    have hp : p ∈ placesFrom h s.nick s.start := by
      rw [hsplit]
      exact .head _
    have hlt : p < newest := by
      have hsorted := placesFrom_pairwise h s.nick s.start
      rw [hsplit] at hsorted
      exact (List.pairwise_cons.mp hsorted).1 newest (by simp)
    have hsorted := placesFrom_pairwise h nick 0
    obtain ⟨tail, htail⟩ := List.head?_eq_some_iff.mp hnewest
    rw [hall] at htail
    have hpall := (mem_placesFrom.mp hp).1
    rw [hall, htail] at hsorted
    rw [htail] at hpall
    rcases List.mem_cons.mp hpall with rfl | hmem'
    · omega
    · have := (List.pairwise_cons.mp hsorted).1 p hmem'
      omega

/-- A request is answered as its nicknames deserve when their searches start in time. -/
theorem right_iff_inTime (hs : s ∈ whowasSearches h limit k count nicks) :
    s.Right h (whowasSearches h limit k count nicks) ↔
      s.InTime h (whowasSearches h limit k count nicks) := by
  unfold WhowasSearch.Right WhowasSearch.InTime
  rw [shown_eq_nil_iff hs]
  cases hfirst : placesFrom h s.nick 0 with
  | nil => simp
  | cons newest rest =>
    have hnewest : newest ∈ (placesFrom h s.nick 0).head? := by
      rw [hfirst]
      exact rfl
    have hshown (t : WhowasSearch) (ht : t ∈ whowasSearches h limit k count nicks) :=
      newest_mem_shown ht hnewest
    simp only [List.head?_cons, Option.mem_some_iff, forall_eq', reduceCtorEq, iff_false, not_forall,
      not_not, exists_prop]
    exact and_congr_right fun _ => exists_congr fun t => and_congr_right fun ht => hshown t ht

theorem ircWhowas_sends {req : Request} (hargc : 1 ≤ req.argc ∧ req.argc ≤ 3)
    (hhere : req.AnsweredHere 2 w client pfx) (hpublic : w.conf.morePrivacy = false)
    (ha : w.Answers i pfx this) (hc : w.heap pfx = some c)
    (hring : w.Remembers h) : (ircWhowas client req).Sends
      ((whowasSearches h (whowasLimit req) 0 0 (whowasNicks req)).flatMap
          (WhowasSearch.lines w i this c h) ++
        [(i, serverText this.id (format rplEndofwhowasMsg [c.nameOrStar, req.arg 0]))]) () w := by
  obtain ⟨st, hloop⟩ := whowasNicknames_send (i := i) (c := c) (h := h) (whowasLimit req)
    (whowasNicks req) (show 0 < maxWhowas by decide) 0
  unfold ircWhowas
  rw [if_neg (by omega), if_neg (by omega)]
  refine hhere.sends ?_
  refine .read (a := w) (by simp) ?_
  simp only [hpublic, Bool.false_eq_true, ↓reduceIte, ne_eq, not_true_eq_false, hring.2]
  nth_rewrite 2 [← slotBehind_zero h]
  refine (hloop w ha hc hring.1).bind fun w' htold => ?_
  exact .read (clientID_answers (by rw [htold.sends.heap, hc])) (reply_answers (ha.told htold) _)

theorem map_nick_searches (h : List Whowas) (limit : Int) (nicks : List Str) (k count : Nat) :
    (whowasSearches h limit k count nicks).map WhowasSearch.nick = nicks := by
  induction nicks generalizing k count with
  | nil => rfl
  | cons nick rest ih => exact congrArg (nick :: ·) (ih _ _)

/-- As long as the limit is not reached, every search goes through the whole ring. -/
theorem start_of_searches (hfew : ((count +
      (nicks.dropLast.map fun nick => (placesFrom h nick 0).length).sum : Nat) : Int) < limit)
    (hs : s ∈ whowasSearches h limit 0 count nicks) : s.start = 0 := by
  induction nicks generalizing count with
  | nil => cases hs
  | cons nick rest ih =>
    rcases List.mem_cons.mp hs with rfl | hs
    · rfl
    cases rest with
    | nil => cases hs
    | cons next rest =>
      rw [List.dropLast_cons_cons, List.map_cons, List.sum_cons, ← Nat.add_assoc] at hfew
      have hroom : (placesFrom h nick 0).length ≤ max 1 (limit - count).toNat - 1 := by omega
      have hend : placeBehind (placesFrom h nick 0) (max 1 (limit - count).toNat) = 0 := by
        rw [placeBehind, List.getElem?_eq_none hroom]
        rfl
      rw [hend, List.take_of_length_le (by omega)] at hs
      exact ih hfew hs

theorem one_le_whowasLimit (req : Request) : 1 ≤ whowasLimit req := by
  unfold whowasLimit
  split_ifs
  · decide
  · omega
  · decide

/-- A request for a list of nicknames is answered with what the searches for them show.  Each
nickname gets its due exactly when the search for it does not start behind its entries, and so
whenever the nicknames before the last have together fewer entries than are asked for.  One
nickname alone gets its entries from the newest on. -/
theorem whowas_answers_history {req : Request} (hargc : 1 ≤ req.argc ∧ req.argc ≤ 3)
    (hhere : req.AnsweredHere 2 w client pfx) (hpublic : w.conf.morePrivacy = false)
    (ha : w.Answers i pfx this) (hc : w.heap pfx = some c) (hring : w.Remembers h) (n : Nat) :
    ∃ w', execMsg n (ircWhowas client req).toMsg w = .ok (connected, w') ∧
      ∃ all : List WhowasSearch, all.map WhowasSearch.nick = whowasNicks req ∧
        w'.sent = w.sent ++ (all.flatMap (WhowasSearch.lines w i this c h) ++
          [(i, serverText this.id (format rplEndofwhowasMsg [c.nameOrStar, req.arg 0]))]) ∧
        all = whowasSearches h (whowasLimit req) 0 0 (whowasNicks req) ∧
        ((∀ s ∈ all, s.Right h all) ↔ ∀ s ∈ all, s.InTime h all) ∧
        ((((whowasNicks req).dropLast.map fun nick => (placesFrom h nick 0).length).sum : Int) <
          whowasLimit req → ∀ s ∈ all, s.Right h all) ∧
        ∀ nick, whowasNicks req = [nick] → ∀ s ∈ all,
          s.shown = (placesFrom h nick 0).take (whowasLimit req).toNat := by
  obtain ⟨w', hrun, htells⟩ := (ircWhowas_sends hargc hhere hpublic ha hc hring).run n
  refine ⟨w', hrun, _, map_nick_searches .., htells.sends.sent, rfl, ?_, ?_, ?_⟩
  · exact forall₂_congr fun s hs => right_iff_inTime hs
  · intro hfew s hs
    have hstart := start_of_searches (by simpa using hfew) hs
    refine (right_iff_inTime hs).mpr fun newest hnewest => ?_
    have hmem := List.mem_of_mem_head? hnewest
    have hle : s.start ≤ newest := by omega
    exact ⟨⟨newest, hmem, hle⟩, s, hs, hmem, hle⟩
  · intro nick hnicks s hs
    rw [hnicks, whowasSearches, whowasSearches, List.mem_singleton] at hs
    have hlimit := one_le_whowasLimit req
    rw [hs]
    exact congrArg (List.take · _) (by omega)

/-- Two users of one server, where users with the names carol and dave have been before. -/
def pairWithPast : SmallNet where
  clients := pair.clients
  misc := recorded [{ time := 2, id := "dave" }, { time := 1, id := "carol" }]

theorem whowas_answers_history_dave : ∃ w',
    execMsg 0 (ircWhowas 1 { pfx := none, command := "WHOWAS", argv := ["dave,carol"] }).toMsg
      pairWithPast.world = .ok (connected, w') := by
  have hanswers : pairWithPast.world.Answers 1 1 pair.clients[0] :=
    ⟨SmallNet.calm _, ⟨1, pair.clients[1], rfl, rfl, rfl⟩, by decide, rfl, by decide⟩
  have hhere : Request.AnsweredHere { pfx := none, command := "WHOWAS", argv := ["dave,carol"] } 2
      pairWithPast.world 1 1 := ⟨⟨rfl, rfl⟩, ⟨rfl, rfl⟩⟩
  obtain ⟨w', hrun, -⟩ := whowas_answers_history (by decide) hhere rfl hanswers rfl ⟨rfl, rfl⟩ 0
  exact ⟨w', hrun⟩

/-- The search for carol ends behind their entry, which is older than the one of dave. -/
theorem whowas_misses_dave :
    (1, ":irc.a 406 alice dave :There was no such nickname".toList) ∈
      linesOf (execMsg 0 (ircWhowas 1
        { pfx := none, command := "WHOWAS", argv := ["carol,dave", "1"] }).toMsg pairWithPast.world) ∧
    ∃ slot, (pairWithPast.world.misc.whowas slot).id = "dave".toList ∧
      (pairWithPast.world.misc.whowas slot).time > 0 :=
  ⟨by decide +kernel, 1, rfl, by decide⟩

end

end Ngircd
