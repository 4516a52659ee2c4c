import Ngircd.World

/-!
# The table of configured servers at a reload

`Read_Config` starts with a pass over the table of configured servers.  Entries that are
not in use are reset.  Entries in use are marked as "once", so that they go away with their
connection, and an entry that is marked already removes its duplicates: the entries with the
same connection id.  Waiting for an outgoing connection is a connection id as well, and all
entries that wait share it.
-/

namespace Ngircd

open Lib

/-! ## The table and the pass over it -/

/-- `conn_id` of a configured server: `NONE`, `SERVER_WAIT`, or a connection. -/
inductive LinkId where
  | none
  | waiting
  | connection (id : ConnId)
  deriving DecidableEq, Repr

/-- `CONF_SERVER`; `once` and `disabled` are its flags. -/
structure ServerEntry where
  host : Str := []
  name : Str := []
  pwdIn : Str := []
  pwdOut : Str := []
  port : Nat := 0
  group : Int := -1
  lasttry : Int := 0
  once : Bool := false
  disabled : Bool := false
  connId : LinkId := .none
  svsMask : Str := []
  deriving DecidableEq, Repr

/-- `STARTUP_DELAY`. -/
def startupDelay : Int := 1

/-- `Init_Server_Struct`; `passive` is `NGIRCd_Passive`. -/
def initServerStruct (now connectRetry : Int) (passive : Bool) : ServerEntry :=
  { group := -1, lasttry := now - connectRetry + startupDelay, disabled := passive }

/-- The body of the loop for the entry with index `i`; `fresh` is what `Init_Server_Struct`
leaves. -/
def cleanUpEntry (fresh : ServerEntry) (table : List ServerEntry) (i : Nat) :
    List ServerEntry :=
  match table[i]? with
  | none => table
  | some e =>
    if e.connId = .none then table.set i fresh
    else if e.once then
      -- the inner loop over all other entries
      table.mapIdx fun n e' => if n ≠ i ∧ e'.connId = e.connId then fresh else e'
    else table.set i { e with once := true }

/-- The loop at the start of `Read_Config`. -/
def cleanUpServers (now connectRetry : Int) (passive : Bool) (table : List ServerEntry) :
    List ServerEntry :=
  (List.range table.length).foldl (cleanUpEntry (initServerStruct now connectRetry passive)) table

/-! ## What the pass leaves -/

/-- The first entry with this connection id that is marked as "once". -/
def firstOnce (table : List ServerEntry) (c : LinkId) : Option Nat :=
  table.findIdx? fun e => e.connId = c ∧ e.once

/-- Entry `n` after the entries `seen` have been visited. -/
def stageEntry (fresh : ServerEntry) (seen : List ServerEntry) (n : Nat) (e : ServerEntry) :
    ServerEntry :=
  if e.connId = .none then if n < seen.length then fresh else e
  else
    match firstOnce seen e.connId with
    | some k => if n = k then e else fresh
    | none => if n < seen.length then { e with once := true } else e

/-- The table after `i` entries have been visited. -/
def stage (fresh : ServerEntry) (table : List ServerEntry) (i : Nat) : List ServerEntry :=
  table.mapIdx (stageEntry fresh (table.take i))

variable {fresh e x : ServerEntry} {table seen : List ServerEntry} {c : LinkId} {i k n : Nat}

theorem firstOnce_lt (h : firstOnce seen c = some k) : k < seen.length := by
  obtain ⟨hk, -⟩ := List.findIdx?_eq_some_iff_getElem.mp h
  exact hk

theorem firstOnce_snoc_ne (h : x.connId ≠ c) :
    firstOnce (seen ++ [x]) c = firstOnce seen c := by
  unfold firstOnce
  simp [List.findIdx?_append, h]

theorem firstOnce_snoc_some (h : firstOnce seen c = some k) :
    firstOnce (seen ++ [x]) c = some k := by
  unfold firstOnce at h ⊢
  rw [List.findIdx?_append, h, Option.some_or]

theorem firstOnce_snoc_once (h : firstOnce seen c = none) (hc : x.connId = c)
    (hx : x.once = true) : firstOnce (seen ++ [x]) c = some seen.length := by
  unfold firstOnce at h ⊢
  rw [List.findIdx?_append, h]
  simp [hc, hx]

theorem firstOnce_snoc_unmarked (hx : x.once = false) :
    firstOnce (seen ++ [x]) c = firstOnce seen c := by
  unfold firstOnce
  simp [List.findIdx?_append, hx]

/-- An entry keeps its connection id or is reset. -/
theorem stageEntry_connId (hfresh : fresh.connId = .none) :
    (stageEntry fresh seen n e).connId = e.connId ∨ (stageEntry fresh seen n e).connId = .none := by
  unfold stageEntry
  split
  · split
    · exact .inr hfresh
    · exact .inl rfl
  · split
    · split
      · exact .inl rfl
      · exact .inr hfresh
    · split
      · exact .inl rfl
      · exact .inl rfl

/-- A visited entry `x` changes another entry only if `x` is the first of their group that is
marked. -/
theorem stageEntry_snoc_other (hn : n ≠ seen.length)
    (h : e.connId = .none ∨ firstOnce (seen ++ [x]) e.connId = firstOnce seen e.connId) :
    stageEntry fresh (seen ++ [x]) n e = stageEntry fresh seen n e := by
  have hlt : n < (seen ++ [x]).length ↔ n < seen.length := by
    rw [List.length_append, List.length_singleton]
    omega
  unfold stageEntry
  rcases h with h | h
  · simp only [if_pos h, hlt]
  · simp only [h, hlt]

theorem stage_zero : stage fresh table 0 = table := by
  refine List.ext_getElem? fun n => ?_
  unfold stage stageEntry
  simp [firstOnce]

theorem getElem?_stage (n : Nat) :
    (stage fresh table i)[n]? = table[n]?.map (stageEntry fresh (table.take i) n) :=
  List.getElem?_mapIdx

section

variable (h : table[i]? = some x)
include h

theorem take_succ_of_lt : table.take (i + 1) = table.take i ++ [x] := by
  obtain ⟨hi, rfl⟩ := List.getElem?_eq_some_iff.mp h
  exact List.take_succ_eq_append_getElem hi

theorem length_take_of_some : (table.take i).length = i := by
  obtain ⟨hi, -⟩ := List.getElem?_eq_some_iff.mp h
  exact List.length_take_of_le (Nat.le_of_lt hi)

/-- Between two visits only the visited entry and its duplicates change. -/
theorem getElem?_stage_succ (hn : n ≠ i) (hkeep : ∀ e, table[n]? = some e → e.connId = .none ∨
      firstOnce (table.take i ++ [x]) e.connId = firstOnce (table.take i) e.connId) :
    (stage fresh table (i + 1))[n]? = (stage fresh table i)[n]? := by
  rw [getElem?_stage, getElem?_stage, take_succ_of_lt h]
  cases hentry : table[n]? with
  | none => rfl
  | some e =>
    refine congrArg some (stageEntry_snoc_other ?_ (hkeep e hentry))
    rwa [length_take_of_some h]

/-- Writing the visited entry alone is enough when no other entry changes. -/
theorem set_stage (hi : i < table.length) {y : ServerEntry}
    (hy : stageEntry fresh (table.take i ++ [x]) i x = y)
    (hkeep : ∀ e : ServerEntry, e.connId = .none ∨
      firstOnce (table.take i ++ [x]) e.connId = firstOnce (table.take i) e.connId) :
    (stage fresh table i).set i y = stage fresh table (i + 1) := by
  refine List.ext_getElem? fun n => ?_
  by_cases hn : n = i
  · subst hn
    have hlen : n < (stage fresh table n).length := by
      unfold stage
      rwa [List.length_mapIdx]
    rw [List.getElem?_set_self hlen, getElem?_stage, h, take_succ_of_lt h, Option.map_some, hy]
  · rw [List.getElem?_set_ne (Ne.symm hn), getElem?_stage_succ h hn fun e _ => hkeep e]

end

/-- The visited entry while no marked entry of its group has been seen. -/
theorem stageEntry_of_unseen (hx : x.connId ≠ .none) (hfirst : firstOnce seen x.connId = none)
    (hn : ¬ n < seen.length) : stageEntry fresh seen n x = x := by
  unfold stageEntry
  rw [if_neg hx, hfirst]
  exact if_neg hn

/-- The first marked entry of a group resets the others. -/
theorem resetDuplicates_stage (hfresh : fresh.connId = .none) (h : table[i]? = some x)
    (hx : x.connId ≠ .none) (hfirst : firstOnce (table.take i) x.connId = none)
    (honce : x.once = true) :
    ((stage fresh table i).mapIdx fun n e =>
      if n ≠ i ∧ e.connId = x.connId then fresh else e) = stage fresh table (i + 1) := by
  have hseen := length_take_of_some h
  have hnext := firstOnce_snoc_once hfirst rfl honce
  rw [hseen] at hnext
  refine List.ext_getElem? fun n => ?_
  rw [List.getElem?_mapIdx, getElem?_stage, getElem?_stage, take_succ_of_lt h]
  cases hentry : table[n]? with
  | none => rfl
  | some e =>
    refine congrArg some ?_
    by_cases hn : n = i
    · subst hn
      obtain rfl : x = e := Option.mem_unique h hentry
      refine (if_neg fun hne => hne.1 rfl).trans ?_
      rw [stageEntry_of_unseen hx hfirst (by omega)]
      unfold stageEntry
      rw [if_neg hx, hnext]
      exact (if_pos rfl).symm
    · by_cases he : e.connId = x.connId
      · have hin : e.connId ≠ .none := fun hc => hx (he.symm.trans hc)
        have hconn : (stageEntry fresh (table.take i) n e).connId = x.connId := by
          unfold stageEntry
          rw [if_neg hin, he, hfirst]
          simp only
          split
          · rfl
          · exact he
        refine (if_pos ⟨hn, hconn⟩).trans ?_
        unfold stageEntry
        rw [if_neg hin, he, hnext]
        exact (if_neg hn).symm
      · have hconn : (stageEntry fresh (table.take i) n e).connId ≠ x.connId := by
          rcases stageEntry_connId hfresh with hc | hc
          · exact fun heq => he (hc.symm.trans heq)
          · exact fun heq => hx (heq.symm.trans hc)
        refine (if_neg fun hboth => hconn hboth.2).trans ?_
        refine (stageEntry_snoc_other (by omega) (.inr ?_)).symm
        exact firstOnce_snoc_ne fun hc => he hc.symm

/-- One visit takes the table from one stage to the next. -/
theorem cleanUpEntry_stage (hfresh : fresh.connId = .none) (h : table[i]? = some x) :
    cleanUpEntry fresh (stage fresh table i) i = stage fresh table (i + 1) := by
  have hi : i < table.length := (List.getElem?_eq_some_iff.mp h).1
  have hseen := length_take_of_some h
  have hlt : i < (table.take i ++ [x]).length := by
    rw [List.length_append, hseen, List.length_singleton]
    exact i.lt_succ_self
  unfold cleanUpEntry
  rw [getElem?_stage, h]
  simp only [Option.map_some]
  by_cases hnone : x.connId = .none
  · -- an entry that is not in use
    have hself : stageEntry fresh (table.take i) i x = x := by
      unfold stageEntry
      rw [if_pos hnone, if_neg (by omega)]
    rw [hself, if_pos hnone]
    refine set_stage h hi ?_ fun e => ?_
    · unfold stageEntry
      rw [if_pos hnone, if_pos hlt]
    · by_cases he : e.connId = .none
      · exact .inl he
      · exact .inr (firstOnce_snoc_ne fun hc => he (hc.symm.trans hnone))
  · cases hfirst : firstOnce (table.take i) x.connId with
    | some k =>
      -- the entry has been reset as a duplicate already
      have hk : i ≠ k := by
        have := firstOnce_lt hfirst
        omega
      have hself : stageEntry fresh (table.take i) i x = fresh := by
        unfold stageEntry
        rw [if_neg hnone, hfirst]
        exact if_neg hk
      rw [hself, if_pos hfresh]
      refine set_stage h hi ?_ fun e => .inr ?_
      · unfold stageEntry
        rw [if_neg hnone, firstOnce_snoc_some hfirst]
        exact if_neg hk
      · by_cases he : x.connId = e.connId
        · rw [← he, firstOnce_snoc_some hfirst, hfirst]
        · exact firstOnce_snoc_ne he
    | none =>
      rw [stageEntry_of_unseen hnone hfirst (by omega), if_neg hnone]
      cases honce : x.once with
      | false =>
        refine set_stage h hi ?_ fun e => .inr (firstOnce_snoc_unmarked honce)
        unfold stageEntry
        rw [if_neg hnone, firstOnce_snoc_unmarked honce, hfirst]
        exact if_pos hlt
      | true =>
        exact resetDuplicates_stage hfresh h hnone hfirst honce

/-! ## The result of the whole pass -/

theorem foldl_cleanUpEntry (hfresh : fresh.connId = .none) (hi : i ≤ table.length) :
    (List.range i).foldl (cleanUpEntry fresh) table = stage fresh table i := by
  induction i with
  | zero => exact stage_zero.symm
  | succ i ih =>
    rw [List.range_succ, List.foldl_append, ih (Nat.le_of_succ_le hi)]
    exact cleanUpEntry_stage hfresh (List.getElem?_eq_getElem hi)

section Result

variable (now connectRetry : Int) (passive : Bool)

theorem cleanUpServers_eq_stage :
    cleanUpServers now connectRetry passive table =
      stage (initServerStruct now connectRetry passive) table table.length :=
  foldl_cleanUpEntry rfl (Nat.le_refl _)

/-- What becomes of entry `n` depends on the first marked entry of its group alone. -/
theorem getElem?_cleanUpServers (h : table[n]? = some e) :
    (cleanUpServers now connectRetry passive table)[n]? =
      some (if e.connId = .none then initServerStruct now connectRetry passive
        else
          match firstOnce table e.connId with
          | some k => if n = k then e else initServerStruct now connectRetry passive
          | none => { e with once := true }) := by
  have hn : n < table.length := (List.getElem?_eq_some_iff.mp h).1
  rw [cleanUpServers_eq_stage, getElem?_stage, h, List.take_length]
  unfold stageEntry
  simp only [if_pos hn, Option.map_some]

/-- The connection id of entry `n`. -/
def connIdAt (table : List ServerEntry) (n : Nat) : Option LinkId :=
  table[n]?.map (·.connId)

theorem connIdAt_of_some (h : table[n]? = some e) : connIdAt table n = some e.connId := by
  rw [connIdAt, h, Option.map_some]

theorem exists_of_connIdAt (h : connIdAt table n = some c) :
    ∃ e, table[n]? = some e ∧ e.connId = c :=
  Option.map_eq_some_iff.mp h

/-- An entry in use is reset if and only if another one is the first marked one of its group. -/
theorem reset_iff (h : table[n]? = some e) (he : e.connId ≠ .none) :
    (cleanUpServers now connectRetry passive table)[n]? =
        some (initServerStruct now connectRetry passive) ↔
      ∃ k, k ≠ n ∧ firstOnce table e.connId = some k := by
  rw [getElem?_cleanUpServers now connectRetry passive h, if_neg he]
  -- an entry that remains differs from a fresh one by its connection id
  have hne : ∀ e' : ServerEntry, e'.connId = e.connId →
      some e' ≠ some (initServerStruct now connectRetry passive) := by
    intro e' hc heq
    obtain rfl := Option.some.inj heq
    exact he hc.symm
  cases firstOnce table e.connId with
  | none =>
    refine ⟨fun hreset => absurd hreset (hne _ rfl), ?_⟩
    rintro ⟨_, -, hk⟩
    cases hk
  | some k =>
    by_cases hn : n = k
    · simp only [if_pos hn]
      refine ⟨fun hreset => absurd hreset (hne _ rfl), fun ⟨k', hk', heq⟩ => ?_⟩
      exact absurd (hn.trans (Option.some.inj heq)) hk'.symm
    · simp only [if_neg hn, true_iff]
      exact ⟨k, Ne.symm hn, rfl⟩

/-- The entries in use that remain: all of a group without a marked entry, and the first
marked one of any other group. -/
theorem connIdAt_cleanUpServers (hc : c ≠ .none) :
    connIdAt (cleanUpServers now connectRetry passive table) n = some c ↔
      connIdAt table n = some c ∧ (firstOnce table c = none ∨ firstOnce table c = some n) := by
  unfold connIdAt
  cases hentry : table[n]? with
  | none =>
    have hnone : (cleanUpServers now connectRetry passive table)[n]? = none := by
      rw [cleanUpServers_eq_stage, getElem?_stage, hentry, Option.map_none]
    rw [hnone]
    simp
  | some e =>
    rw [getElem?_cleanUpServers now connectRetry passive hentry]
    simp only [Option.map_some, Option.some.injEq]
    by_cases he : e.connId = .none
    · rw [if_pos he, he]
      exact ⟨fun h => absurd h.symm hc, fun h => absurd h.1.symm hc⟩
    · rw [if_neg he]
      by_cases heq : e.connId = c
      · subst heq
        cases firstOnce table e.connId with
        | none => simp
        | some k =>
          by_cases hn : n = k
          · simp [hn]
          · simp only [if_neg hn, reduceCtorEq, Option.some.injEq, false_or, true_and]
            exact ⟨fun h => absurd h.symm he, fun h => absurd h.symm hn⟩
      · refine ⟨fun h => ?_, fun h => absurd h.1 heq⟩
        split at h
        · split at h
          · exact absurd h heq
          · exact absurd h.symm hc
        · exact absurd h heq

/-- The links survive the pass: an entry in use is reset only if another one keeps its
established connection, and each established connection is kept by one entry. -/
structure KeepsLinks (fresh : ServerEntry) (before after : List ServerEntry) : Prop where
  reset : ∀ n e, before[n]? = some e → e.connId ≠ .none → after[n]? = some fresh →
    ∃ id, e.connId = .connection id ∧ ∃ m, m ≠ n ∧ connIdAt after m = some (.connection id)
  one : ∀ id, (∃ e ∈ before, e.connId = .connection id) →
    ∃! m, connIdAt after m = some (.connection id)

theorem firstOnce_eq_none_iff :
    firstOnce table c = none ↔ ∀ e ∈ table, e.connId = c → e.once = false := by
  unfold firstOnce
  simp

theorem exists_of_firstOnce (h : firstOnce table c = some k) :
    ∃ e, table[k]? = some e ∧ e.connId = c ∧ e.once = true := by
  obtain ⟨hk, he, -⟩ := List.findIdx?_eq_some_iff_getElem.mp h
  exact ⟨_, List.getElem?_eq_getElem hk, by simpa using he⟩

/-- The links survive the pass over the table if and only if each connection that several
entries share is held by a marked one, and no marked entry waits beside another that waits. -/
theorem cleanUpServers_keepsLinks_iff (table : List ServerEntry) :
    KeepsLinks (initServerStruct now connectRetry passive) table
        (cleanUpServers now connectRetry passive table) ↔
      (∀ id m n, m ≠ n → connIdAt table m = some (.connection id) →
        connIdAt table n = some (.connection id) →
        ∃ e ∈ table, e.connId = .connection id ∧ e.once = true) ∧
      ∀ m n e, m ≠ n → table[m]? = some e → e.connId = .waiting →
        connIdAt table n = some .waiting → e.once = false := by
  refine ⟨fun hkeeps => ⟨?_, ?_⟩, fun ⟨hshared, hwaits⟩ => ⟨?_, ?_⟩⟩
  · intro id m n hmn hm hn
    by_contra hunmarked
    have hfirst : firstOnce table (.connection id) = none := by
      refine firstOnce_eq_none_iff.mpr fun e he hc => ?_
      by_contra honce
      exact hunmarked ⟨e, he, hc, by simpa using honce⟩
    obtain ⟨e, hentry, hc⟩ := exists_of_connIdAt hm
    obtain ⟨k, -, hunique⟩ := hkeeps.one id ⟨e, List.mem_of_getElem? hentry, hc⟩
    have hremains : ∀ j, connIdAt table j = some (.connection id) → j = k := fun j hj =>
      hunique j ((connIdAt_cleanUpServers now connectRetry passive (by simp)).mpr ⟨hj, .inl hfirst⟩)
    exact hmn ((hremains m hm).trans (hremains n hn).symm)
  · intro m n e hmn hentry hc hn
    by_contra honce
    obtain ⟨e', hentry', hc'⟩ := exists_of_connIdAt hn
    -- one of the two is not the first marked entry that waits, and is reset
    have hnotReset : ∀ j e'', table[j]? = some e'' → e''.connId = .waiting →
        ¬ ∃ k, k ≠ j ∧ firstOnce table .waiting = some k := by
      intro j e'' hj hw hk
      rw [← hw] at hk
      have hinUse : e''.connId ≠ .none := by simp [hw]
      obtain ⟨id, hid, -⟩ := hkeeps.reset j e'' hj hinUse
        ((reset_iff now connectRetry passive hj hinUse).mpr hk)
      simp [hw] at hid
    cases hfirst : firstOnce table .waiting with
    | none => exact honce (firstOnce_eq_none_iff.mp hfirst e (List.mem_of_getElem? hentry) hc)
    | some k =>
      by_cases hk : k = m
      · exact hnotReset n e' hentry' hc' ⟨k, fun h => hmn (hk.symm.trans h), hfirst⟩
      · exact hnotReset m e hentry hc ⟨k, hk, hfirst⟩
  · intro n e hentry hinUse hreset
    obtain ⟨k, hk, hfirst⟩ := (reset_iff now connectRetry passive hentry hinUse).mp hreset
    obtain ⟨e', hentry', hc', honce⟩ := exists_of_firstOnce hfirst
    cases hc : e.connId with
    | none => exact absurd hc hinUse
    | waiting =>
      have hunmarked := hwaits k n e' hk hentry' (hc'.trans hc)
        ((connIdAt_of_some hentry).trans (congrArg some hc))
      rw [hunmarked] at honce
      contradiction
    | connection id =>
      rw [hc] at hc' hfirst
      refine ⟨id, rfl, k, hk, ?_⟩
      exact (connIdAt_cleanUpServers now connectRetry passive (by simp)).mpr
        ⟨(connIdAt_of_some hentry').trans (congrArg some hc'), .inr hfirst⟩
  · rintro id ⟨e, he, hc⟩
    have hremains : ∀ n, connIdAt (cleanUpServers now connectRetry passive table) n =
        some (.connection id) ↔ connIdAt table n = some (.connection id) ∧
          (firstOnce table (.connection id) = none ∨
            firstOnce table (.connection id) = some n) := fun n =>
      connIdAt_cleanUpServers now connectRetry passive (by simp)
    simp only [hremains]
    cases hfirst : firstOnce table (.connection id) with
    | some k =>
      obtain ⟨e', hentry', hc', -⟩ := exists_of_firstOnce hfirst
      refine ⟨k, ⟨(connIdAt_of_some hentry').trans (congrArg some hc'), .inr rfl⟩, ?_⟩
      rintro n ⟨-, hn | hn⟩
      · cases hn
      · exact (Option.some.inj hn).symm
    | none =>
      obtain ⟨n, hn⟩ := List.getElem?_of_mem he
      have hconn := (connIdAt_of_some hn).trans (congrArg some hc)
      refine ⟨n, ⟨hconn, .inl rfl⟩, fun m hm => ?_⟩
      by_contra hmn
      obtain ⟨e', he', hc', honce⟩ := hshared id m n hmn hm.1 hconn
      rw [firstOnce_eq_none_iff.mp hfirst e' he' hc'] at honce
      contradiction

end Result

/-- Two servers wait for their outgoing connections and are marked by a first reload: a second
one forgets one of them. -/
theorem cleanUpServers_forgets_waiting :
    ¬ KeepsLinks (initServerStruct 100 60 false)
      [{ host := "a.example.net", name := "irc.a", connId := .waiting, once := true },
        { host := "b.example.net", name := "irc.b", connId := .waiting, once := true }]
      (cleanUpServers 100 60 false
        [{ host := "a.example.net", name := "irc.a", connId := .waiting, once := true },
          { host := "b.example.net", name := "irc.b", connId := .waiting, once := true }]) := by
  intro h
  obtain ⟨id, hid, -⟩ := h.reset 1 _ rfl (by decide) (by decide)
  cases hid

end Ngircd
