import Ngircd.ConfigFile

/-!
# Values in the configuration

The default modes, which `Handle_OPTIONS` collects in a buffer, and lists of ports, which
`ports_parse` reads and `ports_puts` prints.
-/

namespace Ngircd

open Lib

variable {arg valid : Str} {size port : Nat}

/-! ## Default modes -/

/-- The loop of `Handle_OPTIONS` over the letters of a value, with what is in the buffer of
`size` bytes.  There is no result if the assertion fails. -/
def defaultModes (valid : Str) (size : Nat) (modes : Str) : Str → Option Str
  | [] => some modes
  | p :: rest =>
    if modes.contains p then defaultModes valid size modes rest
    else if valid.contains p then
      if modes.length + 1 < size then defaultModes valid size (modes ++ [p]) rest else none
    else defaultModes valid size modes rest

/-- `Handle_OPTIONS` for `DefaultChannelModes`. -/
def defaultChannelModes (arg : Str) : Option Str := defaultModes chanModes channelModeLen [] arg

/-- `Handle_OPTIONS` for `DefaultUserModes`; `CLIENT_MODE_LEN` is 21 as well. -/
def defaultUserModes (arg : Str) : Option Str := defaultModes userModes channelModeLen [] arg

/-- The distinct valid letters of a value, in the order in which they first occur. -/
def distinctModes (valid arg : Str) : Str := (arg.filter (valid.contains ·)).eraseDups

section

variable (valid : Str)

theorem mem_distinctModes {c : Char} :
    c ∈ distinctModes valid arg ↔ c ∈ arg ∧ c ∈ valid := by
  rw [distinctModes, List.mem_eraseDups, List.mem_filter, List.contains_iff_mem]

theorem distinctModes_concat (arg : Str) (p : Char) : distinctModes valid (arg ++ [p]) =
    if p ∈ distinctModes valid arg ∨ p ∉ valid then distinctModes valid arg
    else distinctModes valid arg ++ [p] := by
  unfold distinctModes
  simp only [List.filter_append, List.mem_eraseDups]
  by_cases hp : p ∈ valid
  · rw [List.filter_cons_of_pos (by simpa using hp), List.filter_nil, List.eraseDups_append,
      List.removeAll]
    by_cases hold : p ∈ arg.filter (valid.contains ·)
    · rw [if_pos (.inl hold), List.filter_cons_of_neg (by simpa using hold)]
      exact List.append_nil _
    · rw [if_neg (not_or.mpr ⟨hold, not_not.mpr hp⟩), List.filter_cons_of_pos ?_]
      · rfl
      · rw [Bool.not_eq_true', ← Bool.not_eq_true, List.elem_iff]
        exact hold
  · rw [List.filter_cons_of_neg (by simpa using hp), List.filter_nil, List.append_nil,
      if_pos (.inr hp)]

theorem nodup_distinctModes (arg : Str) : (distinctModes valid arg).Nodup := by
  induction arg using List.reverseRecOn with
  | nil => exact List.nodup_nil
  | append_singleton arg p ih =>
    rw [distinctModes_concat]
    split_ifs with h
    · exact ih
    · refine List.nodup_append.mpr ⟨ih, List.pairwise_singleton _ p, fun a ha b hb heq => ?_⟩
      rw [heq, List.mem_singleton.mp hb] at ha
      exact (not_or.mp h).1 ha

theorem length_distinctModes_append (arg rest : Str) :
    (distinctModes valid arg).length ≤ (distinctModes valid (arg ++ rest)).length := by
  rw [distinctModes, distinctModes, List.filter_append, List.eraseDups_append, List.length_append]
  exact Nat.le_add_right _ _

/-- The buffer holds the letters of what has been read, and the assertion fails where there are
too many of them. -/
theorem defaultModes_eq (h : (distinctModes valid arg).length < size)
    (rest : Str) : defaultModes valid size (distinctModes valid arg) rest =
      if (distinctModes valid (arg ++ rest)).length < size then
        some (distinctModes valid (arg ++ rest)) else none := by
  induction rest generalizing arg with
  | nil => rw [List.append_nil, if_pos h, defaultModes]
  | cons p rest ih =>
    have happend : arg ++ p :: rest = arg ++ [p] ++ rest := by simp
    have hconcat := distinctModes_concat valid arg p
    rw [defaultModes, happend]
    simp only [List.contains_iff_mem]
    by_cases hp : p ∈ distinctModes valid arg ∨ p ∉ valid
    · rw [if_pos hp] at hconcat
      rw [← hconcat] at h
      rw [← ih h, hconcat]
      rcases hp with hp | hp
      · rw [if_pos hp]
      · rw [if_neg hp, ite_self]
    · rw [if_neg hp] at hconcat
      rw [not_or, not_not] at hp
      rw [if_neg hp.1, if_pos hp.2, ← hconcat]
      have hlength := congrArg List.length hconcat
      rw [List.length_append, List.length_singleton] at hlength
      by_cases hroom : (distinctModes valid arg).length + 1 < size
      · rw [if_pos hroom, ih (by omega)]
      · have hle := length_distinctModes_append valid (arg ++ [p]) rest
        rw [if_neg hroom, if_neg (by omega)]

/-- There are as many distinct letters in a value as letters of the alphabet occur in it. -/
theorem length_distinctModes {valid : Str} (hvalid : valid.Nodup) (arg : Str) :
    (distinctModes valid arg).length = (valid.filter (arg.contains ·)).length := by
  refine List.Perm.length_eq ((List.perm_ext_iff_of_nodup (nodup_distinctModes valid arg)
    (hvalid.filter _)).mpr fun c => ?_)
  rw [mem_distinctModes, List.mem_filter, List.contains_iff_mem, and_comm]

end

/-- Default user modes are stored as they should be.  Default channel modes are if and only if
at most 20 of the 23 letters occur in the value. -/
theorem default_modes_stored_iff (arg : Str) :
    (defaultChannelModes arg = some (distinctModes chanModes arg) ↔
        (chanModes.filter (arg.contains ·)).length ≤ 20) ∧
      defaultUserModes arg = some (distinctModes userModes arg) := by
  have hrun (valid : Str) := defaultModes_eq valid
    (show (distinctModes valid []).length < channelModeLen from (by decide : 0 < channelModeLen)) arg
  constructor
  · rw [← length_distinctModes (by decide) arg, defaultChannelModes]
    refine (congrArg (· = _) (hrun chanModes)).to_iff.trans ?_
    rw [List.nil_append]
    split_ifs with h
    · exact ⟨fun _ => Nat.le_of_lt_succ h, fun _ => rfl⟩
    · exact ⟨nofun, fun hle => absurd (Nat.lt_succ_of_le hle) h⟩
  · refine (hrun userModes).trans (if_pos ?_)
    rw [List.nil_append, length_distinctModes (by decide) arg]
    exact Nat.lt_of_le_of_lt (List.length_filter_le _ _) (by decide)

/-- All the letters at once fail the assertion. -/
theorem default_channel_modes_fail : defaultChannelModes chanModes = none := by
  decide +kernel

/-! ## Ports -/

/-- `ports_parse`.  What is stored in 16 bits fits. -/
def portsParse (arg : Str) : List Nat :=
  (strtok arg ",").filterMap fun ptr =>
    let port := atoi (trimStr ptr)
    if 0 < port ∧ port < 0xFFFF then some port.toNat else none

/-- `ports_puts`. -/
def portsPuts : List Nat → Str
  | [] => "\n"
  | port :: ports => natStr port ++ ports.flatMap (", ".toList ++ natStr ·) ++ "\n".toList

/-- The numbers between 1 and 65535 among the items between commas. -/
def portItems (text : Str) : List Nat :=
  (text.splitOn ',').filterMap fun item =>
    let port := atoi (trimStr item)
    if 0 < port ∧ port ≤ 0xFFFF then some port.toNat else none

/-- `strtok` gives the items that are not empty. -/
theorem tokensFrom_eq (isDelim : Char → Bool) (cur s : Str) : tokensFrom isDelim cur s =
    ((s.splitOnP isDelim).modifyHead (cur.reverse ++ ·)).filter (!·.isEmpty) := by
  induction s generalizing cur with
  | nil =>
    rw [tokensFrom, List.splitOnP_nil]
    cases cur <;> simp
  | cons c s ih =>
    rw [tokensFrom, List.splitOnP_cons_eq_if_modifyHead]
    split_ifs with hc hcur
    · rw [ih, List.isEmpty_iff.mp hcur]
      cases hs : s.splitOnP isDelim <;> simp
    · rw [ih]
      have hne : cur ≠ [] := by simpa using hcur
      cases hs : s.splitOnP isDelim <;> simp [hne]
    · rw [ih]
      cases hs : s.splitOnP isDelim <;> simp

theorem portsParse_eq (text : Str) : portsParse text = (portItems text).filter (· ≠ 0xFFFF) := by
  have htokens : strtok text "," = (text.splitOn ',').filter (!·.isEmpty) := by
    have hdelim : (fun c => ",".toList.contains c) = (· == ',') := by
      funext c
      exact Bool.eq_iff_iff.mpr (by simp)
    rw [strtok, tokensFrom_eq, hdelim, List.splitOn_eq_splitOnP]
    cases hs : text.splitOnP (· == ',') <;> simp
  rw [portsParse, portItems, htokens, List.filter_filterMap, List.filterMap_filter]
  refine List.filterMap_congr fun item _ => ?_
  cases item with
  | nil => rfl
  | cons c item =>
    simp only [List.isEmpty_cons, Bool.not_false, if_true]
    split_ifs with hparse hitem hitem
    · simp only [Option.filter_some]
      rw [if_pos (by simp; omega)]
    · omega
    · simp only [Option.filter_some]
      rw [if_neg (by simp; omega)]
    · rfl

theorem portItems_append (a b : Str) : portItems (a ++ ',' :: b) = portItems a ++ portItems b := by
  rw [portItems, List.splitOn_append_cons_self, List.filterMap_append, portItems, portItems]

theorem trimStr_natStr (n : Nat) : trimStr (natStr n) = natStr n := by
  have hdigit {c : Char} (hc : c ∈ natStr n) : isBlank c = false := by
    have hspace := isSpace_of_isDigit (isDigit_of_mem_natStr hc)
    simp only [isSpace, Bool.or_eq_false_iff] at hspace
    simp only [isBlank, hspace, Bool.or_self]
  exact trimStr_of_ends (fun c hc => hdigit (List.mem_of_mem_head? hc))
    fun c hc => hdigit (List.mem_of_getLast? hc)

/-- A port with blanks around it is one item. -/
theorem portItems_port {lead trail : Str} (hlead : ',' ∉ lead ∧ trimStr lead = [])
    (htrail : ',' ∉ trail ∧ trimStr trail = []) (hport : 0 < port ∧ port ≤ 0xFFFF) :
    portItems (lead ++ natStr port ++ trail) = [port] := by
  have hcomma : ',' ∉ natStr port := fun h => absurd (isDigit_of_mem_natStr h) (by decide)
  have hone : ',' ∉ lead ++ natStr port ++ trail := by simp [hlead.1, hcomma, htrail.1]
  rw [portItems, List.splitOn_eq_singleton hone]
  simp only [List.filterMap_cons, List.filterMap_nil]
  rw [trimStr_append_blank _ htrail.2, trimStr_blank_append hlead.2, trimStr_natStr, atoi_natStr,
    if_pos (by omega)]
  rfl

/-- What is printed is what is read. -/
theorem portItems_puts {ports : List Nat} (h : ∀ p ∈ ports, 0 < p ∧ p ≤ 0xFFFF) :
    portItems (portsPuts ports) = ports := by
  have hitems {port : Nat} {ports : List Nat} (h : ∀ p ∈ port :: ports, 0 < p ∧ p ≤ 0xFFFF)
      {lead : Str} (hlead : ',' ∉ lead ∧ trimStr lead = []) :
      portItems (lead ++ natStr port ++ (ports.flatMap (", ".toList ++ natStr ·) ++ "\n".toList)) =
        port :: ports := by
    induction ports generalizing port lead with
    | nil => exact portItems_port hlead (by decide) (h port (.head _))
    | cons next ports ih =>
      have hnext := ih (fun p hp => h p (.tail port hp))
        (show ',' ∉ " ".toList ∧ trimStr " " = [] by decide)
      have hport := portItems_port hlead (show ',' ∉ "".toList ∧ trimStr "" = [] by decide)
        (h port (.head _))
      rw [String.toList_empty, List.append_nil] at hport
      have htext : lead ++ natStr port ++
          ((next :: ports).flatMap (", ".toList ++ natStr ·) ++ "\n".toList) =
          lead ++ natStr port ++ ',' :: (" ".toList ++ natStr next ++
            (ports.flatMap (", ".toList ++ natStr ·) ++ "\n".toList)) := by simp
      rw [htext, portItems_append, hport, hnext, List.singleton_append]
  cases ports with
  | nil => rfl
  | cons port ports =>
    rw [portsPuts, List.append_assoc]
    exact hitems h (show ',' ∉ "".toList ∧ trimStr "" = [] by decide)

/-- Of the ports between 1 and 65535 all are parsed, in order, if and only if 65535 is not
among them: in a list that has been printed, and in every text with commas. -/
theorem ports_survive_iff (ports : List Nat) (text : Str) :
    ((∀ p ∈ ports, 0 < p ∧ p ≤ 0xFFFF) →
      (portsParse (portsPuts ports) = ports ↔ 0xFFFF ∉ ports)) ∧
    (portsParse text = portItems text ↔
      ∀ item ∈ text.splitOn ',', atoi (trimStr item) ≠ 0xFFFF) := by
  have hkept (l : List Nat) : l.filter (· ≠ 0xFFFF) = l ↔ 0xFFFF ∉ l := by
    rw [List.filter_eq_self]
    simp only [decide_eq_true_eq]
    exact ⟨fun h hmem => h _ hmem rfl, fun h p hp heq => h (heq ▸ hp)⟩
  refine ⟨fun h => ?_, ?_⟩
  · rw [portsParse_eq, portItems_puts h, hkept]
  · rw [portsParse_eq, hkept, portItems, List.mem_filterMap]
    push Not
    refine forall₂_congr fun item _ => not_congr ?_
    dsimp only
    split_ifs with hport
    · rw [Option.some.injEq]
      omega
    · exact ⟨nofun, fun h => absurd (by omega) hport⟩

theorem ports_survive_irc : portsParse (portsPuts [6667, 6697]) = [6667, 6697] :=
  ((ports_survive_iff [6667, 6697] []).1 (by decide)).mpr (by decide)

/-- The largest port is lost. -/
theorem port_65535_lost : portsPuts [6667, 0xFFFF] = "6667, 65535\n".toList ∧
    portsParse "6667, 65535\n" = [6667] := by
  decide +kernel

end Ngircd
