import Mathlib.Data.Finset.Card
import Ngircd.Lists

/-!
# Laws of the mask lists

`Lists_MakeMask` fills a pattern up to a full mask, and `Lists_Add`, `Lists_Del` and
`Lists_CheckReason` keep a list of masks like a table whose keys are the masks.  Both
hold with a caveat: the buffers have a fixed size, and a separator of the pattern that
lies behind the cut is lost.
-/

namespace Ngircd

open Lib

variable {c : Char} {size : Nat} {l l' : List ListElem} {mask : Str} {e : ListElem}
  {ok : Str → Prop}

/-! ## Completing masks -/

/-- A mask that fits into an entry. -/
def FitsEntry (mask : Str) : Prop := mask.length < maskLen

section

variable {pattern nick host m : Str}

/-- A mask with a `!` and, after it, a `@`. -/
def FullMask (m : Str) : Prop := ∃ nick user host, m = nick ++ '!' :: (user ++ '@' :: host)

/-- What is expected of `Lists_MakeMask`. -/
structure Completes (pattern : Str) : Prop where
  short : (listsMakeMask pattern).length < maskLen
  full : FullMask (listsMakeMask pattern)
  stable : listsMakeMask (listsMakeMask pattern) = listsMakeMask pattern
  kept : ∀ nick user host, '@' ∉ nick → pattern = nick ++ '!' :: (user ++ '@' :: host) →
    pattern.length < maskLen → listsMakeMask pattern = pattern

/-- The separators that `Lists_MakeMask` relies on lie in the part of the pattern that is
copied: a lone `!` has to leave room for `@*`, and a `@` behind a `!` has to fit. -/
def SeparatorsFit (pattern : Str) : Prop :=
  ('@' ∉ pattern → '!' ∈ pattern → '!' ∈ pattern.take (maskLen - 4)) ∧
  ('@' ∈ pattern → '!' ∈ pattern.takeWhile (· != '@') → '@' ∈ pattern.take (maskLen - 1))

instance (pattern : Str) : Decidable (SeparatorsFit pattern) :=
  inferInstanceAs (Decidable (_ ∧ _))

theorem findIdx?_absent (h : c ∉ pattern) : pattern.findIdx? (· == c) = none := by
  rw [List.findIdx?_eq_none_iff]
  intro x hx
  exact beq_eq_false_iff_ne.mpr fun hxc => h (hxc ▸ hx)

theorem findIdx?_separator (h : c ∉ nick) :
    (nick ++ c :: host).findIdx? (· == c) = some nick.length := by
  rw [List.findIdx?_append, findIdx?_absent h, List.findIdx?_cons]
  simp

theorem takeWhile_separator (h : '@' ∉ nick) :
    (nick ++ '@' :: host).takeWhile (· != '@') = nick := by
  have hword : ∀ x ∈ nick, (x != '@') = true := by
    intro x hx
    rw [bne_iff_ne]
    rintro rfl
    exact h hx
  rw [List.takeWhile_append_of_pos hword]
  simp

/-- Neither separator: the pattern is taken for a nickname. -/
theorem listsMakeMask_nick (hat : '@' ∉ pattern) (hexcl : '!' ∉ pattern) :
    listsMakeMask pattern = pattern.take (maskLen - 6) ++ "!*@*".toList := by
  unfold listsMakeMask
  rw [findIdx?_absent hat, findIdx?_absent hexcl]
  refine strlcat_of_room ?_
  have : (strlcpy pattern (maskLen - 5)).length ≤ maskLen - 6 := List.length_take_le _ _
  change _ + 4 < maskLen
  simp only [maskLen, clientHostLen] at this ⊢
  omega

/-- The domain part is missing. -/
theorem listsMakeMask_noHost (hat : '@' ∉ pattern) (hexcl : '!' ∈ pattern) :
    listsMakeMask pattern = pattern.take (maskLen - 4) ++ "@*".toList := by
  obtain ⟨nick, rest, hpattern, hnick⟩ := List.eq_append_cons_of_mem hexcl
  have hfind : pattern.findIdx? (· == '!') = some nick.length := by
    rw [hpattern]
    exact findIdx?_separator hnick
  unfold listsMakeMask
  rw [findIdx?_absent hat, hfind]
  refine strlcat_of_room ?_
  have : (strlcpy pattern (maskLen - 3)).length ≤ maskLen - 4 := List.length_take_le _ _
  change _ + 2 < maskLen
  simp only [maskLen, clientHostLen] at this ⊢
  omega

/-- Room for the rest of a mask is what the copied nickname leaves. -/
theorem strlcat_cut {s t : Str} (h : s.length < size - 1) :
    strlcat s t size = s ++ t.take (size - 1 - s.length) := if_pos h

/-- The user name is missing; a `!` behind the `@` belongs to the host. -/
theorem listsMakeMask_noUser (hat : '@' ∉ nick) (hexcl : '!' ∉ nick) (host : Str) :
    ∃ n, listsMakeMask (nick ++ '@' :: host) =
      nick.take (maskLen - 6) ++ "!*".toList ++ '@' :: host.take n := by
  have hmask : ∀ o, (nick ++ '@' :: host).findIdx? (· == '!') = o →
      (∀ k, o = some k → nick.length < k) → listsMakeMask (nick ++ '@' :: host) =
        strlcat (strlcat (strlcpy nick (maskLen - 5)) "!*@".toList maskLen) host maskLen := by
    intro o ho hbehind
    unfold listsMakeMask
    rw [findIdx?_separator hat, ho]
    cases o with
    | none => simp
    | some k => simp [hbehind k rfl]
  have hbehind : ∀ k, (nick ++ '@' :: host).findIdx? (· == '!') = some k → nick.length < k := by
    intro k hk
    rw [List.findIdx?_append, findIdx?_absent hexcl, List.findIdx?_cons] at hk
    cases hhost : host.findIdx? (· == '!') <;> simp [hhost] at hk
    omega
  have hlen : (strlcpy nick (maskLen - 5)).length ≤ maskLen - 6 := List.length_take_le _ _
  have hroom : (strlcpy nick (maskLen - 5)).length + 3 < maskLen - 1 := by
    simp only [maskLen, clientHostLen] at hlen ⊢
    omega
  refine ⟨maskLen - 1 - ((strlcpy nick (maskLen - 5)).length + 3), ?_⟩
  have hinner : strlcat (strlcpy nick (maskLen - 5)) "!*@".toList maskLen =
      strlcpy nick (maskLen - 5) ++ "!*@".toList :=
    strlcat_of_room (Nat.lt_of_lt_of_le hroom (Nat.sub_le _ _))
  rw [hmask _ rfl hbehind, hinner, strlcat_cut (by rw [List.length_append]; exact hroom),
    List.length_append]
  have hcopy : strlcpy nick (maskLen - 5) = nick.take (maskLen - 6) := rfl
  simp [hcopy]

/-- All parts are given. -/
theorem listsMakeMask_whole (hat : '@' ∉ nick) (hexcl : '!' ∈ nick) (host : Str) :
    listsMakeMask (nick ++ '@' :: host) = (nick ++ '@' :: host).take (maskLen - 1) := by
  obtain ⟨front, rest, rfl, hfront⟩ := List.eq_append_cons_of_mem hexcl
  have hfind : (front ++ '!' :: rest ++ '@' :: host).findIdx? (· == '!') = some front.length := by
    rw [List.append_assoc, List.cons_append]
    exact findIdx?_separator hfront
  have hbefore : ¬ (front ++ '!' :: rest).length < front.length := by
    rw [List.length_append]
    omega
  unfold listsMakeMask
  rw [findIdx?_separator hat, hfind]
  dsimp only
  rw [if_neg hbefore]
  rfl

/-- The separators stand in the right order in the result, and it fits. -/
theorem listsMakeMask_separated (hfit : SeparatorsFit pattern) :
    ∃ nick host, listsMakeMask pattern = nick ++ '@' :: host ∧ '@' ∉ nick ∧ '!' ∈ nick := by
  by_cases hat : '@' ∈ pattern
  · obtain ⟨nick, host, rfl, hnick⟩ := List.eq_append_cons_of_mem hat
    by_cases hexcl : '!' ∈ nick
    · have hcut := hfit.2 hat ((takeWhile_separator hnick).symm ▸ hexcl)
      have hroom : nick.length < maskLen - 1 := by
        by_contra hlong
        rw [List.take_append_of_le_length (by omega)] at hcut
        exact hnick (List.mem_of_mem_take hcut)
      refine ⟨nick, host.take (maskLen - 1 - nick.length - 1), ?_, hnick, hexcl⟩
      rw [listsMakeMask_whole hnick hexcl, List.take_append,
        List.take_of_length_le (Nat.le_of_lt hroom)]
      obtain ⟨k, hk⟩ : ∃ k, maskLen - 1 - nick.length = k + 1 := ⟨maskLen - 2 - nick.length, by omega⟩
      rw [hk, List.take_succ_cons]
      rfl
    · obtain ⟨n, hmask⟩ := listsMakeMask_noUser hnick hexcl host
      refine ⟨_, _, hmask, ?_, by simp⟩
      simpa using fun h => hnick (List.mem_of_mem_take h)
  · by_cases hexcl : '!' ∈ pattern
    · refine ⟨pattern.take (maskLen - 4), ['*'], listsMakeMask_noHost hat hexcl, ?_,
        hfit.1 hat hexcl⟩
      exact fun h => hat (List.mem_of_mem_take h)
    · refine ⟨pattern.take (maskLen - 6) ++ "!*".toList, ['*'], ?_, ?_, by simp⟩
      · rw [listsMakeMask_nick hat hexcl, List.append_assoc]
        rfl
      · simpa using fun h => hat (List.mem_of_mem_take h)

theorem length_strlcat_le (dst src : Str) (h : dst.length ≤ size - 1) :
    (strlcat dst src size).length ≤ size - 1 := by
  unfold strlcat
  split
  · rw [List.length_append, List.length_take]
    omega
  · exact h

theorem length_listsMakeMask (pattern : Str) : (listsMakeMask pattern).length ≤ maskLen - 1 := by
  have hcopy (s : Str) (k : Nat) : (strlcpy s (maskLen - k)).length ≤ maskLen - 1 := by
    rw [strlcpy, List.length_take]
    omega
  unfold listsMakeMask
  dsimp only
  split
  · exact length_strlcat_le _ _ (hcopy _ _)
  · exact length_strlcat_le _ _ (hcopy _ _)
  · exact length_strlcat_le _ _ (length_strlcat_le _ _ (hcopy _ _))
  · exact hcopy _ 0

theorem fitsEntry_listsMakeMask (pattern : Str) : FitsEntry (listsMakeMask pattern) :=
  Nat.lt_of_le_of_lt (length_listsMakeMask pattern) (by decide)

/-- A full mask that fits is left as it is. -/
theorem listsMakeMask_eq_self (hat : '@' ∉ nick) (hexcl : '!' ∈ nick)
    (hfits : (nick ++ '@' :: host).length ≤ maskLen - 1) :
    listsMakeMask (nick ++ '@' :: host) = nick ++ '@' :: host := by
  rw [listsMakeMask_whole hat hexcl, List.take_of_length_le hfits]

/-- `Lists_MakeMask` yields a full mask exactly for the patterns whose separators are not
cut off. -/
theorem listsMakeMask_completes_iff (pattern : Str) :
    Completes pattern ↔ SeparatorsFit pattern := by
  constructor
  · intro h
    obtain ⟨nick, user, host, hmask⟩ := h.full
    have hexcl : '!' ∈ listsMakeMask pattern := by simp [hmask]
    have hat : '@' ∈ listsMakeMask pattern := by simp [hmask]
    refine ⟨fun hno hlone => ?_, fun hsome hword => ?_⟩
    · rw [listsMakeMask_noHost hno hlone] at hexcl
      simpa using hexcl
    · obtain ⟨front, rest, rfl, hfront⟩ := List.eq_append_cons_of_mem hsome
      rw [takeWhile_separator hfront] at hword
      rwa [listsMakeMask_whole hfront hword] at hat
  · intro hfit
    obtain ⟨nick, host, hmask, hat, hexcl⟩ := listsMakeMask_separated hfit
    have hlen := length_listsMakeMask pattern
    refine ⟨?_, ?_, ?_, ?_⟩
    · exact fitsEntry_listsMakeMask pattern
    · obtain ⟨front, user, rfl, -⟩ := List.eq_append_cons_of_mem hexcl
      exact ⟨front, user, host, by rw [hmask, List.append_assoc]; rfl⟩
    · rw [hmask] at hlen ⊢
      exact listsMakeMask_eq_self hat hexcl hlen
    · rintro front user rest hfront rfl hshort
      -- The host begins behind the first `@`, which may stand in the part called user here.
      have hmem : '@' ∈ user ++ '@' :: rest := by simp
      obtain ⟨name, domain, hsplit, hname⟩ := List.eq_append_cons_of_mem hmem
      have hshape : front ++ '!' :: (user ++ '@' :: rest) =
          (front ++ '!' :: name) ++ '@' :: domain := by
        rw [hsplit, List.append_assoc]
        rfl
      rw [hshape] at hshort ⊢
      refine listsMakeMask_eq_self ?_ (by simp) (Nat.le_sub_one_of_lt hshort)
      simp [hfront, hname]

/-- A lone `!` behind the cut: the result has none. -/
theorem listsMakeMask_incomplete : ¬ Completes (List.replicate 124 'a' ++ "!b".toList) := by
  intro h
  obtain ⟨nick, user, host, hmask⟩ := h.full
  have hexcl : '!' ∈ listsMakeMask (List.replicate 124 'a' ++ "!b".toList) := by
    rw [hmask]
    exact List.mem_append_right _ (.head _)
  exact absurd hexcl (by decide +kernel)

end

/-! ## Adding a mask -/

/-- `Lists_Add` refreshes the entry with the same mask where it stands. -/
theorem listsAdd_of_dupe
    (h : listsCheckDupeMask l mask = some e) (validUntil : Int) (reason : Str) (onlyonce : Bool) :
    ∃ pre post, l = pre ++ e :: post ∧ strcaseEq e.mask mask = true ∧
      (∀ x ∈ pre, !strcaseEq x.mask mask) ∧
      listsAdd l mask validUntil reason onlyonce = pre ++ { e with validUntil, reason } :: post := by
  obtain ⟨hsame, pre, post, rfl, hpre⟩ := List.find?_eq_some_iff_append.mp h
  have hne : e ∉ pre := fun hmem => by simpa [hsame] using hpre e hmem
  refine ⟨pre, post, rfl, hsame, hpre, ?_⟩
  unfold listsAdd
  rw [h]
  dsimp only
  rw [List.replace_append_right hne, List.replace_cons_self]

/-- After `Lists_Add` the list has an entry with the mask, and it is as new. -/
theorem listsCheckDupeMask_listsAdd (l : List ListElem)
    (hmask : mask.length ≤ maskLen - 1) (validUntil : Int) (reason : Str) (onlyonce : Bool) :
    ∃ e, listsCheckDupeMask (listsAdd l mask validUntil reason onlyonce) mask = some e ∧
      e.validUntil = validUntil := by
  cases h : listsCheckDupeMask l mask with
  | some e =>
    obtain ⟨pre, post, -, hsame, hpre, hadd⟩ := listsAdd_of_dupe h validUntil reason onlyonce
    refine ⟨{ e with validUntil, reason }, ?_, rfl⟩
    rw [hadd]
    exact List.find?_eq_some_iff_append.mpr ⟨hsame, pre, post, rfl, hpre⟩
  | none =>
    refine ⟨{ mask := strlcpy mask maskLen, reason, validUntil, onlyonce }, ?_, rfl⟩
    have hcopy : strlcpy mask maskLen = mask := List.take_of_length_le hmask
    rw [listsAdd, h, listsCheckDupeMask, List.find?_cons_of_pos]
    simpa only [hcopy] using strcaseEq_refl mask

theorem onlyonce_listsAdd (hl : ∀ e ∈ l, e.onlyonce = false) (mask : Str)
    (validUntil : Int) (reason : Str) :
    ∀ e ∈ listsAdd l mask validUntil reason false, e.onlyonce = false := by
  intro e he
  cases h : listsCheckDupeMask l mask with
  | some d =>
    obtain ⟨pre, post, rfl, -, -, hadd⟩ := listsAdd_of_dupe h validUntil reason false
    rw [hadd, List.mem_append, List.mem_cons] at he
    rcases he with hmem | rfl | hmem
    · exact hl e (List.mem_append_left _ hmem)
    · exact hl d (by simp)
    · exact hl e (List.mem_append_right _ (.tail _ hmem))
  | none =>
    rw [listsAdd, h, List.mem_cons] at he
    rcases he with rfl | hmem
    · rfl
    · exact hl e hmem

/-! ## What happens to a list -/

/-- What the server does to a list of masks: put a mask on it that is `ok`, take one off,
use up the entry that a lookup stopped at, or take off one that has expired. -/
inductive ListEdit (ok : Str → Prop) : List ListElem → List ListElem → Prop
  | same (l : List ListElem) : ListEdit ok l l
  | add (l : List ListElem) (mask : Str) (validUntil : Int) (reason : Str) (onlyonce : Bool)
      (hmask : ok mask) : ListEdit ok l (listsAdd l mask validUntil reason onlyonce)
  | del (l : List ListElem) (mask : Str) : ListEdit ok l (listsDel l mask)
  | used (l : List ListElem) (e : ListElem) : ListEdit ok l (listsUsed l e)
  | erased (l : List ListElem) (e : ListElem) : ListEdit ok l (l.erase e)

/-- A mask that the server may put on the list of a channel.  `Client_Mask` answers the
bare ID of a server. -/
def World.Storable (w : World) (mask : Str) : Prop :=
  FitsEntry mask ∨ ∃ r d, w.heap r = some d ∧ mask = d.id

/-- A lookup uses up at most one entry. -/
inductive ListLookup : List ListElem → List ListElem → Prop
  | same (l : List ListElem) : ListLookup l l
  | used (l : List ListElem) (e : ListElem) : ListLookup l (listsUsed l e)

theorem ListLookup.edit (h : ListLookup l l') :
    ListEdit ok l l' := by
  cases h with
  | same => exact .same _
  | used e => exact .used _ e

/-- Nothing but lookups has happened to the lists of a channel. -/
def Channel.Lookup (c d : Channel) : Prop :=
  ListLookup c.listBans d.listBans ∧ ListLookup c.listExcepts d.listExcepts ∧
    ListLookup c.listInvites d.listInvites

theorem Channel.Lookup.same (c : Channel) : c.Lookup c := ⟨.same _, .same _, .same _⟩

/-- The lists of a channel are kept or edited. -/
def Channel.ListsEdit (ok : Str → Prop) (c d : Channel) : Prop :=
  ListEdit ok c.listBans d.listBans ∧ ListEdit ok c.listExcepts d.listExcepts ∧
    ListEdit ok c.listInvites d.listInvites

theorem Channel.Lookup.edit {c d : Channel} (h : c.Lookup d) : c.ListsEdit ok d :=
  ⟨h.1.edit, h.2.1.edit, h.2.2.edit⟩

/-- The lists of G-Lines and of K-Lines are kept or edited. -/
def Misc.ListsEdit (m m' : Misc) : Prop :=
  ListEdit FitsEntry m.glines m'.glines ∧ ListEdit FitsEntry m.klines m'.klines

theorem Misc.ListsEdit.same (m : Misc) : m.ListsEdit m := ⟨.same _, .same _⟩

/-! ## Lists as tables -/

/-- The mask as `Lists_CheckDupeMask` compares it. -/
def ListElem.key (e : ListElem) : Str := lowerStr e.mask

/-- No two entries have the same mask, upper and lower case being the same. -/
def Keyed (l : List ListElem) : Prop := (l.map ListElem.key).Nodup

theorem strcaseEq_iff_key : strcaseEq e.mask mask = true ↔ e.key = lowerStr mask := by
  rw [strcaseEq, beq_iff_eq]
  rfl

theorem listsCheckDupeMask_eq_none_iff :
    listsCheckDupeMask l mask = none ↔ lowerStr mask ∉ l.map ListElem.key := by
  rw [listsCheckDupeMask, List.find?_eq_none, List.mem_map]
  constructor
  · rintro h ⟨e, he, hkey⟩
    exact h e he (strcaseEq_iff_key.mpr hkey)
  · intro h e he hsame
    exact h ⟨e, he, strcaseEq_iff_key.mp hsame⟩

/-- `Lists_Add` adds the key unless it is there already. -/
theorem keys_listsAdd (hfits : FitsEntry mask) (validUntil : Int) (reason : Str)
    (onlyonce : Bool) :
    (listsAdd l mask validUntil reason onlyonce).map ListElem.key =
      if lowerStr mask ∈ l.map ListElem.key then l.map ListElem.key
      else lowerStr mask :: l.map ListElem.key := by
  cases h : listsCheckDupeMask l mask with
  | some e =>
    have hmem : lowerStr mask ∈ l.map ListElem.key := by
      by_contra hnot
      rw [listsCheckDupeMask_eq_none_iff.mpr hnot] at h
      cases h
    obtain ⟨pre, post, rfl, -, -, hadd⟩ := listsAdd_of_dupe h validUntil reason onlyonce
    rw [if_pos hmem, hadd, List.map_append, List.map_append]
    rfl
  | none =>
    have hcopy : strlcpy mask maskLen = mask :=
      List.take_of_length_le (Nat.le_sub_one_of_lt hfits)
    rw [if_neg (listsCheckDupeMask_eq_none_iff.mp h), listsAdd, h]
    simp only [List.map_cons, ListElem.key, hcopy]

theorem Keyed.add (h : Keyed l) (hfits : FitsEntry mask) (validUntil : Int) (reason : Str)
    (onlyonce : Bool) : Keyed (listsAdd l mask validUntil reason onlyonce) := by
  unfold Keyed
  rw [keys_listsAdd hfits]
  split_ifs with hmem
  · exact h
  · exact List.nodup_cons.mpr ⟨hmem, h⟩

theorem Keyed.sublist (h : Keyed l) (hsub : l'.Sublist l) : Keyed l' :=
  List.Nodup.sublist (hsub.map _) h

/-- Whatever the server does to a list keeps the masks apart. -/
theorem Keyed.edit (h : Keyed l)
    (hok : ∀ mask, ok mask → FitsEntry mask) (hedit : ListEdit ok l l') : Keyed l' := by
  cases hedit with
  | same => exact h
  | add mask validUntil reason onlyonce hmask => exact h.add (hok _ hmask) validUntil reason onlyonce
  | del mask => exact h.sublist List.filter_sublist
  | used e =>
    unfold listsUsed
    split_ifs
    · exact h.sublist List.erase_sublist
    · exact h
  | erased e => exact h.sublist List.erase_sublist

/-- `Lists_Del` takes off the entry with the mask and keeps the others in order. -/
theorem Keyed.listsDel_eq (h : Keyed l) (mask : Str) :
    ((∀ e ∈ l, strcaseEq e.mask mask = false) ∧ listsDel l mask = l) ∨
    ∃ pre e post, l = pre ++ e :: post ∧ strcaseEq e.mask mask = true ∧
      listsDel l mask = pre ++ post := by
  have hkeep (s : List ListElem) (hs : lowerStr mask ∉ s.map ListElem.key) : listsDel s mask = s := by
    refine List.filter_eq_self.mpr fun e he => ?_
    rw [Bool.not_eq_true', Bool.eq_false_iff]
    intro hsame
    exact hs (List.mem_map.mpr ⟨e, he, strcaseEq_iff_key.mp hsame⟩)
  by_cases hmem : lowerStr mask ∈ l.map ListElem.key
  · right
    obtain ⟨e, he, hkey⟩ := List.mem_map.mp hmem
    obtain ⟨pre, post, rfl⟩ := List.append_of_mem he
    have hsame := strcaseEq_iff_key.mpr hkey
    -- The key of the entry occurs nowhere else in the list.
    rw [Keyed, List.map_append, List.map_cons] at h
    have hnot := (List.nodup_middle.mp h).notMem
    rw [hkey, ← List.map_append, List.map_append, List.mem_append, not_or] at hnot
    refine ⟨pre, e, post, rfl, hsame, ?_⟩
    have hsplit : listsDel (pre ++ e :: post) mask = listsDel pre mask ++ listsDel post mask := by
      simp [listsDel, hsame]
    rw [hsplit, hkeep pre hnot.1, hkeep post hnot.2]
  · left
    refine ⟨fun e he => ?_, hkeep l hmem⟩
    rw [Bool.eq_false_iff]
    intro hsame
    exact hmem (List.mem_map.mpr ⟨e, he, strcaseEq_iff_key.mp hsame⟩)

theorem listsCount_eq_length (l : List ListElem) : listsCount l = l.length := by
  induction l with
  | nil => rfl
  | cons e l ih => rw [listsCount, ih, List.length_cons]

/-- `Lists_Count` counts the masks. -/
theorem Keyed.listsCount_eq (h : Keyed l) : listsCount l = (l.map ListElem.key).toFinset.card := by
  rw [List.toFinset_card_of_nodup h, List.length_map, listsCount_eq_length]

end Ngircd
