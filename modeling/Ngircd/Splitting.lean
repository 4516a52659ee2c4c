import Ngircd.Lib.Cells
import Ngircd.Oper

/-!
# Lists that are split in place

`strtok_r` and KICK take lists apart by overwriting separators with end marks and by moving
pointers from item to item.  Here both run over the cells of their strings.
-/

namespace Ngircd

open Lib

/-! ## strtok_r -/

/-- `strtok_r` with the pointer it starts at, passed in or saved: where the token starts, the
cells afterwards and the pointer to save. -/
def strtokR (delim : Str) (cells : List (Option Char)) (str : Nat) :
    Option (Nat × List (Option Char) × Nat) :=
  let str := str + ((textOf (cells.drop str)).takeWhile delim.contains).length
  let text := textOf (cells.drop str)
  if text.isEmpty then none
  else
    let tmp := str + (text.takeWhile fun c => !delim.contains c).length
    if (cells.getD tmp none).isSome then some (str, cells.set tmp none, tmp + 1)
    else some (str, cells, tmp)

/-- Call `strtok_r` until it returns `NULL`, at most `n` times: where the tokens start, and the
cells in the end. -/
def strtokLoop (delim : Str) :
    Nat → List (Option Char) → Nat → Option (List Nat × List (Option Char))
  | 0, _, _ => none
  | n + 1, cells, str =>
    match strtokR delim cells str with
    | none => some ([], cells)
    | some (token, cells, saved) =>
      (strtokLoop delim n cells saved).map fun r => (token :: r.1, r.2)

section

variable {delim : Str} (front : List (Option Char)) {d t r : Str}

/-- Only delimiters are left. -/
theorem strtokR_none (hd : ∀ c ∈ d, delim.contains c = true) :
    strtokR delim (front ++ cellsOf d) front.length = none := by
  have htext : textOf ((front ++ cellsOf d).drop front.length) = d :=
    textOf_drop front [] (Nat.zero_le _)
  have hspan : d.takeWhile delim.contains = d := by
    have hall := takeWhile_append_of_stop hd (by simp : ∀ c ∈ ([] : Str).head?, _)
    rwa [List.append_nil] at hall
  unfold strtokR
  dsimp only
  rw [htext, hspan, textOf_drop front [] (Nat.le_refl _), List.drop_length]
  rfl

/-- A token `t` behind the delimiters `d`.  What follows it is unread; the delimiter between
them, if there is one, has become an end mark. -/
theorem strtokR_token (hd : ∀ c ∈ d, delim.contains c = true)
    (ht : ∀ c ∈ t, delim.contains c = false) (hne : t ≠ [])
    (hr : ∀ c ∈ r.head?, delim.contains c = true) :
    strtokR delim (front ++ cellsOf (d ++ (t ++ r))) front.length =
      some (front.length + d.length, front ++ (d ++ t).map some ++ none :: (cellsOf r).tail,
        (front ++ (d ++ t).map some).length + min 1 r.length) := by
  have htext : textOf ((front ++ cellsOf (d ++ (t ++ r))).drop front.length) = d ++ (t ++ r) :=
    textOf_drop front [] (Nat.zero_le _)
  have hspan : (d ++ (t ++ r)).takeWhile delim.contains = d := by
    refine takeWhile_append_of_stop hd fun c hc => ht c (List.mem_of_mem_head? ?_)
    rwa [List.head?_append_of_ne_nil t hne] at hc
  have hword : (t ++ r).takeWhile (fun c => !delim.contains c) = t :=
    takeWhile_append_of_stop (by simpa using ht) (by simpa using hr)
  have hcells : front ++ cellsOf (d ++ (t ++ r)) = front ++ (d ++ t).map some ++ cellsOf r := by
    simp [cellsOf]
  have hplace : front.length + d.length + t.length = (front ++ (d ++ t).map some).length := by
    simp [Nat.add_assoc]
  unfold strtokR
  dsimp only
  rw [htext, hspan, textOf_drop front [] (by simp), List.drop_left, if_neg (by simp [hne]), hword,
    hplace, hcells]
  generalize front ++ (d ++ t).map some = before
  cases r with
  | nil => simp [cellsOf]
  | cons c r => simp [cellsOf]

/-- All the calls, on a string behind cells that are read no more. -/
theorem strtokLoop_spec {n : Nat} {s : Str} (hn : s.length < n) :
    ∃ starts cells, strtokLoop delim n (front ++ cellsOf s) front.length =
        some (starts, front ++ cells) ∧
      starts.map (fun i => textOf ((front ++ cells).drop i)) =
        (s.splitOnP delim.contains).filter (!·.isEmpty) := by
  induction n generalizing front s with
  | zero => omega
  | succ n ih =>
    obtain ⟨d, rest, rfl, hd, hrest⟩ := exists_span delim.contains s
    obtain ⟨t, r, rfl, ht, hr⟩ := exists_span (fun c => !delim.contains c) rest
    rw [filter_splitOnP_append hd]
    by_cases hne : t = []
    · -- Then nothing but delimiters is left.
      subst hne
      have hr : r = [] := by
        cases r with
        | nil => rfl
        | cons c r => simp_all
      subst hr
      refine ⟨[], cellsOf d, ?_, rfl⟩
      rw [List.append_nil, List.append_nil, strtokLoop, strtokR_none front hd]
    have hstep := strtokR_token front hd (by simpa using ht) hne (by simpa using hr)
    have ht : ∀ c ∈ t, delim.contains c = false := by simpa using ht
    -- The token still stands there in the end: only cells behind it are changed later on.
    have hword (cells : List (Option Char)) :
        textOf ((front ++ ((d ++ t).map some ++ none :: cells)).drop (front.length + d.length)) =
          t := by
      rw [textOf_drop front cells (by simp), List.drop_left]
    rw [strtokLoop, hstep]
    dsimp only
    cases r with
    | nil =>
      obtain ⟨m, rfl⟩ : ∃ m, n = m + 1 := by
        refine Nat.exists_eq_succ_of_ne_zero ?_
        have := List.length_pos_iff.mpr hne
        simp at hn
        omega
      have hend : strtokLoop delim (m + 1) (front ++ (d ++ t).map some ++ cellsOf [])
          (front ++ (d ++ t).map some).length =
            some ([], front ++ (d ++ t).map some ++ cellsOf []) := by
        rw [strtokLoop, strtokR_none _ (d := []) nofun]
      refine ⟨[front.length + d.length], (d ++ t).map some ++ [none], ?_, ?_⟩
      · rw [← List.append_assoc front]
        exact congrArg (Option.map fun r => ((front.length + d.length) :: r.1, r.2)) hend
      · rw [List.append_nil, List.splitOnP_eq_singleton ht, List.map_singleton, hword]
        simp [hne]
    | cons c r =>
      obtain ⟨starts, cells, hloop, htexts⟩ := ih (front ++ (d ++ t).map some ++ [none]) (s := r)
        (by simp at hn; omega)
      rw [List.append_assoc, List.singleton_append, List.append_assoc _ [none]] at hloop
      rw [List.append_assoc _ [none], List.append_assoc front] at htexts
      refine ⟨(front.length + d.length) :: starts, (d ++ t).map some ++ none :: cells, ?_, ?_⟩
      · rw [← List.append_assoc front]
        have hsaved : (front ++ (d ++ t).map some ++ [none]).length =
          (front ++ (d ++ t).map some).length + 1 := List.length_append
        rw [hsaved] at hloop
        exact congrArg (Option.map fun r => ((front.length + d.length) :: r.1, r.2)) hloop
      · rw [List.splitOnP_append_cons _ _ (by simpa using hr), List.splitOnP_eq_singleton ht,
          List.map_cons, hword, List.filter_append, ← htexts]
        simp [hne]

end

/-- The calls of `strtok_r` come to an end, and the strings it has returned are the maximal
runs of characters outside the delimiters, in order. -/
theorem strtokLoop_runs (delim s : Str) : ∃ starts cells,
    strtokLoop delim (s.length + 1) (cellsOf s) 0 = some (starts, cells) ∧
      starts.map (fun i => textOf (cells.drop i)) =
        (s.splitOnP delim.contains).filter (!·.isEmpty) :=
  strtokLoop_spec [] (Nat.lt_succ_self _)

/-! ## KICK -/

/-- Overwrite the commas of a list with end marks, and count its items. -/
def markItems : List (Option Char) → List (Option Char) × Nat
  | some c :: cells =>
    let rest := markItems cells
    if c = ',' then (none :: rest.1, rest.2 + 1) else (some c :: rest.1, rest.2)
  | cells => (cells, 1)

/-- Move a cursor behind the next end mark, if there is one. -/
def skipItem : List (Option Char) → Option (List (Option Char))
  | [] => none
  | none :: cells => some cells
  | some _ :: cells => skipItem cells

/-- The loops of `IRC_KICK` with their cursors; the one in the channel list moves if the lists
are `paired`.  `outside` is what happens where a cursor has left its parameter. -/
def kickLoop (outside : Reply Unit) (kick : Str → Str → Reply Unit) (paired : Bool) :
    Nat → List (Option Char) → List (Option Char) → Reply Unit
  | 0, _, _ => return
  | nickCount + 1, currentNick, currentChannel =>
    match skipItem currentNick, skipItem currentChannel with
    | some nextNick, some nextChannel => do
        kick (textOf currentNick) (textOf currentChannel)
        kickLoop outside kick paired nickCount nextNick
          (if paired then nextChannel else currentChannel)
    | _, _ => outside

/-- `IRC_KICK` behind its prefix, on the cells of its parameters. -/
def kickLists (outside : Reply Unit) (client source : ClientRef) (req : Request) : Reply Unit := do
  let kick (nick channel : Str) : Reply Unit := tryKick client source nick channel req.argv[2]?
  let (channels, channelCount) := markItems (cellsOf (req.arg 0))
  let (nicks, nickCount) := markItems (cellsOf (req.arg 1))
  if channelCount = 1 then kickLoop outside kick false nickCount nicks channels
  else if channelCount = nickCount then kickLoop outside kick true nickCount nicks channels
  else replyErr client (format errNeedmoreparamsMsg [← clientID client, req.command])

theorem markItems_cellsOf (s : Str) :
    markItems (cellsOf s) = ((splitOn ',' [] s).flatMap cellsOf, (splitOn ',' [] s).length) := by
  have hitems (cur : Str) : (splitOn ',' cur s).flatMap cellsOf =
      cur.reverse.map some ++ (markItems (cellsOf s)).1 ∧
        (splitOn ',' cur s).length = (markItems (cellsOf s)).2 := by
    induction s generalizing cur with
    | nil => simp [splitOn, markItems, cellsOf]
    | cons c s ih =>
      by_cases hc : c = ','
      · have hrest := ih []
        simp_all [splitOn, markItems, cellsOf]
      · have hrest := ih (c :: cur)
        simp_all [splitOn, markItems, cellsOf]
  exact Prod.ext (hitems []).1.symm (hitems []).2.symm

theorem skipItem_append (s : Str) (cells : List (Option Char)) :
    skipItem (s.map some ++ none :: cells) = some cells := by
  induction s with
  | nil => rfl
  | cons c s ih => exact ih

section

variable {outside : Reply Unit} {kick : Str → Str → Reply Unit}

theorem kickLoop_single (nicks : List Str) (channel : Str) :
    kickLoop outside kick false nicks.length (nicks.flatMap cellsOf) (cellsOf channel) =
      Prog.forEach (fun nick => kick nick channel) nicks := by
  have hchannel : skipItem (cellsOf channel) = some [] := skipItem_append channel []
  have htext : textOf (cellsOf channel) = channel := textOf_append channel []
  induction nicks with
  | nil => rfl
  | cons nick nicks ih =>
    simp [kickLoop, skipItem_append, textOf_append, hchannel, htext, ih, Prog.forEach]

theorem kickLoop_paired {nicks channels : List Str} (h : channels.length = nicks.length) :
    kickLoop outside kick true nicks.length (nicks.flatMap cellsOf) (channels.flatMap cellsOf) =
      Prog.forEach (fun p : Str × Str => kick p.1 p.2) (nicks.zip channels) := by
  induction nicks generalizing channels with
  | nil => rfl
  | cons nick nicks ih =>
    cases channels with
    | nil => exact nomatch h
    | cons channel channels =>
      have hrest := ih (Nat.succ.inj h)
      simp [kickLoop, skipItem_append, textOf_append, hrest, Prog.forEach]

end

/-- A reply that fails ends the whole. -/
theorem Reply.toBasic_forEach {α : Type} (f : α → Reply Unit) (l : List α) :
    Reply.toBasic (Prog.forEach f l) = Prog.whileTrue (fun a => (f a).toBasic) l := by
  have hbind (p q : Reply Unit) : Reply.toBasic (p >>= fun _ => q) =
      p.toBasic >>= fun ok => if ok then q.toBasic else .done false := by
    induction p with
    | done a => rfl
    | call op next ih =>
      cases op with
      | base b => exact congrArg (Prog.call b) (funext ih)
      | send i text =>
        simp only [Prog.call_bind, Reply.toBasic, bind_assoc]
        congr 1
        funext ok
        cases ok with
        | true => exact ih ()
        | false => rfl
  induction l with
  | nil => rfl
  | cons a l ih => rw [Prog.forEach, hbind, ih, Prog.whileTrue]

/-- KICK attempts the kicks of its lists in order: every nickname on the only channel, or the
nicknames on the channels at the same places; no kick if the lists have different lengths.
The cursors do not leave their parameters. -/
theorem kickLists_attempts (outside : Reply Unit) (client source : ClientRef) (req : Request) :
    let channels := splitOn ',' [] (req.arg 0)
    let nicks := splitOn ',' [] (req.arg 1)
    let attempt (nick channel : Str) := (tryKick client source nick channel req.argv[2]?).toBasic
    (kickLists outside client source req).toBasic =
      if channels.length = 1 then Prog.whileTrue (fun nick => attempt nick (channels.headD [])) nicks
      else if channels.length = nicks.length then
        Prog.whileTrue (fun p : Str × Str => attempt p.1 p.2) (nicks.zip channels)
      else Reply.toBasic (do
        replyErr client (format errNeedmoreparamsMsg [← clientID client, req.command])) := by
  intro channels nicks attempt
  unfold kickLists
  simp only [markItems_cellsOf]
  split_ifs with hone hsame
  · obtain ⟨channel, hchannel⟩ := List.length_eq_one_iff.mp hone
    have hhead : channels.headD [] = channel := congrArg (·.headD []) hchannel
    rw [hchannel, List.flatMap_singleton, kickLoop_single, hhead]
    exact Reply.toBasic_forEach _ _
  · rw [kickLoop_paired hsame]
    exact Reply.toBasic_forEach _ _
  · rfl

/-- `IRC_KICK` is what its cursors do. -/
theorem ircKick_eq (outside : Reply Unit) (client : ClientRef) (req : Request) :
    ircKick client req = replySender req client fun source => kickLists outside client source req := by
  unfold ircKick kickLists
  simp only [markItems_cellsOf]
  congr 1
  funext source
  split
  · rename_i channel hchannel
    rw [hchannel, List.flatMap_singleton, kickLoop_single]
    rfl
  · rename_i hmany
    have hone : (splitOn ',' [] (req.arg 0)).length ≠ 1 := by
      intro hone
      obtain ⟨channel, hchannel⟩ := List.length_eq_one_iff.mp hone
      exact hmany channel hchannel
    rw [if_neg hone]
    split_ifs with hsame
    · rw [kickLoop_paired hsame]
    · rfl

end Ngircd
