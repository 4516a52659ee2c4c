import Ngircd.Recipients

/-!
# The targets of a message

`Send_Message` walks a list of targets with a table of those it has seen, and it takes a
target that is no nickname apart at its separators.  The first part of this module says
which targets are handled, the second one which clients are found for a target.
-/

namespace Ngircd

open Lib

/-! ## The list of targets -/

section

variable (client : ClientRef) (deliver : Str → Str → Basic TargetResult)

/-- The table of a list of targets: each with whether an earlier one has the same name. -/
def targetTable : List Str → List Str → List (Str × Bool)
  | _, [] => []
  | seen, t :: rest => (t, seen.any (strcaseEq t)) :: targetTable (seen ++ [t]) rest

/-- Handle the targets of a table one after the other, and deliver to those that are the first
of their name; `more` is the target for which the table has no room. -/
def inTurn (more : Option Str) : Str → List (Str × Bool) → Basic Bool
  | _, [] => return connected
  | command, (target, again) :: rest => do
      let result ← if again then pure (.goOn command) else deliver command target
      match result with
      | .stop b => return b
      | .goOn command =>
        if rest.isEmpty ∧ more.isNone then return connected
        connSetPenalty (← connOf (← deref client).connId) 1
        if rest.isEmpty then
          ircWriteErrClient client (format errToomanytargetsMsg [more.getD []])
        else inTurn more command rest

theorem length_targetTable (seen l : List Str) : (targetTable seen l).length = l.length := by
  induction l generalizing seen with
  | nil => rfl
  | cons t l ih => simp [targetTable, ih]

theorem targetTable_get (seen l : List Str) (j : Nat) :
    (targetTable seen l)[j]? = l[j]?.map fun t => (t, (seen ++ l.take j).any (strcaseEq t)) := by
  induction l generalizing seen j with
  | nil => rfl
  | cons t l ih =>
    cases j with
    | zero => simp [targetTable]
    | succ j => simp [targetTable, ih]

/-- The loop, with the targets seen before. -/
theorem sendToTargets_inTurn (source : ClientRef) (forceType : ClientType) (sendErrors : Bool)
    (message command : Str) (seen targets : List Str) (hseen : seen.length < maxHndlTargets) :
    sendToTargets client source forceType sendErrors message command seen targets =
      inTurn client (sendToTarget client source forceType sendErrors message)
        (targets.drop (maxHndlTargets - seen.length)).head? command
        (targetTable seen (targets.take (maxHndlTargets - seen.length))) := by
  induction targets generalizing seen command with
  | nil => simp [sendToTargets, targetTable, inTurn]
  | cons target rest ih =>
    obtain ⟨room, hroom⟩ : ∃ room, maxHndlTargets - seen.length = room + 1 :=
      ⟨maxHndlTargets - seen.length - 1, by omega⟩
    rw [hroom, List.take_succ_cons, List.drop_succ_cons]
    cases rest with
    | nil =>
      rw [sendToTargets, List.take_nil, List.drop_nil, targetTable, inTurn]
      refine if_congr Iff.rfl rfl (congrArg _ (funext fun result => ?_))
      cases result <;> rfl
    | cons next more =>
      by_cases hfull : seen.length + 1 ≥ maxHndlTargets
      · -- There is no room for the next target.
        obtain rfl : room = 0 := by omega
        rw [sendToTargets, List.take_zero, List.drop_zero, targetTable, inTurn]
        refine if_congr Iff.rfl ?_ (congrArg _ (funext fun result => ?_))
        · simp [targetTable, hfull]
        · cases result <;> simp [targetTable, hfull]
      · obtain ⟨left, rfl⟩ : ∃ left, room = left + 1 := ⟨room - 1, by omega⟩
        have hlength : (seen ++ [target]).length = seen.length + 1 := by simp
        have hnext (command : Str) := ih command (seen ++ [target]) (by omega)
        rw [hlength, show maxHndlTargets - (seen.length + 1) = left + 1 by omega] at hnext
        rw [sendToTargets, targetTable, inTurn]
        refine if_congr Iff.rfl ?_ (congrArg _ (funext fun result => ?_))
        · simp [targetTable, hfull, hnext]
        · cases result <;> simp [targetTable, hfull, hnext]

end

/-- `Send_Message` stores at most 25 targets, handles them in the order given until one of them
ends the command, and delivers only to those that no earlier one is equal to, upper and lower
case being the same. -/
theorem message_targets_bounded (client source : ClientRef) (forceType : ClientType)
    (sendErrors : Bool) (message command targets : Str) :
    ∃ table : List (Str × Bool),
      sendToTargets client source forceType sendErrors message command [] (strtok targets ",") =
        inTurn client (sendToTarget client source forceType sendErrors message)
          ((strtok targets ",").drop 25).head? command table ∧
      table.length ≤ 25 ∧
      ∀ j, table[j]? = ((strtok targets ",").take 25)[j]?.map fun t =>
        (t, ((strtok targets ",").take j).any (strcaseEq t)) := by
  refine ⟨_, sendToTargets_inTurn client source forceType sendErrors message command [] _
    (by decide), ?_, fun j => ?_⟩
  · rw [length_targetTable]
    exact List.length_take_le _ _
  · rw [targetTable_get, List.nil_append]
    change ((strtok targets ",").take 25)[j]?.map _ = _
    simp only [List.getElem?_take]
    split_ifs with hj
    · have hmin : min j 25 = j := Nat.min_eq_left (Nat.le_of_lt hj)
      simp only [List.take_take, List.length_nil, maxHndlTargets, Nat.sub_zero, hmin]
    · rfl

/-! ## The client of a target -/

/-- The documented ways to address a client: its nickname, its nickname with user name and
displayed host, and its user name with its host, its server or both. -/
inductive World.Addresses (w : World) (c : Client) : Str → Prop
  | nickname {target : Str} : '!' ∉ target → strcaseEq target c.id = true → w.Addresses c target
  | full {nick user host : Str} : '!' ∉ nick → '@' ∉ nick → '@' ∉ user →
      strcaseEq nick c.nameOrStar = true → strcaseEq user c.userOrTilde = true →
      strcaseEq host (w.hostnameDisplayed c) = true →
      w.Addresses c (nick ++ '!' :: user ++ '@' :: host)
  | user {user : Str} {host server : Option Str} : '!' ∉ user → '%' ∉ user → '@' ∉ user →
      (∀ h ∈ host, '@' ∉ h) → host.isSome ∨ server.isSome → strcaseEq user c.userOrTilde = true →
      (∀ h ∈ host, strcaseEq h (w.hostnameDisplayed c) = true) →
      (∀ s ∈ server, strcaseEq s (w.serverOf c) = true) →
      w.Addresses c (user ++ host.elim [] ('%' :: ·) ++ server.elim [] ('@' :: ·))

/-- A target that has one of the documented forms and is not only a name. -/
def properTarget (target : Str) : Bool :=
  let (rest, server) := cutAt '@' target
  let (rest, host) := cutAt '%' rest
  if rest.contains '!' then server.isSome && host.isNone else host.isSome || server.isSome

theorem cutAt_spec {c : Char} {s a : Str} {o : Option Str} (h : cutAt c s = (a, o)) :
    s = a ++ o.elim [] (c :: ·) ∧ c ∉ a := by
  cases o with
  | some rest => exact cutAt_some h
  | none =>
    by_cases hc : c ∈ s
    · obtain ⟨l, r, rfl, hl⟩ := List.eq_append_cons_of_mem hc
      rw [cutAt_append hl] at h
      cases h
    · rw [cutAt_of_not_mem hc] at h
      obtain ⟨rfl, -⟩ := Prod.mk.inj h
      exact ⟨by simp, hc⟩

section

variable {w : World} {c : Client} {target : Str}

/-- How a target of a line is taken apart. -/
theorem parseMsgTo_spec (hlen : target.length < commandLen) :
    ∃ front host server, target = front ++ host.elim [] ('%' :: ·) ++ server.elim [] ('@' :: ·) ∧
      '@' ∉ front ∧ (∀ h ∈ host, '@' ∉ h) ∧ '%' ∉ front ∧
      properTarget target =
        (if front.contains '!' then server.isSome && host.isNone
          else host.isSome || server.isSome) ∧
      ('!' ∉ front ∧ parseMsgTo target = ⟨none, front, host, server⟩ ∨
        ∃ nick user, front = nick ++ '!' :: user ∧ '!' ∉ nick ∧
          parseMsgTo target = ⟨some nick, user, server, server⟩) := by
  have hcopy : strlcpy target commandLen = target :=
    List.take_of_length_le (Nat.le_sub_one_of_lt hlen)
  rcases hat : cutAt '@' target with ⟨rest, server⟩
  rcases hpercent : cutAt '%' rest with ⟨front, host⟩
  obtain ⟨htarget, hrest⟩ := cutAt_spec hat
  obtain ⟨rfl, hfront⟩ := cutAt_spec hpercent
  refine ⟨front, host, server, htarget, fun h => hrest (by simp [h]), fun h hh => ?_, hfront, ?_, ?_⟩
  · rintro hmem
    obtain rfl : host = some h := hh
    exact hrest (by simp [hmem])
  · simp only [properTarget, hat, hpercent]
  · rcases hexcl : cutAt '!' front with ⟨nick, user⟩
    obtain ⟨hnick, hfree⟩ := cutAt_spec hexcl
    simp only [parseMsgTo, hcopy, hat, hpercent, hexcl]
    cases user with
    | none =>
      obtain rfl : front = nick := by simpa using hnick
      exact .inl ⟨hfree, rfl⟩
    | some user => exact .inr ⟨nick, user, hnick, hfree, rfl⟩

/-- A client that fits a proper target is addressed by it. -/
theorem World.Addresses.of_fits (hlen : target.length < commandLen)
    (hproper : properTarget target = true)
    (hfits : w.fitsMsgTo (parseMsgTo target) c = true) : w.Addresses c target := by
  obtain ⟨front, host, server, rfl, hat, hhost, hpercent, hform, hparse⟩ := parseMsgTo_spec hlen
  rw [hform] at hproper
  unfold World.fitsMsgTo at hfits
  rcases hparse with ⟨hexcl, hparse⟩ | ⟨nick, user, rfl, hnick, hparse⟩
  · rw [hparse] at hfits
    simp only [Bool.and_eq_true] at hfits
    obtain ⟨-, ⟨huser, hhosts⟩, hserver⟩ := hfits
    rw [if_neg (by simpa using hexcl)] at hproper
    exact .user hexcl hpercent hat hhost (by simpa using hproper) huser
      (fun h hh => by simpa [Option.mem_def.mp hh] using hhosts)
      fun s hs => by simpa [Option.mem_def.mp hs] using hserver
  · rw [if_pos (by simp)] at hproper
    obtain ⟨⟨s, rfl⟩, rfl⟩ : (∃ s, server = some s) ∧ host = none := by
      simpa [Option.isSome_iff_exists] using hproper
    rw [hparse] at hfits
    simp only [Bool.and_eq_true] at hfits
    obtain ⟨-, ⟨hname, huser⟩, hshown⟩ := hfits
    simpa using World.Addresses.full hnick (fun h => hat (by simp [h])) (fun h => hat (by simp [h]))
      hname huser hshown

theorem cutAt_elim {a : Str} {k : Char} (h : k ∉ a) (o : Option Str) :
    cutAt k (a ++ o.elim [] (k :: ·)) = (a, o) := by
  cases o with
  | none => simpa using cutAt_of_not_mem h
  | some rest => exact cutAt_append h

/-- A target that fits and addresses the client is proper, or it is the nickname. -/
theorem World.Addresses.proper (h : w.Addresses c target) (hlen : target.length < commandLen)
    (hfits : '!' ∈ target → w.fitsMsgTo (parseMsgTo target) c = true) :
    properTarget target = true ∨ '!' ∉ target ∧ strcaseEq target c.id = true := by
  cases h with
  | nickname hexcl hname => exact .inr ⟨hexcl, hname⟩
  | @user user host server hexcl hpercent hat hhost hsome _ _ _ =>
    have hfront : '@' ∉ user ++ host.elim [] ('%' :: ·) := by
      cases host with
      | none => simpa using hat
      | some h => simpa [hat] using hhost h rfl
    refine .inl ?_
    simp only [properTarget, cutAt_elim hfront, cutAt_elim hpercent]
    rw [if_neg (by simpa using hexcl)]
    simpa using hsome
  | @full nick user host hexcl hnick huser _ hname _ =>
    left
    have hfront : '@' ∉ nick ++ '!' :: user := by simp [hnick, huser]
    rcases hpercent : cutAt '%' (nick ++ '!' :: user) with ⟨front, o⟩
    obtain ⟨hsplit, -⟩ := cutAt_spec hpercent
    have hat : cutAt '@' (nick ++ '!' :: user ++ '@' :: host) = (nick ++ '!' :: user, some host) :=
      cutAt_append hfront
    have hcopy : strlcpy (nick ++ '!' :: user ++ '@' :: host) commandLen = _ :=
      List.take_of_length_le (Nat.le_sub_one_of_lt hlen)
    simp only [properTarget, hat, hpercent]
    by_cases hin : '!' ∈ front
    · cases o with
      | none => simp [hin]
      | some x =>
        -- The user name is compared up to the `%`, so it is longer than it should be.
        exfalso
        obtain ⟨a, b, rfl, ha⟩ := List.eq_append_cons_of_mem hin
        have hparts : nick = a ∧ user = b ++ '%' :: x := by
          have hcut : cutAt '!' (a ++ '!' :: (b ++ '%' :: x)) = (a, some (b ++ '%' :: x)) :=
            cutAt_append ha
          rw [show a ++ '!' :: (b ++ '%' :: x) = nick ++ '!' :: user by simpa using hsplit.symm,
            cutAt_append hexcl] at hcut
          simpa using hcut
        have hfit := hfits (by simp)
        simp only [World.fitsMsgTo, parseMsgTo, hcopy, hat, hpercent, cutAt_append ha,
          Bool.and_eq_true] at hfit
        have hlength := length_of_strcaseEq hfit.2.1.2
        rw [length_of_strcaseEq hname, hparts.2] at hlength
        simp at hlength
    · cases o with
      | some x => simp [hin]
      | none =>
        rw [show front = nick ++ '!' :: user by simpa using hsplit.symm] at hin
        exact absurd (by simp) hin

theorem clientSearch_name {nick : Str} {r : ClientRef} (h : w.clientSearch nick = some r)
    (hc : w.heap r = some c) :
    strcaseEq c.id ((strlcpy nick clientIdLen).takeWhile (· != '!')) = true := by
  obtain ⟨⟨s, d⟩, hfind, rfl⟩ := Option.map_eq_some_iff.mp h
  obtain ⟨t, -, ht⟩ := List.mem_filterMap.mp (List.mem_of_find?_eq_some hfind)
  obtain ⟨d', hd', heq⟩ := Option.map_eq_some_iff.mp ht
  cases heq
  obtain rfl : c = d := Option.mem_unique hc hd'
  have hfound := List.find?_some hfind
  simp only [Bool.and_eq_true] at hfound
  exact hfound.2

/-- Who is addressed by user name fits the target. -/
theorem World.Addresses.fits (h : w.Addresses c target) (hexcl : '!' ∉ target)
    (hlen : target.length < commandLen) (htype : c.type = .user) :
    strcaseEq target c.id = true ∨ w.fitsMsgTo (parseMsgTo target) c = true := by
  cases h with
  | nickname _ hname => exact .inl hname
  | full => exact absurd (by simp) hexcl
  | @user user host server huser hpercent hat hhost hsome hname hhosts hserver =>
    have hfront : '@' ∉ user ++ host.elim [] ('%' :: ·) := by
      cases host with
      | none => simpa using hat
      | some h => simpa [hat] using hhost h rfl
    have hcopy : strlcpy (user ++ host.elim [] ('%' :: ·) ++ server.elim [] ('@' :: ·)) commandLen =
        _ := List.take_of_length_le (Nat.le_sub_one_of_lt hlen)
    right
    simp only [World.fitsMsgTo, parseMsgTo, hcopy, cutAt_elim hfront, cutAt_elim hpercent,
      cutAt_of_not_mem huser, htype, hname, decide_true, Bool.true_or, Bool.true_and,
      Bool.and_eq_true, Option.all_eq_true]
    exact ⟨hhosts, hserver⟩

/-- Nobody on the list has a name that is not found. -/
theorem clientSearch_none {nick : Str} {r : ClientRef} (h : w.clientSearch nick = none)
    (hr : r ∈ w.order) (hc : w.heap r = some c) (hne : c.id ≠ []) :
    strcaseEq c.id ((strlcpy nick clientIdLen).takeWhile (· != '!')) = false := by
  have hnot := List.find?_eq_none.mp (Option.map_eq_none_iff.mp h) (r, c)
    (List.mem_filterMap.mpr ⟨r, hr, by rw [hc]; rfl⟩)
  simpa [hne] using hnot

/-- Is the client that this target is for addressed in a documented way?  A target without `!`
is looked up as a nickname first, and `Client_Search` looks at its first 63 bytes only. -/
def World.properlyNamed (w : World) (target : Str) : Bool :=
  match if target.contains '!' then none else w.clientSearch target with
  | some r => target.length < clientIdLen ||
      properTarget target && (w.heap r).any (w.fitsMsgTo (parseMsgTo target))
  | none => properTarget target

section

variable {r : ClientRef} (hids : ∀ r c, w.heap r = some c → c.id.length < clientIdLen)
  (hlen : target.length < commandLen)
include hlen

theorem addresses_iff_of_nickname (hexcl : '!' ∉ target) (hfound : w.clientSearch target = some r)
    (hc : w.heap r = some c) (htype : c.type = .user) :
    w.Addresses c target ↔ target.length < clientIdLen ∨
      properTarget target = true ∧ w.fitsMsgTo (parseMsgTo target) c = true := by
  have hid := clientSearch_name hfound hc
  rw [List.takeWhile_eq_self_iff.mpr fun x hx => by
    simpa using fun h : x = '!' => hexcl (h ▸ List.mem_of_mem_take hx)] at hid
  constructor
  · intro h
    by_cases hshort : target.length < clientIdLen
    · exact .inl hshort
    · -- The name is shorter than the target, so that the target is no nickname.
      have hlength : c.id.length = 63 := by
        rw [← length_of_strcaseEq hid, strlcpy, List.length_take]
        simp only [clientIdLen] at hshort ⊢
        omega
      have hother : strcaseEq target c.id ≠ true := fun h => by
        have hsame := length_of_strcaseEq h
        simp only [clientIdLen] at hshort
        omega
      refine .inr ⟨?_, (h.fits hexcl hlen htype).resolve_left hother⟩
      exact (h.proper hlen fun h => absurd h hexcl).resolve_right fun h => hother h.2
  · rintro (hshort | ⟨hproper, hfits⟩)
    · rw [strlcpy, List.take_of_length_le (Nat.le_sub_one_of_lt hshort), strcaseEq_comm] at hid
      exact .nickname hexcl hid
    · exact .of_fits hlen hproper hfits

include hids in
theorem addresses_iff_of_parts (hne : target ≠ [])
    (hnone : (if target.contains '!' then none else w.clientSearch target) = none)
    (hr : r ∈ w.order) (hc : w.heap r = some c)
    (hfits : w.fitsMsgTo (parseMsgTo target) c = true) :
    w.Addresses c target ↔ properTarget target = true := by
  refine ⟨fun h => (h.proper hlen fun _ => hfits).resolve_right ?_, fun h => .of_fits hlen h hfits⟩
  rintro ⟨hexcl, hname⟩
  -- Somebody of that name would have been found.
  rw [if_neg (by simpa using hexcl)] at hnone
  have hlength := length_of_strcaseEq hname
  have hshort : target.length < clientIdLen := hlength ▸ hids r c hc
  have hid := clientSearch_none hnone hr hc fun h =>
    hne (List.eq_nil_of_length_eq_zero (by rw [← hlength, h]; rfl))
  rw [strlcpy, List.take_of_length_le (Nat.le_sub_one_of_lt hshort),
    List.takeWhile_eq_self_iff.mpr fun x hx => by simpa using fun h : x = '!' => hexcl (h ▸ hx),
    strcaseEq_comm, hname] at hid
  cases hid

end

/-- The lines of a PRIVMSG to one target are its copies, apart from answers and news.  If the
target is for one user, this user is addressed by it in a documented way exactly if the target
is proper, or a nickname that `Client_Search` finds as it is. -/
theorem message_addressee_documented (hw : w.Online)
    (hids : ∀ r c, w.heap r = some c → c.id.length < clientIdLen) {client : ClientRef} {s : Client}
    (hs : w.Author client s) (target text : Str) (hlen : target.length < commandLen)
    (hne : target ≠ []) (hcomma : ',' ∉ target) (htext : text ≠ []) (pfx : Option Str) (n : Nat) :
    ∃ b w' l, execPlain n
        (ircPrivmsg client { pfx, command := "PRIVMSG", argv := [target, text] }) w = .ok (b, w') ∧
      w'.sent = w.sent ++ l ∧ ofKind (fun x => ¬w.Aside client x) l =
        (w.copies client target).map (Copy.line "PRIVMSG" text) ∧
      ∀ r c, w.aim target = .client r → w.heap r = some c → c.type = .user →
        (w.Addresses c target ↔ w.properlyNamed target = true) := by
  have hone : strtok target "," = [target] :=
    strtok_single hne fun x hx => by simpa using fun h : x = ',' => hcomma (h ▸ hx)
  have hcount : (strtok target ",").length ≤ maxHndlTargets := by
    rw [hone]
    exact Nat.le_add_left 1 24
  obtain ⟨b, w', l, hrun, hsent, hlines⟩ :=
    sendMessage_copies hw hs (.inr rfl) htext hcount pfx true n
  rw [hone] at hlines
  refine ⟨b, w', l, hrun, hsent, by simpa [World.heeded, freshTargets] using hlines, ?_⟩
  intro r c haim hc htype
  have hr : w.addressee target = some r := by
    unfold World.aim at haim
    split at haim
    · rename_i cl hcl
      rw [hcl, Aim.client.inj haim]
    · split at haim
      · cases haim
      · split_ifs at haim
  unfold World.addressee at hr
  unfold World.properlyNamed
  rcases Option.or_eq_some_iff.mp hr with hnick | ⟨hnone, hfind⟩
  · rw [hnick]
    split_ifs at hnick with hexcl
    rw [addresses_iff_of_nickname hlen (by simpa using hexcl) hnick hc htype]
    simp [hc]
  · rw [hnone]
    have hfits := List.find?_some hfind
    rw [hc, Option.any_some] at hfits
    exact addresses_iff_of_parts hids hlen hne hnone (List.mem_of_find?_eq_some hfind) hc hfits

theorem message_addressee_documented_bob : ∃ b w' l,
    execPlain 0 (ircPrivmsg 1 { pfx := none, command := "PRIVMSG", argv := ["bob!b@h", "hi"] })
        pair.world = .ok (b, w') ∧ w'.sent = l ∧
      ofKind (fun x => ¬pair.world.Aside 1 x) l = [(2, ":alice!a@h PRIVMSG bob :hi".toList)] ∧
      pair.world.Addresses pair.clients[2] "bob!b@h" := by
  have hids (r : ClientRef) (c : Client) (hc : pair.world.heap r = some c) :
      c.id.length < clientIdLen := by
    have hall : ∀ c ∈ pair.clients, c.id.length < clientIdLen := by decide
    exact hall c (List.mem_of_getElem? hc)
  obtain ⟨b, w', l, hrun, hsent, hlines, haddressed⟩ := message_addressee_documented pair_online hids
    alice_author "bob!b@h" "hi" (by decide) (by decide) (by decide) (by decide) none 0
  refine ⟨b, w', l, hrun, hsent, hlines.trans (by decide +kernel), ?_⟩
  exact (haddressed 2 _ (by decide +kernel) rfl rfl).mpr (by decide +kernel)

/-- The message for `b` is delivered to bob, whose user name this is. -/
theorem message_to_user_name :
    linesOf (execPlain 0 (ircPrivmsg 1 { pfx := none, command := "PRIVMSG", argv := ["b", "hi"] })
      pair.world) = [(2, ":alice!a@h PRIVMSG bob :hi".toList)] ∧
    ¬pair.world.Addresses pair.clients[2] "b" := by
  refine ⟨by decide +kernel, fun h => ?_⟩
  have hproper := h.proper (by decide) (by decide)
  revert hproper
  decide

end

end Ngircd
