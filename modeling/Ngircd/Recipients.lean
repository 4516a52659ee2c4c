import Ngircd.Addressing

/-!
# Who gets a message

PRIVMSG and NOTICE share `Send_Message`.  A target of such a command is a client, a
channel or a mask, or it is nobody; the lines that pass the message on to it are determined
by the state before the command.  The two commands only part at a target that is nobody:
PRIVMSG answers with an error and goes on, NOTICE leaves the others out.
-/

namespace Ngircd

open Lib Prog

variable {P : ConnId × Str → Prop} {V : Set ChanRef} {L : List (ConnId × Str)} {w w' : World}
  {source client : ClientRef} {ch : ChanRef} {target command message name t text : Str}
  {s c : Client} {seen targets : List Str} {sendErrors : Bool}

/-! ## Targets -/

/-- What a target of a message is. -/
inductive Aim where
  | client (cl : ClientRef)
  | channel (ch : ChanRef)
  | mask
  | nobody
  deriving DecidableEq, Repr

/-- What a target is in this state. -/
def World.aim (w : World) (target : Str) : Aim :=
  match w.addressee target with
  | some cl => .client cl
  | none =>
    match w.channelSearch target with
    | some ch => .channel ch
    | none =>
      if (target.head? = some '$' ∨ target.head? = some '#') ∧ target.contains '.' then .mask
      else .nobody

/-- The copies of a message of `source` to this target. -/
def World.copies (w : World) (source : ClientRef) (target : Str) : List Copy :=
  match w.aim target with
  | .client cl => w.clientCopies source cl
  | .channel ch => w.channelCopies source ch
  | .mask => w.maskCopies source target
  | .nobody => []

section Transfer

theorem Kept.heap_none (h : Kept w w') {r : ClientRef} (hr : w.heap r = none) :
    w'.heap r = none := by
  simpa [hr] using h.cell r

theorem Kept.clientCopies (h : Kept w w') (source cl : ClientRef) :
    w'.clientCopies source cl = w.clientCopies source cl := by
  unfold World.clientCopies
  cases hs : w.heap source with
  | none => rw [h.heap_none hs]
  | some s =>
    obtain ⟨shost, hs'⟩ := h.heap_some hs
    cases hc : w.heap cl with
    | none => rw [hs', h.heap_none hc]
    | some c =>
      obtain ⟨chost, hc'⟩ := h.heap_some hc
      have haccepts : w'.accepts source { s with cloaked := shost } cl { c with cloaked := chost } =
          w.accepts source s cl c := by
        simp only [World.accepts, World.channelsOf, World.channelIsMemberOf, World.getCl2Chan,
          h.members]
        rfl
      simp only [hs', hc', haccepts, h.toPlacid.route, h.nameFor hs hs']
      rfl

theorem Kept.maskCopies (h : Kept w w') (source : ClientRef) (target : Str) :
    w'.maskCopies source target = w.maskCopies source target := by
  unfold World.maskCopies
  cases hs : w.heap source with
  | none => rw [h.heap_none hs]
  | some s =>
    obtain ⟨shost, hs'⟩ := h.heap_some hs
    have hcopy (r : ClientRef) :
        w'.maskCopy { s with cloaked := shost } target r = w.maskCopy s target r := by
      unfold World.maskCopy
      cases hc : w.heap r with
      | none =>
        rw [h.heap_none hc]
        rfl
      | some c =>
        obtain ⟨chost, hc'⟩ := h.heap_some hc
        simp only [hc', World.fitsMask, h.serverOf, h.toPlacid.route, h.nameFor hs hs']
        rfl
    simp only [hs', funext hcopy, h.order]
    rfl

variable (h : Chats P V L w w')
include h

/-- The lists of a channel that has not been written to are as they were. -/
theorem Chats.channelCopies (source : ClientRef) (hch : ch ∉ V) :
    w'.channelCopies source ch = w.channelCopies source ch := by
  unfold World.channelCopies
  rw [h.lists ch hch]
  cases hs : w.heap source with
  | none => rw [h.toKept.heap_none hs]
  | some s =>
    obtain ⟨shost, hs', hnames⟩ := h.toKept.names hs
    rw [hs']
    cases w.chans.heap ch with
    | none => rfl
    | some chan =>
      have hmay : w'.maySend source { s with cloaked := shost } ch chan =
          w.maySend source s ch chan := by
        have hmask : w'.maskCloaked { s with cloaked := shost } = w.maskCloaked s :=
          congrFun hnames .toUser
        simp only [World.maySend, World.getCl2Chan, World.onList, h.members, hmask]
        rfl
      simp only [hmay, h.toKept.markedFor, hnames]

theorem Chats.channelSearch (name : Str) :
    w'.channelSearch name = w.channelSearch name := by
  unfold World.channelSearch
  rw [h.channels]
  congr 1
  funext ch
  have hmap := h.channel ch
  cases hch : w.chans.heap ch with
  | none =>
    rw [hch, Option.map_none, Option.map_eq_none_iff] at hmap
    rw [hmap]
  | some c =>
    rw [hch, Option.map_some, Option.map_eq_some_iff] at hmap
    obtain ⟨c', hc', hsame⟩ := hmap
    rw [hc']
    have hname : c'.unlisted.name = c.unlisted.name := by rw [hsame]
    change c'.name = c.name at hname
    simp only [hname]

theorem Chats.aim (target : Str) : w'.aim target = w.aim target := by
  unfold World.aim
  rw [h.toKept.addressee, h.channelSearch]

/-- The copies for a target do not depend on messages to other channels. -/
theorem Chats.copies (source : ClientRef)
    (hV : ∀ ch, w.channelSearch target = some ch → ch ∉ V) :
    w'.copies source target = w.copies source target := by
  unfold World.copies
  rw [h.aim]
  cases haim : w.aim target with
  | client cl => exact h.toKept.clientCopies source cl
  | channel ch =>
    refine h.channelCopies source (hV ch ?_)
    unfold World.aim at haim
    split at haim
    · exact nomatch haim
    · split at haim
      · rename_i hfound
        rw [hfound]
        exact congrArg some (Aim.channel.inj haim)
      · split_ifs at haim
  | mask => exact h.toKept.maskCopies source target
  | nobody => rfl

end Transfer

section Targets

theorem World.channelSearch_some (h : w.channelSearch name = some ch) :
    ∃ c, w.chans.heap ch = some c ∧ strcaseEq name c.name = true := by
  have hfound := List.find?_some h
  cases hch : w.chans.heap ch with
  | none => simp [hch] at hfound
  | some c => exact ⟨c, rfl, by simpa [hch] using hfound⟩

theorem sendToTarget_chats (hw : w.Online) (hP : w.Apart client P) (hs : w.Author client s)
    (hphrases : Phrases (w.nameOn s) command message P) (sendErrors : Bool) (target : Str) :
    (sendToTarget client client .user sendErrors message command target).wp calmWp (fun a w' =>
      a = (if w.aim target = .nobody ∧ sendErrors = false then .stop connected else .goOn command) ∧
      Chats P { ch | w.channelSearch target = some ch }
        ((w.copies client target).map (Copy.line command message)) w w') w := by
  unfold sendToTarget
  rw [wp_bind, liftM_msg_basic, wp_ofLeave, wp_ofMsg]
  refine wp_mono ?_ (findTarget_utters hw hP target)
  rintro _ w₁ ⟨rfl, hfound⟩
  have hw₁ := hfound.kept.online hw
  have hP₁ := hfound.kept.apart hw hP
  obtain ⟨host, hs₁, hnames⟩ := hfound.kept.author hs
  have hphrases₁ : Phrases (w₁.nameOn { s with cloaked := host }) command message P := by
    rw [hnames]
    exact hphrases
  have hsearch : w₁.channelSearch target = w.channelSearch target := by
    unfold World.channelSearch
    rw [hfound.chans]
  cases hclient : w.addressee target with
  | some cl =>
    have haim : w.aim target = .client cl := by simp [World.aim, hclient]
    have hlisted : cl ∈ w₁.order := by
      rw [hfound.order]
      exact World.addressee_mem hclient
    simp only [liftM_msg_basic, wp_ofLeave, wp_ofMsg, haim, reduceCtorEq, false_and, if_false,
      World.copies]
    refine wp_mono ?_ (sendToClient_utters hw₁ hP₁ hs₁ hphrases₁ hlisted sendErrors target)
    rintro a w₂ ⟨ha, hsaid⟩
    rw [hfound.kept.clientCopies] at hsaid
    exact ⟨ha, (hfound.after hsaid).chats _⟩
  | none =>
    simp only [wp_msg, wp_getWorld, reduceCtorEq, if_false, hsearch]
    cases hchan : w.channelSearch target with
    | some ch =>
      have haim : w.aim target = .channel ch := by simp [World.aim, hclient, hchan]
      obtain ⟨chan, hch, -⟩ := World.channelSearch_some (hsearch.trans hchan)
      simp only [haim, reduceCtorEq, false_and, if_false, World.copies, wp_bind]
      refine wp_mono ?_ (channelWrite_chats hw₁ hP₁ hs₁ hphrases₁ hch sendErrors)
      rintro _ w₂ ⟨rfl, hchats⟩
      rw [(hfound.chats ∅).channelCopies client (Set.notMem_empty ch)] at hchats
      have hone : { d | some ch = some d } = {ch} := by
        ext d
        simp [eq_comm]
      rw [hone]
      exact ⟨rfl, (hfound.chats {ch}).after hchats⟩
    | none =>
      have hnone (V : Set ChanRef) {L : List (ConnId × Str)} {w₂ : World} (hsaid : Says P L w₁ w₂) :
          Chats P V L w w₂ := (hfound.after hsaid).chats V
      by_cases hmask : (target.head? = some '$' ∨ target.head? = some '#') ∧
        target.contains '.' = true
      · have haim : w.aim target = .mask := by simp only [World.aim, hclient, hchan, if_pos hmask]
        rw [if_pos ⟨by decide, hmask⟩]
        simp only [haim, reduceCtorEq, false_and, if_false, World.copies, wp_msg]
        refine wp_mono ?_ (sendMessageMask_utters hw₁ hP₁ hs₁ hphrases₁ sendErrors target)
        rintro _ w₂ ⟨rfl, hsaid⟩
        rw [hfound.kept.maskCopies] at hsaid
        exact ⟨rfl, hnone _ hsaid⟩
      · have haim : w.aim target = .nobody := by simp only [World.aim, hclient, hchan, if_neg hmask]
        rw [if_neg (fun h => hmask h.2)]
        cases sendErrors with
        | false =>
          simp only [haim, World.copies]
          exact ⟨rfl, hnone _ (.nothing P w₁)⟩
        | true =>
          simp only [haim, World.copies, Bool.not_true, Bool.false_eq_true, if_false,
            wp_msg, wp_clientID, onClient_of_some hs₁.cell, reduceCtorEq, and_false]
          refine wp_mono ?_ (ircWriteErrClient_silent hw₁ hP₁ hs₁ (.inr rfl))
          rintro _ w₂ ⟨rfl, hsaid⟩
          exact ⟨rfl, hnone _ hsaid⟩

end Targets

/-- The targets of a list that are not spelled like an earlier one. -/
def freshTargets : List Str → List Str → List Str
  | _, [] => []
  | seen, target :: rest =>
    if seen.any (strcaseEq target) then freshTargets (seen ++ [target]) rest
    else target :: freshTargets (seen ++ [target]) rest

/-- The targets the loop comes to: without error messages, those before the first that
is nobody. -/
def World.heeded (w : World) (sendErrors : Bool) (targets : List Str) : List Str :=
  if sendErrors then targets else targets.takeWhile fun t => w.aim t ≠ .nobody

theorem not_seen_of_mem_freshTargets (h : t ∈ freshTargets seen targets) :
    ∀ u ∈ seen, strcaseEq t u = false := by
  induction targets generalizing seen with
  | nil => exact nomatch h
  | cons target rest ih =>
    intro u hu
    rw [freshTargets] at h
    split at h
    · exact ih h u (List.mem_append_left _ hu)
    · rename_i hnew
      rcases List.mem_cons.mp h with rfl | h
      · simp only [List.any_eq_true, not_exists, not_and, Bool.not_eq_true] at hnew
        exact hnew u hu
      · exact ih h u (List.mem_append_left _ hu)

section Loop

theorem Chats.heeded (h : Chats P V L w w') (sendErrors : Bool) (targets : List Str) :
    w'.heeded sendErrors targets = w.heeded sendErrors targets := by
  unfold World.heeded
  simp only [h.aim]

theorem mem_of_mem_heeded
    (h : t ∈ w.heeded sendErrors targets) : t ∈ targets := by
  unfold World.heeded at h
  split at h
  · exact h
  · exact (List.takeWhile_prefix _).subset h

/-- Messages to one target leave the copies for the others as they are. -/
theorem Chats.allCopies (h : Chats P { ch | w.channelSearch target = some ch } L w w')
    (source : ClientRef) (hother : ∀ t ∈ targets, strcaseEq t target = false) :
    targets.flatMap (w'.copies source) = targets.flatMap (w.copies source) := by
  refine List.flatMap_congr fun t ht => h.copies source fun ch hch hch' => ?_
  obtain ⟨c, hc, hname⟩ := World.channelSearch_some hch
  obtain ⟨c', hc', hname'⟩ := World.channelSearch_some hch'
  obtain rfl := Option.mem_unique hc hc'
  rw [strcaseEq_comm] at hname'
  have heq := strcaseEq_trans hname hname'
  rw [hother t ht] at heq
  exact nomatch heq

/-- The loop after a target it goes on from. -/
def nextTargets (client : ClientRef) (sendErrors : Bool) (message command : Str) (seen : List Str) :
    List Str → Basic Bool
  | [] => return connected
  | next :: more => do
      connSetPenalty (← connOf (← deref client).connId) 1
      if seen.length ≥ maxHndlTargets then
        ircWriteErrClient client (format errToomanytargetsMsg [next])
      else
        sendToTargets client client .user sendErrors message command seen (next :: more)

theorem sendToTargets_cons (client : ClientRef) (sendErrors : Bool) (message command target : Str)
    (seen rest : List Str) :
    sendToTargets client client .user sendErrors message command seen (target :: rest) = (do
      let result ←
        if seen.any (strcaseEq target) then pure (.goOn command)
        else sendToTarget client client .user sendErrors message command target
      match result with
      | .stop b => return b
      | .goOn command =>
        nextTargets client sendErrors message command (seen ++ [target]) rest) := by
  rw [sendToTargets]
  have hlength : (seen ++ [target]).length = seen.length + 1 := by simp
  cases rest with
  | nil => rfl
  | cons next more =>
    rw [← hlength]
    rfl

/-- What `sendToTargets` does is all that happens after a target. -/
theorem nextTargets_chats (hw : w.Online) (hs : w.Author client s) {rest : List Str}
    (hlen : seen.length + rest.length ≤ maxHndlTargets) {Q : Bool → World → Prop}
    (hnil : rest = [] → Q connected w)
    (hrest : ∀ w', Says P [] w w' →
      (sendToTargets client client .user sendErrors message command seen rest).wp calmWp Q w') :
    (nextTargets client sendErrors message command seen rest).wp calmWp Q w := by
  cases rest with
  | nil => exact hnil rfl
  | cons next more =>
    obtain ⟨i, hi, -⟩ := hs.conn
    have hroom : ¬seen.length ≥ maxHndlTargets := by
      simp only [List.length_cons] at hlen
      omega
    simp only [nextTargets, connSetPenalty, wp_msg, wp_deref, onClient_of_some hs.cell, hi,
      wp_connOf_some, wp_getWorld, hroom, if_false]
    exact wp_mono (fun _ w' hsaid => hrest w' hsaid) (editConn_utters P hw i _)

theorem sendToTargets_chats (hw : w.Online) (hP : w.Apart client P) (hs : w.Author client s)
    (hphrases : Phrases (w.nameOn s) command message P) (sendErrors : Bool)
    (seen targets : List Str)
    (hlen : seen.length + targets.length ≤ maxHndlTargets) :
    (sendToTargets client client .user sendErrors message command seen targets).wp
      calmWp (fun _ w' =>
      ∃ V, Chats P V (((w.heeded sendErrors (freshTargets seen targets)).flatMap
        (w.copies client)).map (Copy.line command message)) w w') w := by
  have hnil (w : World) (seen : List Str) :
      (w.heeded sendErrors (freshTargets seen [])).flatMap (w.copies client) = [] := by
    cases sendErrors <;> simp [World.heeded, freshTargets]
  induction targets generalizing seen w s with
  | nil =>
    rw [sendToTargets, wp_pure, hnil]
    exact ⟨∅, (Says.nothing P w).chats ∅⟩
  | cons target rest ih =>
    have hlen' : (seen ++ [target]).length + rest.length ≤ maxHndlTargets := by
      simp only [List.length_append, List.length_cons, List.length_nil] at hlen ⊢
      omega
    -- The loop goes on with the rest after it has sent to this target, or passed it over.
    have hgo {cs : List Copy} {w₁ : World}
        (hchats : Chats P { ch | w.channelSearch target = some ch }
          (cs.map (Copy.line command message)) w w₁) :
        (nextTargets client sendErrors message command (seen ++ [target]) rest).wp
          calmWp (fun _ w' =>
          ∃ V, Chats P V ((cs ++
            (w.heeded sendErrors (freshTargets (seen ++ [target]) rest)).flatMap
            (w.copies client)).map (Copy.line command message)) w w') w₁ := by
      obtain ⟨host, hs₁, -⟩ := hchats.author hs
      refine nextTargets_chats (P := P) (hchats.online hw) hs₁ hlen' (fun h => ?_)
        fun w₂ hsaid => ?_
      · rw [h, hnil, List.append_nil]
        exact ⟨_, hchats⟩
      · have hchats₂ := hchats.trans (hsaid.chats ∅)
        rw [List.append_nil, Set.union_empty] at hchats₂
        obtain ⟨host₂, hs₂, hnames₂⟩ := hchats₂.author hs
        rw [← hnames₂] at hphrases
        refine wp_mono ?_ (ih (hchats₂.online hw) (hchats₂.apart hw hP) hs₂ hphrases
          (seen ++ [target]) hlen')
        rintro ok w₃ ⟨V, hrest⟩
        rw [hchats₂.heeded, hchats₂.allCopies client fun t ht =>
          not_seen_of_mem_freshTargets (mem_of_mem_heeded ht) target (by simp)] at hrest
        rw [List.map_append]
        exact ⟨_, hchats₂.trans hrest⟩
    rw [sendToTargets_cons]
    dsimp only
    by_cases hseen : seen.any (strcaseEq target) = true
    · have hfresh : freshTargets seen (target :: rest) = freshTargets (seen ++ [target]) rest := by
        rw [freshTargets, if_pos hseen]
      rw [if_pos hseen, wp_bind, wp_pure, hfresh]
      exact hgo (show Chats P _ (List.map _ []) w w from (Says.nothing P w).chats _)
    · have hfresh : freshTargets seen (target :: rest) = target ::
        freshTargets (seen ++ [target]) rest := by
        rw [freshTargets, if_neg hseen]
      rw [if_neg hseen, hfresh, wp_bind]
      refine wp_mono ?_ (sendToTarget_chats hw hP hs hphrases sendErrors target)
      rintro _ w₁ ⟨rfl, hchats⟩
      by_cases hstop : w.aim target = .nobody ∧ sendErrors = false
      · -- The command gives up here; nobody has been sent anything.
        have hnobody : (w.heeded sendErrors
            (target :: freshTargets (seen ++ [target]) rest)).flatMap (w.copies client) =
              w.copies client target := by
          simp [World.heeded, World.copies, hstop.1, hstop.2]
        rw [if_pos hstop, hnobody]
        exact ⟨_, hchats⟩
      · have hheeded : w.heeded sendErrors (target :: freshTargets (seen ++ [target]) rest) =
            target :: w.heeded sendErrors (freshTargets (seen ++ [target]) rest) := by
          cases sendErrors with
          | true => rfl
          | false =>
            have haim : w.aim target ≠ .nobody := fun h => hstop ⟨h, rfl⟩
            simp [World.heeded, haim]
        rw [if_neg hstop, hheeded, List.flatMap_cons]
        exact hgo hchats

end Loop

/-! ## The commands -/

section Commands

variable {targets : Str}

/-- Lines that pass on a message are neither answers nor news. -/
theorem World.Author.phrases (hc : w.Author client c) (hw : w.Online)
    (hcommand : command = "NOTICE" ∨ command = "PRIVMSG") (text : Str) :
    Phrases (w.nameOn c) command text fun x => ¬w.Aside client x := by
  rintro i k target ⟨this, hthis, m, t, hline, hkind⟩
  obtain ⟨this', hthis', hnames⟩ := hw.this
  obtain rfl := Option.mem_unique hthis hthis'
  obtain ⟨hblank, hlength⟩ := hnames m
  have hhead : ∃ x, t.head? = some x ∧ x ∈ "34M".toList := by
    rcases hkind with ⟨-, ht | ht⟩ | ⟨-, d, host, rfl⟩
    · exact ⟨_, ht, by decide⟩
    · exact ⟨_, ht, by decide⟩
    · exact ⟨'M', rfl, by decide⟩
  obtain ⟨x, hx, hmem⟩ := hhead
  have hstarts : ∀ x ∈ "34M".toList, x ≠ '[' ∧ x ≠ 'N' ∧ x ≠ 'P' := by decide
  obtain ⟨hcut, hN, hP⟩ := hstarts x hmem
  refine serverText_ne hblank hlength hx (hc.named k) ⟨hcut, ?_⟩ hline
  rcases hcommand with rfl | rfl
  · exact ⟨'N', rfl, hN⟩
  · exact ⟨'P', rfl, hP⟩

/-- Besides answers and news, the lines of a message are the copies for the targets the loop
comes to. -/
theorem sendMessage_copies (hw : w.Online) (hc : w.Author client c)
    (hcommand : command = "NOTICE" ∨ command = "PRIVMSG") (htext : text ≠ [])
    (hcount : (strtok targets ",").length ≤ maxHndlTargets) (pfx : Option Str) (sendErrors : Bool)
    (n : Nat) :
    ∃ b w' l, execPlain n
        (sendMessage client { pfx, command, argv := [targets, text] } .user sendErrors) w =
          .ok (b, w') ∧ w'.sent = w.sent ++ l ∧
      ofKind (fun x => ¬w.Aside client x) l =
        ((w.heeded sendErrors (freshTargets [] (strtok targets ","))).flatMap
          (w.copies client)).map (Copy.line command text) := by
  have hupper : command.map Char.toUpper = command := by rcases hcommand with rfl | rfl <;> decide
  have hcheck : messageCheckSend { pfx, command, argv := [targets, text] } sendErrors = .ok := by
    simp [messageCheckSend, Request.argc, Request.arg, htext]
  have hfrom : w.messageFrom client c.type pfx = some client := by
    rw [hc.type]
    cases pfx <;> rfl
  have hsend := sendToTargets_chats hw (fun _ h => not_not.mpr h) hc (hc.phrases hw hcommand text)
    sendErrors [] (strtok targets ",") (by simpa using hcount)
  suffices hwp : (sendMessage client { pfx, command, argv := [targets, text] } .user sendErrors).wp
      (plainWp .never noFault) (fun _ w' => ∃ l, w'.sent = w.sent ++ l ∧
        ofKind (fun x => ¬w.Aside client x) l =
          ((w.heeded sendErrors (freshTargets [] (strtok targets ","))).flatMap
            (w.copies client)).map (Copy.line command text)) w by
    obtain ⟨b, w', hrun, l, hl⟩ := (execPlain_ends (Closing.never_rightAbout _) hwp).exists_ok
    exact ⟨b, w', l, hrun, hl⟩
  unfold sendMessage
  rw [hcheck]
  simp only [wp_msg, liftM_basic_plain, wp_clientType, onClient_of_some hc.cell, wp_getWorld, hfrom]
  have hargs : ({ pfx, command, argv := [targets, text] } : Request).argc = 2 := rfl
  rw [wp_param_of_lt (by omega), if_neg (by simpa [Request.arg] using htext), wp_bind,
    wp_param_of_lt (by omega), wp_ofBasic, hupper]
  refine wp_mono ?_ hsend
  rintro _ w' ⟨V, hchats⟩
  exact hchats.lines

/-- The targets from the first one on that is nobody. -/
def World.passedOver (w : World) (targets : List Str) : List Str :=
  targets.dropWhile fun t => w.aim t ≠ .nobody

end Commands

/-- The lines of NOTICE and of PRIVMSG are the same copies of the message, in the same order,
apart from answers to the client, and from news of host names if there is one to be cloaked. -/
def World.SameCopies (w : World) (client : ClientRef) (text : Str)
    (notice privmsg : List (ConnId × Str)) : Prop :=
  ∃ copies : List Copy,
    ofKind (fun x => ¬w.Aside client x) notice = copies.map (Copy.line "NOTICE" text) ∧
    ofKind (fun x => ¬w.Aside client x) privmsg = copies.map (Copy.line "PRIVMSG" text)

/-- Two users of one server. -/
def pair : SmallNet where
  clients := [{ type := .server, id := "irc.a", introducer := 0 },
    { type := .user, id := "alice", user := "a", host := "h", connId := some 1, introducer := 0 },
    { type := .user, id := "bob", user := "b", host := "h", connId := some 2, introducer := 0 }]

theorem pair_online : pair.world.Online where
  healthy := SmallNet.Linked.healthy (by decide)
  calm := SmallNet.calm _
  this := ⟨_, rfl, by rintro (_ | _) <;> decide⟩
  routed r hr c hc htype := by
    have hlt : r < 3 := by simpa [pair, SmallNet.world] using hr
    rcases r with _ | _ | _ | r
    · obtain rfl := Option.some.inj hc
      exact absurd htype (by decide)
    · exact ⟨1, by decide, by decide⟩
    · exact ⟨2, by decide, by decide⟩
    · exact absurd hlt (Nat.not_lt.mpr (Nat.le_add_left 3 r))

theorem alice_author : pair.world.Author 1 pair.clients[1] :=
  ⟨rfl, rfl, by decide, ⟨1, rfl, by decide⟩, by rintro (_ | _) <;> decide⟩

/-- Bob is away, and the second write fails. -/
def awayPair : World :=
  { pair.world with
    heap := Function.update pair.world.heap 2
      (some { pair.clients[2] with modes := "a", away := some "out" })
    env := { outcome := fun k => if k = 1 then .sendError else .taken } }

end Ngircd
