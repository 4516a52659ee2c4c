import Ngircd.Answers
import Ngircd.Recipients
import Ngircd.Senders

/-!
# Looking up users

ISON and USERHOST collect the entries of the users they find behind the text of the
numeric, and hand the whole on as a format.  So the names of users are answered as they
are unless they hold something that `vsnprintf` takes for a conversion.  Which conversions
there are besides those that the server itself uses is a matter of the C library, and a
parameter here (`Conf.vsnprintf`).
-/

namespace Ngircd

open Lib Prog

variable {this c : Client} {r client : ClientRef} {head parts : Str}

/-- The requests that look up users by their nicknames. -/
inductive Lookup
  | ison
  | userhost

namespace Lookup

def query : Lookup → ClientRef → Request → Query Unit
  | ison => ircIson
  | userhost => ircUserhost

/-- The step of the loop for one nickname. -/
def visit : Lookup → Str → Str → Msg Str
  | ison => isonEntry
  | userhost => userhostEntry

def numeric : Lookup → Str
  | ison => "303"
  | userhost => "302"

/-- The nicknames that are looked up. -/
def words : Lookup → Request → List Str
  | ison, req => req.argv.flatMap fun a => strtok a " "
  | userhost, req => req.argv.take 5

/-- ISON looks up a nickname without the white space around it. -/
def nick : Lookup → Str → Str
  | ison, word => trimStr word
  | userhost, word => word

/-- What is told about a user. -/
def entry (w : World) (c : Client) : Lookup → Str
  | ison => c.nameOrStar
  | userhost => c.nameOrStar ++ (if c.hasMode 'o' then "*".toList else []) ++ '=' ::
      (if c.hasMode 'a' then '-' else '+') :: (c.userOrTilde ++ '@' :: w.hostnameDisplayed c)

/-- What is told about the user of a nickname, and a blank. -/
def found (k : Lookup) (w : World) (word : Str) : Str :=
  match (w.clientSearch (k.nick word)).bind w.heap with
  | some c => if c.type = .user then entry w c k ++ [' '] else []
  | none => []

/-- The entries of all users found, one after the other. -/
def entries (k : Lookup) (w : World) (req : Request) : Str :=
  trimLastBlank ((k.words req).flatMap (k.found w))

/-- The line of the answer, if the entries stand in it as they are. -/
def answer (k : Lookup) (this c : Client) (entries : Str) : Str :=
  prefixed this.id (k.numeric ++ ' ' :: (c.nameOrStar ++ ' ' :: ':' :: entries))

/-- Nothing but news of cloaked host names has been sent. -/
abbrev Seen (this : Client) (w w' : World) : Prop :=
  Says (fun x => ¬∃ text, x.2 = serverText this.nameOrStar ("METADATA ".toList ++ text)) [] w w'

section

variable {w w' : World} {k : Lookup}

theorem found_kept (h : Kept w w') (word : Str) : k.found w' word = k.found w word := by
  unfold found
  rw [h.clientSearch]
  cases hfound : w.clientSearch (k.nick word) with
  | none => rfl
  | some r =>
    obtain ⟨c, hc⟩ := clientSearch_cell hfound
    obtain ⟨host, hc', hshown, -⟩ := h.client hc
    have hentry : entry w' { c with cloaked := host } k = entry w c k := by
      cases k with
      | ison => rfl
      | userhost =>
        simp only [entry, hshown]
        rfl
    simp only [Option.bind_some, hc, hc', hentry]

theorem seen_of_shown (hw : Healthy w) (hc : w.heap r = some c)
    (hq : Quiet w w') (h : ShownBy this r c w w') : Seen this w w' := by
  have hdiscreet := Discreet.of_shown hw hc hq h
  have hnews (host : Str) : cloakNews c host =
      "METADATA ".toList ++ (c.nameOrStar ++ " cloakhost :".toList ++ host) := by
    simp [cloakNews, format]
  unfold ShownBy at h
  split_ifs at h
  · obtain ⟨l, hsends, hlines⟩ := h
    refine .silent hdiscreet hsends.sent fun x hx => not_not.mpr ?_
    rw [hlines x hx, hnews]
    exact ⟨_, rfl⟩
  · rw [h]
    exact .nothing _ w

section

variable (hw : Healthy w) (hcalm : w.Calm) (hthis : w.heap w.thisServer = some this)
include hw hcalm hthis

theorem visit_seen (rpl word : Str) : (k.visit rpl word).wp quietWp
      (fun a w' => a = strlcat rpl (k.found w word) commandLen ∧ Seen this w w') w := by
  have hsame : Seen this w w := .nothing _ w
  have hnothing : rpl = strlcat rpl [] commandLen := by simp [strlcat]
  unfold found
  cases k with
  | ison =>
    simp only [visit, nick, isonEntry, wp_bind, wp_getWorld]
    cases hfound : w.clientSearch (trimStr word) with
    | none => exact ⟨hnothing, hsame⟩
    | some r =>
      obtain ⟨c, hc⟩ := clientSearch_cell hfound
      simp only [Option.bind_some, hc, wp_bind, wp_clientType, onClient_of_some hc]
      by_cases huser : c.type = .user
      · simp only [huser, ne_eq, not_true, if_false, if_true, wp_bind, wp_clientID,
          onClient_of_some hc, wp_pure, entry, strlcat_strlcat]
        exact ⟨rfl, hsame⟩
      · simp only [huser, ne_eq, not_false_eq_true, if_true, if_false]
        exact ⟨hnothing, hsame⟩
  | userhost =>
    simp only [visit, nick, userhostEntry, wp_bind, wp_getWorld]
    cases hfound : w.clientSearch word with
    | none => exact ⟨hnothing, hsame⟩
    | some r =>
      obtain ⟨c, hc⟩ := clientSearch_cell hfound
      simp only [Option.bind_some, hc, wp_bind, wp_deref, onClient_of_some hc]
      by_cases huser : c.type = .user
      · simp only [huser, ne_eq, not_true, if_false, if_true, wp_bind, wp_clientID,
          onClient_of_some hc]
        refine wp_quiet (clientHostnameDisplayed_shown hw hcalm hc hthis) ?_
        rintro _ w' ⟨rfl, hshown⟩ hq
        refine ⟨?_, seen_of_shown hw hc hq hshown⟩
        simp only [entry]
        split_ifs <;> simp [strlcat_strlcat]
      · simp only [huser, ne_eq, not_false_eq_true, if_true, if_false]
        exact ⟨hnothing, hsame⟩

/-- The loop collects the entries of the users it finds. -/
theorem fold_seen (rpl : Str) (words : List Str) :
    (replyFold (fun rpl word => do return some (← k.visit rpl word)) rpl words).wp tellWp
      (fun a w' => a = strlcat rpl (words.flatMap (k.found w)) commandLen ∧ Seen this w w') w := by
  induction words generalizing rpl w this with
  | nil => exact ⟨by simp [strlcat], .nothing _ w⟩
  | cons word words ih =>
    simp only [replyFold, wp_bind, liftM_msg_query, wp_query_ofMsg]
    refine wp_mono ?_ (visit_seen hw hcalm hthis rpl word)
    rintro _ w₁ ⟨rfl, hseen⟩
    have hkept := hseen.kept
    obtain ⟨host, hthis₁⟩ := hkept.heap_some hthis
    rw [← hkept.thisServer] at hthis₁
    rw [wp_pure]
    refine wp_mono ?_ (ih (hseen.toQuiet.healthy hw) (hkept.calm hcalm) hthis₁ _)
    rintro _ w₂ ⟨rfl, hseen₂⟩
    refine ⟨?_, hseen.quietly hseen₂⟩
    have hsame : k.found w₁ = k.found w := funext fun word => found_kept hkept word
    rw [strlcat_strlcat, List.flatMap_cons, hsame]

end

theorem query_eq (k : Lookup) (client : ClientRef) (req : Request) :
    k.query client req = (do
      let rpl ← replyFold (fun rpl word => do return some (← k.visit rpl word))
        (k.numeric ++ " %s :".toList) (k.words req)
      let conf := (← getWorld).conf
      reply client (formatWith conf.vsnprintf 0 (trimLastBlank rpl) [← clientID client])) := by
  cases k <;> rfl

theorem trimLastBlank_append (hhead : head.getLast? = some ':') (text : Str) :
    trimLastBlank (head ++ text) = head ++ trimLastBlank text := by
  cases text with
  | nil => simp [trimLastBlank, hhead]
  | cons x xs =>
    have hlast : (head ++ x :: xs).getLast? = (x :: xs).getLast? := by
      rw [List.getLast?_append, Option.or_of_isSome (by simp)]
    have hdrop : (head ++ x :: xs).dropLast = head ++ (x :: xs).dropLast := by simp
    unfold trimLastBlank
    rw [hlast, hdrop]
    split_ifs <;> rfl

/-- While host names are looked up, the requester is still reached. -/
theorem answers_of_seen {i : ConnId} (h : w.Answers i client this)
    (hseen : Seen this w w') : ∃ host, w'.Answers i client { this with cloaked := host } := by
  have hq := hseen.toQuiet
  obtain ⟨host, hthis⟩ := hq.heap_some h.cell
  obtain ⟨hop, d, hnext, hd, hi⟩ := h.route
  obtain ⟨host', hd'⟩ := hq.heap_some hd
  exact ⟨host,
    { calm := hq.calm h.calm
      route := ⟨hop, _, by rw [hq.nextHop, hnext], hd', hi⟩
      sock := by rw [(hq.link i).sock]; exact h.sock
      cell := by rw [hq.thisServer, hthis]
      server := h.server }⟩

/-- The line in which a text stands that `vsnprintf` has made of the entries. -/
def line (k : Lookup) (this c : Client) (text : Str) : Str :=
  serverText this.id (k.numeric ++ ' ' :: (c.nameOrStar ++ ' ' :: ':' :: text))

/-- What is sent: the entries as a format without arguments. -/
theorem reply_text (other : Str → Option (Str × Nat))
    (hfits : (k.answer this c (trimLastBlank parts)).length ≤ 510) :
    serverText this.id (formatWith other 0
        (trimLastBlank (strlcat (k.numeric ++ " %s :".toList) parts commandLen)) [c.nameOrStar]) =
      k.line this c (formatWith other 0 (trimLastBlank parts) []) := by
  have hnumeric : k.numeric.length = 3 := by cases k <;> rfl
  have htrim : parts.length ≤ (trimLastBlank parts).length + 1 := by
    unfold trimLastBlank
    split_ifs
    · rw [List.length_dropLast]
      omega
    · omega
  simp only [answer, prefixed, List.length_cons, List.length_append, hnumeric] at hfits
  have hroom : (k.numeric ++ " %s :".toList).length + parts.length < commandLen := by
    simp only [List.length_append, hnumeric, commandLen]
    change 3 + 5 + parts.length < 513
    omega
  have hcolon : (k.numeric ++ " %s :".toList).getLast? = some ':' := by simp
  have hformat (text : Str) :
      formatWith other 0 (k.numeric ++ " %s :".toList ++ text) [c.nameOrStar] =
        k.numeric ++ ' ' :: (c.nameOrStar ++ ' ' :: ':' :: formatWith other 0 text []) := by
    cases k <;> simp [numeric, formatWith, argConversion]
  rw [strlcat_of_room hroom, trimLastBlank_append hcolon, hformat, line]

theorem line_of_fits {text : Str} (hfits : (k.answer this c text).length ≤ 510) :
    k.line this c text = k.answer this c text := by
  have hnumeric : k.numeric.length = 3 := by cases k <;> rfl
  simp only [answer, prefixed, List.length_cons, List.length_append, hnumeric] at hfits
  rw [line, serverText_of_short, answer]
  simp only [List.length_append, List.length_cons, hnumeric]
  omega

/-- A line has no more percent signs than the right answer with the same text, also if it
is cut. -/
theorem count_line_le (k : Lookup) (this c : Client) (text : Str) :
    (k.line this c text).count '%' ≤ (k.answer this c text).count '%' := by
  have hcut (s : Str) : (cutLine s).count '%' ≤ s.count '%' := by
    unfold cutLine
    split_ifs
    · rw [List.count_append]
      exact (List.take_sublist _ s).count_le _
    · exact Nat.le_refl _
  unfold line serverText
  refine (hcut _).trans ?_
  rw [format_prefixed]
  simp only [answer, prefixed, List.count_cons, List.count_append]
  have htake := ((k.numeric ++ ' ' :: (c.nameOrStar ++ ' ' :: ':' :: text)).take_sublist 999).count_le
    '%'
  simp only [List.count_cons, List.count_append] at htake
  omega

theorem count_answer_lt (k : Lookup) (this c : Client) {s t : Str} (h : s.count '%' < t.count '%') :
    (k.answer this c s).count '%' < (k.answer this c t).count '%' := by
  simp only [answer, prefixed, List.count_cons, List.count_append]
  omega

end

end Lookup

/-- If no percent sign of the entries starts a conversion, the answer is the right one,
whatever other conversions there are.  If those print no percent signs, it is the right one
only then. -/
theorem lookup_answers_literally {w : World} {k : Lookup} {i : ConnId} {client : ClientRef}
    {c this : Client} (hw : Healthy w) (h : w.Answers i client this) (hc : w.heap client = some c)
    (req : Request) (hfits : (k.answer this c (k.entries w req)).length ≤ 510) (n : Nat) :
    ∃ w' news line, execMsg n (k.query client req).toMsg w = .ok (connected, w') ∧
      w'.sent = w.sent ++ news ++ [(i, line)] ∧
      (∀ x ∈ news, ∃ text, x.2 = serverText this.id ("METADATA ".toList ++ text)) ∧
      ((∀ rest, ('%' :: rest) <:+ k.entries w req → converts w.conf.vsnprintf rest = false) →
        line = k.answer this c (k.entries w req)) ∧
      ((∀ cs out len, w.conf.vsnprintf cs = some (out, len) → '%' ∉ out) →
        line = k.answer this c (k.entries w req) →
          ∀ rest, ('%' :: rest) <:+ k.entries w req → converts w.conf.vsnprintf rest = false) := by
  let text := formatWith w.conf.vsnprintf 0 (k.entries w req) []
  have hrun : (k.query client req).wp tellWp (fun _ w' => ∃ w₁, Lookup.Seen this w w₁ ∧
      w'.sent = w₁.sent ++ [(i, k.line this c text)]) w := by
    rw [Lookup.query_eq, wp_bind]
    refine wp_mono ?_ (Lookup.fold_seen hw h.calm h.cell _ _)
    rintro _ w₁ ⟨rfl, hseen⟩
    obtain ⟨host, h₁⟩ := Lookup.answers_of_seen h hseen
    obtain ⟨host', hc₁⟩ := hseen.toQuiet.heap_some hc
    simp only [wp_bind, liftM_msg_query, wp_query_ofMsg, wp_getWorld, wp_clientID,
      onClient_of_some hc₁, hseen.toQuiet.conf]
    refine wp_mono ?_ (reply_answers h₁ _)
    rintro _ w₂ ⟨-, htold⟩
    have htext := Lookup.reply_text w.conf.vsnprintf hfits
    exact ⟨w₁, hseen, htold.sends.sent.trans (congrArg (fun line => w₁.sent ++ [(i, line)]) htext)⟩
  obtain ⟨_, w', hexec, rfl, w₁, hseen, hsent⟩ := execMsg_of_wp (wp_toMsg (Q := fun b w' =>
    b = connected ∧ ∃ w₁, Lookup.Seen this w w₁ ∧ w'.sent = w₁.sent ++ [(i, k.line this c text)])
    (wp_mono (fun _ _ hw' => ⟨rfl, hw'⟩) hrun)) n
  obtain ⟨news, hnews, hkind⟩ := hseen.lines_of_nil
  refine ⟨w', news, _, hexec, by rw [hsent, hnews], fun x hx => ?_, fun hliteral => ?_,
    fun hother hline rest hrest => ?_⟩
  · rw [← h.nameOrStar]
    exact not_not.mp (hkind x hx)
  · rw [show text = k.entries w req from formatWith_of_literal hliteral [],
      Lookup.line_of_fits hfits]
  · -- a conversion would have taken a percent sign away
    by_contra hconverts
    have hlost : text.count '%' < (k.entries w req).count '%' :=
      count_formatWith_lt hother hrest (eq_true_of_ne_false hconverts)
    exact Nat.lt_irrefl _ ((k.count_answer_lt this c hlost).trans_le
      (hline ▸ k.count_line_le this c text))

theorem lookup_answers_literally_bob : ∃ w' news line,
    execMsg 0 (ircIson 1 { pfx := none, command := "ISON", argv := ["bob"] }).toMsg pair.world =
      .ok (connected, w') ∧ w'.sent = news ++ [(1, line)] ∧
    line = ":irc.a 303 alice :bob".toList := by
  have hanswers : pair.world.Answers 1 1 pair.clients[0] :=
    ⟨SmallNet.calm _, ⟨1, pair.clients[1], rfl, rfl, rfl⟩, by decide, rfl, by decide⟩
  have hentries : Lookup.ison.entries pair.world
      { pfx := none, command := "ISON", argv := ["bob"] } = "bob".toList := by decide +kernel
  obtain ⟨w', news, line, hrun, hsent, -, hline, -⟩ := lookup_answers_literally (k := .ison)
    pair_online.healthy hanswers rfl { pfx := none, command := "ISON", argv := ["bob"] }
    (by rw [hentries]; decide) 0
  rw [hentries] at hline
  refine ⟨w', news, line, hrun, hsent, hline fun rest hrest => ?_⟩
  have hpercent : '%' ∈ "bob".toList := hrest.subset (List.mem_cons_self ..)
  exact absurd hpercent (by decide)

/-- A user comes from another server with a user name that `printf` takes for a conversion. -/
def percentUser : List Event :=
  peerLink ++ [.line 1 ":irc.b NICK ann 1 %s host 1 + :Ann" [], .accept 2 "127.0.0.1",
    .line 2 "NICK bob" [], .line 2 "USER b 0 * :Bob" []]

theorem userhost_drops_user : ∃ w, Reachable w ∧
    Lookup.userhost.entries w { pfx := none, command := "USERHOST", argv := ["ann"] } =
      "ann=+%s@host".toList ∧
    (linesOf (execMsg 1 (ircUserhost 3
      { pfx := none, command := "USERHOST", argv := ["ann"] }).toMsg w)).getLast? =
        some (2, ":irc.example.net 302 bob :ann=+@host".toList) := by
  refine Reachable.exists_runAll 1 percentUser peerConf {} "localhost" ?_
  decide +kernel

end Ngircd
