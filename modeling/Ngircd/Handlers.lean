import Ngircd.Routine

/-!
# Handlers that close connections and remove clients

Most functions that are more than basic programs only add the closing of a
connection to them.  Others remove clients: SQUIT and QUIT remove the client that
the command names, KILL, GLINE, KLINE and NJOIN remove users.  The lemmas here go
through these functions.
-/

namespace Ngircd

open Lib Prog

variable {client : ClientRef} {req : Request} {w : World} {c : Client}

variable (client : ClientRef) (req : Request)

section

variable {J : World → Prop} {C : World → World → Prop}

/-- The client a handler takes for the sender: the one in the prefix, if there is
one. -/
def World.senderOf (w : World) (client : ClientRef) (req : Request) : Option ClientRef :=
  req.pfx.elim (some client) w.clientSearch

namespace Upkeep

variable (h : Upkeep J C)
include h

/-! ## Plain functions -/

theorem clientReject (client : ClientRef) (reason : Str) (inform : Bool) :
    Upholds J (clientReject client reason inform) C :=
  .bind (h.msg _) fun _ => .bind (h.msg _) fun _ => h.close _ _ _ _

theorem classHandleServerBans (client : ClientRef) :
    Upholds J (classHandleServerBans client) C := by
  refine .bind (.basic (h.serverBan client)) fun ban => ?_
  cases ban with
  | none => exact .pure _
  | some reason => exact .bind (h.clientReject client reason true) fun _ => .pure _

theorem sendMessage (force : ClientType) (errors : Bool) :
    Upholds J (sendMessage client req force errors) C := by
  unfold Ngircd.sendMessage
  cases messageCheckSend req errors with
  | noRecipient => exact .bind (h.msg _) fun _ => h.msg _
  | noText => exact .bind (h.msg _) fun _ => h.msg _
  | needMoreParams => exact h.msg _
  | ok =>
    refine .bind (h.msg _) fun type => .bind (h.msg _) fun w => ?_
    cases w.messageFrom client type req.pfx with
    | none => exact .bind (h.msg _) fun _ => h.msg _
    | some source =>
      refine .bind (.param req 1) fun message => .ite ?_ ?_
      · exact .ite (.pure _) (.bind (h.msg _) fun _ => h.msg _)
      · exact .bind (.param req 0) fun _ => .basic (h.sendToTargets _ _ _ _ _ _ _ _)

theorem noPrivileges : Upholds J (noPrivileges client req) C :=
  h.msg _

theorem confDisableServer (name : Str) : Upholds J (confDisableServer name) C := by
  refine .bind (h.msg _) fun w => ?_
  dsimp only
  cases w.conf.servers.findIdx? fun s => strcaseEq s.name name with
  | none => exact .pure _
  | some k =>
    refine .bind (.basic (h.editServers _)) fun _ => ?_
    cases w.conf.servers[k]?.bind ConfServer.connId with
    | some i => exact .bind (h.close _ _ _ _) fun _ => .pure _
    | none => exact .pure _

theorem ircDisconnect : Upholds J (ircDisconnect client req) C := by
  refine .bind (h.msg _) fun sender => .ite (h.noPrivileges client req) ?_
  refine .bind (h.msg _) fun _ => .bind (h.msg _) fun _ => .bind (h.msg _) fun _ => ?_
  refine .bind (h.msg _) fun _ => .bind (h.msg _) fun _ => .bind (h.msg _) fun _ => ?_
  refine .bind (h.msg _) fun i => .bind (h.confDisableServer _) fun _ => ?_
  exact .ite (.bind (h.msg _) fun _ => h.msg _) (.bind (h.msg _) fun _ => .pure _)

theorem ircError : Upholds J (ircError client req) C := by
  refine .bind (h.msg _) fun c => ?_
  split
  all_goals first
    | exact .bind (h.msg _) fun _ => .pure _
    | skip
  all_goals
    cases c.connId with
    | some i => exact .bind (h.close _ _ _ _) fun _ => .pure _
    | none => exact .pure _

theorem spoofedPrefix (i : ConnId) (type : ClientType) : Upholds J (spoofedPrefix i type) C :=
  .ite (.pure _) (.bind (h.close _ _ _ _) fun _ => .pure _)

theorem validatePrefix (i : ConnId) (req : Request) : Upholds J (validatePrefix i req) C := by
  refine .bind (h.msg _) fun client => .bind (h.msg _) fun c => .bind (h.msg _) fun w => ?_
  cases req.pfx with
  | none => exact .ite (.bind (h.msg _) fun _ => .pure _) (.pure _)
  | some p =>
    cases c.type with
    | user | server | service =>
      dsimp only
      cases w.clientSearch p with
      | none => exact .bind (h.msg _) fun _ => .pure _
      | some origin =>
        refine .bind (h.msg _) fun _ => .ite (.pure _) ?_
        exact .bind (h.spoofedPrefix i _) fun _ => .pure _
    | _ => exact .pure _

theorem dispatchLine (i : ConnId) (line after : Str) : Upholds J (dispatchLine i line after) C := by
  have hcommand (client : ClientRef) (type : ClientType) (cmd : Command) (req : Request) :
      Upholds J (dispatchCommand client type cmd req) C := by
    refine .ite (.bind (h.msg _) fun _ => .bind (h.msg _) fun _ => .pure _) ?_
    have hargs : Upholds J (if req.argc < cmd.minArgc ∨ cmd.maxArgc.any (· < req.argc) then do
        return .answered (← needMoreParams client req)
      else return .command client type cmd req : Plain Dispatch) C :=
      .ite (.bind (h.msg _) fun _ => .pure _) (.pure _)
    exact .ite (.bind (h.msg _) fun _ => hargs) hargs
  have hrequest (req : Request) : Upholds J (dispatchRequest i req) C := by
    refine .bind (h.msg _) fun client => .bind (h.msg _) fun type => .ite (.pure _) ?_
    cases findCommand req.command with
    | none => exact .ite (.pure _) (.bind (h.msg _) fun _ => .bind (h.msg _) fun _ => .pure _)
    | some cmd => exact hcommand client type cmd req
  refine .ite (.pure _) (.bind (h.msg _) fun w => .ite (.pure _) ?_)
  cases splitRequest (trimStr line) (trimmedRest line after) with
  | none => exact .bind (h.msg _) fun _ => .pure _
  | some req =>
    refine .bind (h.validatePrefix i req) fun checked => ?_
    cases checked with
    | error result => exact .pure _
    | ok req => exact hrequest req

theorem ircNumIsupport : Upholds J (ircNumIsupport client req) C := by
  refine .bind (h.msg _) fun w => .ite ?_ (.pure _)
  exact .bind (h.msg _) fun _ => .bind (h.msg _) fun _ => .bind (h.close _ _ _ _) fun _ => .pure _

theorem confSetServer (k : Nat) (i : ConnId) : Upholds J (confSetServer k i) C := by
  refine .bind (h.msg _) fun w => ?_
  cases w.conf.servers[k]?.bind ConfServer.connId with
  | some j => exact .ite (.bind (h.close _ _ _ _) fun _ => .pure _) (.pure _)
  | none => exact .bind (.basic (h.editServers _)) fun _ => .pure _

/-! ## Connections -/

theorem accountConnection : UpholdsBasic J (liftM accountConnection : Basic Unit) C :=
  h.editMisc .same

theorem newConnection (i : ConnId) (client : ClientRef) :
    UpholdsBasic J (newConnection i client) C := by
  refine .bind (h.editMisc .same) fun _ => h.past fun w => ?_
  refine .bind (h.clientSetHostname _ _) fun _ => .bind h.accountConnection fun _ => ?_
  exact h.basicMsg _

theorem newServer (k : Nat) (i : ConnId) (client : ClientRef) :
    Upholds J (newServer k i client) C := by
  refine .bind (.basic (h.edit client ⟨fun _ => rfl, fun _ => rfl, fun _ => rfl⟩)) fun _ => ?_
  refine .bind (.basic h.accountConnection) fun _ => ?_
  exact .bind (h.confSetServer k i) fun _ => .pure _

theorem resolverResult (i : ConnId) (host : Str) : Upholds J (resolverResult i host) C := by
  refine .bind (h.msg _) fun _ => .bind (h.msg _) fun client => .bind (h.msg _) fun type => ?_
  refine .ite ?_ (.pure _)
  have hbans (ok : Bool) : Upholds J (if ok then do
      let _ ← Ngircd.classHandleServerBans client
      else Pure.pure () : Plain Unit) C :=
    .ite (.bind (h.classHandleServerBans client) fun _ => .pure _) (.pure _)
  refine .ite (hbans true) (.bind (h.msg _) fun _ => ?_)
  refine .bind (.basic (h.clientSetHostname _ _)) fun _ => .bind (h.msg _) fun _ => .ite ?_ ?_
  · exact .bind (h.msg _) fun ok => hbans ok
  · exact hbans true

theorem classExpire : UpholdsBasic J classExpire C := by
  have hexpire (cls : LineClass) : UpholdsBasic J (listsExpire cls) C := by
    refine h.past fun w => .forEach (fun e => h.past fun _ => ?_) _
    exact h.editMisc (Upkeep.listsEdit_put cls fun l => .erased l e)
  exact .bind (hexpire .gline) fun _ => hexpire .kline

/-! ## SQUIT and QUIT -/

omit h in
/-- `Op_Check` only reads. -/
theorem opCheck_reads {K : Closing} {client : ClientRef} {req : Request}
    {Q : Option ClientRef → World → Prop} (hQ : ∀ a, Q a w) :
    (opCheck client req).wp (msgWp K anyFault) Q w := by
  unfold opCheck
  simp only [wp_bind, wp_getWorld, wp_clientType, onClient_anyFault]
  intro c _
  split
  · exact hQ _
  · simp only [wp_bind, wp_deref, onClient_anyFault]
    intro d _
    split_ifs <;> exact hQ _

/-- A message that is sent only under a condition, before the rest. -/
theorem wp_opt {α : Type} {cond : Prop} [Decidable cond] {p : Msg Unit} {rest : Plain α}
    {Q : α → World → Prop} (hw : J w)
    (hrest : ∀ w₁, J w₁ → Persists w w₁ → (¬cond → w₁ = w) → rest.wp (upPlain C) Q w₁) :
    (if cond then (do (liftM p : Plain Unit); rest) else rest).wp (upPlain C) Q w := by
  split_ifs with hcond
  · simp only [wp_msg]
    refine h.msgFrame.wp (fun _ => trivial) _ fun _ w₁ hkeep => ?_
    exact hrest w₁ (hkeep.2 hw) hkeep.1 fun hnot => absurd hcond hnot
  · exact hrest w hw (persists_frame.refl w) fun _ => rfl

/-- `IRC_SQUIT` upholds the invariant if the removal of the server does that it may
lead to: the one a server without a connection here is removed by. -/
theorem squit {client source : ClientRef}
    {req : Request} (hw : J w) (hc : w.heap client = some c) (hknown : client < w.nextRef)
    (hsource : c.type ≠ .server → source = client)
    (hremove : ∀ target s t l f, c.type = .server → w.heap source = some s → s.type = .server →
      w.clientSearch (req.arg 0) = some target → w.heap target = some t → t.connId = none →
      (destroyClient target l f false).wp (upPlain C) (fun _ => J) w) :
    (Ngircd.squit client source req).wp (upPlain C) (fun _ => J) w := by
  unfold Ngircd.squit
  simp only [wp_msg, wp_clientType, onClient_of_some hc, wp_clientID, onClient_anyFault]
  intro _ _
  refine h.wp_opt hw fun w₁ hw₁ hcells hsame => ?_
  simp only [wp_msg, wp_getWorld]
  cases htarget : w₁.clientSearch (req.arg 0) with
  | none => exact hw₁
  | some target =>
    dsimp only
    by_cases hthis : c.type ≠ .server ∧ target = w₁.thisServer
    · rw [if_pos hthis]
      exact h.msg _ w₁ hw₁
    rw [if_neg hthis]
    simp only [wp_msg, wp_deref, onClient_anyFault, wp_nextHop, wp_clientID]
    intro t ht
    refine ⟨fun hop hhop => ?_, fun _ _ => trivial⟩
    intro s hs
    cases hcon : t.connId with
    | some i =>
      exact Upholds.bind (h.msg _) (fun _ => .bind (h.msg _) fun _ => .bind (h.msg _) fun _ =>
        .bind (h.close _ _ _ _) fun _ => .pure _) w₁ hw₁
    | none =>
      simp only [wp_msg, wp_clientType, onClient_anyFault]
      intro s' hs'
      obtain rfl : s' = s := Option.mem_unique hs' hs
      by_cases hserver : s'.type ≠ .server
      · rw [if_pos hserver]
        exact Upholds.bind (h.msg _) (fun _ => .bind (h.msg _) fun _ => .pure _) w₁ hw₁
      · -- The source is a server, so the connection is one of a server, and the
        -- state is still the one in which the command came.
        rw [if_neg hserver]
        have htype : c.type = .server := by
          by_contra hne
          obtain rfl := hsource hne
          obtain ⟨d, hd, hsame'⟩ := hcells.cell source s' hknown hs
          rw [hc] at hd
          obtain rfl := Option.some.inj hd
          rw [hsame'.1.type] at hserver
          exact hserver hne
        obtain rfl := hsame (by simp [htype])
        simp only [wp_msg, wp_clientID, onClient_anyFault]
        intro s'' _
        exact wp_mono (fun _ _ hJ => hJ)
          (hremove target s' t _ _ htype hs (not_not.mp hserver) htarget ht hcon)

variable {client : ClientRef} {req : Request} (hw : J w) (hc : w.heap client = some c)
include hw hc

@[inherit_doc squit]
theorem ircSquit (hknown : client < w.nextRef)
    (hremove : ∀ target source s t l f, c.type = .server → w.senderOf client req = some source →
      w.heap source = some s → s.type = .server → w.clientSearch (req.arg 0) = some target →
      w.heap target = some t → t.connId = none →
      (destroyClient target l f false).wp (upPlain C) (fun _ => J) w) :
    (ircSquit client req).wp (upPlain C) (fun _ => J) w := by
  -- A client that is no server, and a server without a prefix, speak for themselves.
  have hself (hpfx : c.type = .server → req.pfx = none) :
      (Ngircd.squit client client req).wp (upPlain C) (fun _ => J) w := by
    refine h.squit hw hc hknown (fun _ => rfl) fun target s t l f htype => ?_
    have hsender : w.senderOf client req = some client := by
      simp [World.senderOf, hpfx htype]
    exact hremove target client s t l f htype hsender
  unfold Ngircd.ircSquit
  simp only [wp_msg, wp_deref, onClient_of_some hc]
  by_cases hallowed : c.type ≠ .server ∧ (!c.hasMode 'o') = true
  · rw [if_pos hallowed]
    exact h.msg _ w hw
  rw [if_neg hallowed]
  split
  · rename_i p htype hpfx
    simp only [wp_msg, wp_getWorld]
    cases hsource : w.clientSearch p with
    | none => trivial
    | some source =>
      have hsender : w.senderOf client req = some source := by
        simp [World.senderOf, hpfx, hsource]
      have hsquit : (Ngircd.squit client source req).wp (upPlain C) (fun _ => J) w := by
        refine h.squit hw hc hknown (fun hne => absurd htype hne) fun target s t l f => ?_
        exact fun hserver => hremove target source s t l f hserver hsender
      simp only [wp_msg, wp_clientType, onClient_anyFault]
      intro s hs
      refine opCheck_reads fun a => ?_
      split_ifs
      · exact h.msg _ w hw
      · exact hsquit
  · rename_i hother
    refine hself fun htype => ?_
    cases hpfx : req.pfx with
    | none => rfl
    | some p => exact absurd hpfx (hother p htype)

/-- `IRC_QUIT` upholds the invariant if the removal of the client in its prefix
does. -/
theorem quitWith
    (hremove : ∀ target l f, c.type = .server → req.pfx.bind w.clientSearch = some target →
      target ≠ client →
      (destroyClient target l f true).wp (upPlain C) (fun _ => J) w) (msg : Option Str) :
    (quitWith client req msg).wp (upPlain C) (fun _ => J) w := by
  unfold Ngircd.quitWith
  simp only [wp_msg, wp_deref, onClient_of_some hc, wp_getWorld]
  by_cases htype : c.type = .server
  · rw [if_pos htype]
    cases hpfx : req.pfx with
    | none => exact h.msg _ w hw
    | some p =>
      dsimp only
      cases htarget : w.clientSearch p with
      | none => exact hw
      | some target =>
        dsimp only
        by_cases hne : target ≠ client
        · rw [if_pos hne, wp_bind]
          have hsearch : req.pfx.bind w.clientSearch = some target := by simp [hpfx, htarget]
          exact wp_mono (fun _ _ hJ => hJ) (hremove target _ _ htype hsearch hne)
        · rw [if_neg hne]
          exact Upholds.bind (h.msg _) (fun i => .bind (h.close _ _ _ _) fun _ => .pure _) w hw
  · rw [if_neg htype]
    exact Upholds.bind (h.msg _) (fun i => .bind (h.close _ _ _ _) fun _ => .pure _) w hw

end Upkeep

/-! ## Removing clients -/

/-- Clients can be removed, except those that are spared; a client that is spared is
this server. -/
structure Removing (J : World → Prop) (spared : ClientRef → Prop) (C : World → World → Prop) :
    Prop extends Upkeep J C where
  destroy : ∀ r l f q, ¬spared r → Upholds J (destroyClient r l f q) C
  spare : ∀ w r c, J w → spared r → w.heap r = some c → c.type = .server ∧ w.thisServer = r

namespace Removing

variable {spared : ClientRef → Prop} (h : Removing J spared C) {client : ClientRef}
include h

/-- A client that is spared is not killed: it is a server. -/
theorem ircKillClient (client : Option ClientRef) (hne : ∀ r, spared r → client ≠ some r)
    (source : Option ClientRef) (nick reason : Str) :
    Upholds J (ircKillClient client source nick reason) C := by
  have hup := h.toUpkeep
  intro w hw
  unfold Ngircd.ircKillClient
  simp only [wp_msg, wp_getWorld]
  cases w.clientSearch nick with
  | none => exact hw
  | some r =>
    simp only [wp_msg, wp_deref, onClient_anyFault]
    intro c hc
    by_cases hsafe : ¬(c.type = .user ∨ c.type = .gotNick ∨ c.type = .service) ∧
        client ≠ some w.thisServer
    · rw [if_pos (by simpa using hsafe)]
      cases client with
      | none => trivial
      | some cl => exact Upholds.bind (hup.msg _) (fun _ => hup.msg _) w hw
    · rw [if_neg (by simpa using hsafe)]
      have hr : ¬spared r := by
        intro hr
        obtain ⟨htype, hthis⟩ := h.spare w r c hw hr hc
        refine hsafe ⟨by simp [htype], ?_⟩
        rw [hthis]
        exact hne r hr
      refine Upholds.bind (hup.msg _) (fun _ => ?_) w hw
      cases client
      case' some cl => refine .bind (hup.msg _) fun c => ?_
      all_goals
        refine .bind (.pure _) fun myConn => .bind (hup.msg _) fun d => ?_
        cases d.connId with
        | some i => exact .bind (hup.close _ _ _ _) fun _ => .bind (hup.msg _) fun _ => .pure _
        | none =>
          exact .bind (h.destroy r _ _ _ hr) fun _ => .bind (hup.msg _) fun _ => .pure _

section

variable (hne : ¬spared client)
include hne

theorem ircKillClient_some (source : Option ClientRef) (nick reason : Str) :
    Upholds J (Ngircd.ircKillClient (some client) source nick reason) C := by
  refine h.ircKillClient (some client) (fun r hr he => hne ?_) source nick reason
  rwa [Option.some.inj he]

theorem killListed (cls : LineClass) (reason : Str) (n : Nat) (next : Option ClientRef) :
    Upholds J (killListed client cls reason n next) C := by
  have hup := h.toUpkeep
  induction n generalizing next with
  | zero =>
    cases next with
    | none => exact .pure _
    | some r => exact hup.msg _
  | succ n ih =>
    cases next with
    | none => exact .pure _
    | some r =>
      refine .bind (hup.msg _) fun next => .bind (hup.msg _) fun c => .ite ?_ (ih next)
      have hput (e : ListElem) := Upkeep.listsEdit_put cls fun l => .used l e
      refine .bind (.basic (hup.classGetMemberReason hput _ _)) fun listed => .ite ?_ (ih next)
      refine .bind (hup.msg _) fun nick => ?_
      exact .bind (h.ircKillClient_some hne none nick reason) fun _ => ih next

theorem ircXline (req : Request) : Upholds J (ircXline client req) C := by
  have hup := h.toUpkeep
  refine .ite (hup.msg _) (.bind (hup.msg _) fun w => .bind (hup.msg _) fun type => .ite ?_ ?_)
  · exact hup.noPrivileges client req
  refine .bind (hup.msg _) fun source => ?_
  cases source with
  | none => exact hup.noPrivileges client req
  | some source =>
    cases LineClass.ofCommand req.command with
    | none => exact .pure _
    | some cls =>
      refine .ite (.bind (.basic (hup.deleteLine _ _ _ _)) fun _ => .pure _)
        (.bind (.basic (hup.addLine _ _ _ _)) fun _ => ?_)
      refine .bind (hup.msg _) fun _ => .bind (hup.msg _) fun w => ?_
      exact .bind (h.killListed hne cls _ _ _) fun _ => .pure _

theorem ircKill (req : Request) : Upholds J (ircKill client req) C := by
  have hup := h.toUpkeep
  have hkill (source : ClientRef) (reason : Str) :=
    h.ircKillClient_some hne (some source) (req.arg 0) reason
  refine .bind (hup.msg _) fun type => .opt ?_ fun hrest =>
    .bind (hup.msg _) fun _ => .ite (hup.noPrivileges client req) hrest
  refine .bind (hup.msg _) fun w => .opt (.bind (hup.msg _) fun _ => hkill _ _) fun hreason => ?_
  exact .bind (hup.msg _) fun _ => .bind (hup.msg _) fun _ => hreason

end

theorem ircNjoin (hjoin : ∀ target, UpholdsBasic J (channelJoin target (req.arg 0)) C) :
    Upholds J (ircNjoin client req) C := by
  have hup := h.toUpkeep
  have hone (nickOut entry : Str) : Upholds J (njoinOne client (req.arg 0) nickOut entry) C := by
    refine .bind (hup.msg _) fun w => ?_
    dsimp only
    split
    · exact .pure _
    · rename_i c _
      refine .bind (.basic (hjoin c)) fun ok => .ite ?_ ?_
      · exact .bind (h.ircKillClient none (fun _ _ => nofun) none _ _) fun _ => .pure _
      · refine .bind (hup.msg _) fun w' => ?_
        split
        · exact hup.msg _
        · rename_i ch _
          have hmode (p : Char × Char) :
              UpholdsBasic J (do let _ ← channelUserModeAdd ch c p.2) C :=
            .bind (hup.channelUserModeAdd _ _ _) fun _ => .pure _
          refine .bind (.basic (.forEach hmode _)) fun _ => .bind (hup.msg _) fun _ => ?_
          refine .bind (hup.msg _) fun d => ?_
          refine .opt ?_ fun hmodes => .bind (hup.msg _) fun _ => hmodes
          refine .bind (hup.msg _) fun modes => .ite ?_ (.pure _)
          exact .bind (hup.msg _) fun _ => .bind (hup.msg _) fun _ => .pure _
  have hall (entries : List Str) (nickOut : Str) :
      Upholds J (entries.foldlM (njoinOne client (req.arg 0)) nickOut) C := by
    induction entries generalizing nickOut with
    | nil => exact .pure _
    | cons entry entries ih => exact .bind (hone nickOut entry) fun out => ih out
  refine .bind (hall _ _) fun nickOut => .ite ?_ (.pure _)
  exact .bind (hup.msg _) fun _ => .bind (hup.msg _) fun _ => .pure _

end Removing

end

end Ngircd
