import Ngircd.LocalServer

/-!
# Conditions on lines

Where the daemon keeps an invariant only as long as nobody sends certain lines, the
condition on a line is about the client that sends it and about the command in it.  It
can be computed in the state in which the line arrives.
-/

namespace Ngircd

open Lib

variable {w w' w₁ : World} {n : Nat} {e : Event}

/-- A condition on the state, the client of a connection with its structure, and a
command of that client. -/
abbrev LineCheck := World → ClientRef → Client → Handler → Request → Bool

/-- The command in a line meets the condition.  A line without a command does, and so
does every other event. -/
def Event.meets (P : LineCheck) (w : World) : Event → Bool
  | .line i text after =>
    (w.conns i).client.all fun r => (w.heap r).all fun c =>
      (splitRequest (trimStr text) (trimmedRest text after)).all fun req =>
        (findCommand req.command).all fun cmd => P w r c cmd.handler (req.received c.type)
  | _ => true

/-- The states that events lead to which meet the condition. -/
def ReachableIf (P : LineCheck) : World → Prop := ReachableBy fun w e => e.meets P w = true

section

variable {P : LineCheck} {i : ConnId} {r : ClientRef} {c : Client} {req : Request}
  {text after : Str}

/-- What a handler is called for meets the condition on the line. -/
theorem Event.meets_dispatched (h : (Event.line i text after).meets P w = true)
    (hl : Linked w) (hi : w.Has i r c) {cmd : Command}
    (hdispatch : execPlain n (dispatchLine i text after) w = .ok (.command r c.type cmd req, w₁))
    (hcmd : findCommand req.command = some cmd) : P w r c cmd.handler req = true := by
  obtain ⟨req₀, hsplit, rfl⟩ := (execPlain_ends (closer_settled n)
    (dispatchLine_received hl hi text after)).of_ok hdispatch r c.type cmd req rfl
  rw [Request.received_command] at hcmd
  simp only [Event.meets, hi.client, hi.cell, hsplit, hcmd, Option.all_some] at h
  exact h

/-- An event upholds the invariant if its preparation does, and the handlers, for commands
that meet the condition. -/
theorem Upkeep.step_of_lines {J : World → Prop} {C : World → World → Prop} (h : Upkeep J C)
    (hclose : ∀ n, (closing C).RightAbout anyFault (closer n))
    (hl : Linked w) (hw : J w) (hprepared : J (e.prepare w)) (hmeets : e.meets P w = true)
    (hnumeric : ∀ r c req, w.heap r = some c → PrefixFits w r req →
      (Ngircd.handleNumeric r req).wp (upFull C) (fun _ => J) w)
    (hcommand : ∀ i r c cmd req w₁, w.Has i r c → Penalised w i w₁ → Dispatched w r c req cmd →
      PrefixFits w r req → P w r c cmd.handler req = true → w₁.heap r = some c →
      r < w₁.nextRef → J w₁ →
      (Ngircd.callHandler r req cmd.handler).wp (upFull C) (fun _ => J) w₁)
    (hstep : Step w e w') : J w' := by
  refine h.step_of_handlers hclose hl hw hprepared ?_ ?_ hstep
  · exact fun _ _ _ _ r c req _ _ hi hfits => hnumeric r c req hi.cell hfits
  · rintro n i text after r c cmd req w₁ rfl hdispatch hi hpenalty hd hfits hcell hlive hw₁
    exact hcommand i r c cmd req w₁ hi hpenalty hd hfits
      (Event.meets_dispatched hmeets hl hi hdispatch hd.found) hcell hlive hw₁

/-- No event changes the configuration, apart from what is noted about servers. -/
theorem Step.conf (hstep : Step w e w') :
    { w'.conf with servers := w.conf.servers } = w.conf := by
  obtain ⟨-, n, hrun⟩ := hstep
  have hsame := (steady_fullFrame.exec_ok_of_closing (closer_settled n) hrun).conf
  have hconf : (e.prepare w).conf = w.conf := by cases e <;> rfl
  rwa [hconf] at hsame

end

/-! ## Runs that can be computed -/

/-- Events one after the other, as long as each meets the condition, is enabled, and its
handling ends. -/
def Event.runIf (P : LineCheck) (n : Nat) : List Event → World → Option World
  | [], w => some w
  | e :: es, w =>
    if e.meets P w then (Event.runAll n [e] w).bind (Event.runIf P n es) else none

theorem ReachableIf.runIf {P : LineCheck} (h : ReachableIf P w)
    {es : List Event} (hrun : Event.runIf P n es w = some w') : ReachableIf P w' := by
  induction es generalizing w with
  | nil =>
    obtain rfl : w = w' := Option.some.inj hrun
    exact h
  | cons e es ih =>
    simp only [Event.runIf] at hrun
    split_ifs at hrun with hmeets
    obtain ⟨w₁, hstep, hrest⟩ := Option.bind_eq_some_iff.mp hrun
    exact ih (ReachableBy.step h hmeets (Event.step_of_runAll hstep)) hrest

end Ngircd
