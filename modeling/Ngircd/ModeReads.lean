import Ngircd.Lib.Wp
import Ngircd.Mode

/-!
# What a channel MODE request asks for

`Channel_Mode` reads the letters of a mode string one by one; a letter takes the next
parameter or none, and parameters that no letter has taken are mode strings themselves.
Whether a parameter is taken depends on the rights of the user, so there is a choice of
what a request comes to.  `ModeReads` says which letters may be read, with which sign and
with which parameters left.
-/

namespace Ngircd

open Lib

/-- `Channel_Mode` reads a sign at the front on its own. -/
def modeStart : Str → Bool × Str
  | '-' :: rest => (false, rest)
  | '+' :: rest => (true, rest)
  | rest => (true, rest)

/-- The loop of `Channel_Mode`, at the sign `set`, the rest of a mode string and the
parameters `args`, may come to the letter `m` with the sign `sign`, while `left` are the
parameters left. -/
inductive ModeReads (beyond : Str) :
    Bool → Str → List Str → Bool → Char → List Str → Prop
  | here {set : Bool} {rest rest' : Str} {args left : List Str} {m : Char} :
      nextModeChar beyond rest args = some (m, rest', left) → ¬(m = '+' ∨ m = '-') →
      ModeReads beyond set rest args set m left
  | sign {set sign : Bool} {rest rest' : Str} {args args' left : List Str} {m k : Char} :
      nextModeChar beyond rest args = some (m, rest', args') → (m = '+' ∨ m = '-') →
      ModeReads beyond (decide (m = '+')) rest' args' sign k left →
      ModeReads beyond set rest args sign k left
  | letter {set sign : Bool} {rest rest' : Str} {args args' args'' left : List Str} {m k : Char} :
      nextModeChar beyond rest args = some (m, rest', args') → ¬(m = '+' ∨ m = '-') →
      (args'' = args' ∨ args'' = args'.tail) →
      ModeReads beyond set rest' args'' sign k left →
      ModeReads beyond set rest args sign k left

/-- A channel MODE request may come to a letter. -/
def Request.modeReads (req : Request) (sign : Bool) (m : Char) (left : List Str) : Prop :=
  ModeReads req.beyond (modeStart (req.arg 1)).1 (modeStart (req.arg 1)).2 (req.argv.drop 2) sign m
    left

section

variable (r : ModeRequest) (type : ClientType) (power : ModePower) (set : Bool) (m : Char)
  (args : List Str)

/-- A letter takes one parameter or none. -/
def TakesOne (x : ModeChange × List Str) : Prop := x.2 = args ∨ x.2 = args.tail

theorem setKeyMode_takes : Prog.Returns (TakesOne args) (setKeyMode r power args) := by
  cases args with
  | nil =>
    refine .ite (.pure (.inl rfl)) (.bind (.any _) fun _ _ => ?_)
    exact .bind (.any _) fun _ _ => .pure (.inl rfl)
  | cons key args =>
    refine .ite (.ite (.pure (.inr rfl)) (.bind (.any _) fun _ _ => .pure (.inr rfl))) (.ite ?_ ?_)
    · refine .bind (.any _) fun _ _ => .bind (.any _) fun _ _ => ?_
      exact .bind (.any _) fun _ _ => .pure (.inr rfl)
    · exact .bind (.any _) fun _ _ => .pure (.inr rfl)

theorem unsetKeyMode_takes : Prog.Returns (TakesOne args) (unsetKeyMode r power args) :=
  .ite (.bind (.any _) fun _ _ => .pure (.inr rfl)) (.bind (.any _) fun _ _ => .pure (.inl rfl))

theorem setLimitMode_takes : Prog.Returns (TakesOne args) (setLimitMode r power args) := by
  cases args with
  | nil =>
    refine .ite (.pure (.inl rfl)) (.bind (.any _) fun _ _ => ?_)
    exact .bind (.any _) fun _ _ => .pure (.inl rfl)
  | cons limit args =>
    refine .ite (.ite (.pure (.inr rfl)) (.bind (.any _) fun _ _ => .pure (.inr rfl))) (.ite ?_ ?_)
    · refine .bind (.any _) fun _ _ => .bind (.any _) fun _ _ => .pure (.inr rfl)
    · exact .bind (.any _) fun _ _ => .pure (.inr rfl)

theorem memberMode_takes : Prog.Returns (TakesOne args) (memberMode r power m args) := by
  cases args with
  | nil => exact .pure (.inl rfl)
  | cons nick args =>
    refine .ite (.bind (.any _) fun w _ => ?_) (.bind (.any _) fun _ _ => .pure (.inr rfl))
    cases w.clientSearch nick with
    | some cl => exact .pure (.inr rfl)
    | none => exact .bind (.any _) fun _ _ => .bind (.any _) fun _ _ => .pure (.inr rfl)

theorem listMode_takes : Prog.Returns (TakesOne args) (listMode r power set m args) := by
  cases args with
  | nil => exact .bind (.any _) fun _ _ => .pure (.inl rfl)
  | cons pattern args =>
    refine .ite (.ite ?_ ?_) (.bind (.any _) fun _ _ => .pure (.inr rfl))
    · exact .bind (.any _) fun _ _ => .pure (.inr rfl)
    · exact .bind (.any _) fun _ _ => .pure (.inr rfl)

theorem validateMode_takes :
    Prog.Returns (TakesOne args) (validateMode r type power set m args) := by
  have hwrite {β : Type} (p : Msg β) (f : β → ModeChange) :
      Prog.Returns (TakesOne args) (do return (f (← p), args) : Basic (ModeChange × List Str)) :=
    .bind (.any _) fun _ _ => .pure (.inl rfl)
  refine .ite (.ite (hwrite _ _) (hwrite _ _)) (.ite (hwrite _ _) (.ite ?_ (.ite ?_ ?_)))
  · exact .ite (setKeyMode_takes r power args) (unsetKeyMode_takes r power args)
  · exact .ite (setLimitMode_takes r power args) (hwrite _ _)
  · refine .ite (hwrite _ _) (.ite (hwrite _ _) (.ite (hwrite _ _) (.ite (hwrite _ _) ?_)))
    refine .ite (((memberMode_takes r power m args).run _).run _) ?_
    exact .ite (listMode_takes r power set m args) (hwrite _ _)

variable (st : ModeRun)

theorem applyMode_keeps (change : ModeChange) :
    Prog.Returns (fun x => x.1.set = st.set ∧ x.1.args = st.args) (applyMode r st change) := by
  cases change with
  | leave ok => exact .pure ⟨rfl, rfl⟩
  | nothing ok => exact .pure ⟨rfl, rfl⟩
  | channel k argadd =>
    exact .ite (.bind (.any _) fun _ _ => .pure ⟨rfl, rfl⟩)
      (.bind (.any _) fun _ _ => .pure ⟨rfl, rfl⟩)
  | member k cl =>
    refine .bind (.any _) fun w _ => .ite ?_ (.ite ?_ ?_)
    · refine .bind (.any _) fun _ _ => .bind (.any _) fun _ _ => ?_
      exact .bind (.any _) fun _ _ => .bind (.any _) fun _ _ => .pure ⟨rfl, rfl⟩
    all_goals
      refine .bind (.any _) fun changed _ => .ite (.pure ⟨rfl, rfl⟩) ?_
      exact .bind (.any _) fun _ _ => .pure ⟨rfl, rfl⟩

/-- After a letter the sign is the same, and one parameter may be gone. -/
theorem modeLetter_takes :
    Prog.Returns (fun x => x.1.set = st.set ∧ (x.1.args = st.args ∨ x.1.args = st.args.tail))
      (modeLetter r type st m) := by
  unfold modeLetter
  dsimp only
  refine .ite (.bind (.any _) fun power _ => ?_)
    (.bind (.any _) fun _ _ => .bind (.any _) fun power _ => ?_)
  all_goals
    refine .ite (.pure ⟨rfl, .inl rfl⟩) (.bind (validateMode_takes r type _ _ m _)
      fun result htakes => ?_)
    refine .bind (applyMode_keeps r _ _) fun done hkeeps => .pure ⟨hkeeps.1, ?_⟩
    rw [hkeeps.2]
    exact htakes

end

/-- Put a mask on a list of the channel, or take it off. -/
def editList (set : Bool) (m : Char) (r : ModeRequest) (pattern : Str) : Basic Bool :=
  if set then addToList m r.origin r.client r.ch pattern
  else delFromList m r.origin r.client r.ch pattern

end Ngircd
