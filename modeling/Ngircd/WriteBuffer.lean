import Mathlib.Data.UInt
import Ngircd.Lib.DynArray
import Ngircd.World

/-!
# The write buffer of a connection

`Conn_Write` appends to the write buffer of a connection and `Handle_Write` hands its front to
the socket, which takes what it likes.  A buffer that grows too long is flushed from inside
`Conn_Write`, and if it stays too long, the connection is closed.  This module models one
connection, from the moment it is opened, with all bytes that the socket has taken.
-/

namespace Ngircd

open Lib

/-! ## The connection -/

/-- `WRITEBUFFER_FLUSH_LEN`. -/
def writebufferFlushLen : Nat := 4096

/-- `WRITEBUFFER_MAX_LEN`. -/
def writebufferMaxLen : Nat := 32768

/-- `WRITEBUFFER_SLINK_LEN`. -/
def writebufferSlinkLen : Nat := 65536

/-- The part of a `CONNECTION` that writing is about: its socket, the flag `CONN_ISCLOSING`,
the type of its client, its write buffer, whether it waits for its socket to become writable,
and the counters. -/
structure Output where
  sock : Option ConnId := none
  closing : Bool := false
  client : Option ClientType := none
  wbuf : DynArray UInt8 := {}
  wantWrite : Bool := false
  bytesOut : Nat := 0
  wcounter : Nat := 0
  /-- All bytes that the socket has taken. -/
  accepted : List UInt8 := []

/-- What `send` answers: a number of bytes that it has taken, or an error; `EAGAIN` and `EINTR`
mean that it takes nothing at present. -/
inductive SendResult where
  | accepts (count : Nat)
  | again
  | fails
  deriving DecidableEq, Repr

/-- The limit for the write buffer. -/
def writebufLimit (client : Option ClientType) : Nat :=
  if client = some .server then writebufferSlinkLen else writebufferMaxLen

/-- `Handle_Write`; `close` is what an error does on a connection that is not closing. -/
def handleWriteWith (close : Output → Output) (idx : ConnId) (answer : SendResult) (c : Output) :
    Bool × Output :=
  if c.sock ≠ some idx then (false, c)
  else if c.wbuf.used = 0 then (true, { c with wantWrite := false })
  else
    match answer with
    | .again => (true, c)
    | .fails => (false, if c.closing then c else close c)
    | .accepts count =>
      if count > c.wbuf.used then (false, c)
      else
        (true, { c with
          wbuf := c.wbuf.moveleft 1 count
          accepted := c.accepted ++ c.wbuf.contents.take count })

/-- The end of `Conn_Close`: a last attempt to write, then the socket is closed and the
connection is cleared.  An error does not close the connection again. -/
def connShutdown (idx : ConnId) (last : SendResult) (c : Output) : Output :=
  let flushed := (handleWriteWith id idx last c).2
  { wcounter := flushed.wcounter, accepted := flushed.accepted }

/-- `Conn_Close` of a connection whose client is not informed. -/
def connCloseOutput (idx : ConnId) (last : SendResult) (c : Output) : Output :=
  if c.closing then c else connShutdown idx last { c with closing := true }

/-- `Handle_Write`; `last` is the answer of `send` if the connection is closed. -/
def handleWrite (idx : ConnId) (answer last : SendResult) (c : Output) : Bool × Output :=
  handleWriteWith (connCloseOutput idx last) idx answer c

/-- `Conn_Write`; `granted` tells whether there is memory for the buffer, `answer` and `last`
are the answers of `send`, should the buffer be flushed or the connection be closed. -/
def connWrite (idx : ConnId) (granted : Bool) (answer last : SendResult) (data : List UInt8)
    (c : Output) : Bool × Output :=
  if c.sock = none then (false, c)
  else
    let limit := writebufLimit c.client
    let (ok, c) :=
      if c.wbuf.used + data.length ≥ writebufferFlushLen then handleWrite idx answer last c
      else (true, c)
    if !ok then (false, c)
    else if c.wbuf.used + data.length ≥ limit then (false, connCloseOutput idx last c)
    else
      match c.wbuf.catb granted data with
      | none => (false, c)
      | some wbuf =>
        (true, { c with
          wbuf, bytesOut := c.bytesOut + data.length, wcounter := c.wcounter + data.length })

/-! ## The stream -/

/-- The bytes that were promised are those that the socket has taken, followed by the contents
of the buffer. -/
structure Output.Streams (idx : ConnId) (c : Output) (promised : List UInt8) : Prop where
  sock : c.sock ≠ none → c.sock = some idx
  small : c.wbuf.used < writebufferSlinkLen
  stream : c.sock ≠ none → c.accepted ++ c.wbuf.contents = promised
  taken : c.accepted <+: promised

section

variable {idx : ConnId} {granted : Bool} {answer last : SendResult} {data promised : List UInt8}
  {c : Output}

theorem writebufLimit_le (client : Option ClientType) :
    writebufLimit client ≤ writebufferSlinkLen := by
  unfold writebufLimit
  split_ifs
  · exact Nat.le_refl _
  · decide

/-- Handing bytes to the socket does not change the stream. -/
theorem Output.Streams.handleWriteWith (close : Output → Output) (h : c.Streams idx promised)
    (hclose : c.closing = false → (close c).Streams idx promised) :
    (Ngircd.handleWriteWith close idx answer c).2.Streams idx promised := by
  unfold Ngircd.handleWriteWith
  by_cases hsock : c.sock ≠ some idx
  · rw [if_pos hsock]
    exact h
  rw [if_neg hsock]
  by_cases hempty : c.wbuf.used = 0
  · rw [if_pos hempty]
    exact ⟨h.sock, h.small, h.stream, h.taken⟩
  rw [if_neg hempty]
  cases answer with
  | again => exact h
  | fails =>
    simp only
    split_ifs with hclosing
    · exact h
    · exact hclose (by simpa using hclosing)
  | accepts count =>
    simp only
    split_ifs with hmore
    · exact h
    · have hsmall := h.small
      have hbound : c.wbuf.used < sizeBound := Nat.lt_trans h.small (by decide)
      have hcontents := DynArray.contents_moveleft hbound 1 count
      rw [Nat.one_mul] at hcontents
      have hused : (c.wbuf.moveleft 1 count).used = c.wbuf.used - count := by
        rw [← DynArray.length_contents, hcontents, List.length_drop, DynArray.length_contents]
      have hopen : c.sock ≠ none := by
        rw [not_not.mp hsock]
        exact Option.some_ne_none _
      have hstream : (c.accepted ++ c.wbuf.contents.take count) ++
          c.wbuf.contents.drop count = promised := by
        rw [List.append_assoc, List.take_append_drop]
        exact h.stream hopen
      refine ⟨h.sock, ?_, fun _ => ?_, ?_⟩
      · simp only [hused]
        omega
      · simp only [hcontents]
        exact hstream
      · exact ⟨_, hstream⟩

theorem Output.Streams.connShutdown (h : c.Streams idx promised) :
    (Ngircd.connShutdown idx last c).Streams idx promised where
  sock hopen := absurd rfl hopen
  small := show 0 < writebufferSlinkLen by decide
  stream hopen := absurd rfl hopen
  taken := (h.handleWriteWith id fun _ => h).taken

theorem Output.Streams.connCloseOutput (h : c.Streams idx promised) :
    (Ngircd.connCloseOutput idx last c).Streams idx promised := by
  unfold Ngircd.connCloseOutput
  split_ifs
  · exact h
  · exact Output.Streams.connShutdown ⟨h.sock, h.small, h.stream, h.taken⟩

theorem Output.Streams.handleWrite (h : c.Streams idx promised) :
    (Ngircd.handleWrite idx answer last c).2.Streams idx promised :=
  h.handleWriteWith _ fun _ => h.connCloseOutput

/-- The answer of `send` is what it can be for this many bytes: it takes some of them, or it
takes nothing at present. -/
def SendResult.Takes (answer : SendResult) (pending : Nat) : Prop :=
  match answer with
  | .accepts count => count ≤ pending
  | .again => True
  | .fails => False

/-- How many bytes remain. -/
def SendResult.remaining (answer : SendResult) (pending : Nat) : Nat :=
  match answer with
  | .accepts count => pending - count
  | _ => pending

/-- When the socket takes some of the data, only the front of the buffer goes away. -/
theorem handleWrite_takes (last : SendResult) (hsmall : c.wbuf.used < writebufferSlinkLen)
    (hsock : c.sock = some idx) (htakes : answer.Takes c.wbuf.used) :
    (handleWrite idx answer last c).1 = true ∧
      (handleWrite idx answer last c).2.sock = c.sock ∧
      (handleWrite idx answer last c).2.closing = c.closing ∧
      (handleWrite idx answer last c).2.wbuf.used = answer.remaining c.wbuf.used := by
  unfold handleWrite handleWriteWith
  rw [if_neg (not_not.mpr hsock)]
  by_cases hempty : c.wbuf.used = 0
  · rw [if_pos hempty]
    refine ⟨rfl, rfl, rfl, ?_⟩
    cases answer with
    | accepts count => simp [SendResult.remaining, hempty]
    | again => rfl
    | fails => rfl
  rw [if_neg hempty]
  cases answer with
  | again => exact ⟨rfl, rfl, rfl, rfl⟩
  | fails => exact htakes.elim
  | accepts count =>
    have hle : count ≤ c.wbuf.used := htakes
    have hbound : c.wbuf.used < sizeBound := Nat.lt_trans hsmall (by decide)
    simp only [if_neg (Nat.not_lt.mpr hle), true_and]
    rw [← DynArray.length_contents, DynArray.contents_moveleft hbound, Nat.one_mul,
      List.length_drop, DynArray.length_contents]
    rfl

/-- The state in which `Conn_Write` looks at the limit. -/
def flushedFor (idx : ConnId) (answer last : SendResult) (data : List UInt8) (c : Output) :
    Bool × Output :=
  if c.wbuf.used + data.length ≥ writebufferFlushLen then handleWrite idx answer last c
  else (true, c)

theorem Output.Streams.flushedFor (h : c.Streams idx promised) :
    (Ngircd.flushedFor idx answer last data c).2.Streams idx promised := by
  unfold Ngircd.flushedFor
  split_ifs
  · exact h.handleWrite
  · exact h

/-- The ways through `Conn_Write`. -/
inductive WritePath (idx : ConnId) (granted : Bool) (answer last : SendResult)
    (data : List UInt8) (c : Output) : Bool × Output → Prop where
  | closed : c.sock = none → WritePath idx granted answer last data c (false, c)
  | failed {c₁ : Output} : c.sock ≠ none → flushedFor idx answer last data c = (false, c₁) →
      WritePath idx granted answer last data c (false, c₁)
  | full {c₁ : Output} : c.sock ≠ none → flushedFor idx answer last data c = (true, c₁) →
      writebufLimit c.client ≤ c₁.wbuf.used + data.length →
      WritePath idx granted answer last data c (false, connCloseOutput idx last c₁)
  | noMemory {c₁ : Output} : c.sock ≠ none → flushedFor idx answer last data c = (true, c₁) →
      c₁.wbuf.used + data.length < writebufLimit c.client →
      c₁.wbuf.catb granted data = none →
      WritePath idx granted answer last data c (false, c₁)
  | written {c₁ : Output} {wbuf : DynArray UInt8} : c.sock ≠ none →
      flushedFor idx answer last data c = (true, c₁) →
      c₁.wbuf.used + data.length < writebufLimit c.client →
      c₁.wbuf.catb granted data = some wbuf →
      WritePath idx granted answer last data c (true, { c₁ with
        wbuf, bytesOut := c₁.bytesOut + data.length, wcounter := c₁.wcounter + data.length })

theorem connWrite_path (idx : ConnId) (granted : Bool) (answer last : SendResult)
    (data : List UInt8) (c : Output) :
    WritePath idx granted answer last data c (connWrite idx granted answer last data c) := by
  unfold connWrite
  by_cases hsock : c.sock = none
  · rw [if_pos hsock]
    exact .closed hsock
  rw [if_neg hsock]
  rcases hflushed : flushedFor idx answer last data c with ⟨ok, c₁⟩
  unfold flushedFor at hflushed
  simp only [hflushed]
  cases ok with
  | false => exact .failed hsock hflushed
  | true =>
    simp only [Bool.not_true, Bool.false_eq_true, if_false]
    by_cases hfull : writebufLimit c.client ≤ c₁.wbuf.used + data.length
    · rw [if_pos hfull]
      exact .full hsock hflushed hfull
    rw [if_neg hfull]
    cases hcat : c₁.wbuf.catb granted data with
    | none => exact .noMemory hsock hflushed (Nat.lt_of_not_le hfull) hcat
    | some wbuf => exact .written hsock hflushed (Nat.lt_of_not_le hfull) hcat

/-- `Conn_Write` adds its data to the stream if it answers `true`, and nothing otherwise. -/
theorem Output.Streams.connWrite (h : c.Streams idx promised) :
    (Ngircd.connWrite idx granted answer last data c).2.Streams idx
      (if (Ngircd.connWrite idx granted answer last data c).1 then promised ++ data
        else promised) := by
  have hflush : (Ngircd.flushedFor idx answer last data c).2.Streams idx promised :=
    h.flushedFor
  have hpath := connWrite_path idx granted answer last data c
  generalize Ngircd.connWrite idx granted answer last data c = result at hpath
  cases hpath with
  | closed _ => exact h
  | failed _ hflushed =>
    rw [hflushed] at hflush
    exact hflush
  | full _ hflushed _ =>
    rw [hflushed] at hflush
    exact hflush.connCloseOutput
  | noMemory _ hflushed _ _ =>
    rw [hflushed] at hflush
    exact hflush
  | @written c₁ wbuf _ hflushed hlt hcat =>
    rw [hflushed] at hflush
    have hcontents := DynArray.contents_catb hcat
    refine ⟨hflush.sock, ?_, fun hopen => ?_, ?_⟩
    · have hlength := congrArg List.length hcontents
      rw [List.length_append, DynArray.length_contents, DynArray.length_contents] at hlength
      have := writebufLimit_le c.client
      simp only [hlength]
      omega
    · simp only [hcontents, if_true]
      rw [← List.append_assoc, hflush.stream hopen]
    · exact hflush.taken.trans (List.prefix_append _ _)

end

/-! ## Whole runs -/

/-- The runs of one connection, with the data that `Conn_Write` has promised to deliver: data is
written, the socket becomes writable, the client changes, and the connection is closed.
`Conn_Close` may write to the client between `closing` and `close`. -/
inductive OutputRun (idx : ConnId) : Output → List UInt8 → Prop where
  | opened (client : Option ClientType) (wcounter : Nat) :
      OutputRun idx { sock := some idx, client, wcounter } []
  | write {c : Output} {promised : List UInt8} (granted : Bool) (answer last : SendResult)
      (data : List UInt8) : OutputRun idx c promised →
      OutputRun idx (connWrite idx granted answer last data c).2
        (if (connWrite idx granted answer last data c).1 then promised ++ data else promised)
  | writable {c : Output} {promised : List UInt8} (answer last : SendResult) :
      OutputRun idx c promised → OutputRun idx (handleWrite idx answer last c).2 promised
  | interest {c : Output} {promised : List UInt8} (wantWrite : Bool) :
      OutputRun idx c promised → OutputRun idx { c with wantWrite } promised
  | client {c : Output} {promised : List UInt8} (client : Option ClientType) :
      OutputRun idx c promised → OutputRun idx { c with client } promised
  | closing {c : Output} {promised : List UInt8} :
      OutputRun idx c promised → OutputRun idx { c with closing := true } promised
  | close {c : Output} {promised : List UInt8} (last : SendResult) : c.closing = true →
      OutputRun idx c promised → OutputRun idx (connShutdown idx last c) promised

section

variable {idx : ConnId} {c : Output} {promised : List UInt8}

theorem OutputRun.streams (h : OutputRun idx c promised) : c.Streams idx promised := by
  induction h with
  | opened client wcounter =>
    refine ⟨fun _ => rfl, ?_, fun _ => rfl, List.nil_prefix⟩
    exact show 0 < writebufferSlinkLen by decide
  | write granted answer last data _ ih => exact ih.connWrite
  | writable answer last _ ih => exact ih.handleWrite
  | interest wantWrite _ ih => exact ⟨ih.sock, ih.small, ih.stream, ih.taken⟩
  | client client _ ih => exact ⟨ih.sock, ih.small, ih.stream, ih.taken⟩
  | closing _ ih => exact ⟨ih.sock, ih.small, ih.stream, ih.taken⟩
  | close last _ _ ih => exact ih.connShutdown

theorem connCloseOutput_sock (last : SendResult) :
    c.closing = true ∨ (connCloseOutput idx last c).sock = none := by
  unfold connCloseOutput
  cases c.closing with
  | true => exact .inl rfl
  | false => exact .inr rfl

/-- The bytes that are pending when `Conn_Write` looks at the limit. -/
def pendingFor (answer : SendResult) (used length : Nat) : Nat :=
  if used + length ≥ writebufferFlushLen then answer.remaining used else used

theorem flushedFor_takes {answer : SendResult} (last : SendResult) (data : List UInt8)
    (hsmall : c.wbuf.used < writebufferSlinkLen) (hsock : c.sock = some idx)
    (htakes : answer.Takes c.wbuf.used) :
    ∃ c₁, flushedFor idx answer last data c = (true, c₁) ∧ c₁.closing = c.closing ∧
      c₁.wbuf.used = pendingFor answer c.wbuf.used data.length := by
  unfold flushedFor pendingFor
  split_ifs
  · obtain ⟨hok, -, hclosing, hused⟩ := handleWrite_takes last hsmall hsock htakes
    exact ⟨_, Prod.ext hok rfl, hclosing, hused⟩
  · exact ⟨c, rfl, rfl, rfl⟩

/-- Output is delivered in order and within bounds: what the socket has taken and the contents
of the buffer are the data of all writes that succeeded; a write that succeeds leaves a buffer
below its limit; and a write succeeds if the data fits behind what the socket leaves, or else
the connection is closed. -/
theorem output_in_order (h : OutputRun idx c promised) :
    (c.sock ≠ none → c.accepted ++ c.wbuf.contents = promised) ∧ c.accepted <+: promised ∧
    ∀ granted answer last data,
      ((connWrite idx granted answer last data c).1 = true →
        (connWrite idx granted answer last data c).2.wbuf.contents.length <
          writebufLimit c.client) ∧
      (c.sock ≠ none → granted = true → answer.Takes c.wbuf.used →
        ((connWrite idx granted answer last data c).1 = true ↔
          pendingFor answer c.wbuf.used data.length + data.length < writebufLimit c.client) ∧
        ((connWrite idx granted answer last data c).1 = false →
          c.closing = true ∨ (connWrite idx granted answer last data c).2.sock = none)) := by
  have hstreams := h.streams
  refine ⟨hstreams.stream, hstreams.taken, fun granted answer last data => ⟨?_, ?_⟩⟩
  · have hpath := connWrite_path idx granted answer last data c
    generalize connWrite idx granted answer last data c = result at hpath
    cases hpath with
    | written _ _ hlt hcat =>
      intro _
      simp only [DynArray.contents_catb hcat, List.length_append, DynArray.length_contents]
      exact hlt
    | _ => exact fun hok => nomatch hok
  · intro hopen hgranted htakes
    obtain ⟨c₁, hflushed, hclosing, hpending⟩ :=
      flushedFor_takes last data hstreams.small (hstreams.sock hopen) htakes
    have hpath := connWrite_path idx granted answer last data c
    generalize connWrite idx granted answer last data c = result at hpath
    cases hpath with
    | closed hclosed => exact absurd hclosed hopen
    | failed _ hfailed =>
      rw [hflushed] at hfailed
      cases hfailed
    | full _ hflushed' hfull =>
      rw [hflushed] at hflushed'
      cases hflushed'
      rw [hpending] at hfull
      refine ⟨?_, fun _ => ?_⟩
      · exact iff_of_false Bool.false_ne_true (Nat.not_lt.mpr hfull)
      · rw [← hclosing]
        exact connCloseOutput_sock last
    | @noMemory c₂ _ _ hlt hcat =>
      have hbound : writebufferSlinkLen + 1 < sizeBound := by decide
      have hlimit := writebufLimit_le c.client
      have hroom : c₂.wbuf.used + data.length + 1 < sizeBound := by omega
      have hsome := DynArray.catb_isSome.mpr (.inr ⟨hroom, .inr hgranted⟩)
      rw [hcat] at hsome
      cases hsome
    | written _ hflushed' hlt _ =>
      rw [hflushed] at hflushed'
      cases hflushed'
      rw [hpending] at hlt
      exact ⟨iff_of_true rfl hlt, (fun hfalse => nomatch hfalse)⟩

/-- A connection that has promised five bytes and delivered two. -/
theorem output_in_order_partly : ∃ c, OutputRun 3 c [80, 73, 78, 71, 10] ∧
    c.accepted ++ c.wbuf.contents = [80, 73, 78, 71, 10] ∧ c.accepted = [80, 73] := by
  have hrun := ((@OutputRun.opened 3 none 0).write true .again .again
    [80, 73, 78, 71, 10]).writable (.accepts 2) .again
  exact ⟨_, hrun, (output_in_order hrun).1 (by decide), by decide⟩

end

end Ngircd
