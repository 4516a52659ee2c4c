import Mathlib.Data.List.Find
import Ngircd.Channel

/-!
# Lookups by hash value

Clients and channels are found by name.  Every structure stores the hash of its name,
and a lookup compares names only where the hashes agree.  The lists of this module have
what `client.c` and `channel.c` read and write for that; the lookups of the other modules
compare names alone.
-/

namespace Ngircd

open Lib

variable {name : Str}

/-- Names that differ in case only have the same hash, unless one of them is cut. -/
theorem hash_eq_of_strcaseEq {a b : Str} (ha : a.length < commandLen) (hb : b.length < commandLen)
    (h : strcaseEq a b = true) : hash a = hash b := by
  have hcopy {s : Str} (hs : s.length < commandLen) : strlcpy s commandLen = s :=
    List.take_of_length_le (by omega)
  have hlower : lowerStr a = lowerStr b := by simpa [strcaseEq] using h
  unfold hash
  rw [hcopy ha, hcopy hb, hlower]

/-- A structure on a list, with its name and the hash that is stored with that.  `named`
tells whether the name has been set since the memory was cleared. -/
structure HashEntry (ρ : Type) where
  ref : ρ
  name : Str := []
  hash : UInt32 := 0
  named : Bool := false

/-- The lists `My_Clients` and `My_Channels`, front first. -/
structure HashLists where
  clients : List (HashEntry ClientRef) := []
  channels : List (HashEntry ChanRef) := []

/-- What is done to the lists. -/
inductive ListOp
  | newClientStruct (r : ClientRef)
  | clientSetID (r : ClientRef) (id : Str)
  | clientDestroy (r : ClientRef)
  | channelCreate (ch : ChanRef) (name : Str)
  | deleteChannel (ch : ChanRef)

namespace HashEntry

variable {ρ : Type}

/-- The structure gets a name, which is cut to its buffer, and the hash of that. -/
def setName (e : HashEntry ρ) (name : Str) (size : Nat) : HashEntry ρ :=
  { e with name := strlcpy name size, hash := Ngircd.hash (strlcpy name size), named := true }

/-- What is true of every structure on a list. -/
structure InStep (e : HashEntry ρ) : Prop where
  hash : e.hash = if e.named then Ngircd.hash e.name else 0
  short : e.name.length < commandLen
  unnamed : e.named = false → e.name = []

theorem inStep_new (r : ρ) : InStep { ref := r } := ⟨rfl, Nat.zero_lt_succ _, fun _ => rfl⟩

theorem inStep_setName (e : HashEntry ρ) (name : Str) {size : Nat} (hsize : size ≤ commandLen) :
    InStep (e.setName name size) where
  hash := rfl
  short := by
    have hcut : (strlcpy name size).length ≤ size - 1 := List.length_take_le _ _
    have hpos : 0 < commandLen := by decide
    show (strlcpy name size).length < commandLen
    omega
  unnamed h := nomatch h

/-- Comparing hashes first makes no difference. -/
theorem InStep.hit_iff {e : HashEntry ρ} (h : InStep e)
    (hname : name.length < commandLen) :
    (e.hash == Ngircd.hash name && strcaseEq e.name name) = (e.named && strcaseEq e.name name) := by
  cases hnamed : e.named with
  | true =>
    cases hcase : strcaseEq e.name name with
    | false => simp
    | true => simp [h.hash, hnamed, hash_eq_of_strcaseEq h.short hname hcase]
  | false =>
    -- The hash of a cleared structure is not that of the empty name.
    cases hcase : strcaseEq e.name name with
    | false => simp
    | true =>
      have hempty : name = [] := by
        rw [h.unnamed hnamed] at hcase
        exact List.length_eq_zero_iff.mp (length_of_strcaseEq hcase)
      have hzero : ¬(0 : UInt32) = Ngircd.hash [] := by decide
      simp [h.hash, hnamed, hempty, hzero]

end HashEntry

namespace HashLists

/-- One of the functions that change the lists. -/
def step (s : HashLists) : ListOp → HashLists
  | .newClientStruct r => { s with clients := { ref := r } :: s.clients }
  | .clientSetID r id => { s with
      clients := s.clients.map fun e => if e.ref = r then e.setName id clientIdLen else e }
  | .clientDestroy r => { s with clients := s.clients.eraseP (·.ref = r) }
  | .channelCreate ch name => { s with
      channels := HashEntry.setName { ref := ch } name channelNameLen :: s.channels }
  | .deleteChannel ch => { s with channels := s.channels.eraseP (·.ref = ch) }

/-- The lists after some of these functions have been called. -/
def after (ops : List ListOp) : HashLists := ops.foldl step {}

/-- `Channel_Search`. -/
def channelSearch (s : HashLists) (name : Str) : Option ChanRef :=
  (s.channels.find? fun c => hash name == c.hash && strcaseEq name c.name).map (·.ref)

/-- `Client_Search`. -/
def clientSearch (s : HashLists) (nick : Str) : Option ClientRef :=
  let searchId := (strlcpy nick clientIdLen).takeWhile (· != '!')
  (s.clients.find? fun c => c.hash == hash searchId && strcaseEq c.name searchId).map (·.ref)

/-- Hashes are in step with names, and every channel has got a name. -/
structure Right (s : HashLists) : Prop where
  clients : ∀ e ∈ s.clients, e.InStep
  channels : ∀ e ∈ s.channels, e.InStep ∧ e.named = true

theorem Right.step {s : HashLists} (h : s.Right) (op : ListOp) : (s.step op).Right := by
  cases op with
  | newClientStruct r => exact ⟨List.forall_mem_cons.mpr ⟨HashEntry.inStep_new r, h.clients⟩,
      h.channels⟩
  | clientSetID r id =>
    refine ⟨List.forall_mem_map.mpr fun e he => ?_, h.channels⟩
    split_ifs
    · exact e.inStep_setName id (by decide)
    · exact h.clients e he
  | clientDestroy r => exact ⟨fun e he => h.clients e (List.mem_of_mem_eraseP he), h.channels⟩
  | channelCreate ch name =>
    refine ⟨h.clients, List.forall_mem_cons.mpr ⟨⟨?_, rfl⟩, h.channels⟩⟩
    exact HashEntry.inStep_setName { ref := ch } name (by decide)
  | deleteChannel ch => exact ⟨h.clients, fun e he => h.channels e (List.mem_of_mem_eraseP he)⟩

theorem right_after (ops : List ListOp) : (after ops).Right := by
  have hrun (s : HashLists) (hs : s.Right) : (ops.foldl HashLists.step s).Right := by
    induction ops generalizing s with
    | nil => exact hs
    | cons op rest ih => exact ih (s.step op) (hs.step op)
  exact hrun {} ⟨nofun, nofun⟩

theorem Right.channelSearch_eq {s : HashLists} (h : s.Right)
    (hname : name.length < commandLen) :
    s.channelSearch name = (s.channels.find? fun c => strcaseEq name c.name).map (·.ref) := by
  refine congrArg (Option.map HashEntry.ref) (List.find?_congr fun c hc => ?_)
  obtain ⟨hstep, hnamed⟩ := h.channels c hc
  have hhit := hstep.hit_iff hname
  rw [hnamed, Bool.true_and] at hhit
  rw [strcaseEq_comm name, Bool.beq_comm]
  exact hhit

theorem Right.clientSearch_eq {s : HashLists} (h : s.Right) (nick : Str) :
    s.clientSearch nick = (s.clients.find? fun c =>
      c.named && strcaseEq c.name ((nick.take 63).takeWhile (· != '!'))).map (·.ref) := by
  have hshort : ((nick.take 63).takeWhile (· != '!')).length < commandLen := by
    have htake := (List.takeWhile_sublist (l := nick.take 63) (· != '!')).length_le
    have hcut : (nick.take 63).length ≤ 63 := List.length_take_le _ _
    have hlen : (63 : Nat) < commandLen := by decide
    omega
  exact congrArg (Option.map HashEntry.ref)
    (List.find?_congr fun c hc => (h.clients c hc).hit_iff hshort)

end HashLists

/-- In every state of the lists, a lookup by hash finds what a search by name alone finds,
and the hashes that are stored are those of the names. -/
theorem hashed_lookup_is_linear (ops : List ListOp) (name : Str) (hname : name.length ≤ 512) :
    (HashLists.after ops).channelSearch name =
        ((HashLists.after ops).channels.find? fun c => strcaseEq name c.name).map (·.ref) ∧
      (HashLists.after ops).clientSearch name = ((HashLists.after ops).clients.find? fun c =>
        c.named && strcaseEq c.name ((name.take 63).takeWhile (· != '!'))).map (·.ref) ∧
      (∀ c ∈ (HashLists.after ops).channels, c.hash = hash c.name) ∧
      ∀ c ∈ (HashLists.after ops).clients, c.named = true → c.hash = hash c.name := by
  have h := HashLists.right_after ops
  have hlen : name.length < commandLen := Nat.lt_succ_of_le hname
  refine ⟨h.channelSearch_eq hlen, h.clientSearch_eq name, fun c hc => ?_, fun c hc hnamed => ?_⟩
  · obtain ⟨hstep, hnamed⟩ := h.channels c hc
    rw [hstep.hash, if_pos hnamed]
  · rw [(h.clients c hc).hash, if_pos hnamed]

/-- A client that has been renamed is found by its new name. -/
theorem hashed_lookup_renamed :
    (HashLists.after [.newClientStruct 1, .clientSetID 1 "bob", .clientSetID 1 "Rob"]).clientSearch
      "ROB!r@host" = some 1 := by
  have hlists := hashed_lookup_is_linear [.newClientStruct 1, .clientSetID 1 "bob",
    .clientSetID 1 "Rob"]
    "ROB!r@host" (by decide)
  rw [hlists.2.1]
  decide

end Ngircd
