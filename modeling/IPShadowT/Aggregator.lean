/-
# Bandwidth aggregation

Model of `Aggregator` in `internal/multipath/aggregator.go`: `Write`, which sends a small buffer on
one path and cuts a large one into chunks for one path after the other, and `Read`, which reads
from the next path.  Which path is next is up to a counter in each of the two ends.

* A chunk that a path does not take is offered to the next path, without end.
  `write_returns_iff` says when `Write` returns.
* The receiver does not know which path holds the bytes that come next.  No byte is lost
  (`perm_run`), but their order is kept only over a single path (`prefix_iff`).
-/
import IPShadowT.Bytes
import IPShadowT.Runs

open Go (Arch)
open Runs

namespace Aggregation

/-- `Aggregator` without its statistics; the paths are numbered. -/
structure Aggregator where
  paths : ℕ
  current : Int64
  closed : Bool
  deriving DecidableEq, Repr

/-- `NewAggregator` and the calls of `AddPath`. -/
def newAggregator (paths : ℕ) : Aggregator := ⟨paths, 0, false⟩

/-- `int(a.current.Add(1)-1) % len(a.paths)`, if it is an index. -/
def index (a : Arch) (paths : ℕ) (current : Int64) : Option ℕ :=
  let idx := (a.int (current + 1 - 1).toInt).tmod paths
  if idx < 0 then none else some idx.toNat

/-! ## `Write` -/

/-- The errors of `Write`: `io.ErrClosedPipe`, or that of a path. -/
inductive Error where
  | closedPipe
  | path
  deriving DecidableEq, Repr

/-- What has become of a call of `Write`, with the number of bytes that the paths have taken. -/
inductive Outcome where
  | returned (n : ℕ) (err : Option Error)
  | panicked (n : ℕ)
  /-- it is still in its loop when the number of rounds is used up -/
  | running (n : ℕ)
  deriving DecidableEq, Repr

/-- How many bytes the paths have taken. -/
def Outcome.taken : Outcome → ℕ
  | returned n _ => n
  | panicked n => n
  | running n => n

section Write

variable {σ : Type}

/-- For large data: the size of the chunks. -/
def chunkSize (paths : ℕ) (p : Bytes) : ℕ :=
  let size := p.length / paths
  if size < 1024 then 1024 else size

/-- The loop of `Write`, with what is left of the buffer.  `write` is the `Write` of the paths: how
many bytes are taken, and whether there is an error. -/
def writeLoop (write : σ → ℕ → Bytes → ℕ × Bool × σ) (a : Arch) (paths size : ℕ) :
    (fuel : ℕ) → Int64 → σ → (rest : Bytes) → (total : ℕ) → Outcome × Int64 × σ
  | 0, current, s, _, total => (.running total, current, s)
  | fuel + 1, current, s, rest, total =>
    if rest = [] then (.returned total none, current, s)
    else
      match index a paths current with
      | none => (.panicked total, current + 1, s)
      | some idx =>
        -- after an error the loop goes on as it does without one
        let r := write s idx (rest.take size)
        writeLoop write a paths size fuel (current + 1) r.2.2 (rest.drop r.1) (total + r.1)

/-- `Write`. -/
def Aggregator.write (g : Aggregator) (write : σ → ℕ → Bytes → ℕ × Bool × σ) (a : Arch)
    (fuel : ℕ) (s : σ) (p : Bytes) : Outcome × Int64 × σ :=
  if g.paths = 0 then (.returned 0 (some .closedPipe), g.current, s)
  else if g.closed then (.returned 0 (some .closedPipe), g.current, s)
  else if p.length ≤ 4096 ∨ g.paths = 1 then
    match index a g.paths g.current with
    | none => (.panicked 0, g.current + 1, s)
    | some idx =>
      let r := write s idx p
      (.returned r.1 (if r.2.1 then some .path else none), g.current + 1, r.2.2)
  else writeLoop write a g.paths (chunkSize g.paths p) fuel g.current s p 0

end Write

/-! ## When `Write` returns -/

/-- The counter gives an index: it is not negative as an `int`, or a multiple of the number of
paths. -/
def IndexFits (a : Arch) (paths : ℕ) (current : Int64) : Prop :=
  0 ≤ a.int current.toInt ∨ (paths : ℤ) ∣ a.int current.toInt

variable {a : Arch} {pipes : List Bytes} {paths : ℕ} {current : Int64} {l : Link} {k : ℕ}
variable {g : Aggregator} {idx : ℕ}

theorem exists_index_iff :
    (∃ idx, index a paths current = some idx) ↔ IndexFits a paths current := by
  unfold index IndexFits
  rw [Int64.add_sub_cancel]
  by_cases hneg : (a.int current.toInt).tmod paths < 0
  · simp only [if_pos hneg]
    exact iff_of_false nofun (Go.tmod_neg_iff.1 hneg)
  · simp only [if_neg hneg]
    exact iff_of_true ⟨_, rfl⟩ (not_not.1 (mt Go.tmod_neg_iff.2 hneg))

/-- A pattern of results of the inner writes, one after the other: how many bytes are taken, and
whether there is an error. -/
abbrev Results := ℕ → ℕ × Bool

/-- The inner write number `k`. -/
def scripted (results : Results) (k _ : ℕ) (_ : Bytes) : ℕ × Bool × ℕ :=
  ((results k).1, (results k).2, k + 1)

/-- How many bytes `k` inner writes take, from number `j` on. -/
def taken (results : Results) : ℕ → ℕ → ℕ
  | _, 0 => 0
  | j, k + 1 => (results j).1 + taken results (j + 1) k

theorem fits_succ_iff :
    (∀ i < k + 1, IndexFits a paths (current + Int64.ofNat i)) ↔
      IndexFits a paths current ∧ ∀ i < k, IndexFits a paths (current + 1 + Int64.ofNat i) := by
  have hzero : current + Int64.ofNat 0 = current := Int64.add_zero current
  have hsucc : ∀ i, current + Int64.ofNat (i + 1) = current + 1 + Int64.ofNat i := by
    intro i
    rw [Nat.add_comm, Int64.ofNat_add, ← Int64.add_assoc]
    rfl
  constructor
  · intro h
    refine ⟨hzero ▸ h 0 (Nat.succ_pos k), fun i hi => ?_⟩
    exact hsucc i ▸ h (i + 1) (Nat.succ_lt_succ hi)
  · rintro ⟨hfirst, hrest⟩ i hi
    cases i with
    | zero => exact hzero.symm ▸ hfirst
    | succ i => exact (hsucc i).symm ▸ hrest i (Nat.lt_of_succ_lt_succ hi)

section Returns

variable {results : Results} {a : Arch} {paths size : ℕ} {current : Int64} {j : ℕ} {rest : Bytes}
  {total : ℕ}

theorem taken_of_writeLoop {fuel n : ℕ} {err : Option Error}
    (h : (writeLoop (scripted results) a paths size fuel current j rest total).1 =
      .returned n err) :
    ∃ k, rest.length ≤ taken results j k ∧
      ∀ i < k, IndexFits a paths (current + Int64.ofNat i) := by
  induction fuel generalizing current j rest total with
  | zero => cases h
  | succ fuel ih =>
    by_cases hrest : rest = []
    · exact ⟨0, by simp [hrest], fun i hi => absurd hi (Nat.not_lt_zero i)⟩
    rw [writeLoop, if_neg hrest] at h
    cases hidx : index a paths current with
    | none =>
      rw [hidx] at h
      cases h
    | some idx =>
      rw [hidx] at h
      obtain ⟨k, htaken, hfits⟩ := ih h
      refine ⟨k + 1, ?_, fits_succ_iff.2 ⟨exists_index_iff.1 ⟨idx, hidx⟩, hfits⟩⟩
      rw [List.length_drop] at htaken
      show rest.length ≤ (results j).1 + taken results (j + 1) k
      exact Nat.sub_le_iff_le_add'.1 htaken

theorem writeLoop_of_taken (htaken : rest.length ≤ taken results j k)
    (hfits : ∀ i < k, IndexFits a paths (current + Int64.ofNat i)) :
    ∃ fuel n err, (writeLoop (scripted results) a paths size fuel current j rest total).1 =
      .returned n err := by
  induction k generalizing current j rest total with
  | zero =>
    have hrest : rest = [] := List.eq_nil_of_length_eq_zero (Nat.le_zero.1 htaken)
    exact ⟨1, total, none, by rw [writeLoop, if_pos hrest]⟩
  | succ k ih =>
    by_cases hrest : rest = []
    · exact ⟨1, total, none, by rw [writeLoop, if_pos hrest]⟩
    obtain ⟨hfirst, hfits'⟩ := fits_succ_iff.1 hfits
    obtain ⟨idx, hidx⟩ := exists_index_iff.2 hfirst
    have hlen : (rest.drop (results j).1).length ≤ taken results (j + 1) k := by
      rw [List.length_drop]
      exact Nat.sub_le_iff_le_add'.2 htaken
    obtain ⟨fuel, n, err, h⟩ := ih hlen hfits'
    refine ⟨fuel + 1, n, err, ?_⟩
    rw [writeLoop, if_neg hrest, hidx]
    exact h

/-- **The loop returns** if and only if the paths have taken as many bytes as there are, at some
time before an index is negative. -/
theorem writeLoop_returns_iff :
    (∃ fuel n err,
        (writeLoop (scripted results) a paths size fuel current j rest total).1 = .returned n err) ↔
      ∃ k, rest.length ≤ taken results j k ∧ ∀ i < k, IndexFits a paths (current + Int64.ofNat i) :=
  ⟨fun ⟨_, _, _, h⟩ => taken_of_writeLoop h, fun ⟨_, htaken, hfits⟩ =>
    writeLoop_of_taken htaken hfits⟩

end Returns

/-- The inner writes let `Write` come to its end: there is no path or the aggregator is closed; or
one write is all there is to do; or the paths take the whole buffer.  The counter gives an index for
each inner write. -/
def Accepting (a : Arch) (g : Aggregator) (p : Bytes) (results : Results) : Prop :=
  g.paths = 0 ∨ g.closed = true ∨
    if p.length ≤ 4096 ∨ g.paths = 1 then IndexFits a g.paths g.current
    else ∃ k, p.length ≤ taken results 0 k ∧
      ∀ i < k, IndexFits a g.paths (g.current + Int64.ofNat i)

/-- Large data goes through the loop. -/
theorem write_of_large {σ : Type} {write : σ → ℕ → Bytes → ℕ × Bool × σ} (hpaths : g.paths ≠ 0)
    (hclosed : ¬ g.closed = true) {p : Bytes} (hlarge : ¬ (p.length ≤ 4096 ∨ g.paths = 1))
    (fuel : ℕ) (s : σ) :
    g.write write a fuel s p =
      writeLoop write a g.paths (chunkSize g.paths p) fuel g.current s p 0 := by
  rw [Aggregator.write, if_neg hpaths, if_neg hclosed, if_neg hlarge]

/-- **`Write` returns** after finitely many inner writes, for a pattern of their results, if and
only if the pattern and the counter let it. -/
theorem write_returns_iff (a : Arch) (g : Aggregator) (p : Bytes) (results : Results) :
    (∃ fuel n err, (g.write (scripted results) a fuel 0 p).1 = .returned n err) ↔
      Accepting a g p results := by
  unfold Accepting
  by_cases hpaths : g.paths = 0
  · simp only [Aggregator.write, if_pos hpaths]
    exact iff_of_true ⟨0, 0, _, rfl⟩ (.inl hpaths)
  by_cases hclosed : g.closed = true
  · simp only [Aggregator.write, if_neg hpaths, if_pos hclosed]
    exact iff_of_true ⟨0, 0, _, rfl⟩ (.inr (.inl hclosed))
  rw [or_iff_right hpaths, or_iff_right hclosed]
  by_cases hsmall : p.length ≤ 4096 ∨ g.paths = 1
  · simp only [Aggregator.write, if_neg hpaths, if_neg hclosed, if_pos hsmall, ← exists_index_iff]
    cases hidx : index a g.paths g.current with
    | none =>
      apply iff_of_false
      · rintro ⟨fuel, n, err, h⟩
        cases h
      · rintro ⟨idx, h⟩
        cases h
    | some idx => exact iff_of_true ⟨0, _, _, rfl⟩ ⟨idx, rfl⟩
  · simp only [write_of_large hpaths hclosed hsmall, if_neg hsmall]
    exact writeLoop_returns_iff

theorem taken_eq_zero {results : Results} (h : ∀ k, (results k).1 = 0) (j k : ℕ) :
    taken results j k = 0 := by
  induction k generalizing j with
  | zero => rfl
  | succ k ih => rw [taken, h, ih]

/-- Two paths that fail from the start, and a buffer of 4097 bytes. -/
theorem write_never_returns :
    ¬ ∃ fuel n err, ((newAggregator 2).write (scripted fun _ => (0, true)) .bits64 fuel 0
      (List.replicate 4097 0)).1 = .returned n err := by
  rintro ⟨fuel, n, err, hret⟩
  rw [write_of_large (by decide) (by decide) (by rw [List.length_replicate]; decide)] at hret
  obtain ⟨k, htaken, -⟩ := writeLoop_returns_iff.1 ⟨fuel, n, err, hret⟩
  rw [List.length_replicate, taken_eq_zero fun _ => rfl] at htaken
  exact absurd htaken (by decide)

/-! ## Two ends -/

/-- Two aggregators that are joined by the same paths, each with the bytes on their way. -/
structure Link where
  sender : Aggregator
  receiver : Aggregator
  pipes : List Bytes
  /-- the bytes that the paths have taken from `Write`, and those that `Read` has returned -/
  written : Bytes
  received : Bytes
  deriving DecidableEq, Repr

/-- Before the first call. -/
def newLink (paths : ℕ) : Link :=
  ⟨newAggregator paths, newAggregator paths, List.replicate paths [], [], []⟩

/-- A path that takes everything. -/
def sendTo (pipes : List Bytes) (idx : ℕ) (chunk : Bytes) : ℕ × Bool × List Bytes :=
  (chunk.length, false, pipes.set idx (pipes.getD idx [] ++ chunk))

inductive Event where
  | write (p : Bytes)
  /-- a `Read` with a buffer of `size` bytes, when `arrived` bytes have come in on its path -/
  | read (size arrived : ℕ)
  deriving DecidableEq, Repr

/-- A `Write` of the sender, whose paths take everything (`write_sendTo`). -/
def Link.write (a : Arch) (l : Link) (p : Bytes) : Link :=
  let r := l.sender.write sendTo a (p.length + 1) l.pipes p
  { l with
    sender := { l.sender with current := r.2.1 }
    pipes := r.2.2
    written := l.written ++ p.take r.1.taken }

/-- A `Read` of the receiver; it waits for a first byte. -/
def Link.read (a : Arch) (l : Link) (size arrived : ℕ) : Link :=
  if l.receiver.paths = 0 then l
  else
    match index a l.receiver.paths l.receiver.current with
    | none => { l with receiver := { l.receiver with current := l.receiver.current + 1 } }
    | some idx =>
      let pipe := l.pipes.getD idx []
      let b := pipe.take (min size arrived)
      if b = [] ∧ size ≠ 0 then l
      else
        { l with
          receiver := { l.receiver with current := l.receiver.current + 1 }
          pipes := l.pipes.set idx (pipe.drop b.length)
          received := l.received ++ b }

def step (a : Arch) (l : Link) : Event → Link
  | .write p => l.write a p
  | .read size arrived => l.read a size arrived

/-! ### No byte is lost -/

theorem index_lt (hpaths : paths ≠ 0) (h : index a paths current = some idx) : idx < paths := by
  unfold index at h
  have hlt := Int.tmod_lt_of_pos (a.int (current + 1 - 1).toInt)
    (Int.natCast_pos.2 (Nat.pos_of_ne_zero hpaths))
  dsimp only at h
  split_ifs at h with hneg
  obtain rfl := Option.some.inj h
  omega

/-- A pipe is replaced. -/
theorem flatten_set_perm (h : idx < pipes.length) (q : Bytes) :
    (pipes.getD idx [] ++ (pipes.set idx q).flatten).Perm (q ++ pipes.flatten) := by
  induction pipes generalizing idx with
  | nil => cases h
  | cons pipe pipes ih =>
    cases idx with
    | zero =>
      show (pipe ++ (q ++ pipes.flatten)).Perm (q ++ (pipe ++ pipes.flatten))
      exact List.perm_append_comm_assoc pipe q _
    | succ idx =>
      have hrest := ih (Nat.lt_of_succ_lt_succ h)
      show (pipes.getD idx [] ++ (pipe ++ (pipes.set idx q).flatten)).Perm
        (q ++ (pipe ++ pipes.flatten))
      exact (List.perm_append_comm_assoc _ pipe _).trans
        ((hrest.append_left pipe).trans (List.perm_append_comm_assoc pipe q _))

/-- A path takes a chunk. -/
theorem sendTo_perm (h : idx < pipes.length) (chunk : Bytes) :
    (sendTo pipes idx chunk).2.2.flatten.Perm (pipes.flatten ++ chunk) := by
  have hset := flatten_set_perm h (pipes.getD idx [] ++ chunk)
  rw [List.append_assoc] at hset
  exact ((List.perm_append_left_iff _).1 hset).trans List.perm_append_comm

/-- What `Write` does over paths that take everything: it does not stay in its loop, and what they
have taken is on its way, also when it panics. -/
structure Sends (pipes : List Bytes) (p : Bytes) (r : Outcome × Int64 × List Bytes) : Prop where
  ends : ∀ n, r.1 ≠ .running n
  length : r.2.2.length = pipes.length
  perm : r.2.2.flatten.Perm (pipes.flatten ++ p.take r.1.taken)

theorem writeLoop_sendTo {paths size : ℕ} (hpaths : paths ≠ 0) (hsize : size ≠ 0) {fuel : ℕ}
    (current : Int64) {rest : Bytes} (total : ℕ) (hlen : pipes.length = paths)
    (hfuel : rest.length < fuel) :
    ∃ k outcome current' pipes', writeLoop sendTo a paths size fuel current pipes rest total =
        (outcome, current', pipes') ∧ (∀ n, outcome ≠ .running n) ∧ outcome.taken = total + k ∧
      pipes'.length = paths ∧ pipes'.flatten.Perm (pipes.flatten ++ rest.take k) := by
  have hnone : ∀ (pipes : List Bytes) (rest : Bytes),
      pipes.flatten.Perm (pipes.flatten ++ rest.take 0) := by
    intro pipes rest
    rw [List.take_zero, List.append_nil]
  induction fuel generalizing current pipes rest total with
  | zero => cases hfuel
  | succ fuel ih =>
    by_cases hrest : rest = []
    · exact ⟨0, .returned total none, current, pipes, by rw [writeLoop, if_pos hrest], nofun, rfl,
        hlen, hnone pipes rest⟩
    rw [writeLoop, if_neg hrest]
    cases hidx : index a paths current with
    | none =>
      exact ⟨0, .panicked total, current + 1, pipes, rfl, nofun, rfl, hlen, hnone pipes rest⟩
    | some idx =>
      have hlt : idx < pipes.length := hlen ▸ index_lt hpaths hidx
      have hpos : 0 < (rest.take size).length := by
        rw [List.length_take]
        have := List.length_pos_of_ne_nil hrest
        omega
      have hle : (rest.take size).length ≤ rest.length := List.length_take_le' size rest
      have hshorter : (rest.drop (rest.take size).length).length < fuel := by
        rw [List.length_drop]
        omega
      have hpipes : (sendTo pipes idx (rest.take size)).2.2.length = paths := by
        rw [← hlen]
        exact List.length_set
      obtain ⟨k, outcome, current', pipes', heq, hends, htaken, hlen', hperm⟩ :=
        ih (current + 1) (total + (rest.take size).length) hpipes hshorter
      refine ⟨(rest.take size).length + k, outcome, current', pipes', heq, hends, ?_, hlen', ?_⟩
      · rw [htaken, Nat.add_assoc]
      · -- what the first path takes, and what the loop sends of the rest
        have hchunk : rest.take (rest.take size).length = rest.take size :=
          (List.prefix_iff_eq_take.1 (List.take_prefix size rest)).symm
        have hsend := (sendTo_perm hlt (rest.take size)).append_right
          ((rest.drop (rest.take size).length).take k)
        rw [List.append_assoc] at hsend
        rw [List.take_add, hchunk]
        exact hperm.trans hsend

theorem chunkSize_ne_zero (paths : ℕ) (p : Bytes) : chunkSize paths p ≠ 0 := by
  unfold chunkSize
  dsimp only
  split_ifs
  · decide
  · omega

/-- **A `Write` over paths that take everything.** -/
theorem write_sendTo (hlen : pipes.length = g.paths) (p : Bytes) :
    Sends pipes p (g.write sendTo a (p.length + 1) pipes p) := by
  have hnone : pipes.flatten.Perm (pipes.flatten ++ p.take 0) := by
    rw [List.take_zero, List.append_nil]
  by_cases hpaths : g.paths = 0
  · rw [Aggregator.write, if_pos hpaths]
    exact ⟨nofun, rfl, hnone⟩
  by_cases hclosed : g.closed = true
  · rw [Aggregator.write, if_neg hpaths, if_pos hclosed]
    exact ⟨nofun, rfl, hnone⟩
  by_cases hsmall : p.length ≤ 4096 ∨ g.paths = 1
  · rw [Aggregator.write, if_neg hpaths, if_neg hclosed, if_pos hsmall]
    cases hidx : index a g.paths g.current with
    | none => exact ⟨nofun, rfl, hnone⟩
    | some idx =>
      have hlt : idx < pipes.length := hlen ▸ index_lt hpaths hidx
      refine ⟨nofun, List.length_set, ?_⟩
      show List.Perm _ (pipes.flatten ++ p.take p.length)
      rw [List.take_length]
      exact sendTo_perm hlt p
  · rw [write_of_large hpaths hclosed hsmall]
    obtain ⟨k, outcome, current', pipes', heq, hends, htaken, hlen', hperm⟩ :=
      writeLoop_sendTo hpaths (chunkSize_ne_zero g.paths p) g.current 0 hlen
        (Nat.lt_succ_self p.length) (a := a)
    rw [heq]
    refine ⟨hends, hlen'.trans hlen.symm, ?_⟩
    rw [htaken, Nat.zero_add]
    exact hperm

/-- The ends have as many paths as there are pipes, and every byte that a path has taken has
been returned or is on its way. -/
structure Conserved (paths : ℕ) (l : Link) : Prop where
  sender : l.sender.paths = paths
  receiver : l.receiver.paths = paths
  pipes : l.pipes.length = paths
  perm : (l.received ++ l.pipes.flatten).Perm l.written

/-- `Write` loses nothing. -/
theorem Conserved.write (h : Conserved paths l) (p : Bytes) : Conserved paths (l.write a p) := by
  have hsends := write_sendTo (a := a) (h.pipes.trans h.sender.symm) p
  refine ⟨h.sender, h.receiver, hsends.length.trans h.pipes, ?_⟩
  have hsent := hsends.perm.append_left l.received
  rw [← List.append_assoc] at hsent
  exact hsent.trans (h.perm.append_right _)

/-- Nor does `Read`. -/
theorem Conserved.read (h : Conserved paths l) (size arrived : ℕ) :
    Conserved paths (l.read a size arrived) := by
  unfold Link.read
  by_cases hpaths : l.receiver.paths = 0
  · rw [if_pos hpaths]
    exact h
  rw [if_neg hpaths]
  cases hidx : index a l.receiver.paths l.receiver.current with
  | none => exact ⟨h.sender, h.receiver, h.pipes, h.perm⟩
  | some idx =>
    dsimp only
    split_ifs
    · exact h
    · have hlt : idx < l.pipes.length := by
        rw [h.pipes, ← h.receiver]
        exact index_lt hpaths hidx
      refine ⟨h.sender, h.receiver, List.length_set.trans h.pipes, ?_⟩
      show (l.received ++ _ ++ (l.pipes.set idx _).flatten).Perm l.written
      have hset := flatten_set_perm hlt ((l.pipes.getD idx []).drop (min size arrived))
      rw [Bytes.drop_length_take, List.append_assoc]
      -- what is left of the pipe is on both sides
      nth_rw 1 [← List.take_append_drop (min size arrived) (l.pipes.getD idx [])] at hset
      rw [List.append_assoc] at hset
      have hcancel := (List.perm_append_left_iff _).1
        ((List.perm_append_comm_assoc _ _ _).trans hset)
      exact (hcancel.append_left l.received).trans h.perm

/-- **No byte is lost**, and none comes twice. -/
theorem perm_run (a : Arch) (paths : ℕ) (es : List Event) :
    Conserved paths (run (step a) (newLink paths) es) := by
  apply run_invariant
  · intro l ev h
    cases ev with
    | write p => exact h.write p
    | read size arrived => exact h.read size arrived
  · refine ⟨rfl, rfl, List.length_replicate, ?_⟩
    show (List.replicate paths ([] : Bytes)).flatten.Perm []
    rw [List.flatten_replicate_nil]

/-! ### The order -/

/-- A `Write` that goes to one path. -/
theorem write_of_small {n idx : ℕ} {r : Aggregator} {w rc p : Bytes} (hn : n ≠ 0)
    (hsmall : p.length ≤ 4096 ∨ n = 1) (hidx : index a n current = some idx) :
    Link.write a ⟨⟨n, current, false⟩, r, pipes, w, rc⟩ p =
      ⟨⟨n, current + 1, false⟩, r, pipes.set idx (pipes.getD idx [] ++ p), w ++ p, rc⟩ := by
  have hwrite : Aggregator.write ⟨n, current, false⟩ sendTo a (p.length + 1) pipes p =
      (.returned p.length none, current + 1, pipes.set idx (pipes.getD idx [] ++ p)) := by
    rw [Aggregator.write, if_neg hn, if_neg Bool.false_ne_true, if_pos hsmall, hidx]
    rfl
  rw [Link.write, hwrite]
  dsimp only [Outcome.taken]
  rw [List.take_length]

/-- A `Read` that finds something. -/
theorem read_of_index {n idx : ℕ} {closed : Bool} {w rc : Bytes} {size arrived : ℕ} (hn : n ≠ 0)
    (hidx : index a n current = some idx) (hb : (pipes.getD idx []).take (min size arrived) ≠ []) :
    Link.read a ⟨g, ⟨n, current, closed⟩, pipes, w, rc⟩ size arrived =
      ⟨g, ⟨n, current + 1, closed⟩, pipes.set idx ((pipes.getD idx []).drop (min size arrived)), w,
        rc ++ (pipes.getD idx []).take (min size arrived)⟩ := by
  rw [Link.read, if_neg hn, hidx]
  dsimp only
  rw [if_neg fun h => hb h.1, Bytes.drop_length_take]

theorem index_one (a : Arch) (current : Int64) : index a 1 current = some 0 := by
  unfold index
  rw [Nat.cast_one, Int.tmod_one]
  rfl

/-- Over a single path, what is on its way comes behind what has been returned. -/
structure InTurn (l : Link) : Prop where
  sender : l.sender.paths = 1
  isOpen : l.sender.closed = false
  receiver : l.receiver.paths = 1
  stream : ∃ pipe, l.pipes = [pipe] ∧ l.received ++ pipe = l.written

theorem InTurn.write (h : InTurn l) (p : Bytes) : InTurn (l.write a p) := by
  obtain ⟨⟨n, current, closed⟩, r, pipes, w, rc⟩ := l
  obtain ⟨rfl, rfl, hr, pipe, rfl, hstream⟩ := h
  show InTurn (Link.write a ⟨⟨1, current, false⟩, r, [pipe], w, rc⟩ p)
  rw [write_of_small Nat.one_ne_zero (.inr rfl) (index_one a current)]
  refine ⟨rfl, rfl, hr, pipe ++ p, rfl, ?_⟩
  exact (List.append_assoc rc pipe p).symm.trans (congrArg (· ++ p) hstream)

theorem InTurn.read (h : InTurn l) (size arrived : ℕ) : InTurn (l.read a size arrived) := by
  obtain ⟨hs, hopen, hr, pipe, hpipes, hstream⟩ := h
  unfold Link.read
  rw [if_neg (by omega), hr, index_one, hpipes]
  dsimp only
  split_ifs
  · exact ⟨hs, hopen, hr, pipe, hpipes, hstream⟩
  · refine ⟨hs, hopen, hr, pipe.drop (min size arrived), ?_, ?_⟩
    · show [pipe.drop (pipe.take (min size arrived)).length] = _
      rw [Bytes.drop_length_take]
    · show l.received ++ pipe.take (min size arrived) ++ _ = l.written
      rw [List.append_assoc, List.take_append_drop, hstream]

/-- **One path** keeps the order. -/
theorem inTurn_run (a : Arch) (es : List Event) : InTurn (run (step a) (newLink 1) es) := by
  apply run_invariant
  · intro l ev h
    cases ev with
    | write p => exact h.write p
    | read size arrived => exact h.read size arrived
  · exact ⟨rfl, rfl, rfl, [], rfl, rfl⟩

/-- Without a path nothing is returned. -/
theorem received_run_zero (a : Arch) (es : List Event) :
    (run (step a) (newLink 0) es).received = [] := by
  have hall : (run (step a) (newLink 0) es).receiver.paths = 0 ∧
      (run (step a) (newLink 0) es).received = [] := by
    apply run_invariant (I := fun l : Link => l.receiver.paths = 0 ∧ l.received = [])
    · intro l ev h
      cases ev with
      | write p => exact h
      | read size arrived =>
        show (l.read a size arrived).receiver.paths = 0 ∧ (l.read a size arrived).received = []
        rw [Link.read, if_pos h.1]
        exact h
    · exact ⟨rfl, rfl⟩
  exact hall.2

/-- Two writes, on the first path and on the second, of which the receiver reads a byte each. -/
def crossing : List Event := [.write [1, 2], .write [3], .read 1 1, .read 1 1]

theorem index_ofNat (a : Arch) (paths : ℕ) (hk : k < 2147483648) :
    index a paths (Int64.ofNat k) = some (k % paths) := by
  unfold index
  rw [Int64.add_sub_cancel, Int64.toInt_ofNat_of_lt (by omega),
    a.int_of_lt (Int.natCast_nonneg k) (by omega), ← Int.ofNat_tmod]
  exact if_neg (Int.not_lt.2 (Int.natCast_nonneg _))

theorem run_crossing (a : Arch) (paths : ℕ) :
    (run (step a) (newLink (paths + 2)) crossing).received = [1, 3] ∧
      (run (step a) (newLink (paths + 2)) crossing).written = [1, 2, 3] := by
  have h0 : index a (paths + 2) 0 = some 0 := by
    have hzero := index_ofNat a (paths + 2) (k := 0) (by decide)
    rw [Nat.zero_mod] at hzero
    exact hzero
  have h1 : index a (paths + 2) (0 + 1) = some 1 := by
    have hmod : 1 % (paths + 2) = 1 := Nat.mod_eq_of_lt (by omega)
    have hone : (0 : Int64) + 1 = Int64.ofNat 1 := by decide
    rw [hone, index_ofNat a (paths + 2) (by decide), hmod]
  have hn : paths + 2 ≠ 0 := Nat.succ_ne_zero _
  have hlink : run (step a) (newLink (paths + 2)) crossing =
      ⟨⟨paths + 2, 0 + 1 + 1, false⟩, ⟨paths + 2, 0 + 1 + 1, false⟩,
        [2] :: [] :: List.replicate paths [], [1, 2, 3], [1, 3]⟩ := by
    show ((((Link.write a ⟨⟨paths + 2, 0, false⟩, ⟨paths + 2, 0, false⟩,
      [] :: [] :: List.replicate paths [], [], []⟩ [1, 2]).write a [3]).read a 1 1).read a 1 1) = _
    rw [write_of_small hn (.inl (by decide)) h0, write_of_small hn (.inl (by decide)) h1,
      read_of_index hn h0, read_of_index hn h1]
    · rfl
    · exact List.cons_ne_nil 3 []
    · exact List.cons_ne_nil 1 []
  rw [hlink]
  exact ⟨rfl, rfl⟩

/-- **The stream over several paths.**  In every run the bytes that `Read` returns are a prefix of
those that `Write` accepts, if and only if there is at most one path. -/
theorem prefix_iff (a : Arch) (paths : ℕ) :
    (∀ es : List Event, (run (step a) (newLink paths) es).received <+:
      (run (step a) (newLink paths) es).written) ↔ paths ≤ 1 := by
  constructor
  · intro hall
    by_contra hmany
    obtain ⟨m, rfl⟩ : ∃ m, paths = m + 2 := ⟨paths - 2, by omega⟩
    obtain ⟨hreceived, hwritten⟩ := run_crossing a m
    have hprefix := hall crossing
    rw [hreceived, hwritten] at hprefix
    exact absurd hprefix (by decide)
  · intro hle es
    rcases Nat.le_one_iff_eq_zero_or_eq_one.1 hle with rfl | rfl
    · rw [received_run_zero]
      exact List.nil_prefix
    · obtain ⟨pipe, -, hstream⟩ := (inTurn_run a es).stream
      exact ⟨pipe, hstream⟩

/-- Over two paths the bytes 1, 2, 3 come out as 1, 3. -/
theorem crossing_out_of_order :
    ¬ (run (step .bits64) (newLink 2) crossing).received <+:
      (run (step .bits64) (newLink 2) crossing).written := by
  obtain ⟨hreceived, hwritten⟩ := run_crossing .bits64 0
  rw [hreceived, hwritten]
  decide

end Aggregation
