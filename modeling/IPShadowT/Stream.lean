/-
# Byte streams as Go readers and writers see them

A `Source` is what a peer will deliver through an `io.Reader`: the pieces, in
order, that successive `Read` calls return, followed by end of stream.  How the
network cut the stream is part of the value, so a statement over every `Source`
with a given concatenation is a statement over every segmentation.

`readFull` is `io.ReadFull`.  `readFull_of_le` says that, where there is enough to read,
its result depends on the concatenation only, and that it consumes exactly what it
returns.

A `Sink` is an `io.Writer` with a script of the failures it will produce, and `copy` is
`io.Copy` from the one to the other, which may be stopped; `copyAll` is one that is not.
-/
import IPShadowT.Bytes

/-! ## Readers -/

/-- The pieces a reader delivers, in order; then end of stream. -/
abbrev Source := List Bytes

/-- The errors of `io.ReadFull`. -/
inductive ReadError where
  | eof
  | unexpectedEOF
  deriving DecidableEq, Repr

namespace Source

/-- The loop of `io.ReadAtLeast`: `got` has been read and `n` bytes are missing.
A `Read` returns at most what was asked for and leaves the rest of the piece. -/
def readLoop (got : Bytes) : ℕ → Source → Except ReadError Bytes × Source
  | 0, src => (.ok got, src)
  | _ + 1, [] => (.error (if got = [] then .eof else .unexpectedEOF), [])
  | n + 1, c :: cs =>
    if c.length ≤ n + 1 then readLoop (got ++ c) (n + 1 - c.length) cs
    else (.ok (got ++ c.take (n + 1)), c.drop (n + 1) :: cs)

/-- `io.ReadFull(r, buf)` with a buffer of `n` bytes. -/
def readFull (n : ℕ) (src : Source) : Except ReadError Bytes × Source :=
  readLoop [] n src

/-- When enough bytes are left, the loop returns the next `n` of them and leaves
the others. -/
theorem readLoop_of_le (got : Bytes) (n : ℕ) (src : Source) (h : n ≤ src.flatten.length) :
    ∃ rest, readLoop got n src = (.ok (got ++ src.flatten.take n), rest)
      ∧ rest.flatten = src.flatten.drop n := by
  induction src generalizing got n with
  | nil =>
    obtain rfl : n = 0 := by simpa using h
    exact ⟨[], by simp [readLoop], by simp⟩
  | cons c cs ih =>
    cases n with
    | zero => exact ⟨c :: cs, by simp [readLoop], by simp⟩
    | succ n =>
      rw [List.flatten_cons, List.length_append] at h
      rw [readLoop, List.flatten_cons, List.take_append, List.drop_append]
      by_cases hc : c.length ≤ n + 1
      · obtain ⟨rest, hres, hrest⟩ := ih (got ++ c) (n + 1 - c.length) (by omega)
        refine ⟨rest, ?_, ?_⟩
        · rw [if_pos hc, hres, List.take_of_length_le hc, List.append_assoc]
        · rw [hrest, List.drop_of_length_le hc, List.nil_append]
      · refine ⟨c.drop (n + 1) :: cs, ?_, ?_⟩
        · rw [if_neg hc, show n + 1 - c.length = 0 by omega, List.take_zero, List.append_nil]
        · rw [List.flatten_cons, show n + 1 - c.length = 0 by omega, List.drop_zero]

/-- When too few are left, the loop takes them all and fails. -/
theorem readLoop_of_lt (got : Bytes) (n : ℕ) (src : Source) (h : src.flatten.length < n) :
    readLoop got n src
      = (.error (if got ++ src.flatten = [] then .eof else .unexpectedEOF), []) := by
  induction src generalizing got n with
  | nil =>
    cases n with
    | zero => cases h
    | succ n => rw [readLoop, List.flatten_nil, List.append_nil]
  | cons c cs ih =>
    rw [List.flatten_cons, List.length_append] at h
    cases n with
    | zero => cases h
    | succ n =>
      rw [readLoop, if_pos (by omega), ih _ _ (by omega), List.flatten_cons, List.append_assoc]

/-- **`io.ReadFull` on a long enough stream**, however it is cut. -/
theorem readFull_of_le (n : ℕ) (src : Source) (h : n ≤ src.flatten.length) :
    ∃ rest, readFull n src = (.ok (src.flatten.take n), rest)
      ∧ rest.flatten = src.flatten.drop n := by
  simpa [readFull] using readLoop_of_le [] n src h

variable {n : ℕ} {src rest : Source} {b : Bytes}

/-- What `io.ReadFull` returns is what the stream starts with. -/
theorem readFull_eq_ok (h : readFull n src = (.ok b, rest)) :
    n ≤ src.flatten.length ∧ b = src.flatten.take n ∧ rest.flatten = src.flatten.drop n := by
  have hle : n ≤ src.flatten.length := by
    by_contra hlt
    rw [readFull, readLoop_of_lt _ _ _ (not_le.1 hlt)] at h
    cases h
  obtain ⟨rest', hread, hrest⟩ := readFull_of_le n src hle
  rw [h] at hread
  obtain ⟨hb, rfl⟩ := Prod.mk.inj hread
  exact ⟨hle, Except.ok.inj hb, hrest⟩

/-- `io.ReadFull` takes a field off the front of the stream. -/
theorem readFull_append {src : Source} {field later : Bytes} (h : src.flatten = field ++ later) :
    ∃ rest, readFull field.length src = (.ok field, rest) ∧ rest.flatten = later := by
  have hle : field.length ≤ src.flatten.length := by
    rw [h, List.length_append]
    omega
  obtain ⟨rest, hread, hrest⟩ := readFull_of_le field.length src hle
  rw [h, List.take_left] at hread
  rw [h, List.drop_left] at hrest
  exact ⟨rest, hread, hrest⟩

/-- At the end of the stream `io.ReadFull` says so. -/
theorem readFull_of_flatten_eq_nil {src : Source} (h : src.flatten = []) (n : ℕ) :
    readFull (n + 1) src = (.error .eof, []) := by
  have hlt : src.flatten.length < n + 1 := by
    rw [h]
    exact Nat.succ_pos n
  rw [readFull, readLoop_of_lt _ _ _ hlt, h]
  rfl

/-- The loop fails at the end of the stream only. -/
theorem readLoop_eq_error {got : Bytes} {e : ReadError} (h : readLoop got n src = (.error e, rest))
    : src.flatten.length < n ∧ rest = [] := by
  by_cases hle : n ≤ src.flatten.length
  · obtain ⟨rest', hread, -⟩ := readLoop_of_le got n src hle
    rw [hread] at h
    cases h
  · rw [readLoop_of_lt _ _ _ (not_le.1 hle)] at h
    exact ⟨not_le.1 hle, (Prod.mk.inj h).2.symm⟩

/-- What a buffer of `n` zero bytes holds after `io.ReadFull`, which copies what it reads to
the front of the buffer, be it enough or not. -/
def buffered (n : ℕ) (src : Source) : Bytes := (src.flatten ++ List.replicate n 0).take n

@[simp] theorem length_buffered (n : ℕ) (src : Source) : (buffered n src).length = n := by
  rw [buffered, List.length_take, List.length_append, List.length_replicate]
  omega

theorem buffered_of_le {src : Source} (h : n ≤ src.flatten.length) :
    buffered n src = src.flatten.take n := by
  rw [buffered, List.take_append_of_le_length h]

/-- The buffer and what is left unread make up the stream, if there is enough to fill the
buffer, and are too long otherwise. -/
theorem buffered_append_iff {r : Except ReadError Bytes} (h : readFull n src = (r, rest)) :
    buffered n src ++ rest.flatten = src.flatten ↔ n ≤ src.flatten.length := by
  constructor
  · intro heq
    have hlen := congrArg List.length heq
    rw [List.length_append, length_buffered] at hlen
    omega
  · intro hle
    obtain ⟨rest', hread, hrest⟩ := readFull_of_le n src hle
    rw [h] at hread
    obtain ⟨-, rfl⟩ := Prod.mk.inj hread
    rw [buffered_of_le hle, hrest, List.take_append_drop]

/-- One `Read` with a buffer of `n` bytes; `none` at the end of the stream. -/
def read (n : ℕ) : Source → Option (Bytes × Source)
  | [] => none
  | c :: cs => if c.length ≤ n then some (c, cs) else some (c.take n, c.drop n :: cs)

theorem read_cons_of_le {c : Bytes} (h : c.length ≤ n) (cs : Source) :
    read n (c :: cs) = some (c, cs) :=
  if_pos h

/-- A `Read` loses nothing. -/
theorem read_eq_some (h : read n src = some (b, rest)) : b ++ rest.flatten = src.flatten := by
  cases src with
  | nil => cases h
  | cons c cs =>
    rw [read] at h
    split_ifs at h
    · cases h
      rfl
    · cases h
      rw [List.flatten_cons, ← List.append_assoc, List.take_append_drop, List.flatten_cons]

/-- A `Read` returns at most what the buffer holds. -/
theorem length_le_of_read_eq_some (h : read n src = some (b, rest)) : b.length ≤ n := by
  cases src with
  | nil => cases h
  | cons c cs =>
    rw [read] at h
    split_ifs at h with hc
    · cases h
      exact hc
    · cases h
      exact List.length_take_le ..

end Source

/-! ## Writers -/

/-- A writer: what it has taken so far, and what the coming `Write` calls do.
`none` takes the whole buffer, `some k` takes at most `k` bytes and fails; past
the end of the script every write succeeds. -/
structure Sink where
  written : Bytes
  script : List (Option ℕ)
  deriving DecidableEq, Repr

namespace Sink

/-- `w.Write(b)`: whether it succeeded, and the writer afterwards. -/
def write (s : Sink) (b : Bytes) : Bool × Sink :=
  match s.script with
  | [] => (true, { s with written := s.written ++ b })
  | none :: script => (true, ⟨s.written ++ b, script⟩)
  | some k :: script => (false, ⟨s.written ++ b.take k, script⟩)

/-- A writer that never fails. -/
def Reliable (s : Sink) : Prop := s.script = []

variable {s : Sink}

theorem write_of_reliable (h : s.Reliable) (b : Bytes) :
    s.write b = (true, ⟨s.written ++ b, []⟩) := by
  obtain ⟨written, script⟩ := s
  obtain rfl : script = [] := h
  rfl

/-- What a write takes is at the front of the buffer, and all of it if there is no error. -/
theorem write_sent (s : Sink) (b : Bytes) :
    ∃ sent, sent <+: b ∧ (s.write b).2.written = s.written ++ sent ∧
      ((s.write b).1 = true → sent = b) := by
  unfold write
  rcases s.script with _ | ⟨_ | k, script⟩
  · exact ⟨b, List.prefix_refl b, rfl, fun _ => rfl⟩
  · exact ⟨b, List.prefix_refl b, rfl, fun _ => rfl⟩
  · exact ⟨b.take k, List.take_prefix k b, rfl, nofun⟩

/-- No write that is still to come will fail. -/
def NeverFails (s : Sink) : Prop := ∀ k, some k ∉ s.script

/-- None of the next `n` writes fails. -/
def Lasts (s : Sink) (n : ℕ) : Prop := ∀ r ∈ s.script.take n, r = none

instance (s : Sink) (n : ℕ) : Decidable (s.Lasts n) :=
  inferInstanceAs (Decidable (∀ r ∈ s.script.take n, r = none))

/-- One write, and the others. -/
theorem lasts_succ (s : Sink) (b : Bytes) (n : ℕ) :
    s.Lasts (n + 1) ↔ (s.write b).1 = true ∧ (s.write b).2.Lasts n := by
  obtain ⟨written, script⟩ := s
  rcases script with _ | ⟨_ | k, script⟩ <;> simp [Lasts, write]

theorem NeverFails.lasts (h : s.NeverFails) (n : ℕ) : s.Lasts n := by
  intro r hr
  cases r with
  | none => rfl
  | some k => exact absurd (List.mem_of_mem_take hr) (h k)

theorem Reliable.neverFails (h : s.Reliable) : s.NeverFails := by
  intro k hk
  rw [h] at hk
  cases hk

end Sink

/-! ## Copying -/

/-- `io.Copy`, stopped after `rounds` rounds at the latest. -/
def Source.copy : ℕ → Source → Sink → Source × Sink
  | 0, src, out => (src, out)
  | rounds + 1, src, out =>
    match src.read 32768 with
    | none => (src, out)
    | some (b, rest) =>
      match out.write b with
      | (false, out') => (rest, out')
      | (true, out') => Source.copy rounds rest out'

variable {out : Sink}

/-- Whenever it is stopped, what has been written and what has not been read make up what
there was. -/
theorem Source.copy_conserves (rounds : ℕ) (src : Source) (h : out.Reliable) :
    (Source.copy rounds src out).2.written ++ (Source.copy rounds src out).1.flatten
      = out.written ++ src.flatten := by
  induction rounds generalizing src out with
  | zero => rfl
  | succ rounds ih =>
    rw [Source.copy]
    rcases hread : src.read 32768 with _ | ⟨b, rest⟩
    · rfl
    · have hnext : Sink.Reliable ⟨out.written ++ b, []⟩ := rfl
      dsimp only
      rw [Sink.write_of_reliable h]
      dsimp only
      rw [ih rest hnext, List.append_assoc, read_eq_some hread]

/-- `io.Copy` to the end of the stream: no more rounds are needed than there are bytes and
pieces. -/
def Source.copyAll (src : Source) (out : Sink) : Sink :=
  (Source.copy (src.flatten.length + src.length) src out).2

/-- Within that many rounds the stream is at its end. -/
theorem Source.copy_ends (rounds : ℕ) (src : Source) (h : out.Reliable)
    (hrounds : src.flatten.length + src.length ≤ rounds) :
    (Source.copy rounds src out).1 = [] := by
  induction rounds generalizing src out with
  | zero =>
    show src = []
    exact List.eq_nil_of_length_eq_zero (by omega)
  | succ rounds ih =>
    have hnext : ∀ b, Sink.Reliable ⟨out.written ++ b, []⟩ := fun _ => rfl
    rw [Source.copy]
    cases src with
    | nil => rfl
    | cons c cs =>
      rw [List.flatten_cons, List.length_append, List.length_cons] at hrounds
      rw [Source.read]
      by_cases hc : c.length ≤ 32768
      · rw [if_pos hc]
        dsimp only
        rw [Sink.write_of_reliable h]
        exact ih cs (hnext _) (by omega)
      · rw [if_neg hc]
        dsimp only
        rw [Sink.write_of_reliable h]
        refine ih _ (hnext _) ?_
        rw [List.flatten_cons, List.length_append, List.length_drop, List.length_cons]
        omega

/-- **`io.Copy` writes the whole stream.** -/
theorem Source.copyAll_written (src : Source) (h : out.Reliable) :
    (src.copyAll out).written = out.written ++ src.flatten := by
  have hconserves := Source.copy_conserves (src.flatten.length + src.length) src h
  rwa [Source.copy_ends _ src h (Nat.le_refl _), List.flatten_nil, List.append_nil] at hconserves
