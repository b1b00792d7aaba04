/-
# Frames of the gRPC transport

The transport of `internal/transport/grpc.go` carries a byte stream in the bodies of one
HTTP/2 request and its response, cut into frames:

    compressed (1) | length (4) | data

`makeGRPCFrame` and `readGRPCFrame` are the functions of that name.  `sendFrames` is the
client's goroutine that reads the tunnel into a buffer of 32768 bytes and writes a frame for
each read, `downloadFrames` the server's, and `receiveFrames` the one at the other end that
writes the data of each frame.

`readFrames_frames` says how frames are read back, and `relay_conserves` joins the two
goroutines.  The client stops at a write error and the server reads on:
`downloadFrames_of_reliable` and `downloadFrames_unread` are what follows.
-/
import IPShadowT.Stream

open Bytes

namespace GRPC

/-! ## One frame -/

/-- `makeGRPCFrame`: not compressed, the length in four bytes, the data. -/
def makeGRPCFrame (data : Bytes) : Bytes :=
  0 :: (beBytes 4 data.length ++ data)

/-- The errors of `readGRPCFrame`. -/
inductive FrameError where
  | read (e : ReadError)
  | tooLarge (length : ℕ)
  deriving DecidableEq, Repr

/-- The message of an error that `readGRPCFrame` makes itself. -/
def FrameError.message : FrameError → Option String
  | .read _ => none
  | .tooLarge n => some ("gRPC frame too large: " ++ toString n)

/-- The largest frame that `readGRPCFrame` takes. -/
def maxFrame : ℕ := 4 * 1024 * 1024

/-- `readGRPCFrame`: the data of the next frame, and what is left of the stream.  The length
is an `int` of 64 bits here; on a 32-bit build one with its top bit set is negative, passes
the test and makes `make` panic, which is left out. -/
def readGRPCFrame (r : Source) : Except FrameError Bytes × Source :=
  match r.readFull 5 with
  | (.error e, r₁) => (.error (.read e), r₁)
  | (.ok header, r₁) =>
    let length := beNat (header.drop 1)
    if length > maxFrame then (.error (.tooLarge length), r₁)
    else if length = 0 then (.ok [], r₁)
    else
      match r₁.readFull length with
      | (.error e, r₂) => (.error (.read e), r₂)
      | (.ok data, r₂) => (.ok data, r₂)

/-- However the stream is cut, a frame at its head is read back, and what follows the frame
is left. -/
theorem readGRPCFrame_makeGRPCFrame {data more : Bytes} (hlen : data.length ≤ maxFrame)
    {r : Source} (hr : r.flatten = makeGRPCFrame data ++ more) :
    ∃ rest, readGRPCFrame r = (.ok data, rest) ∧ rest.flatten = more := by
  have hnum : beNat (beBytes 4 data.length) = data.length := by
    have hlt : data.length < 256 ^ 4 := hlen.trans_lt (by decide)
    rw [beNat_beBytes, Nat.mod_eq_of_lt hlt]
  have hhead : r.flatten = (0 :: beBytes 4 data.length) ++ (data ++ more) := by
    rw [hr, makeGRPCFrame, List.cons_append, List.cons_append, List.append_assoc]
  obtain ⟨rest₁, hread₁, hrest₁⟩ := Source.readFull_append hhead
  obtain ⟨rest₂, hread₂, hrest₂⟩ := Source.readFull_append hrest₁
  rw [List.length_cons, length_beBytes] at hread₁
  rw [readGRPCFrame, hread₁]
  dsimp only
  rw [List.drop_one, List.tail_cons, hnum, if_neg (Nat.not_lt.2 hlen)]
  by_cases hzero : data.length = 0
  · obtain rfl : data = [] := List.length_eq_zero_iff.1 hzero
    exact ⟨rest₁, by rw [if_pos hzero], hrest₁⟩
  · exact ⟨rest₂, by rw [if_neg hzero, hread₂], hrest₂⟩

/-! ## A sequence of frames -/

/-- `k` reads in a row, stopped by the first error. -/
def readFrames : ℕ → Source → Except FrameError (List Bytes) × Source
  | 0, r => (.ok [], r)
  | k + 1, r =>
    match readGRPCFrame r with
    | (.error e, r₁) => (.error e, r₁)
    | (.ok data, r₁) =>
      match readFrames k r₁ with
      | (.error e, r₂) => (.error e, r₂)
      | (.ok datas, r₂) => (.ok (data :: datas), r₂)

theorem readFrames_succ_ok {k : ℕ} {r r₁ r₂ : Source} {data : Bytes} {datas : List Bytes}
    (hread : readGRPCFrame r = (.ok data, r₁)) (hmore : readFrames k r₁ = (.ok datas, r₂)) :
    readFrames (k + 1) r = (.ok (data :: datas), r₂) := by
  rw [readFrames, hread]
  dsimp only
  rw [hmore]

/-- What a goroutine of the transport can put into one frame: what one `Read` into its
buffer returned. -/
def Sendable (data : Bytes) : Prop := 1 ≤ data.length ∧ data.length ≤ 32768

instance : DecidablePred Sendable := fun _ => inferInstanceAs (Decidable (_ ∧ _))

theorem Sendable.le_maxFrame {data : Bytes} (h : Sendable data) : data.length ≤ maxFrame :=
  h.2.trans (by decide)

/-- **Frames delimit themselves.**  For every sequence of payloads of 1 to 32768 bytes and
every way the concatenated frames are cut, the first `k` reads return the first `k`
payloads and leave exactly the other frames, and whatever follows them. -/
theorem readFrames_frames (chunks : List Bytes) (hchunks : ∀ data ∈ chunks, Sendable data)
    (more : Bytes) (r : Source) (hr : r.flatten = chunks.flatMap makeGRPCFrame ++ more)
    (k : ℕ) (hk : k ≤ chunks.length) :
    ∃ rest, readFrames k r = (.ok (chunks.take k), rest)
      ∧ rest.flatten = (chunks.drop k).flatMap makeGRPCFrame ++ more := by
  -- on the number of reads: each takes one frame off the front
  induction k generalizing chunks r with
  | zero => exact ⟨r, rfl, hr⟩
  | succ k ih =>
    cases chunks with
    | nil => cases hk
    | cons data chunks =>
      rw [List.flatMap_cons, List.append_assoc] at hr
      have hdata : Sendable data := hchunks data (List.mem_cons_self ..)
      have hrest : ∀ d ∈ chunks, Sendable d := fun d hd =>
        hchunks d (List.mem_cons_of_mem _ hd)
      obtain ⟨r₁, hread, hr₁⟩ := readGRPCFrame_makeGRPCFrame hdata.le_maxFrame hr
      obtain ⟨r₂, hmore, hr₂⟩ := ih chunks hrest r₁ hr₁ (Nat.le_of_succ_le_succ hk)
      exact ⟨r₂, readFrames_succ_ok hread hmore, hr₂⟩

/-- Two frames in three pieces, the cuts inside the headers. -/
theorem readFrames_two :
    ∃ rest, readFrames 2 [[0, 0, 0], [0, 2, 7, 8, 0], [0, 0, 0, 1, 9]] = (.ok [[7, 8], [9]], rest)
      ∧ rest.flatten = [] :=
  readFrames_frames [[7, 8], [9]] (by decide) [] [[0, 0, 0], [0, 2, 7, 8, 0], [0, 0, 0, 1, 9]]
    (by decide) 2 (by decide)

/-! ## The two goroutines -/

/-- The client's goroutine from the tunnel to the wire, stopped after `rounds` rounds at the
latest: what it has not read, and the wire. -/
def sendFrames : ℕ → Source → Sink → Source × Sink
  | 0, src, wire => (src, wire)
  | rounds + 1, src, wire =>
    match src.read 32768 with
    | none => (src, wire)
    | some (b, rest) =>
      if b.length > 0 then
        match wire.write (makeGRPCFrame b) with
        | (false, wire') => (rest, wire')
        | (true, wire') => sendFrames rounds rest wire'
      else sendFrames rounds rest wire

/-- The server's goroutine from the tunnel to the wire, which drops the result of `w.Write`. -/
def downloadFrames : ℕ → Source → Sink → Source × Sink
  | 0, src, wire => (src, wire)
  | rounds + 1, src, wire =>
    match src.read 32768 with
    | none => (src, wire)
    | some (b, rest) =>
      if b.length > 0 then downloadFrames rounds rest (wire.write (makeGRPCFrame b)).2
      else downloadFrames rounds rest wire

/-- The goroutine from the wire to the tunnel. -/
def receiveFrames : ℕ → Source → Sink → Sink
  | 0, _, out => out
  | rounds + 1, r, out =>
    match readGRPCFrame r with
    | (.error _, _) => out
    | (.ok data, r₁) =>
      match out.write data with
      | (false, out') => out'
      | (true, out') => receiveFrames rounds r₁ out'

/-- While no write fails the two senders do the same. -/
theorem downloadFrames_of_reliable (rounds : ℕ) (src : Source) {wire : Sink}
    (hwire : wire.Reliable) : downloadFrames rounds src wire = sendFrames rounds src wire := by
  induction rounds generalizing src wire with
  | zero => rfl
  | succ rounds ih =>
    rw [downloadFrames, sendFrames]
    rcases src.read 32768 with _ | ⟨b, rest⟩
    · rfl
    have hnext : Sink.Reliable ⟨wire.written ++ makeGRPCFrame b, []⟩ := rfl
    dsimp only
    rw [Sink.write_of_reliable hwire, ih rest hwire]
    dsimp only
    rw [ih rest hnext]

/-- The server reads the tunnel at the same pace whatever becomes of its writes, so what a
failed one has not sent is lost. -/
theorem downloadFrames_unread (rounds : ℕ) (src : Source) (wire wire' : Sink) :
    (downloadFrames rounds src wire).1 = (downloadFrames rounds src wire').1 := by
  induction rounds generalizing src wire wire' with
  | zero => rfl
  | succ rounds ih =>
    rw [downloadFrames, downloadFrames]
    rcases src.read 32768 with _ | ⟨b, rest⟩
    · rfl
    dsimp only
    split_ifs
    · exact ih rest _ _
    · exact ih rest _ _

/-- What is on the wire are frames of payloads that a goroutine can send, and those payloads
and what has not been read make up the stream. -/
theorem sendFrames_conserves (rounds : ℕ) (src : Source) {wire : Sink} (hwire : wire.Reliable) :
    ∃ chunks : List Bytes, (∀ data ∈ chunks, Sendable data)
      ∧ (sendFrames rounds src wire).2.written
          = wire.written ++ chunks.flatMap makeGRPCFrame
      ∧ chunks.flatten ++ (sendFrames rounds src wire).1.flatten = src.flatten := by
  induction rounds generalizing src wire with
  | zero => exact ⟨[], by simp, by simp [sendFrames], by simp [sendFrames]⟩
  | succ rounds ih =>
    rw [sendFrames]
    rcases hread : src.read 32768 with _ | ⟨b, rest⟩
    · exact ⟨[], by simp, by simp, by simp⟩
    have hsplit : b ++ rest.flatten = src.flatten := Source.read_eq_some hread
    dsimp only
    split_ifs with hpos
    · have hnext : Sink.Reliable ⟨wire.written ++ makeGRPCFrame b, []⟩ := rfl
      obtain ⟨chunks, hchunks, hwritten, hrest⟩ := ih rest hnext
      have hb : Sendable b := ⟨hpos, Source.length_le_of_read_eq_some hread⟩
      rw [Sink.write_of_reliable hwire]
      refine ⟨b :: chunks, List.forall_mem_cons.2 ⟨hb, hchunks⟩, ?_, ?_⟩
      · rw [List.flatMap_cons, ← List.append_assoc]
        exact hwritten
      · rw [List.flatten_cons, List.append_assoc, hrest, hsplit]
    · -- a `Read` that returned nothing sends no frame
      obtain ⟨chunks, hchunks, hwritten, hrest⟩ := ih rest hwire
      obtain rfl : b = [] := List.eq_nil_of_length_eq_zero (by omega)
      exact ⟨chunks, hchunks, hwritten, hrest.trans hsplit⟩

/-- The other goroutine writes the payloads of the frames, in order, and stops at the end of
the stream. -/
theorem receiveFrames_frames {chunks : List Bytes} (hchunks : ∀ data ∈ chunks, Sendable data)
    {r : Source} (hr : r.flatten = chunks.flatMap makeGRPCFrame) {out : Sink}
    (hout : out.Reliable) {rounds : ℕ} (hrounds : chunks.length ≤ rounds) :
    (receiveFrames rounds r out).written = out.written ++ chunks.flatten := by
  induction chunks generalizing r out rounds with
  | nil =>
    cases rounds with
    | zero => simp [receiveFrames]
    | succ rounds =>
      rw [receiveFrames, readGRPCFrame, Source.readFull_of_flatten_eq_nil hr]
      simp
  | cons data chunks ih =>
    obtain ⟨rounds, rfl⟩ : ∃ k, rounds = k + 1 := Nat.exists_eq_succ_of_ne_zero (by
      rw [List.length_cons] at hrounds
      omega)
    obtain ⟨hdata, hrest⟩ := List.forall_mem_cons.1 hchunks
    rw [List.flatMap_cons] at hr
    obtain ⟨r₁, hread, hr₁⟩ := readGRPCFrame_makeGRPCFrame hdata.le_maxFrame hr
    have hnext : Sink.Reliable ⟨out.written ++ data, []⟩ := rfl
    rw [receiveFrames, hread]
    dsimp only
    rw [Sink.write_of_reliable hout]
    dsimp only
    rw [ih hrest hr₁ hnext (Nat.le_of_succ_le_succ hrounds), List.flatten_cons, List.append_assoc]

/-- **The two goroutines lose nothing.**  Stop the sender whenever you like and cut what it
has put on the wire as you like: once the receiver has run for long enough, what it has
written and what the sender has not read make up the stream. -/
theorem relay_conserves (rounds : ℕ) (src r : Source) {out : Sink} (hout : out.Reliable)
    (hr : r.flatten = (sendFrames rounds src ⟨[], []⟩).2.written) :
    ∃ enough, ∀ rounds', enough ≤ rounds' →
      (receiveFrames rounds' r out).written ++ (sendFrames rounds src ⟨[], []⟩).1.flatten
        = out.written ++ src.flatten := by
  have hwire : Sink.Reliable ⟨[], []⟩ := rfl
  obtain ⟨chunks, hchunks, hwritten, hrest⟩ := sendFrames_conserves rounds src hwire
  rw [hwritten, List.nil_append] at hr
  refine ⟨chunks.length, fun rounds' hrounds => ?_⟩
  rw [receiveFrames_frames hchunks hr hout hrounds, List.append_assoc, hrest]

/-- The sender is stopped after the first of two reads. -/
theorem relay_conserves_oneRead :
    ∃ enough, ∀ rounds, enough ≤ rounds →
      (receiveFrames rounds [(sendFrames 1 [[1, 2], [3]] ⟨[], []⟩).2.written] ⟨[], []⟩).written
        ++ (sendFrames 1 [[1, 2], [3]] ⟨[], []⟩).1.flatten = [1, 2, 3] :=
  relay_conserves 1 [[1, 2], [3]] _ rfl (List.flatten_singleton ..)

end GRPC
