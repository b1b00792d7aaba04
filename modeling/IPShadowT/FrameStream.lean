/-
# Streams of encrypted frames

`ReadEncryptedFrame` of `internal/crypto/aead.go`, and what the two writers of
encrypted frames put on one connection.  On the wire a frame has its length in front:

    length (4)  |  nonce (24)  |  sealed length (2 + 16)  |  sealed payload (N + 16)

One frame is read back however the stream is cut (`readEncryptedFrame_sent`), and so is
a list of them (`read_back_sent`).  Payloads are limited to 65519 bytes, the longest that
`Decrypt` opens.
-/
import IPShadowT.SealTrace

open Bytes Runs

/-- A failure with its error translated. -/
def Fault.map {ε ε' : Type} (f : ε → ε') : Fault ε → Fault ε'
  | .error e => .error (f e)
  | .panic => .panic

namespace Encryptor

/-! ## Reading a frame -/

/-- `HeaderSize`. -/
def headerSize : ℕ := nonceSize + lengthSize + tagSize

/-- The errors of `ReadEncryptedFrame`: those of the reader and of `Decrypt`, and one of
its own. -/
inductive FrameError where
  | read (e : ReadError)
  | tooLarge
  | decrypt (e : CryptoError)
  deriving DecidableEq, Repr

/-- The message of an error that `aead.go` makes itself. -/
def FrameError.message : FrameError → Option String
  | .read _ => none
  | .tooLarge => some "frame too large"
  | .decrypt e => e.message

/-- `ReadEncryptedFrame`: the payload, and what is left of the stream. -/
def readEncryptedFrame (A : Aead) (reader : Source) : Go FrameError Bytes × Source :=
  match reader.readFull 4 with
  | (.error e, reader₁) => (.error (.error (.read e)), reader₁)
  | (.ok lenBuf, reader₁) =>
    let frameLen := beNat lenBuf
    if frameLen > maxPayloadSize + headerSize + 100 then
      (.error (.error .tooLarge), reader₁)
    else
      match reader₁.readFull frameLen with
      | (.error e, reader₂) => (.error (.error (.read e)), reader₂)
      | (.ok frame, reader₂) => ((decrypt A frame).mapError (Fault.map .decrypt), reader₂)

/-- `k` calls of `ReadEncryptedFrame` on one reader. -/
def readFrames (A : Aead) : ℕ → Source → List (Go FrameError Bytes) × Source
  | 0, reader => ([], reader)
  | k + 1, reader =>
    let (payload, reader₁) := readEncryptedFrame A reader
    let (payloads, reader₂) := readFrames A k reader₁
    (payload :: payloads, reader₂)

/-! ## Writing frames -/

/-- A call that writes a frame on the connection. -/
inductive Send where
  | write (p : Bytes)
  | writeEncryptedFrame (data : Bytes)
  deriving DecidableEq, Repr

/-- What the call sends. -/
def Send.payload : Send → Bytes
  | .write p => p
  | .writeEncryptedFrame data => data

/-- The `Encryptor` and the connection after a call. -/
def sendStep (A : Aead) (rand : ℕ → Option Nonce) (s : World × Sink) : Send → World × Sink
  | .write p => (write A rand p s.1 s.2).2
  | .writeEncryptedFrame data => (writeEncryptedFrame A rand data s.1 s.2).2

/-- Everything that a list of calls puts on a connection that takes all it is given, with
a random source that does not fail. -/
def sent (A : Aead) (rand : ℕ → Nonce) (w : World) (sends : List Send) : Bytes :=
  (run (sendStep A fun i => some (rand i)) (w, ⟨[], []⟩) sends).2.written

/-! ## What is on the wire -/

/-- The frame with its length in front. -/
def wire (A : Aead) (nonce : Nonce) (p : Bytes) : Bytes :=
  beBytes 4 (frameOf A nonce p).length ++ frameOf A nonce p

/-- The frames of a list of calls, when the random source has been read `d` times. -/
def wires (A : Aead) (rand : ℕ → Nonce) : ℕ → List Send → Bytes
  | _, [] => []
  | d, s :: sends => wire A (rand d) s.payload ++ wires A rand (d + 1) sends

variable {sends : List Send} {reader : Source}

section Wire

variable {A : Aead}

/-- What a successful call does to the `Encryptor` and to the connection. -/
theorem sendFrame_of_accepts (A : Aead) {rand : ℕ → Option Nonce} {w : World} {p : Bytes}
    {nonce : Nonce} (h : Accepts rand w p nonce) (out : Bytes) :
    sendFrame A rand p w ⟨out, []⟩
      = (.ok (), ⟨w.draws + 1, w.seals ++ [⟨nonce, beBytes lengthSize p.length⟩, ⟨nonce, p⟩]⟩,
          ⟨out ++ wire A nonce p, []⟩) := by
  rw [sendFrame, encrypt_of_accepts A h]
  simp only [Sink.write, wire, frameOf, List.append_assoc]

theorem sendStep_of_accepts (A : Aead) {rand : ℕ → Option Nonce} {w : World} {s : Send}
    {nonce : Nonce} (h : Accepts rand w s.payload nonce) (out : Bytes) :
    sendStep A rand (w, ⟨out, []⟩) s
      = (⟨w.draws + 1, w.seals ++ [⟨nonce, beBytes lengthSize s.payload.length⟩,
            ⟨nonce, s.payload⟩]⟩, ⟨out ++ wire A nonce s.payload, []⟩) := by
  cases s with
  | write p =>
    have hsend := sendFrame_of_accepts A h out
    simp only [Send.payload] at hsend
    simp only [sendStep, write, hsend, Send.payload]
  | writeEncryptedFrame data =>
    have hsend := sendFrame_of_accepts A h out
    simp only [Send.payload] at hsend
    simp only [sendStep, writeEncryptedFrame, hsend, Send.payload]

/-- **The stream of a list of calls**: frame after frame. -/
theorem run_sendStep_written (A : Aead) (rand : ℕ → Nonce) (w : World) (out : Bytes)
    (hlen : ∀ s ∈ sends, s.payload.length ≤ maxPayloadSize) :
    (run (sendStep A fun i => some (rand i)) (w, ⟨out, []⟩) sends).2.written
      = out ++ wires A rand w.draws sends := by
  induction sends generalizing w out with
  | nil => simp [wires]
  | cons s sends ih =>
    have haccepts : Accepts (fun i => some (rand i)) w s.payload (rand w.draws) :=
      ⟨hlen s List.mem_cons_self, rfl⟩
    rw [run_cons, sendStep_of_accepts A haccepts, ih _ _ fun t ht =>
      hlen t (List.mem_cons_of_mem s ht), wires, List.append_assoc]

theorem sent_eq_wires (A : Aead) (rand : ℕ → Nonce) (w : World)
    (hlen : ∀ s ∈ sends, s.payload.length ≤ maxPayloadSize) :
    sent A rand w sends = wires A rand w.draws sends := by
  rw [sent, run_sendStep_written A rand w [] hlen, List.nil_append]

theorem wires_append (A : Aead) (rand : ℕ → Nonce) (d : ℕ) (sends later : List Send) :
    wires A rand d (sends ++ later)
      = wires A rand d sends ++ wires A rand (d + sends.length) later := by
  induction sends generalizing d with
  | nil => rfl
  | cons s sends ih =>
    rw [List.cons_append, wires, wires, ih, List.append_assoc, List.length_cons,
      Nat.add_assoc, Nat.add_comm 1]

end Wire

/-! ## Reading it back -/

section ReadBack

variable {A : Aead}

/-- `Decrypt` opens the frames of payloads up to 65519 bytes. -/
theorem decrypt_frame_eq_ok (hA : A.Correct) (nonce : Nonce) {p : Bytes}
    (hp : p.length ≤ 65519) : decrypt A (frameOf A nonce p) = .ok p := by
  have haccepted := decrypt_frameOf_append hA nonce.2 (Nat.lt_succ_of_le hp) []
  rwa [List.append_nil] at haccepted

/-- **One frame**, however the stream is cut: the payload comes back, and the reader is
left at the end of the frame. -/
theorem readEncryptedFrame_sent (hA : A.Correct) (nonce : Nonce) {p later : Bytes}
    (hp : p.length ≤ 65519) (hreader : reader.flatten = wire A nonce p ++ later) :
    ∃ rest, readEncryptedFrame A reader = (.ok p, rest) ∧ rest.flatten = later := by
  have hlen : (frameOf A nonce p).length = 24 + 34 + p.length := by
    rw [length_frameOf hA.addsTag, nonce.2]
    rfl
  rw [wire, List.append_assoc] at hreader
  obtain ⟨rest₁, hread₁, hrest₁⟩ := Source.readFull_append hreader
  obtain ⟨rest₂, hread₂, hrest₂⟩ := Source.readFull_append hrest₁
  rw [length_beBytes] at hread₁
  -- the length fits into four bytes, and below the limit of the reader
  have hnum : beNat (beBytes 4 (frameOf A nonce p).length) = (frameOf A nonce p).length := by
    rw [beNat_beBytes]
    exact Nat.mod_eq_of_lt (by omega)
  have hfits : ¬ (frameOf A nonce p).length > maxPayloadSize + headerSize + 100 := by
    rw [hlen]
    show ¬ 24 + 34 + p.length > 65535 + (24 + 2 + 16) + 100
    omega
  refine ⟨rest₂, ?_, hrest₂⟩
  rw [readEncryptedFrame, hread₁]
  dsimp only
  rw [hnum, if_neg hfits, hread₂]
  dsimp only
  rw [decrypt_frame_eq_ok hA nonce hp]
  rfl

/-- A prefix of the frames: `k` calls return the first payloads and consume their frames
exactly. -/
theorem readFrames_sent (hA : A.Correct) (rand : ℕ → Nonce) (d : ℕ)
    (hlen : ∀ s ∈ sends, s.payload.length ≤ 65519) {later : Bytes}
    (hreader : reader.flatten = wires A rand d sends ++ later) :
    ∃ rest, readFrames A sends.length reader = (sends.map fun s => .ok s.payload, rest)
      ∧ rest.flatten = later := by
  induction sends generalizing d reader with
  | nil => exact ⟨reader, rfl, hreader⟩
  | cons s sends ih =>
    rw [wires, List.append_assoc] at hreader
    obtain ⟨rest₁, hread, hrest₁⟩ :=
      readEncryptedFrame_sent hA (rand d) (hlen s List.mem_cons_self) hreader
    obtain ⟨rest, hreads, hrest⟩ :=
      ih (d + 1) (fun t ht => hlen t (List.mem_cons_of_mem s ht)) hrest₁
    refine ⟨rest, ?_, hrest⟩
    rw [List.length_cons, readFrames, hread]
    dsimp only
    rw [hreads, List.map_cons]

theorem readEncryptedFrame_eof (A : Aead) (h : reader.flatten = []) :
    (readEncryptedFrame A reader).1 = .error (.error (.read .eof)) := by
  rw [readEncryptedFrame, Source.readFull_of_flatten_eq_nil h 3]

/-- **A stream of frames is read back.**  For all payloads of at most 65519 bytes, sent by
either writer in any order, and every way the stream is delivered: `k` calls of
`ReadEncryptedFrame` return the first `k` payloads and consume what the first `k` calls
wrote and nothing else; when all have been read, the next call reports the end of the
stream. -/
theorem read_back_sent (hA : A.Correct) (rand : ℕ → Nonce) (w : World) (sends : List Send)
    (hlen : ∀ s ∈ sends, s.payload.length ≤ 65519) (reader : Source)
    (hreader : reader.flatten = sent A rand w sends) :
    (∀ k ≤ sends.length,
        (readFrames A k reader).1 = (sends.take k).map (fun s => .ok s.payload)
          ∧ sent A rand w (sends.take k) ++ (readFrames A k reader).2.flatten
              = sent A rand w sends)
      ∧ (readEncryptedFrame A (readFrames A sends.length reader).2).1
          = .error (.error (.read .eof)) := by
  have hmax : ∀ s ∈ sends, s.payload.length ≤ maxPayloadSize := fun s hs =>
    (hlen s hs).trans (by decide)
  have hprefixes : ∀ k ≤ sends.length,
      ∃ rest, readFrames A k reader = ((sends.take k).map (fun s => .ok s.payload), rest)
        ∧ rest.flatten = wires A rand (w.draws + k) (sends.drop k) := by
    intro k hk
    have hsplit : reader.flatten = wires A rand w.draws (sends.take k)
        ++ wires A rand (w.draws + k) (sends.drop k) := by
      have happ := wires_append A rand w.draws (sends.take k) (sends.drop k)
      rw [List.take_append_drop, List.length_take_of_le hk] at happ
      rw [hreader, sent_eq_wires A rand w hmax, happ]
    have hread := readFrames_sent hA rand w.draws
      (fun s hs => hlen s (List.mem_of_mem_take hs)) hsplit
    rwa [List.length_take_of_le hk] at hread
  constructor
  · intro k hk
    obtain ⟨rest, hread, hrest⟩ := hprefixes k hk
    rw [hread]
    refine ⟨rfl, ?_⟩
    have happ := wires_append A rand w.draws (sends.take k) (sends.drop k)
    rw [List.take_append_drop, List.length_take_of_le hk] at happ
    rw [sent_eq_wires A rand w hmax, happ, hrest,
      sent_eq_wires A rand w fun s hs => hmax s (List.mem_of_mem_take hs)]
  · obtain ⟨rest, hread, hrest⟩ := hprefixes sends.length le_rfl
    rw [hread]
    refine readEncryptedFrame_eof A ?_
    rw [hrest, List.drop_length]
    rfl

/-- Two frames, one by either writer, that arrive byte by byte. -/
theorem read_back_two_frames :
    (readFrames tagCipher 2 ((sent tagCipher (fun _ => zeroNonce) ⟨0, []⟩
        [.write [104, 105], .writeEncryptedFrame []]).map fun b => [b])).1
      = [.ok [104, 105], .ok []] := by
  have hback := read_back_sent tagCipher_correct (fun _ => zeroNonce) ⟨0, []⟩
    [.write [104, 105], .writeEncryptedFrame []] (by decide)
    ((sent tagCipher (fun _ => zeroNonce) ⟨0, []⟩
      [.write [104, 105], .writeEncryptedFrame []]).map fun b => [b])
    (List.flatMap_singleton' _)
  exact (hback.1 2 le_rfl).1

end ReadBack

end Encryptor
