/-
# The destination header of a forwarded stream

A stream through the tunnel starts with the address the server is to connect to.
`readDestHeader` is `ReadDestHeader` of `internal/tunnel/header.go`, and
`handleStream` the use that `Server.handleStream` makes of it: read the header,
dial, relay the rest.

`forwardPacket` is what `UDPForwarder.forwardPacket` of `internal/tunnel/udp.go`
writes on such a stream.  Its header has a layout of its own, with a type marker
in front:

    read:     length (2)                 | address
    written:  0x02 | length (1)          | address | length (2) | datagram

The server reads the marker as the high byte of a length, which is then above its
limit: `handleStream_forwardPacket`.

What `readDestHeader` accepts is what `WriteDestHeader` writes for an address of 1 to 512
bytes, and nothing else: `decodesTo_iff`.
-/
import IPShadowT.Stream

open Bytes

namespace TunnelHeader

/-! ## Reading -/

/-- `MaxDestLen`. -/
def maxDestLen : ℕ := 512

/-- The errors of `ReadDestHeader`. -/
inductive HeaderError where
  | read (e : ReadError)
  | invalidLength (destLen : ℕ)
  deriving DecidableEq, Repr

/-- The message of an error that `ReadDestHeader` makes itself. -/
def HeaderError.message : HeaderError → Option String
  | .read _ => none
  | .invalidLength n => some ("invalid destination length: " ++ toString n)

/-- `ReadDestHeader`: the destination, and what is left of the stream. -/
def readDestHeader (r : Source) : Except HeaderError Bytes × Source :=
  match r.readFull 2 with
  | (.error e, r₁) => (.error (.read e), r₁)
  | (.ok destBuf, r₁) =>
    let destLen := beNat destBuf
    if destLen ≤ 0 ∨ destLen > maxDestLen then (.error (.invalidLength destLen), r₁)
    else
      match r₁.readFull destLen with
      | (.error e, r₂) => (.error (.read e), r₂)
      | (.ok destAddr, r₂) => (.ok destAddr, r₂)

/-- The errors of `WriteDestHeader`. -/
inductive WriteHeaderError where
  | tooLong (n : ℕ)
  | write
  deriving DecidableEq, Repr

/-- The message of an error that `WriteDestHeader` makes itself. -/
def WriteHeaderError.message : WriteHeaderError → Option String
  | .tooLong n => some ("destination too long: " ++ toString n ++ " bytes")
  | .write => none

/-- `WriteDestHeader`. -/
def writeDestHeader (w : Sink) (dest : Bytes) : Except WriteHeaderError Unit × Sink :=
  if dest.length > maxDestLen then (.error (.tooLong dest.length), w)
  else
    let (ok, w') := w.write (beBytes 2 dest.length ++ dest)
    (if ok then .ok () else .error .write, w')

/-- **A destination is read back** as it was written, however the stream is cut, and what
follows it is left. -/
theorem readDestHeader_written {dest more : Bytes} (hpos : 0 < dest.length)
    (hlen : dest.length ≤ maxDestLen) {stream : Source}
    (hstream : stream.flatten = beBytes 2 dest.length ++ dest ++ more) :
    ∃ rest, readDestHeader stream = (.ok dest, rest) ∧ rest.flatten = more := by
  have hnum : beNat (beBytes 2 dest.length) = dest.length := by
    have hlt : dest.length < 256 ^ 2 := hlen.trans_lt (by decide)
    rw [beNat_beBytes, Nat.mod_eq_of_lt hlt]
  rw [List.append_assoc] at hstream
  obtain ⟨rest₁, hread₁, hrest₁⟩ := Source.readFull_append hstream
  obtain ⟨rest₂, hread₂, hrest₂⟩ := Source.readFull_append hrest₁
  rw [length_beBytes] at hread₁
  refine ⟨rest₂, ?_, hrest₂⟩
  rw [readDestHeader, hread₁]
  dsimp only
  rw [hnum, if_neg (by omega), hread₂]

/-- What `Server.handleStream` does with a stream. -/
inductive StreamResult where
  | badHeader (e : HeaderError)
  | dialFailed (dest : Bytes)
  /-- connected to `dest`; `rest` is relayed to it -/
  | relayed (dest : Bytes) (rest : Source)
  deriving DecidableEq, Repr

/-- `Server.handleStream`; `dial` says which destinations can be reached. -/
def handleStream (dial : Bytes → Bool) (stream : Source) : StreamResult :=
  match readDestHeader stream with
  | (.error e, _) => .badHeader e
  | (.ok dest, rest) => if dial dest then .relayed dest rest else .dialFailed dest

/-- The stream decodes to this destination, followed by this data. -/
def DecodesTo (stream : Source) (dest data : Bytes) : Prop :=
  ∃ rest, readDestHeader stream = (.ok dest, rest) ∧ rest.flatten = data

/-- The bytes that `WriteDestHeader` puts on a connection that takes everything. -/
def headerBytes (dest : Bytes) : Bytes :=
  (writeDestHeader ⟨[], []⟩ dest).2.written

theorem headerBytes_of_le {dest : Bytes} (hlen : dest.length ≤ maxDestLen) :
    headerBytes dest = beBytes 2 dest.length ++ dest := by
  unfold headerBytes writeDestHeader
  rw [if_neg (Nat.not_lt.2 hlen)]
  rfl

/-- What a successful `readDestHeader` has seen: a length in bounds, that many bytes, and
nothing more. -/
theorem readDestHeader_eq_ok {stream rest : Source} {dest : Bytes}
    (h : readDestHeader stream = (.ok dest, rest)) :
    0 < dest.length ∧ dest.length ≤ maxDestLen
      ∧ stream.flatten = beBytes 2 dest.length ++ dest ++ rest.flatten := by
  rcases hread₁ : stream.readFull 2 with ⟨_ | destBuf, r₁⟩
  · rw [readDestHeader, hread₁] at h
    cases h
  rcases hread₂ : r₁.readFull (beNat destBuf) with ⟨_ | destAddr, r₂⟩
  · rw [readDestHeader, hread₁] at h
    dsimp only at h
    rw [hread₂] at h
    split_ifs at h <;> cases h
  rw [readDestHeader, hread₁] at h
  dsimp only at h
  rw [hread₂] at h
  split_ifs at h with hbad
  · cases h
  obtain ⟨rfl, rfl⟩ : destAddr = dest ∧ r₂ = rest := by simpa using h
  obtain ⟨htwo, hbuf, hr₁⟩ := Source.readFull_eq_ok hread₁
  obtain ⟨hfit, hdest, hr₂⟩ := Source.readFull_eq_ok hread₂
  have hlen : destAddr.length = beNat destBuf := by
    rw [hdest, List.length_take, Nat.min_eq_left hfit]
  have hfield : beBytes 2 destAddr.length = destBuf := by
    have hbufLen : destBuf.length = 2 := by
      rw [hbuf, List.length_take, Nat.min_eq_left htwo]
    rw [hlen, ← hbufLen, beBytes_beNat]
  refine ⟨by omega, by omega, ?_⟩
  calc stream.flatten = destBuf ++ r₁.flatten := by rw [hbuf, hr₁, List.take_append_drop]
    _ = destBuf ++ (destAddr ++ r₂.flatten) := by rw [hdest, hr₂, List.take_append_drop]
    _ = beBytes 2 destAddr.length ++ destAddr ++ r₂.flatten := by rw [hfield, List.append_assoc]

/-- **The header is an exact code for destinations.**  For every stream and every
segmentation of it, `ReadDestHeader` succeeds with a destination and leaves `rest` unread
exactly if the destination has 1 to 512 bytes and the stream is what `WriteDestHeader`
writes for it, followed by `rest`. -/
theorem decodesTo_iff (stream : Source) (dest rest : Bytes) :
    DecodesTo stream dest rest
      ↔ (1 ≤ dest.length ∧ dest.length ≤ 512) ∧ stream.flatten = headerBytes dest ++ rest := by
  constructor
  · rintro ⟨left, hread, rfl⟩
    obtain ⟨hpos, hlen, hstream⟩ := readDestHeader_eq_ok hread
    rw [headerBytes_of_le hlen]
    exact ⟨⟨hpos, hlen⟩, hstream⟩
  · rintro ⟨⟨hpos, hlen⟩, hstream⟩
    rw [headerBytes_of_le hlen] at hstream
    exact readDestHeader_written hpos hlen hstream

/-! ## What the UDP forwarder writes -/

/-- The bytes that `UDPForwarder.forwardPacket` writes for one datagram. -/
def forwardPacket (remoteAddr data : Bytes) : Bytes :=
  [0x02, UInt8.ofNat remoteAddr.length] ++ remoteAddr ++ beBytes 2 data.length ++ data

/-- The first two bytes of a packet, read as a length. -/
theorem beNat_take_forwardPacket {remoteAddr : Bytes} (data : Bytes)
    (hlen : remoteAddr.length ≤ 255) :
    beNat ((forwardPacket remoteAddr data).take 2) = 512 + remoteAddr.length := by
  have hbyte : (UInt8.ofNat remoteAddr.length).toNat = remoteAddr.length :=
    UInt8.toNat_ofNat_of_lt' (Nat.lt_succ_of_le hlen)
  have htake : (forwardPacket remoteAddr data).take 2
      = [0x02, UInt8.ofNat remoteAddr.length] := by
    simp [forwardPacket]
  rw [htake, beNat, beNat, beNat, hbyte]
  show 2 * 256 ^ 1 + (remoteAddr.length * 256 ^ 0 + 0) = 512 + remoteAddr.length
  omega

/-- However the packet is cut, `ReadDestHeader` refuses it for its length. -/
theorem readDestHeader_forwardPacket {remoteAddr data : Bytes} (hpos : 1 ≤ remoteAddr.length)
    (hlen : remoteAddr.length ≤ 255) {stream : Source}
    (hstream : stream.flatten = forwardPacket remoteAddr data) :
    ∃ rest, readDestHeader stream = (.error (.invalidLength (512 + remoteAddr.length)), rest) := by
  have htwo : 2 ≤ stream.flatten.length := by
    rw [hstream]
    simp [forwardPacket]
  obtain ⟨rest, hread, -⟩ := stream.readFull_of_le 2 htwo
  refine ⟨rest, ?_⟩
  rw [readDestHeader, hread]
  dsimp only
  rw [hstream, beNat_take_forwardPacket data hlen, if_pos]
  right
  show 512 < 512 + remoteAddr.length
  omega

theorem not_decodesTo_forwardPacket {remoteAddr data : Bytes} (hpos : 1 ≤ remoteAddr.length)
    (hlen : remoteAddr.length ≤ 255) {stream : Source}
    (hstream : stream.flatten = forwardPacket remoteAddr data) :
    ¬ DecodesTo stream remoteAddr data := by
  obtain ⟨rest, hread⟩ := readDestHeader_forwardPacket hpos hlen hstream
  rintro ⟨rest', hok, -⟩
  rw [hread] at hok
  cases hok

/-- **UDP packets are never forwarded.**  For every remote address of 1 to 255 bytes,
every datagram and every segmentation of the stream, the server's handler refuses the
packet that the UDP forwarder writes, so it does not decode to its address and datagram. -/
theorem handleStream_forwardPacket (remoteAddr data : Bytes) (hpos : 1 ≤ remoteAddr.length)
    (hlen : remoteAddr.length ≤ 255) (stream : Source)
    (hstream : stream.flatten = forwardPacket remoteAddr data) (dial : Bytes → Bool) :
    handleStream dial stream = .badHeader (.invalidLength (512 + remoteAddr.length))
      ∧ ¬ DecodesTo stream remoteAddr data := by
  refine ⟨?_, not_decodesTo_forwardPacket hpos hlen hstream⟩
  obtain ⟨rest, hread⟩ := readDestHeader_forwardPacket hpos hlen hstream
  rw [handleStream, hread]

/-- A DNS server's address, as in `remote = "8.8.8.8:53"`. -/
def exampleRemote : Bytes := [56, 46, 56, 46, 56, 46, 56, 58, 53, 51]

/-- One datagram for `8.8.8.8:53`, delivered in one piece. -/
theorem handleStream_example :
    handleStream (fun _ => true) [forwardPacket exampleRemote [1, 2, 3]]
        = .badHeader (.invalidLength 522)
      ∧ ¬ DecodesTo [forwardPacket exampleRemote [1, 2, 3]] exampleRemote [1, 2, 3] :=
  handleStream_forwardPacket exampleRemote [1, 2, 3] (by decide) (by decide) _ (by simp) _

/-- **A packet for `8.8.8.8:53` does not decode.** -/
theorem forwardPacket_not_decoded :
    ¬ ∀ (remoteAddr data : Bytes) (stream : Source), 1 ≤ remoteAddr.length →
        remoteAddr.length ≤ 255 → data.length ≤ 65535 →
        stream.flatten = forwardPacket remoteAddr data → DecodesTo stream remoteAddr data := by
  intro hall
  have hstream : List.flatten [forwardPacket exampleRemote [1, 2, 3]]
      = forwardPacket exampleRemote [1, 2, 3] := by simp
  exact not_decodesTo_forwardPacket (by decide) (by decide) hstream
    (hall _ _ _ (by decide) (by decide) (by decide) hstream)

end TunnelHeader
