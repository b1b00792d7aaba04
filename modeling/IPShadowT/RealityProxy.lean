/-
# Connections that are handed to the fallback server

`RealityServer.HandleConnection`, `readClientHelloRecord` and `proxyToFallback` of
`internal/antidpi/reality.go`: a connection without a valid token is relayed to another
server, starting with what has been read from it already.

`readClientHelloRecord` returns the buffers it reads into.  Where a read ends early, with
the stream or with the deadline, the buffer is longer than what was read, and the rest of
it are zero bytes, which the fallback server then receives.  `transparent_iff` says that
this is the only way in which it receives anything but the bytes of the peer.
-/
import IPShadowT.RealityServer
import IPShadowT.Stream

open Bytes

namespace Reality

/-! ## The connection -/

/-- What a peer sends: the pieces that arrive before the deadline of the first reads, and
those after it.  `none` means that the stream ends and the deadline never fires. -/
structure Incoming where
  inTime : Source
  late : Option Source
  deriving DecidableEq, Repr

/-- What is left to be read when the first pieces have been. -/
def Incoming.remaining (conn : Incoming) : Source := conn.late.getD []

/-- All that the peer sends. -/
def Incoming.bytes (conn : Incoming) : Bytes :=
  conn.inTime.flatten ++ conn.remaining.flatten

/-- The errors of `readClientHelloRecord`. -/
inductive RecordError where
  | read (e : ReadError)
  | timeout
  | notHandshake (type : UInt8)
  | invalidLength (n : ℕ)
  deriving DecidableEq, Repr

/-- The text of an error, for those made here. -/
def RecordError.message : RecordError → Option String
  | .notHandshake type => some ("not a TLS handshake: type=" ++ toString type.toNat)
  | .invalidLength n => some ("invalid record length: " ++ toString n)
  | _ => none

/-- The failure of a read: the stream has ended, or the deadline has fired. -/
def Incoming.readError (conn : Incoming) (e : ReadError) : RecordError :=
  if conn.late.isSome then .timeout else .read e

/-- `int(header[3])<<8 | int(header[4])`. -/
def recordLen (header : Bytes) : ℕ := (header.getD 3 0).toNat * 256 + (header.getD 4 0).toNat

/-- `readClientHelloRecord`: the error, the data, and what is left on the connection, from
which the deadline has been taken. -/
def readClientHelloRecord (conn : Incoming) : Option RecordError × Bytes × Source :=
  let header := conn.inTime.buffered 5
  match conn.inTime.readFull 5 with
  | (.error e, rest) => (some (conn.readError e), header, rest ++ conn.remaining)
  | (.ok _, rest) =>
    if header.getD 0 0 ≠ 0x16 then
      (some (.notHandshake (header.getD 0 0)), header, rest ++ conn.remaining)
    else if recordLen header = 0 ∨ recordLen header > 16384 then
      (some (.invalidLength (recordLen header)), header, rest ++ conn.remaining)
    else
      let record := rest.buffered (recordLen header)
      match rest.readFull (recordLen header) with
      | (.error e, rest') =>
        (some (conn.readError e), header ++ record, rest' ++ conn.remaining)
      | (.ok _, rest') => (none, header ++ record, rest' ++ conn.remaining)

/-! ## The relay -/

/-- The bytes of `RealityAuthOK`. -/
def realityAuthOK : Bytes := [82, 69, 65, 76, 73, 84, 89, 79, 75, 10]

/-- A connection to `Dest`: what has been written to it, and what comes from it. -/
structure Fallback where
  out : Sink
  answer : Source

/-- `proxyToFallback`, with the connection to `Dest` if there is one: what is written to it, what is
left of the peer's, and what is written to the peer.  The two relays are stopped after some rounds,
each by the end of the other. -/
def proxyToFallback (fallback : Option Fallback) (conn : Source) (peer : Sink)
    (initialData : Bytes) (rounds back : ℕ) : Option Sink × Source × Sink :=
  match fallback with
  | none => (none, conn, peer)
  | some f =>
    if initialData.length > 0 then
      match f.out.write initialData with
      | (false, out') => (some out', conn, peer)
      | (true, out') =>
        let (unread, out'') := conn.copy rounds out'
        (some out'', unread, (f.answer.copy back peer).2)
    else
      let (unread, out') := conn.copy rounds f.out
      (some out', unread, (f.answer.copy back peer).2)

/-- The error of `HandleConnection`. -/
inductive HandleError where
  | sendAck
  deriving DecidableEq, Repr

/-- The text of the error, up to the error it passes on. -/
def HandleError.text : HandleError → String
  | .sendAck => "failed to send REALITY auth ack: "

/-- What `HandleConnection` returns, and what it leaves behind. -/
structure Handled where
  result : Go HandleError Bool
  server : RealityServer
  fallback : Option Sink
  unread : Source
  peer : Sink

/-- `HandleConnection`.  The peer takes what is written to it through `peer`. -/
def handleConnection (C : Crypto) (rs : RealityServer) (clock : Clock) (conn : Incoming)
    (peer : Sink) (fallback : Option Fallback) (rounds back : ℕ) : Handled :=
  match readClientHelloRecord conn with
  | (some _, rawData, rest) =>
    let (out, unread, peer) := proxyToFallback fallback rest peer rawData rounds back
    ⟨.ok false, rs, out, unread, peer⟩
  | (none, rawData, rest) =>
    match rs.verifyClientHello C rawData clock with
    | (.error _, rs') => ⟨.error .panic, rs', none, rest, peer⟩
    | (.ok false, rs') =>
      let (out, unread, peer) := proxyToFallback fallback rest peer rawData rounds back
      ⟨.ok false, rs', out, unread, peer⟩
    | (.ok true, rs') =>
      match peer.write realityAuthOK with
      | (true, peer) => ⟨.ok true, rs', none, rest, peer⟩
      | (false, peer) => ⟨.error (.error .sendAck), rs', none, rest, peer⟩

/-- What was written to the fallback server is what was read from the peer: followed by
what has not been read, it is all that the peer sends. -/
def Handled.Transparent (r : Handled) (conn : Incoming) : Prop :=
  ∃ out, r.fallback = some out ∧ out.written ++ r.unread.flatten = conn.bytes

/-- Enough arrives before the deadline fires or the stream ends: a header, and if it is one
of a handshake record with a valid length, the record too. -/
def Incoming.Complete (conn : Incoming) : Prop :=
  5 ≤ conn.inTime.flatten.length ∧
    (conn.inTime.flatten.getD 0 0 = 0x16 → 0 < recordLen conn.inTime.flatten →
      recordLen conn.inTime.flatten ≤ 16384 →
      5 + recordLen conn.inTime.flatten ≤ conn.inTime.flatten.length)

instance (conn : Incoming) : Decidable conn.Complete :=
  inferInstanceAs (Decidable (_ ∧ (_ → _ → _ → _)))

/-! ## What is handed on -/

/-- Reading the header and cutting it off the stream give the same five bytes. -/
theorem getD_buffered {src : Source} {n i : ℕ} (hi : i < n) (h : n ≤ src.flatten.length) :
    (src.buffered n).getD i 0 = src.flatten.getD i 0 := by
  rw [Source.buffered_of_le h, List.getD_eq_getElem?_getD, List.getElem?_take_of_lt hi,
    List.getD_eq_getElem?_getD]

theorem recordLen_buffered {src : Source} (h : 5 ≤ src.flatten.length) :
    recordLen (src.buffered 5) = recordLen src.flatten := by
  rw [recordLen, recordLen, getD_buffered (by omega) h, getD_buffered (by omega) h]

/-- A buffer that is handed on with what is left on the connection. -/
theorem buffered_append_remaining_iff {n : ℕ} {src rest : Source}
    {r : Except ReadError Bytes} (h : src.readFull n = (r, rest)) (later : Source) :
    src.buffered n ++ (rest ++ later).flatten = src.flatten ++ later.flatten ↔
      n ≤ src.flatten.length := by
  rw [List.flatten_append, ← List.append_assoc, List.append_cancel_right_eq]
  exact Source.buffered_append_iff h

/-- The record is read behind its header. -/
theorem record_conserves_iff {conn : Incoming} {rest rest' : Source} {header : Bytes}
    {r : Except ReadError Bytes} (hheader : conn.inTime.readFull 5 = (.ok header, rest))
    (htype : conn.inTime.flatten.getD 0 0 = 0x16) (hpos : 0 < recordLen conn.inTime.flatten)
    (hle : recordLen conn.inTime.flatten ≤ 16384)
    (hread : rest.readFull (recordLen conn.inTime.flatten) = (r, rest')) :
    (conn.inTime.buffered 5 ++ rest.buffered (recordLen conn.inTime.flatten))
          ++ (rest' ++ conn.remaining).flatten = conn.bytes ↔ conn.Complete := by
  obtain ⟨hlong, -, hrest⟩ := Source.readFull_eq_ok hheader
  have hcut : conn.bytes
      = conn.inTime.buffered 5 ++ (rest.flatten ++ conn.remaining.flatten) := by
    rw [Source.buffered_of_le hlong, hrest, ← List.append_assoc, List.take_append_drop]
    rfl
  rw [hcut, List.append_assoc, List.append_cancel_left_eq,
    buffered_append_remaining_iff hread _, hrest, List.length_drop]
  constructor
  · intro hfits
    refine ⟨hlong, fun _ _ _ => ?_⟩
    omega
  · intro hcomplete
    have hfits := hcomplete.2 htype hpos hle
    omega

/-- **What `readClientHelloRecord` hands on** is what it has read, if it could read enough,
and longer otherwise. -/
theorem readClientHelloRecord_conserves_iff (conn : Incoming) :
    (readClientHelloRecord conn).2.1 ++ (readClientHelloRecord conn).2.2.flatten = conn.bytes ↔
      conn.Complete := by
  unfold readClientHelloRecord
  rcases hheader : conn.inTime.readFull 5 with ⟨e | b, rest⟩
  · -- the header is cut short
    have hshort := (Source.readLoop_eq_error hheader).1
    refine (buffered_append_remaining_iff hheader _).trans (iff_of_false ?_ ?_)
    · omega
    · intro hcomplete
      have hlong := hcomplete.1
      omega
  · obtain ⟨hlong, -, -⟩ := Source.readFull_eq_ok hheader
    have hhanded := buffered_append_remaining_iff hheader conn.remaining
    dsimp only
    rw [getD_buffered (by omega) hlong, recordLen_buffered hlong]
    split_ifs with htype hlen
    · exact iff_of_true (hhanded.2 hlong) ⟨hlong, fun h => absurd h htype⟩
    · refine iff_of_true (hhanded.2 hlong) ⟨hlong, fun _ hpos hle => ?_⟩
      omega
    · have hpos : 0 < recordLen conn.inTime.flatten := by omega
      have hle : recordLen conn.inTime.flatten ≤ 16384 := by omega
      rcases hread : rest.readFull (recordLen conn.inTime.flatten) with ⟨e | b', rest'⟩
      · exact record_conserves_iff hheader (not_not.1 htype) hpos hle hread
      · exact record_conserves_iff hheader (not_not.1 htype) hpos hle hread

/-- The relay hands on the data it is given and then what it reads. -/
theorem proxyToFallback_conserves {f : Fallback} (hout : f.out.Reliable) (conn : Source)
    (peer : Sink) (initialData : Bytes) (rounds back : ℕ) :
    ∃ out', (proxyToFallback (some f) conn peer initialData rounds back).1 = some out' ∧
      out'.written ++ (proxyToFallback (some f) conn peer initialData rounds back).2.1.flatten
        = f.out.written ++ (initialData ++ conn.flatten) := by
  unfold proxyToFallback
  dsimp only
  split_ifs with hdata
  · have hnext : Sink.Reliable ⟨f.out.written ++ initialData, []⟩ := rfl
    rw [Sink.write_of_reliable hout]
    refine ⟨_, rfl, ?_⟩
    dsimp only
    rw [Source.copy_conserves rounds conn hnext, List.append_assoc]
  · obtain rfl : initialData = [] := List.length_eq_zero_iff.1 (Nat.eq_zero_of_not_pos hdata)
    exact ⟨_, rfl, Source.copy_conserves rounds conn hout⟩

/-- What a connection to the fallback server, if there is one, sends. -/
def answered (fallback : Option Fallback) : Bytes := fallback.elim [] fun f => f.answer.flatten

/-- The peer gets nothing but what the fallback server answers. -/
theorem proxyToFallback_peer {peer : Sink} (hpeer : peer.Reliable) (fallback : Option Fallback)
    (conn : Source) (initialData : Bytes) (rounds back : ℕ) :
    (proxyToFallback fallback conn peer initialData rounds back).2.2.written
      <+: peer.written ++ answered fallback := by
  have hcopied : ∀ f : Fallback, (f.answer.copy back peer).2.written
      <+: peer.written ++ f.answer.flatten :=
    fun f => ⟨_, Source.copy_conserves back f.answer hpeer⟩
  unfold proxyToFallback
  cases fallback with
  | none => exact List.prefix_append ..
  | some f =>
    dsimp only
    split_ifs
    · rcases f.out.write initialData with ⟨_ | _, out'⟩
      · exact List.prefix_append ..
      · exact hcopied f
    · exact hcopied f

/-- A connection that is not authenticated is relayed, with what was read of it. -/
theorem handleConnection_of_false {C : Crypto} {rs : RealityServer} {clock : Clock}
    {conn : Incoming} {peer : Sink} {fallback : Option Fallback} {rounds back : ℕ}
    (h : (handleConnection C rs clock conn peer fallback rounds back).result = .ok false) :
    ((handleConnection C rs clock conn peer fallback rounds back).fallback,
      (handleConnection C rs clock conn peer fallback rounds back).unread,
      (handleConnection C rs clock conn peer fallback rounds back).peer)
      = proxyToFallback fallback (readClientHelloRecord conn).2.2 peer
          (readClientHelloRecord conn).2.1 rounds back := by
  revert h
  unfold handleConnection
  rcases readClientHelloRecord conn with ⟨_ | e, rawData, rest⟩
  · dsimp only
    rcases rs.verifyClientHello C rawData clock with ⟨e | _ | _, rs'⟩
    · intro h
      cases h
    · intro _
      rfl
    · dsimp only
      rcases peer.write realityAuthOK with ⟨_ | _, peer'⟩
      · intro h
        cases h
      · intro h
        cases h
  · intro _
    rfl

/-- **When the fallback server sees the peer's bytes and nothing else.**  If the connection
is not authenticated and there is a fallback server, which takes what is written to it,
then it gets exactly what was read from the peer, if and only if enough arrived in time to
fill the buffers. -/
theorem transparent_iff (C : Crypto) (rs : RealityServer) (clock : Clock) (conn : Incoming)
    (peer : Sink) (answer : Source) (rounds back : ℕ)
    (h : (handleConnection C rs clock conn peer (some ⟨⟨[], []⟩, answer⟩) rounds back).result
      = .ok false) :
    (handleConnection C rs clock conn peer (some ⟨⟨[], []⟩, answer⟩) rounds back).Transparent conn ↔
      conn.Complete := by
  have hproxy := handleConnection_of_false h
  have hreliable : (Fallback.mk ⟨[], []⟩ answer).out.Reliable := rfl
  obtain ⟨out, hout, hconserves⟩ := proxyToFallback_conserves hreliable
    (readClientHelloRecord conn).2.2 peer (readClientHelloRecord conn).2.1 rounds back
  rw [← hproxy] at hout hconserves
  dsimp only at hout hconserves
  rw [← readClientHelloRecord_conserves_iff conn, ← List.nil_append (_ ++ _), ← hconserves]
  constructor
  · rintro ⟨out', hout', heq⟩
    rw [hout] at hout'
    obtain rfl := Option.some.inj hout'
    exact heq
  · intro heq
    exact ⟨out, hout, heq⟩

namespace Sample

/-- A peer that sends `GET / ` in two pieces, and two bytes more after the deadline. -/
def httpPeer : Incoming := ⟨[[71, 69, 84], [32, 47, 32]], some [[72, 84]]⟩

/-- It is relayed as it is. -/
theorem httpPeer_transparent :
    (handleConnection tableCrypto replayedServer ⟨0, 0, 0⟩ httpPeer ⟨[], []⟩
      (some ⟨⟨[], []⟩, []⟩) 3 0).Transparent httpPeer :=
  (transparent_iff tableCrypto replayedServer ⟨0, 0, 0⟩ httpPeer ⟨[], []⟩ [] 3 0
    (by decide +kernel)).2 (by decide +kernel)

/-- A peer that sends three bytes and nothing more. -/
def shortPeer : Incoming := ⟨[[71, 69, 84]], none⟩

/-- **The fallback server receives bytes that the peer has not sent**: two zero bytes after
the three of `shortPeer`. -/
theorem shortPeer_not_transparent :
    ¬ ∀ (C : Crypto) (rs : RealityServer) (clock : Clock) (conn : Incoming) (peer : Sink)
        (answer : Source) (rounds back : ℕ),
        (handleConnection C rs clock conn peer (some ⟨⟨[], []⟩, answer⟩) rounds back).result
          = .ok false →
        (handleConnection C rs clock conn peer (some ⟨⟨[], []⟩, answer⟩) rounds back).Transparent
          conn := by
  intro hall
  obtain ⟨out, hout, heq⟩ :=
    hall tableCrypto replayedServer ⟨0, 0, 0⟩ shortPeer ⟨[], []⟩ [] 3 0 (by decide +kernel)
  have hwritten : (handleConnection tableCrypto replayedServer ⟨0, 0, 0⟩ shortPeer ⟨[], []⟩
      (some ⟨⟨[], []⟩, []⟩) 3 0).fallback = some ⟨[71, 69, 84, 0, 0], []⟩ := by
    decide +kernel
  rw [hwritten] at hout
  obtain rfl := Option.some.inj hout
  revert heq
  decide +kernel

end Sample

end Reality
