/-
# SNI spoofing

`internal/antidpi/sni_spoof.go`: the first ClientHello on a connection is cut before its
`server_name` extension, or sent with another name in it.  `findSNIOffset` looks for the
extension, going by the lengths it finds in the message, and `replaceSNI` overwrites the host
name there.

Every byte is read through the checked accesses of `IPShadowT.Bytes`, and a loop that
does not come to an end counts as a panic too, so that `findSNIOffset_safe` and
`replaceSNI_safe` say that the two functions return, whatever the data.  What they do to a
well-formed hello is the subject of `IPShadowT.SniHello`; what reaches the connection is
`write_reliable` for one write and `writes_wrapConn` for all of them.
-/
import IPShadowT.ChunkedWrite

open Bytes

namespace SniSpoof

/-- `binary.BigEndian.Uint16(data[i:])`. -/
def uint16At (data : Bytes) (i : ℕ) : Go Empty ℕ := do
  beField 2 (← slice data i data.length)

/-! ## `findSNIOffset`

One definition for each field that is skipped; `-1` stands for "not found", as in the
source. -/

/-- The loop over the extensions, in at most `rounds` rounds. -/
def sniLoop (data : Bytes) (extEnd : ℕ) : ℕ → ℕ → Go Empty ℤ
  | 0, _ => .error .panic
  | rounds + 1, offset =>
    if offset + 4 < extEnd ∧ offset + 4 < data.length then do
      let extType ← uint16At data offset
      let extDataLen ← uint16At data (offset + 2)
      if extType = 0x0000 then return offset
      else sniLoop data extEnd rounds (offset + (4 + extDataLen))
    else return -1

/-- From the length of the extensions on. -/
def fromExtensions (data : Bytes) (offset : ℕ) : Go Empty ℤ :=
  if offset + 2 ≥ data.length then return -1
  else do
    let extLen ← uint16At data offset
    let offset := offset + 2
    sniLoop data (offset + extLen) data.length offset

/-- From the compression methods on. -/
def fromCompression (data : Bytes) (offset : ℕ) : Go Empty ℤ :=
  if offset ≥ data.length then return -1
  else do
    let compLen ← index data offset
    fromExtensions data (offset + (1 + compLen.toNat))

/-- From the cipher suites on. -/
def fromCipherSuites (data : Bytes) (offset : ℕ) : Go Empty ℤ :=
  if offset + 2 ≥ data.length then return -1
  else do
    let cipherLen ← uint16At data offset
    fromCompression data (offset + (2 + cipherLen))

/-- From the session id on. -/
def fromSessionID (data : Bytes) (offset : ℕ) : Go Empty ℤ :=
  if offset ≥ data.length then return -1
  else do
    let sessionIDLen ← index data offset
    fromCipherSuites data (offset + (1 + sessionIDLen.toNat))

/-- `findSNIOffset`: the record header, the handshake header, the version and the random are
43 bytes. -/
def findSNIOffset (data : Bytes) : Go Empty ℤ :=
  if data.length < 43 then return -1 else fromSessionID data (9 + 34)

/-! ## `replaceSNI` -/

/-- The bytes that are put in the place of a host name of `hostLen` bytes. -/
def fitted (newSNI : Bytes) (hostLen : ℕ) : Bytes :=
  if newSNI.length = hostLen then newSNI
  else newSNI.take hostLen ++ List.replicate (hostLen - newSNI.length) dot

/-- Where the first host name of the extension is, and its length; `none` if the data end
before. -/
def hostField (data : Bytes) (sniOffset : ℕ) : Go Empty (Option (ℕ × ℕ)) :=
  let pos := sniOffset + 4
  if pos + 2 ≥ data.length then return none
  else
    let pos := pos + 2
    if pos ≥ data.length then return none
    else
      let pos := pos + 1
      if pos + 2 ≥ data.length then return none
      else do
        let hostLen ← uint16At data pos
        let pos := pos + 2
        if pos + hostLen > data.length then return none else return some (pos, hostLen)

/-- A copy of the data with `copy(result[pos:], b)`. -/
def copyAt (data : Bytes) (pos : ℕ) (b : Bytes) : Go Empty Bytes := do
  let tail ← slice data pos data.length
  return data.take pos ++ overwrite tail (b.take tail.length)

/-- `replaceSNI`. -/
def replaceSNI (data newSNI : Bytes) : Go Empty Bytes := do
  let sniOffset ← findSNIOffset data
  if sniOffset < 0 then return data
  else
    match ← hostField data sniOffset.toNat with
    | none => return data
    | some (pos, hostLen) => copyAt data pos (fitted newSNI hostLen)

/-! ## They return, whatever the data -/

/-- The result of a function that has no error to return and does not panic. -/
def Yields {α : Type} (x : Go Empty α) (P : α → Prop) : Prop := ∃ a, x = .ok a ∧ P a

theorem Yields.bind {α β : Type} {x : Go Empty α} {f : α → Go Empty β} {P : α → Prop}
    {Q : β → Prop} (hx : Yields x P) (hf : ∀ a, P a → Yields (f a) Q) : Yields (x >>= f) Q := by
  obtain ⟨a, rfl, ha⟩ := hx
  exact hf a ha

theorem uint16At_yields {data : Bytes} {i : ℕ} (h : i + 2 ≤ data.length) :
    Yields (uint16At data i) fun _ => True := by
  have hslice : (slice data i data.length : Go Empty Bytes) = .ok (data.drop i) := by
    rw [slice, if_pos ⟨by omega, le_rfl⟩, List.take_length]
  refine ⟨beNat ((data.drop i).take 2), ?_, trivial⟩
  rw [uint16At, hslice, Go.ok_bind, beField, if_pos]
  rw [List.length_drop]
  omega

theorem index_yields {data : Bytes} {i : ℕ} (h : i < data.length) :
    Yields (index data i) fun _ => True := by
  refine ⟨data[i], ?_, trivial⟩
  rw [index, List.getElem?_eq_getElem h]

/-- A result of `findSNIOffset`: nothing, or a position in the data. -/
def Found (data : Bytes) (i : ℤ) : Prop := i = -1 ∨ 0 ≤ i ∧ i < data.length

theorem yields_not_found (data : Bytes) : Yields (return -1) (Found data) := ⟨-1, rfl, .inl rfl⟩

/-- Each round goes forward by four bytes at least, so that the rounds suffice. -/
theorem sniLoop_safe {data : Bytes} (extEnd : ℕ) {rounds offset : ℕ} (hpos : 0 < rounds)
    (hrounds : data.length < offset + rounds) :
    Yields (sniLoop data extEnd rounds offset) (Found data) := by
  induction rounds generalizing offset with
  | zero => exact absurd hpos (Nat.lt_irrefl 0)
  | succ rounds ih =>
    rw [sniLoop]
    split_ifs with hmore
    · refine (uint16At_yields (by omega)).bind fun extType _ => ?_
      refine (uint16At_yields (by omega)).bind fun extDataLen _ => ?_
      split_ifs
      · exact ⟨offset, rfl, .inr ⟨by omega, by omega⟩⟩
      · exact ih (by omega) (by omega)
    · exact yields_not_found data

theorem fromExtensions_safe (data : Bytes) (offset : ℕ) :
    Yields (fromExtensions data offset) (Found data) := by
  rw [fromExtensions]
  split_ifs with hend
  · exact yields_not_found data
  · refine (uint16At_yields (by omega)).bind fun extLen _ => ?_
    exact sniLoop_safe _ (by omega) (by omega)

theorem fromCompression_safe (data : Bytes) (offset : ℕ) :
    Yields (fromCompression data offset) (Found data) := by
  rw [fromCompression]
  split_ifs with hend
  · exact yields_not_found data
  · refine (index_yields (by omega)).bind fun compLen _ => ?_
    exact fromExtensions_safe data _

theorem fromCipherSuites_safe (data : Bytes) (offset : ℕ) :
    Yields (fromCipherSuites data offset) (Found data) := by
  rw [fromCipherSuites]
  split_ifs with hend
  · exact yields_not_found data
  · refine (uint16At_yields (by omega)).bind fun cipherLen _ => ?_
    exact fromCompression_safe data _

/-- From the session id on. -/
theorem fromSessionID_safe (data : Bytes) (offset : ℕ) :
    Yields (fromSessionID data offset) (Found data) := by
  rw [fromSessionID]
  split_ifs with hend
  · exact yields_not_found data
  · refine (index_yields (by omega)).bind fun sessionIDLen _ => ?_
    exact fromCipherSuites_safe data _

/-- **`findSNIOffset` is safe**: it returns, without an access outside the data, `-1` or a
position in them. -/
theorem findSNIOffset_safe (data : Bytes) : Yields (findSNIOffset data) (Found data) := by
  rw [findSNIOffset]
  split_ifs
  · exact yields_not_found data
  · exact fromSessionID_safe data _

@[simp] theorem length_fitted (newSNI : Bytes) (hostLen : ℕ) :
    (fitted newSNI hostLen).length = hostLen := by
  unfold fitted
  split_ifs with h
  · exact h
  · rw [List.length_append, List.length_take, List.length_replicate]
    omega

/-- What `fitted` is for: the new name cut off, or filled up with dots. -/
theorem fitted_eq_take (newSNI : Bytes) (hostLen : ℕ) :
    fitted newSNI hostLen = (newSNI ++ List.replicate hostLen dot).take hostLen := by
  unfold fitted
  split_ifs with h
  · rw [← h, List.take_left]
  · rw [List.take_append, List.take_replicate, Nat.min_eq_left (Nat.sub_le _ _)]

theorem hostField_safe (data : Bytes) (sniOffset : ℕ) :
    Yields (hostField data sniOffset) fun found =>
      ∀ pos hostLen, found = some (pos, hostLen) → pos + hostLen ≤ data.length := by
  have hnone : Yields (return none) fun found : Option (ℕ × ℕ) =>
      ∀ pos hostLen, found = some (pos, hostLen) → pos + hostLen ≤ data.length :=
    ⟨none, rfl, nofun⟩
  rw [hostField]
  dsimp only
  -- the second check is the first one again
  split_ifs with hlist hlen
  · exact hnone
  · exact hnone
  · refine (uint16At_yields (by omega)).bind fun hostLen _ => ?_
    split_ifs with hname
    · exact hnone
    · refine ⟨some (sniOffset + 4 + 2 + 1 + 2, hostLen), rfl, ?_⟩
      rintro _ _ ⟨⟩
      omega

/-- A copy that fits changes the bytes at its place, and no others. -/
theorem copyAt_eq {data : Bytes} {pos : ℕ} {b : Bytes} (h : pos + b.length ≤ data.length) :
    copyAt data pos b = .ok (data.take pos ++ (b ++ data.drop (pos + b.length))) := by
  have hslice : (slice data pos data.length : Go Empty Bytes) = .ok (data.drop pos) := by
    rw [slice, if_pos ⟨by omega, le_rfl⟩, List.take_length]
  have hfits : b.take (data.drop pos).length = b := by
    rw [List.length_drop]
    exact List.take_of_length_le (by omega)
  rw [copyAt, hslice, Go.ok_bind, hfits, overwrite, List.drop_drop]
  rfl

theorem copyAt_safe {data : Bytes} {pos : ℕ} {b : Bytes} (h : pos + b.length ≤ data.length) :
    Yields (copyAt data pos b) fun result => result.length = data.length := by
  refine ⟨_, copyAt_eq h, ?_⟩
  dsimp only
  rw [List.length_append, List.length_append, List.length_take, List.length_drop]
  omega

/-- **`replaceSNI` is safe**: it returns, without an access outside the data, as many bytes as
it was given. -/
theorem replaceSNI_safe (data newSNI : Bytes) :
    Yields (replaceSNI data newSNI) fun result => result.length = data.length := by
  rw [replaceSNI]
  refine (findSNIOffset_safe data).bind fun sniOffset _ => ?_
  split_ifs
  · exact ⟨data, rfl, rfl⟩
  · refine (hostField_safe data sniOffset.toNat).bind fun found hfound => ?_
    cases found with
    | none => exact ⟨data, rfl, rfl⟩
    | some field =>
      obtain ⟨pos, hostLen⟩ := field
      refine copyAt_safe ?_
      rw [length_fitted]
      exact hfound pos hostLen rfl

/-- What `replaceSNI` returns. -/
def replaced (data newSNI : Bytes) : Bytes :=
  match replaceSNI data newSNI with
  | .ok result => result
  | .error _ => data

/-- `replaceSNI` returns. -/
theorem replaceSNI_eq (data newSNI : Bytes) :
    replaceSNI data newSNI = .ok (replaced data newSNI) := by
  obtain ⟨result, hresult, -⟩ := replaceSNI_safe data newSNI
  rw [replaced, hresult]

theorem length_replaced (data newSNI : Bytes) : (replaced data newSNI).length = data.length := by
  obtain ⟨result, hresult, hlen⟩ := replaceSNI_safe data newSNI
  rw [replaced, hresult]
  exact hlen

/-! ## The connection -/

/-- `SpoofMethod`; a string that names no method is `other`. -/
inductive SpoofMethod where
  | replace
  | split
  | ttl
  | double
  | all
  | other (name : String)
  deriving DecidableEq, Repr

/-- `SNISpoofing`, without what no method reads: the real name and the time to live. -/
structure SNISpoofing where
  fakeSNI : Bytes
  method : SpoofMethod
  splitPos : ℤ
  deriving DecidableEq, Repr

/-- `www.google.com`. -/
def defaultFakeSNI : Bytes := [119, 119, 119, 46, 103, 111, 111, 103, 108, 101, 46, 99, 111, 109]

/-- `NewSNISpoofing`. -/
def newSNISpoofing (cfg : SNISpoofing) : SNISpoofing :=
  { cfg with
    fakeSNI := if cfg.fakeSNI = [] then defaultFakeSNI else cfg.fakeSNI
    method := if cfg.method = .other "" then .split else cfg.method }

/-- `sniSpoofConn`. -/
structure SpoofConn where
  conn : Recorder
  spoofer : SNISpoofing
  firstWrite : Bool
  deriving DecidableEq, Repr

/-- `WrapConn`. -/
def wrapConn (conn : Recorder) (spoofer : SNISpoofing) : SpoofConn := ⟨conn, spoofer, true⟩

/-- `isTLSClientHello`. -/
def isTLSClientHello (data : Bytes) : Bool :=
  data.length ≥ 6 ∧ data[0]? = some 0x16 ∧ data[1]? = some 0x03 ∧ data[5]? = some 0x01

namespace SpoofConn

/-- `c.Conn.Write(p)`: the count, whether there was no error, and the connection after it. -/
def writeDirect (c : SpoofConn) (p : Bytes) : ℕ × Bool × SpoofConn :=
  let (n, ok, conn) := c.conn.write p
  (n, ok, { c with conn := conn })

/-- Where `writeSplit` cuts: before the extension, or at the place that is configured. -/
def splitAt (c : SpoofConn) (data : Bytes) (sniOffset : ℤ) : ℕ :=
  if c.spoofer.splitPos > 0 ∧ c.spoofer.splitPos < data.length then c.spoofer.splitPos.toNat
  else sniOffset.toNat

/-- `writeSplit`. -/
def writeSplit (c : SpoofConn) (data : Bytes) : Go Empty (ℕ × Bool × SpoofConn) := do
  let sniOffset ← findSNIOffset data
  if sniOffset ≤ 0 then return c.writeDirect data
  else
    let splitAt := c.splitAt data sniOffset
    let first ← slice data 0 splitAt
    match c.writeDirect first with
    | (_, false, c) => return (0, false, c)
    | (_, true, c) =>
      let second ← slice data splitAt data.length
      match c.writeDirect second with
      | (_, false, c) => return (splitAt, false, c)
      | (_, true, c) => return (data.length, true, c)

/-- `writeReplace`. -/
def writeReplace (c : SpoofConn) (data : Bytes) : Go Empty (ℕ × Bool × SpoofConn) := do
  let modified ← replaceSNI data c.spoofer.fakeSNI
  return c.writeDirect modified

/-- `writeDouble`: what becomes of the first write is not looked at. -/
def writeDouble (c : SpoofConn) (data : Bytes) : Go Empty (ℕ × Bool × SpoofConn) := do
  let fakeHello ← replaceSNI data c.spoofer.fakeSNI
  let (_, _, c) := c.writeDirect fakeHello
  return c.writeDirect data

/-- `sniSpoofConn.Write`. -/
def write (c : SpoofConn) (p : Bytes) : Go Empty (ℕ × Bool × SpoofConn) :=
  if ¬ c.firstWrite then return c.writeDirect p
  else
    let c := { c with firstWrite := false }
    if ¬ isTLSClientHello p then return c.writeDirect p
    else
      match c.spoofer.method with
      | .split => c.writeSplit p
      | .replace => c.writeReplace p
      | .double => c.writeDouble p
      | .all => c.writeSplit p
      | _ => c.writeSplit p

/-- The connection after one `Write` for each buffer. -/
def writes (c : SpoofConn) : List Bytes → Go Empty SpoofConn
  | [] => return c
  | p :: ps => do
      let (_, _, c) ← c.write p
      c.writes ps

/-- The bytes that reach the connection when `p` is written. -/
def onWire (c : SpoofConn) (p : Bytes) : Bytes :=
  if c.firstWrite ∧ isTLSClientHello p then
    match c.spoofer.method with
    | .replace => replaced p c.spoofer.fakeSNI
    | .double => replaced p c.spoofer.fakeSNI ++ p
    | _ => p
  else p

/-- A call has returned the full length, and these bytes have reached the connection. -/
structure Sent (c : SpoofConn) (p wire : Bytes) (r : ℕ × Bool × SpoofConn) : Prop where
  count : r.1 = p.length
  ok : r.2.1 = true
  reliable : r.2.2.conn.sink.Reliable
  written : r.2.2.conn.sink.written = c.conn.sink.written ++ wire
  firstWrite : r.2.2.firstWrite = c.firstWrite

section Reliable

variable {c : SpoofConn} (hc : c.conn.sink.Reliable)
include hc

theorem writeDirect_eq (p : Bytes) :
    c.writeDirect p = (p.length, true,
      { c with conn := ⟨⟨c.conn.sink.written ++ p, []⟩, c.conn.calls ++ [p]⟩ }) := by
  rw [writeDirect, Recorder.write_of_reliable hc]

theorem writeDirect_sent (p : Bytes) : Sent c p p (c.writeDirect p) := by
  rw [writeDirect_eq hc]
  exact ⟨rfl, rfl, rfl, rfl, rfl⟩

/-- The two parts of a hello that is cut make up the hello. -/
theorem writeSplit_sent (p : Bytes) : Yields (c.writeSplit p) (Sent c p p) := by
  rw [writeSplit]
  refine (findSNIOffset_safe p).bind fun sniOffset hfound => ?_
  split_ifs with hnone
  · exact ⟨_, rfl, writeDirect_sent hc p⟩
  have hle : c.splitAt p sniOffset ≤ p.length := by
    rcases hfound with rfl | hfound
    · exact absurd (by decide) hnone
    · rw [splitAt]
      split_ifs <;> omega
  set cut := c.splitAt p sniOffset
  have hfirst : (slice p 0 cut : Go Empty Bytes) = .ok (p.take cut) :=
    slice_eq_ok.2 ⟨Nat.zero_le _, hle, rfl⟩
  have hsecond : (slice p cut p.length : Go Empty Bytes) = .ok (p.drop cut) :=
    slice_eq_ok.2 ⟨hle, le_rfl, by rw [List.take_length]⟩
  have hnext : Sink.Reliable ⟨c.conn.sink.written ++ p.take cut, []⟩ := rfl
  dsimp only
  rw [hfirst, Go.ok_bind, writeDirect_eq hc]
  dsimp only
  rw [hsecond, Go.ok_bind, writeDirect_eq hnext]
  refine ⟨_, rfl, rfl, rfl, rfl, ?_, rfl⟩
  dsimp only
  rw [List.append_assoc, List.take_append_drop]

theorem writeReplace_sent (p : Bytes) :
    Yields (c.writeReplace p) (Sent c p (replaced p c.spoofer.fakeSNI)) := by
  rw [writeReplace, replaceSNI_eq, Go.ok_bind, writeDirect_eq hc, length_replaced]
  exact ⟨_, rfl, rfl, rfl, rfl, rfl, rfl⟩

theorem writeDouble_sent (p : Bytes) :
    Yields (c.writeDouble p) (Sent c p (replaced p c.spoofer.fakeSNI ++ p)) := by
  rw [writeDouble, replaceSNI_eq, Go.ok_bind, writeDirect_eq hc]
  have hnext : Sink.Reliable ⟨c.conn.sink.written ++ replaced p c.spoofer.fakeSNI, []⟩ := rfl
  dsimp only
  rw [writeDirect_eq hnext]
  refine ⟨_, rfl, rfl, rfl, rfl, ?_, rfl⟩
  dsimp only
  rw [List.append_assoc]

/-- **What a write sends.**  On a connection that takes everything, with every method and every
buffer, `Write` returns without a panic and reports the whole buffer.  A buffer that is cut
arrives as it is; a hello whose name is replaced arrives with its length, and with the method
`double` it arrives twice. -/
theorem write_reliable (p : Bytes) :
    Yields (c.write p) (Sent { c with firstWrite := false } p (c.onWire p)) := by
  have hfirst : { c with firstWrite := false }.conn.sink.Reliable := hc
  rw [write, onWire]
  by_cases hspoof : c.firstWrite = true ∧ isTLSClientHello p = true
  · rw [if_pos hspoof, if_neg (not_not.2 hspoof.1)]
    dsimp only
    rw [if_neg (not_not.2 hspoof.2)]
    cases hm : c.spoofer.method with
    | replace => exact writeReplace_sent hfirst p
    | double => exact writeDouble_sent hfirst p
    | split => exact writeSplit_sent hfirst p
    | ttl => exact writeSplit_sent hfirst p
    | all => exact writeSplit_sent hfirst p
    | other name => exact writeSplit_sent hfirst p
  · rw [if_neg hspoof]
    by_cases hlater : c.firstWrite = true
    · have hother : ¬ isTLSClientHello p = true := fun h => hspoof ⟨hlater, h⟩
      rw [if_neg (not_not.2 hlater)]
      dsimp only
      rw [if_pos hother]
      exact ⟨_, rfl, writeDirect_sent hfirst p⟩
    · rw [if_pos hlater]
      have hsent := writeDirect_sent hc p
      exact ⟨_, rfl, { hsent with firstWrite := hsent.firstWrite.trans (by simpa using hlater) }⟩

/-- After the first write, everything arrives as it is written. -/
theorem writes_later (hlater : c.firstWrite = false) (ps : List Bytes) :
    Yields (c.writes ps) fun c' => c'.conn.sink.written = c.conn.sink.written ++ ps.flatten := by
  induction ps generalizing c with
  | nil => exact ⟨c, rfl, (List.append_nil _).symm⟩
  | cons p ps ih =>
    have hplain : c.onWire p = p := by
      rw [onWire, hlater]
      exact if_neg fun h => Bool.false_ne_true h.1
    refine (write_reliable hc p).bind fun r hsent => ?_
    obtain ⟨c', hwrites, hwritten⟩ := ih hsent.reliable hsent.firstWrite
    refine ⟨c', hwrites, ?_⟩
    show c'.conn.sink.written = _
    rw [hwritten, hsent.written, hplain, List.flatten_cons, List.append_assoc]

end Reliable

/-- **Only the first write is touched.**  On a connection that takes everything, after any
writes: what has arrived is the first buffer, spoofed if it is a hello, and then the others as
they were written. -/
theorem writes_wrapConn {conn : Recorder} (hconn : conn.sink.Reliable) (spoofer : SNISpoofing)
    (p : Bytes) (ps : List Bytes) :
    Yields ((wrapConn conn spoofer).writes (p :: ps)) fun c =>
      c.conn.sink.written
        = conn.sink.written ++ ((wrapConn conn spoofer).onWire p ++ ps.flatten) := by
  have hwrap : (wrapConn conn spoofer).conn.sink.Reliable := hconn
  refine (write_reliable hwrap p).bind fun r hsent => ?_
  obtain ⟨c, hwrites, hwritten⟩ := writes_later hsent.reliable hsent.firstWrite ps
  refine ⟨c, hwrites, ?_⟩
  show c.conn.sink.written = _
  rw [hwritten, hsent.written, List.append_assoc]
  rfl

/-- A hello with one cipher suite and one extension, for a name of three bytes. -/
def helloFor (name : Bytes) : Bytes :=
  [22, 3, 1, 0, 59, 1, 0, 0, 55, 3, 3] ++ List.replicate 32 0
    ++ [0, 0, 2, 19, 1, 1, 0, 0, 12, 0, 0, 0, 8, 0, 6, 0, 0, 3] ++ name

/-- The hello for `a.b` goes out as one for `x.y` and then as it is; the next write is untouched. -/
theorem writes_wrapConn_double :
    Yields ((wrapConn ⟨⟨[], []⟩, []⟩ ⟨[120, 46, 121], .double, 0⟩).writes
      [helloFor [97, 46, 98], [2]]) fun c =>
        c.conn.sink.written = helloFor [120, 46, 121] ++ (helloFor [97, 46, 98] ++ [2]) := by
  have hconn : (Recorder.mk ⟨[], []⟩ []).sink.Reliable := rfl
  have hwire : (wrapConn ⟨⟨[], []⟩, []⟩ ⟨[120, 46, 121], .double, 0⟩).onWire
      (helloFor [97, 46, 98]) = helloFor [120, 46, 121] ++ helloFor [97, 46, 98] := by
    decide +kernel
  obtain ⟨c, hwrites, hwritten⟩ := writes_wrapConn hconn ⟨[120, 46, 121], .double, 0⟩
    (helloFor [97, 46, 98]) [[2]]
  refine ⟨c, hwrites, hwritten.trans ?_⟩
  rw [hwire, List.append_assoc]
  rfl

end SpoofConn

end SniSpoof
