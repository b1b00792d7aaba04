/-
# Reading the REALITY authenticator out of a ClientHello

Model of `parseClientHelloAuth` and `parseKeyShareX25519` in
`internal/antidpi/reality_hello.go`.  Every index and slice expression of the source
is one here, so that an access out of range would be a panic of the model.

The two loops of the source read fields of one layout, a type and a length of two
bytes each and then the body; `nextField` is one round of either.  A round moves the
position forward by four bytes or more, so the loops are given the length of the data
as fuel.
-/
import IPShadowT.Bytes

open Bytes

namespace Reality

/-- `AuthTokenSize`. -/
def authTokenSize : ℕ := 32

/-! ## Errors -/

/-- The errors of `parseKeyShareX25519`. -/
inductive KeyShareError where
  | tooShort
  | notFound
  deriving DecidableEq, Repr

def KeyShareError.message : KeyShareError → String
  | .tooShort => "key_share too short"
  | .notFound => "X25519 key share not found"

/-- The errors of `parseClientHelloAuth`. -/
inductive HelloError where
  | recordTooShort
  | notHandshake
  | incompleteRecord
  | notClientHello
  | helloTruncated
  | sessionIDTruncated
  | cipherSuitesTruncated
  | compressionTruncated
  | noExtensions
  | extensionsTruncated
  | invalidSessionIDLength (n : ℕ)
  | missingKeyShare
  deriving DecidableEq, Repr

def HelloError.message : HelloError → String
  | .recordTooShort => "record too short"
  | .notHandshake => "not a TLS handshake record"
  | .incompleteRecord => "incomplete TLS record"
  | .notClientHello => "not a ClientHello"
  | .helloTruncated => "ClientHello truncated"
  | .sessionIDTruncated => "session ID truncated"
  | .cipherSuitesTruncated => "cipher suites truncated"
  | .compressionTruncated => "compression methods truncated"
  | .noExtensions => "no extensions"
  | .extensionsTruncated => "extensions truncated"
  | .invalidSessionIDLength n => "invalid session ID length: " ++ toString n
  | .missingKeyShare => "missing X25519 key share"

/-! ## The loops -/

/-- One round of a loop over the fields of `data` up to `fin`: the type and the body of the
field at `pos`, and the position after it; `none` where the loop ends. -/
def nextField {ε : Type} (data : Bytes) (fin pos : ℕ) : Go ε (Option (ℕ × Bytes × ℕ)) :=
  if pos + 4 ≤ fin then do
    let kind ← beField 2 (← slice data pos (pos + 2))
    let len ← beField 2 (← slice data (pos + 2) (pos + 4))
    if pos + 4 + len > fin then return none
    let body ← slice data (pos + 4) (pos + 4 + len)
    return some (kind, body, pos + 4 + len)
  else return none

/-- The loop of `parseKeyShareX25519`: the first key of the right group and length. -/
def keyShareLoop (extData : Bytes) : ℕ → ℕ → Go KeyShareError Bytes
  | 0, _ => .error (.error .notFound)
  | fuel + 1, pos => do
      match ← nextField extData extData.length pos with
      | none => .error (.error .notFound)
      | some (group, key, next) =>
        if group = 0x001d ∧ key.length = 32 then .ok key
        else keyShareLoop extData fuel next

/-- `parseKeyShareX25519`. -/
def parseKeyShareX25519 (extData : Bytes) : Go KeyShareError Bytes :=
  if extData.length < 2 then .error (.error .tooShort)
  else keyShareLoop extData extData.length 2

/-- The extension loop of `parseClientHelloAuth`: each `key_share` extension with a key
overwrites the one before. -/
def extensionLoop (payload : Bytes) (extEnd : ℕ) : ℕ → ℕ → Bytes → Go HelloError Bytes
  | 0, _, ephPublicKey => .ok ephPublicKey
  | fuel + 1, pos, ephPublicKey => do
      match ← nextField payload extEnd pos with
      | none => .ok ephPublicKey
      | some (extType, extData, next) =>
        if extType = 0x0033 then
          match parseKeyShareX25519 extData with
          | .ok key => extensionLoop payload extEnd fuel next key
          | .error (.error _) => extensionLoop payload extEnd fuel next ephPublicKey
          | .error .panic => .error .panic
        else extensionLoop payload extEnd fuel next ephPublicKey

/-! ## The parser -/

/-- `parseClientHelloAuth` from the extensions on, which start at `pos`: the key share. -/
def parseExtensions (payload : Bytes) (pos : ℕ) : Go HelloError Bytes :=
  if payload.length < pos + 2 then .error (.error .noExtensions) else do
  let extTotalLen ← beField 2 (← slice payload pos (pos + 2))
  let extEnd := pos + 2 + extTotalLen
  if extEnd > payload.length then .error (.error .extensionsTruncated) else
  extensionLoop payload extEnd payload.length (pos + 2) []

/-- `parseClientHelloAuth` from the cipher suites on, which start at `pos`. -/
def parseAfterSessionID (payload : Bytes) (pos : ℕ) : Go HelloError Bytes :=
  if payload.length < pos + 2 then .error (.error .cipherSuitesTruncated) else do
  let cipherLen ← beField 2 (← slice payload pos (pos + 2))
  let pos := pos + (2 + cipherLen)
  if payload.length < pos + 1 then .error (.error .compressionTruncated) else do
  let compLen ← index payload pos
  parseExtensions payload (pos + (1 + compLen.toNat))

/-- `parseClientHelloAuth` on the payload of the record, before the last checks: the
session id and the key share. -/
def parseHandshake (payload : Bytes) : Go HelloError (Bytes × Bytes) :=
  if payload.length < 4 then .error (.error .notClientHello) else do
  let handshakeType ← index payload 0
  if handshakeType ≠ 0x01 then .error (.error .notClientHello) else do
  -- handshake type, 3-byte length, legacy version and random come first
  if payload.length < 4 + 2 + 32 + 1 then .error (.error .helloTruncated) else do
  let sessLen ← index payload 38
  if payload.length < 39 + sessLen.toNat then .error (.error .sessionIDTruncated) else do
  let sessionID ← slice payload 39 (39 + sessLen.toNat)
  let ephPublicKey ← parseAfterSessionID payload (39 + sessLen.toNat)
  return (sessionID, ephPublicKey)

/-- The last checks of `parseClientHelloAuth`. -/
def checkLengths (sessionID ephPublicKey : Bytes) : Go HelloError (Bytes × Bytes) :=
  if sessionID.length ≠ authTokenSize then
    .error (.error (.invalidSessionIDLength sessionID.length))
  else if ephPublicKey.length ≠ 32 then .error (.error .missingKeyShare)
  else .ok (sessionID, ephPublicKey)

/-- `parseClientHelloAuth`: the session id and the X25519 key share. -/
def parseClientHelloAuth (rawData : Bytes) : Go HelloError (Bytes × Bytes) :=
  if rawData.length < 5 then .error (.error .recordTooShort) else do
  let contentType ← index rawData 0
  if contentType ≠ 0x16 then .error (.error .notHandshake) else do
  let recordLen := (← index rawData 3).toNat * 256 + (← index rawData 4).toNat
  if recordLen + 5 > rawData.length then .error (.error .incompleteRecord) else do
  let payload ← slice rawData 5 (5 + recordLen)
  let (sessionID, ephPublicKey) ← parseHandshake payload
  checkLengths sessionID ephPublicKey

/-! ## The loops end by themselves

A round moves on by four bytes or more, so a loop that may make as many rounds as there
are bytes left is never cut short. -/

/-- There is no room for a field. -/
theorem nextField_of_lt {ε : Type} {data : Bytes} {fin pos : ℕ} (h : fin < pos + 4) :
    (nextField data fin pos : Go ε _) = .ok none :=
  if_neg (not_le.2 h)

/-- A round moves forward. -/
theorem lt_of_nextField {ε : Type} {data body : Bytes} {fin pos kind next : ℕ}
    (h : (nextField data fin pos : Go ε _) = .ok (some (kind, body, next))) : pos < next := by
  unfold nextField at h
  split at h
  · obtain ⟨kindBytes, -, h⟩ := Go.bind_eq_ok.1 h
    obtain ⟨kind', -, h⟩ := Go.bind_eq_ok.1 h
    obtain ⟨lenBytes, -, h⟩ := Go.bind_eq_ok.1 h
    obtain ⟨len, -, h⟩ := Go.bind_eq_ok.1 h
    split at h
    · cases h
    · obtain ⟨body', -, h⟩ := Go.bind_eq_ok.1 h
      cases h
      omega
  · cases h

theorem keyShareLoop_of_lt {extData : Bytes} {pos : ℕ} (h : extData.length < pos + 4)
    (fuel : ℕ) : keyShareLoop extData fuel pos = .error (.error .notFound) := by
  cases fuel with
  | zero => rfl
  | succ fuel =>
    rw [keyShareLoop, nextField_of_lt h]
    rfl

/-- **The key share loop is not cut short**: more rounds than bytes change nothing. -/
theorem keyShareLoop_fuel {extData : Bytes} {pos fuel fuel' : ℕ}
    (h : extData.length ≤ pos + fuel) (h' : extData.length ≤ pos + fuel') :
    keyShareLoop extData fuel pos = keyShareLoop extData fuel' pos := by
  apply Go.loop_fuel (fun pos => extData.length - pos) _ _ (by omega) (by omega)
  · intro pos fuel fuel' hzero
    rw [keyShareLoop_of_lt (by omega), keyShareLoop_of_lt (by omega)]
  · intro pos fuel fuel' hzero hrest
    rw [keyShareLoop, keyShareLoop]
    rcases hnext : (nextField extData extData.length pos : Go KeyShareError _)
      with e | _ | ⟨group, key, next⟩
    · rfl
    · rfl
    · have hlt := lt_of_nextField hnext
      simp only [Go.ok_bind, hrest next (by omega)]

theorem extensionLoop_of_lt {payload : Bytes} {extEnd pos : ℕ} (h : extEnd < pos + 4)
    (fuel : ℕ) (ephPublicKey : Bytes) :
    extensionLoop payload extEnd fuel pos ephPublicKey = .ok ephPublicKey := by
  cases fuel with
  | zero => rfl
  | succ fuel =>
    rw [extensionLoop, nextField_of_lt h]
    rfl

/-- **The extension loop is not cut short** either. -/
theorem extensionLoop_fuel {payload ephPublicKey : Bytes} {extEnd pos fuel fuel' : ℕ}
    (h : extEnd ≤ pos + fuel) (h' : extEnd ≤ pos + fuel') :
    extensionLoop payload extEnd fuel pos ephPublicKey
      = extensionLoop payload extEnd fuel' pos ephPublicKey := by
  have hloop : extensionLoop payload extEnd fuel pos = extensionLoop payload extEnd fuel' pos := by
    apply Go.loop_fuel (fun pos => extEnd - pos) _ _ (by omega) (by omega)
    · intro pos fuel fuel' hzero
      funext key
      rw [extensionLoop_of_lt (by omega), extensionLoop_of_lt (by omega)]
    · intro pos fuel fuel' hzero hrest
      funext key
      rw [extensionLoop, extensionLoop]
      rcases hnext : (nextField payload extEnd pos : Go HelloError _)
        with e | _ | ⟨extType, extData, next⟩
      · rfl
      · rfl
      · have hlt := lt_of_nextField hnext
        simp only [Go.ok_bind, hrest next (by omega)]
  rw [hloop]

/-! ## No access is out of range -/

/-- A round stays within the data. -/
theorem nextField_noPanic {ε : Type} {data : Bytes} {fin : ℕ} (hfin : fin ≤ data.length)
    (pos : ℕ) : Go.NoPanic (nextField data fin pos : Go ε _) := by
  unfold nextField
  split
  · next hpos =>
    refine beField_slice_noPanic (by omega) fun kind => ?_
    refine beField_slice_noPanic (i := pos + 2) (k := 2) (by omega) fun len => ?_
    split
    · exact Go.NoPanic.ok _
    · exact (slice_noPanic (by omega) (by omega)).bind fun body _ => Go.NoPanic.ok _
  · exact Go.NoPanic.ok _

/-- So does the loop. -/
theorem keyShareLoop_noPanic (extData : Bytes) (fuel pos : ℕ) :
    Go.NoPanic (keyShareLoop extData fuel pos) := by
  induction fuel generalizing pos with
  | zero => exact Go.NoPanic.error _
  | succ fuel ih =>
    unfold keyShareLoop
    refine (nextField_noPanic (le_refl _) pos).bind fun field _ => ?_
    rcases field with _ | ⟨group, key, next⟩
    · exact Go.NoPanic.error _
    · dsimp only
      split
      · exact Go.NoPanic.ok _
      · exact ih next

/-- **The parser of the key share returns.** -/
theorem parseKeyShareX25519_noPanic (extData : Bytes) :
    Go.NoPanic (parseKeyShareX25519 extData) := by
  unfold parseKeyShareX25519
  split
  · exact Go.NoPanic.error _
  · exact keyShareLoop_noPanic _ _ _

theorem extensionLoop_noPanic {payload : Bytes} {extEnd : ℕ} (hend : extEnd ≤ payload.length)
    (fuel pos : ℕ) (ephPublicKey : Bytes) :
    Go.NoPanic (extensionLoop payload extEnd fuel pos ephPublicKey) := by
  induction fuel generalizing pos ephPublicKey with
  | zero => exact Go.NoPanic.ok _
  | succ fuel ih =>
    unfold extensionLoop
    refine (nextField_noPanic hend pos).bind fun field _ => ?_
    rcases field with _ | ⟨extType, extData, next⟩
    · exact Go.NoPanic.ok _
    · dsimp only
      split
      · rcases hkey : parseKeyShareX25519 extData with (e | _) | key
        · exact ih next ephPublicKey
        · exact absurd hkey (parseKeyShareX25519_noPanic extData)
        · exact ih next key
      · exact ih next ephPublicKey

theorem parseExtensions_noPanic (payload : Bytes) (pos : ℕ) :
    Go.NoPanic (parseExtensions payload pos) := by
  unfold parseExtensions
  split
  · exact Go.NoPanic.error _
  · refine beField_slice_noPanic (by omega) fun extTotalLen => ?_
    dsimp only
    split
    · exact Go.NoPanic.error _
    · exact extensionLoop_noPanic (by omega) _ _ _

theorem parseAfterSessionID_noPanic (payload : Bytes) (pos : ℕ) :
    Go.NoPanic (parseAfterSessionID payload pos) := by
  unfold parseAfterSessionID
  split
  · exact Go.NoPanic.error _
  · refine beField_slice_noPanic (by omega) fun cipherLen => ?_
    dsimp only
    split
    · exact Go.NoPanic.error _
    · exact (index_noPanic (by omega)).bind fun compLen _ => parseExtensions_noPanic _ _

/-- **The parser returns**, whatever the data. -/
theorem parseHandshake_noPanic (payload : Bytes) : Go.NoPanic (parseHandshake payload) := by
  unfold parseHandshake
  split
  · exact Go.NoPanic.error _
  refine (index_noPanic (by omega)).bind fun handshakeType _ => ?_
  split
  · exact Go.NoPanic.error _
  split
  · exact Go.NoPanic.error _
  refine (index_noPanic (by omega)).bind fun sessLen _ => ?_
  split
  · exact Go.NoPanic.error _
  refine (slice_noPanic (by omega) (by omega)).bind fun sessionID _ => ?_
  exact (parseAfterSessionID_noPanic _ _).bind fun key _ => Go.NoPanic.ok _

/-- **No ClientHello makes the parser panic**: whatever the bytes, it returns. -/
theorem parseClientHelloAuth_noPanic (rawData : Bytes) :
    Go.NoPanic (parseClientHelloAuth rawData) := by
  unfold parseClientHelloAuth
  split
  · exact Go.NoPanic.error _
  refine (index_noPanic (by omega)).bind fun contentType _ => ?_
  split
  · exact Go.NoPanic.error _
  refine (index_noPanic (by omega)).bind fun hi _ => ?_
  refine (index_noPanic (by omega)).bind fun lo _ => ?_
  dsimp only
  split
  · exact Go.NoPanic.error _
  refine (slice_noPanic (by omega) (by omega)).bind fun payload _ => ?_
  refine (parseHandshake_noPanic payload).bind fun ids _ => ?_
  unfold checkLengths
  split_ifs
  · exact Go.NoPanic.error _
  · exact Go.NoPanic.error _
  · exact Go.NoPanic.ok _

/-! ## What is accepted -/

/-- What is returned has the right lengths. -/
theorem checkLengths_eq_ok {sid key sessionID ephPublicKey : Bytes}
    (h : checkLengths sid key = .ok (sessionID, ephPublicKey)) :
    sessionID.length = authTokenSize ∧ ephPublicKey.length = 32 := by
  unfold checkLengths at h
  split_ifs at h with hsid hkey
  obtain ⟨rfl, rfl⟩ := Prod.mk.inj (Except.ok.inj h)
  exact ⟨not_not.1 hsid, not_not.1 hkey⟩

theorem checkLengths_of_length {sessionID ephPublicKey : Bytes}
    (hsid : sessionID.length = authTokenSize) (hkey : ephPublicKey.length = 32) :
    checkLengths sessionID ephPublicKey = .ok (sessionID, ephPublicKey) := by
  unfold checkLengths
  rw [if_neg (not_not.2 hsid), if_neg (not_not.2 hkey)]

/-- A hello that is accepted has a session id and a key share of 32 bytes each. -/
theorem parseClientHelloAuth_length {rawData sessionID ephPublicKey : Bytes}
    (h : parseClientHelloAuth rawData = .ok (sessionID, ephPublicKey)) :
    sessionID.length = authTokenSize ∧ ephPublicKey.length = 32 := by
  unfold parseClientHelloAuth at h
  split at h
  · cases h
  · obtain ⟨contentType, -, h⟩ := Go.bind_eq_ok.1 h
    split at h
    · cases h
    · obtain ⟨hi, -, h⟩ := Go.bind_eq_ok.1 h
      obtain ⟨lo, -, h⟩ := Go.bind_eq_ok.1 h
      dsimp only at h
      split at h
      · cases h
      · obtain ⟨payload, -, h⟩ := Go.bind_eq_ok.1 h
        obtain ⟨⟨sid, key⟩, -, h⟩ := Go.bind_eq_ok.1 h
        exact checkLengths_eq_ok h

end Reality
