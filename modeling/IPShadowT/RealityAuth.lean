/-
# REALITY authentication tokens

Model of `BuildAuthToken`, `VerifyAuthToken` and `SerializeAuthToken` in
`internal/antidpi/reality_auth.go`, and of the short id helpers in
`internal/antidpi/reality_hello.go`.  X25519 and HMAC-SHA256 are parameters, of which
only the values are used.  Go strings are byte strings, and times are in nanoseconds
since 1970.

A serialized token has the layout

    token (16) | short id (8) | timestamp (4) | padding (4)

`verifyAuthToken_isSome_iff` splits acceptance into the age of the token and a part,
`Genuine`, that does not depend on the time; `Genuine.congr` says that this part does
not depend on the padding either.
-/
import IPShadowT.Bytes
import IPShadowT.RealityHello

open Bytes

namespace Reality

/-- The cryptography that the tokens are made with. -/
structure Crypto where
  /-- the shared secret of a private key and the bytes of a public key, if that is a key
  and the secret is not zero -/
  ecdh : Bytes → Bytes → Option Bytes
  /-- the authentication code of a message under a key -/
  hmac : Bytes → Bytes → Bytes
  hmac_length : ∀ key message, (hmac key message).length = 32

/-! ## Short ids -/

/-- `trimNull`. -/
def trimNull (b : Bytes) : Bytes := (b.reverse.dropWhile (· = 0)).reverse

/-- The value of a hexadecimal digit. -/
def hexDigit (c : UInt8) : Option ℕ :=
  let n := c.toNat
  if 48 ≤ n ∧ n ≤ 57 then some (n - 48)
  else if 97 ≤ n ∧ n ≤ 102 then some (n - 87)
  else if 65 ≤ n ∧ n ≤ 70 then some (n - 55)
  else none

/-- `hex.DecodeString`, without the kind of its errors. -/
def hexDecode : Bytes → Option Bytes
  | [] => some []
  | [_] => none
  | a :: b :: rest => do
      let hi ← hexDigit a
      let lo ← hexDigit b
      let bs ← hexDecode rest
      return UInt8.ofNat (hi * 16 + lo) :: bs

/-- `decodeHexFlexible`. -/
def decodeHexFlexible (s : Bytes) : Option Bytes :=
  if s.length % 2 = 1 then hexDecode (48 :: s) else hexDecode s

/-- `copy(out, b)` into eight zero bytes. -/
def padShortID (b : Bytes) : Bytes := b.take 8 ++ List.replicate (8 - b.length) 0

/-- `normalizeShortIDBytes`. -/
def normalizeShortIDBytes (shortID : Bytes) : Bytes :=
  match decodeHexFlexible shortID with
  | some b => if b.length > 0 then padShortID b else padShortID shortID
  | none => padShortID shortID

theorem padShortID_length (b : Bytes) : (padShortID b).length = 8 := by
  rw [padShortID, List.length_append, List.length_take, List.length_replicate]
  omega

theorem normalizeShortIDBytes_length (shortID : Bytes) :
    (normalizeShortIDBytes shortID).length = 8 := by
  unfold normalizeShortIDBytes
  split
  · split <;> exact padShortID_length _
  · exact padShortID_length _

/-! ## Tokens -/

/-- `AuthToken`, whose fields are arrays of fixed size and a `uint32`. -/
structure AuthToken where
  token : Bytes
  shortID : Bytes
  timestamp : ℕ
  padding : Bytes
  token_length : token.length = 16
  shortID_length : shortID.length = 8
  timestamp_lt : timestamp < 2 ^ 32
  padding_length : padding.length = 4

/-- `uint32(t.Unix())`. -/
def unix32 (t : Int) : ℕ := (t / 10 ^ 9 % 2 ^ 32).toNat

theorem unix32_lt (t : Int) : unix32 t < 2 ^ 32 := by
  unfold unix32
  omega

/-- The bytes of `iPShadowT-REALITY-v1`. -/
def label : Bytes :=
  [105, 80, 83, 104, 97, 100, 111, 119, 84, 45, 82, 69, 65, 76, 73, 84, 89, 45, 118, 49]

/-- The first 16 bytes of the authentication code of a timestamp and a short id. -/
def authCode (C : Crypto) (sharedSecret : Bytes) (timestamp : ℕ) (shortID : Bytes) : Bytes :=
  (C.hmac sharedSecret (label ++ (beBytes 4 timestamp ++ trimNull shortID))).take 16

theorem authCode_length (C : Crypto) (sharedSecret : Bytes) (timestamp : ℕ) (shortID : Bytes) :
    (authCode C sharedSecret timestamp shortID).length = 16 := by
  rw [authCode, List.length_take, C.hmac_length]
  rfl

/-- `BuildAuthToken`, for an ephemeral key, at a time and with random padding. -/
def buildAuthToken (C : Crypto) (ephemeralKey serverPublicKey shortID : Bytes) (now : Int)
    (padding : Bytes) (hpadding : padding.length = 4) : Option AuthToken := do
  let sharedSecret ← C.ecdh ephemeralKey serverPublicKey
  return {
    token := authCode C sharedSecret (unix32 now) (normalizeShortIDBytes shortID)
    shortID := normalizeShortIDBytes shortID
    timestamp := unix32 now
    padding := padding
    token_length := authCode_length ..
    shortID_length := normalizeShortIDBytes_length shortID
    timestamp_lt := unix32_lt now
    padding_length := hpadding }

/-- `SerializeAuthToken`. -/
def serializeAuthToken (t : AuthToken) : Bytes :=
  t.token ++ t.shortID ++ beBytes 4 t.timestamp ++ t.padding

/-! ## Verification -/

/-- `tokenBytes[16:24]`. -/
def shortIDField (tokenBytes : Bytes) : Bytes := (tokenBytes.take 24).drop 16

/-- The number in `tokenBytes[24:28]`. -/
def timestampField (tokenBytes : Bytes) : ℕ := beNat ((tokenBytes.take 28).drop 24)

/-- The timestamp is within `timeWindow` seconds of the clock. -/
def Timely (timeWindow : Int) (now : Int) (tokenBytes : Bytes) : Prop :=
  |(unix32 now : Int) - timestampField tokenBytes| ≤ timeWindow

instance (timeWindow now : Int) (tokenBytes : Bytes) :
    Decidable (Timely timeWindow now tokenBytes) :=
  inferInstanceAs (Decidable (_ ≤ _))

/-- The first allowed id that has the bytes of the token's short id. -/
def findShortID (allowedShortIDs : List Bytes) (shortID : Bytes) : Option Bytes :=
  allowedShortIDs.find? fun allowed =>
    allowed ≠ [] ∧ trimNull shortID = trimNull (normalizeShortIDBytes allowed)

/-- `VerifyAuthToken`: the short id, if the token is accepted. -/
def verifyAuthToken (C : Crypto) (tokenBytes ephemeralPublicKeyBytes serverPrivateKey : Bytes)
    (allowedShortIDs : List Bytes) (timeWindow : Int) (now : Int) : Option Bytes :=
  if tokenBytes.length ≠ authTokenSize then none
  else if ephemeralPublicKeyBytes.length ≠ 32 then none
  else
    match C.ecdh serverPrivateKey ephemeralPublicKeyBytes with
    | none => none
    | some sharedSecret =>
      let timeWindow := if timeWindow ≤ 0 then 120 else timeWindow
      if ¬ Timely timeWindow now tokenBytes then none
      else
        match findShortID allowedShortIDs (shortIDField tokenBytes) with
        | none => none
        | some shortID =>
          if tokenBytes.take 16 ≠ authCode C sharedSecret (timestampField tokenBytes)
              (shortIDField tokenBytes) then none
          else some shortID

/-- What acceptance requires of a token whatever the time: the key share is a key, the
short id is allowed, and the authentication code is the right one. -/
structure Genuine (C : Crypto) (serverPrivateKey : Bytes) (allowedShortIDs : List Bytes)
    (ephemeralPublicKeyBytes tokenBytes : Bytes) : Prop where
  token_length : tokenBytes.length = authTokenSize
  key_length : ephemeralPublicKeyBytes.length = 32
  code : ∃ sharedSecret, C.ecdh serverPrivateKey ephemeralPublicKeyBytes = some sharedSecret ∧
    tokenBytes.take 16 =
      authCode C sharedSecret (timestampField tokenBytes) (shortIDField tokenBytes)
  allowed : (findShortID allowedShortIDs (shortIDField tokenBytes)).isSome

section

variable {C : Crypto} {serverPrivateKey : Bytes} {allowedShortIDs : List Bytes}
variable {eph tokenBytes : Bytes} {now : Int}

/-- All that acceptance asks for, check by check. -/
theorem verifyAuthToken_eq_some_iff {timeWindow : Int} {id : Bytes} :
    verifyAuthToken C tokenBytes eph serverPrivateKey allowedShortIDs timeWindow now = some id ↔
      tokenBytes.length = authTokenSize ∧ eph.length = 32 ∧
        ∃ sharedSecret, C.ecdh serverPrivateKey eph = some sharedSecret ∧
          Timely (if timeWindow ≤ 0 then 120 else timeWindow) now tokenBytes ∧
          findShortID allowedShortIDs (shortIDField tokenBytes) = some id ∧
          tokenBytes.take 16 =
            authCode C sharedSecret (timestampField tokenBytes) (shortIDField tokenBytes) := by
  unfold verifyAuthToken
  rw [Option.ite_none_left_eq_some, not_not, Option.ite_none_left_eq_some, not_not]
  refine and_congr_right fun _ => and_congr_right fun _ => ?_
  cases C.ecdh serverPrivateKey eph with
  | none => simp
  | some secret =>
    dsimp only
    rw [Option.ite_none_left_eq_some, not_not]
    cases findShortID allowedShortIDs (shortIDField tokenBytes) with
    | none => simp
    | some shortID =>
      dsimp only
      rw [Option.ite_none_left_eq_some, not_not]
      constructor
      · rintro ⟨htimely, hcode, hid⟩
        exact ⟨secret, rfl, htimely, hid, hcode⟩
      · rintro ⟨secret', hsecret, htimely, hid, hcode⟩
        obtain rfl := Option.some.inj hsecret
        exact ⟨htimely, hcode, hid⟩

/-- A token is accepted if it is genuine and its time has neither passed nor is still to
come. -/
theorem verifyAuthToken_isSome_iff {timeWindow : Int} (hw : 0 < timeWindow) :
    (verifyAuthToken C tokenBytes eph serverPrivateKey allowedShortIDs timeWindow now).isSome ↔
      Genuine C serverPrivateKey allowedShortIDs eph tokenBytes ∧
        Timely timeWindow now tokenBytes := by
  have hwindow : (if timeWindow ≤ 0 then 120 else timeWindow) = timeWindow :=
    if_neg (not_le.2 hw)
  rw [Option.isSome_iff_exists]
  constructor
  · rintro ⟨id, hid⟩
    obtain ⟨hlen, hkey, secret, hsecret, htimely, hfound, hcode⟩ :=
      verifyAuthToken_eq_some_iff.1 hid
    rw [hwindow] at htimely
    exact ⟨⟨hlen, hkey, ⟨secret, hsecret, hcode⟩, by rw [hfound]; rfl⟩, htimely⟩
  · rintro ⟨⟨hlen, hkey, ⟨secret, hsecret, hcode⟩, hallowed⟩, htimely⟩
    obtain ⟨id, hfound⟩ := Option.isSome_iff_exists.1 hallowed
    rw [← hwindow] at htimely
    exact ⟨id, verifyAuthToken_eq_some_iff.2
      ⟨hlen, hkey, secret, hsecret, htimely, hfound, hcode⟩⟩

/-- Nothing ties the padding to the rest of the token. -/
theorem Genuine.congr {tokenBytes' : Bytes}
    (h : Genuine C serverPrivateKey allowedShortIDs eph tokenBytes)
    (hlen : tokenBytes'.length = authTokenSize)
    (htake : tokenBytes'.take 28 = tokenBytes.take 28) :
    Genuine C serverPrivateKey allowedShortIDs eph tokenBytes' := by
  have htakes : ∀ n ≤ 28, tokenBytes'.take n = tokenBytes.take n := by
    intro n hn
    have htt := congrArg (List.take n) htake
    rwa [List.take_take, List.take_take, Nat.min_eq_left hn] at htt
  have hid : shortIDField tokenBytes' = shortIDField tokenBytes := by
    rw [shortIDField, shortIDField, htakes 24 (by omega)]
  have hts : timestampField tokenBytes' = timestampField tokenBytes := by
    rw [timestampField, timestampField, htake]
  refine ⟨hlen, h.key_length, ?_, ?_⟩
  · obtain ⟨secret, hsecret, hcode⟩ := h.code
    exact ⟨secret, hsecret, by rw [htakes 16 (by omega), hts, hid, hcode]⟩
  · rw [hid]
    exact h.allowed

end

end Reality
