/-
# Who is authenticated by a REALITY token

`BuildAuthToken` puts a short id into eight bytes, and `VerifyAuthToken` looks for an
allowed id with the same eight bytes.  Both go through `shortIDKey`: hexadecimal digits
are decoded and anything else is taken as it is, eight bytes of the result are kept, and
zero bytes at the end do not count.

Every id that is allowed is accepted (`verifyAuthToken_complete`).  The id that is returned
is the first allowed one with the bytes of the client's (`verifyAuthToken_identity`), which
need not be the same id: `a1b2c3d4` and `A1B2C3D4` have the same bytes.
-/
import IPShadowT.RealityServer

open Bytes

namespace Reality

/-! ## Serialized tokens -/

theorem length_serializeAuthToken (t : AuthToken) :
    (serializeAuthToken t).length = authTokenSize := by
  simp [serializeAuthToken, t.token_length, t.shortID_length, t.padding_length, authTokenSize]

theorem take_serializeAuthToken (t : AuthToken) : (serializeAuthToken t).take 16 = t.token := by
  rw [serializeAuthToken, List.append_assoc, List.append_assoc, ← t.token_length, List.take_left]

theorem shortIDField_serializeAuthToken (t : AuthToken) :
    shortIDField (serializeAuthToken t) = t.shortID := by
  have hfront : (t.token ++ t.shortID).length = 24 := by
    rw [List.length_append, t.token_length, t.shortID_length]
  rw [shortIDField, serializeAuthToken, List.append_assoc, ← hfront, List.take_left,
    ← t.token_length, List.drop_left]

theorem timestampField_serializeAuthToken (t : AuthToken) :
    timestampField (serializeAuthToken t) = t.timestamp := by
  have hfront : (t.token ++ t.shortID ++ beBytes 4 t.timestamp).length = 28 := by
    simp [t.token_length, t.shortID_length]
  have hids : (t.token ++ t.shortID).length = 24 := by
    rw [List.length_append, t.token_length, t.shortID_length]
  rw [timestampField, serializeAuthToken, ← hfront, List.take_left, ← hids, List.drop_left,
    beNat_beBytes]
  exact Nat.mod_eq_of_lt t.timestamp_lt

/-! ## Verifying a token that was built -/

/-- What is compared of a short id. -/
def shortIDKey (shortID : Bytes) : Bytes := trimNull (normalizeShortIDBytes shortID)

/-- The first allowed id with the bytes of a given one. -/
theorem findShortID_normalize (allowedShortIDs : List Bytes) (shortID : Bytes) :
    findShortID allowedShortIDs (normalizeShortIDBytes shortID)
      = allowedShortIDs.find? fun a => a ≠ [] ∧ shortIDKey shortID = shortIDKey a :=
  rfl

section Built

variable {C : Crypto} {ephemeralKey ephPub serverKey serverPub shortID padding : Bytes}
  {allowedShortIDs : List Bytes} {timeWindow clientNow serverNow : Int} {tokenBytes : Bytes}
  {hpadding : padding.length = 4}

/-- The parts of a token that was built and serialized. -/
theorem built_fields
    (hbuild : (buildAuthToken C ephemeralKey serverPub shortID clientNow padding hpadding).map
      serializeAuthToken = some tokenBytes) :
    ∃ secret, C.ecdh ephemeralKey serverPub = some secret
      ∧ tokenBytes.length = authTokenSize
      ∧ shortIDField tokenBytes = normalizeShortIDBytes shortID
      ∧ timestampField tokenBytes = unix32 clientNow
      ∧ tokenBytes.take 16
        = authCode C secret (unix32 clientNow) (normalizeShortIDBytes shortID) := by
  obtain ⟨token, htoken, rfl⟩ := Option.map_eq_some_iff.1 hbuild
  obtain ⟨secret, hsecret, hmake⟩ := Option.bind_eq_some_iff.1 htoken
  obtain rfl := Option.some.inj hmake
  exact ⟨secret, hsecret, length_serializeAuthToken _, shortIDField_serializeAuthToken _,
    timestampField_serializeAuthToken _, take_serializeAuthToken _⟩

theorem unix32_eq {now : Int} (h₀ : 0 ≤ now / 1000000000) (h : now / 1000000000 < 4294967296) :
    (unix32 now : Int) = now / 1000000000 := by
  unfold unix32
  omega

/-- A built token is timely as long as the clocks of the two sides are close. -/
theorem timely_built
    (hbuild : (buildAuthToken C ephemeralKey serverPub shortID clientNow padding hpadding).map
      serializeAuthToken = some tokenBytes)
    (hclient₀ : 0 ≤ clientNow / 1000000000) (hclient : clientNow / 1000000000 < 4294967296)
    (hserver₀ : 0 ≤ serverNow / 1000000000) (hserver : serverNow / 1000000000 < 4294967296)
    (hclose : |clientNow / 1000000000 - serverNow / 1000000000| ≤ timeWindow) :
    Timely timeWindow serverNow tokenBytes := by
  obtain ⟨secret, -, -, -, hts, -⟩ := built_fields hbuild
  rw [Timely, hts, unix32_eq hclient₀ hclient, unix32_eq hserver₀ hserver, abs_sub_comm]
  exact hclose

/-- **Every allowed id is accepted.**  Where the two sides agree on the secret and their
clocks are at most 120 seconds apart, the server accepts the token of any short id on its
list. -/
theorem verifyAuthToken_complete (hne : shortID ≠ []) (hallowed : shortID ∈ allowedShortIDs)
    (hagree : C.ecdh ephemeralKey serverPub = C.ecdh serverKey ephPub)
    (heph : ephPub.length = 32)
    (hbuild : (buildAuthToken C ephemeralKey serverPub shortID clientNow padding hpadding).map
      serializeAuthToken = some tokenBytes)
    (hclient₀ : 0 ≤ clientNow / 1000000000) (hclient : clientNow / 1000000000 < 4294967296)
    (hserver₀ : 0 ≤ serverNow / 1000000000) (hserver : serverNow / 1000000000 < 4294967296)
    (hclose : |clientNow / 1000000000 - serverNow / 1000000000| ≤ 120)
    (hwindow : timeWindow ≤ 0 ∨ 120 ≤ timeWindow) :
    (verifyAuthToken C tokenBytes ephPub serverKey allowedShortIDs timeWindow
      serverNow).isSome := by
  have hwide : (120 : Int) ≤ if timeWindow ≤ 0 then 120 else timeWindow := by
    split_ifs with h
    · exact le_refl _
    · exact hwindow.resolve_left h
  have htimely := timely_built hbuild hclient₀ hclient hserver₀ hserver (hclose.trans hwide)
  obtain ⟨secret, hsecret, hlen, hfield, hts, hcode⟩ := built_fields hbuild
  -- some allowed id has the bytes of this one: this one itself has
  obtain ⟨id, hid⟩ : ∃ id, findShortID allowedShortIDs (shortIDField tokenBytes) = some id := by
    rw [← Option.isSome_iff_exists, hfield, findShortID_normalize, List.find?_isSome]
    exact ⟨shortID, hallowed, decide_eq_true ⟨hne, rfl⟩⟩
  rw [← hts, ← hfield] at hcode
  rw [hagree] at hsecret
  rw [verifyAuthToken_eq_some_iff.2 ⟨hlen, heph, secret, hsecret, htimely, hid, hcode⟩]
  rfl

/-- **Whose token was accepted.**  The id that the server returns is an allowed one with the
bytes of the id that the token was built for, and the first such one.  If no other allowed
id has these bytes, it is the very id of the token. -/
theorem verifyAuthToken_identity {id : Bytes}
    (hbuild : (buildAuthToken C ephemeralKey serverPub shortID clientNow padding hpadding).map
      serializeAuthToken = some tokenBytes)
    (hok : verifyAuthToken C tokenBytes ephPub serverKey allowedShortIDs timeWindow serverNow
      = some id) :
    (∃ front back, allowedShortIDs = front ++ id :: back ∧ id ≠ []
        ∧ shortIDKey id = shortIDKey shortID
        ∧ ∀ a ∈ front, a = [] ∨ shortIDKey a ≠ shortIDKey shortID)
      ∧ ((∀ a ∈ allowedShortIDs, a ≠ [] → shortIDKey a = shortIDKey shortID → a = shortID) →
        shortID ∈ allowedShortIDs ∧ id = shortID) := by
  obtain ⟨secret, -, -, hfield, -, -⟩ := built_fields hbuild
  obtain ⟨-, -, secret', -, -, hfound, -⟩ := verifyAuthToken_eq_some_iff.1 hok
  rw [hfield, findShortID_normalize] at hfound
  obtain ⟨hid, front, back, hlist, hfront⟩ := List.find?_eq_some_iff_append.1 hfound
  obtain ⟨hne, hkey⟩ := of_decide_eq_true hid
  have hmem : id ∈ allowedShortIDs := List.mem_of_find?_eq_some hfound
  refine ⟨⟨front, back, hlist, hne, hkey.symm, fun a ha => ?_⟩, fun honly => ?_⟩
  · by_cases ha₀ : a = []
    · exact .inl ha₀
    · refine .inr fun hak => ?_
      have hnot := hfront a ha
      simp [ha₀, hak] at hnot
  · have heq := honly id hmem hne hkey.symm
    exact ⟨heq ▸ hmem, heq⟩

end Built

/-! ## An id in two spellings -/

namespace Sample

/-- The token of `replay_with_other_padding`. -/
theorem build_sample :
    (buildAuthToken tableCrypto clientPrivateKey serverPublicKey shortID
      (1700000000 * 1000000000) [7, 7, 7, 7] rfl).map serializeAuthToken
        = some (sessionIDWith [7, 7, 7, 7]) := by
  decide +kernel

theorem ecdh_sample :
    tableCrypto.ecdh clientPrivateKey serverPublicKey
      = tableCrypto.ecdh serverPrivateKey clientPublicKey := by
  decide +kernel

/-- It is accepted two minutes later. -/
theorem sample_accepted :
    (verifyAuthToken tableCrypto (sessionIDWith [7, 7, 7, 7]) clientPublicKey serverPrivateKey
      [[49], shortID] 120 (1700000120 * 1000000000)).isSome :=
  verifyAuthToken_complete (by decide) (by decide) ecdh_sample rfl build_sample (by decide)
    (by decide) (by decide) (by decide) (by decide) (by decide)

/-- The ASCII bytes of `A1B2C3D4`. -/
def upperShortID : Bytes := [65, 49, 66, 50, 67, 51, 68, 52]

theorem verify_upper :
    verifyAuthToken tableCrypto (sessionIDWith [7, 7, 7, 7]) clientPublicKey serverPrivateKey
      [upperShortID] 120 (1700000000 * 1000000000) = some upperShortID := by
  decide +kernel

/-- It is accepted as `A1B2C3D4` by a server that has the id in this spelling, and as
`a1b2c3d4` by one that has it in that of the client. -/
theorem sample_identity :
    (∃ front back, [upperShortID] = front ++ upperShortID :: back ∧ upperShortID ≠ []
        ∧ shortIDKey upperShortID = shortIDKey shortID
        ∧ ∀ a ∈ front, a = [] ∨ shortIDKey a ≠ shortIDKey shortID)
      ∧ shortID ∈ [[49], shortID] := by
  have hverify : verifyAuthToken tableCrypto (sessionIDWith [7, 7, 7, 7]) clientPublicKey
      serverPrivateKey [[49], shortID] 120 (1700000120 * 1000000000) = some shortID := by
    decide +kernel
  exact ⟨(verifyAuthToken_identity build_sample verify_upper).1,
    ((verifyAuthToken_identity build_sample hverify).2 (by decide +kernel)).1⟩

/-- **An id that is not on the list is accepted** where one with the same bytes is: a
client with the id `a1b2c3d4`, and a server that allows `A1B2C3D4` only. -/
theorem accepted_in_other_spelling :
    ¬ ∀ (C : Crypto) (ephemeralKey ephPub serverKey serverPub shortID padding tokenBytes id : Bytes)
        (hpadding : padding.length = 4) (allowedShortIDs : List Bytes)
        (timeWindow clientNow serverNow : Int),
        C.ecdh ephemeralKey serverPub = C.ecdh serverKey ephPub →
        (buildAuthToken C ephemeralKey serverPub shortID clientNow padding hpadding).map
          serializeAuthToken = some tokenBytes →
        verifyAuthToken C tokenBytes ephPub serverKey allowedShortIDs timeWindow serverNow
          = some id →
        shortID ∈ allowedShortIDs ∧ id = shortID := by
  intro hall
  have hmem := (hall tableCrypto clientPrivateKey clientPublicKey serverPrivateKey serverPublicKey
    shortID [7, 7, 7, 7] (sessionIDWith [7, 7, 7, 7]) upperShortID rfl [upperShortID] 120
    (1700000000 * 1000000000) (1700000000 * 1000000000) ecdh_sample build_sample
    verify_upper).1
  revert hmem
  decide

end Sample

end Reality
