/-
# `Encryptor`: the encrypted frame of one payload

Model of `internal/crypto/aead.go`.  A frame is

    nonce (24)  |  sealed length (2 + 16)  |  sealed payload (N + 16)

and both sealed parts use the one nonce drawn for the frame.  The cipher is
XChaCha20-Poly1305 from outside the repository; it enters as an `Aead`, with
what the code relies on as the named laws `Aead.Correct` and
`Aead.RefusesShort`.

`World` is what the calls on one `Encryptor` share: how much of the random
source has been used, and (a ghost) every `Seal` made so far.

`payloadLen+TagSize` is computed in `uint16`, which limits the round trip
(`decrypt_encrypt_eq_ok_iff`).  Its converse is `decrypt_never_canonical`: what
stands behind a frame is not looked at.
-/
import IPShadowT.Bytes

open Bytes

/-! ## Constants and errors -/

/-- `MaxPayloadSize`. -/
def maxPayloadSize : ℕ := 65535

/-- `NonceSize`, that of XChaCha20. -/
def nonceSize : ℕ := 24

/-- `TagSize`. -/
def tagSize : ℕ := 16

/-- `LengthSize`. -/
def lengthSize : ℕ := 2

/-- The errors of `aead.go`; `random` and `write` stand for the errors of
`rand.Reader` and of the writer, which are passed on. -/
inductive CryptoError where
  | payloadTooLarge
  | random
  | ciphertextTooShort
  | lengthCorrupted
  | payloadTooShort
  | payloadCorrupted
  | write
  deriving DecidableEq, Repr

/-- The message of an error that `aead.go` makes itself. -/
def CryptoError.message : CryptoError → Option String
  | payloadTooLarge => some "payload too large"
  | ciphertextTooShort => some "ciphertext too short"
  | lengthCorrupted => some "failed to decrypt length: invalid key or corrupted data"
  | payloadTooShort => some "payload too short"
  | payloadCorrupted => some "failed to decrypt payload: invalid key or corrupted data"
  | random | write => none

/-! ## The cipher -/

/-- A nonce as `Encrypt` draws it. -/
abbrev Nonce := { n : Bytes // n.length = nonceSize }

/-- A `cipher.AEAD` under a fixed key, used without associated data. -/
structure Aead where
  /-- `Seal(nil, nonce, plaintext, nil)` -/
  sealWith : Bytes → Bytes → Bytes
  /-- `Open(nil, nonce, ciphertext, nil)` -/
  openWith : Bytes → Bytes → Option Bytes

namespace Aead

/-- `Seal` adds a tag of 16 bytes. -/
def AddsTag (A : Aead) : Prop :=
  ∀ n m, (A.sealWith n m).length = m.length + tagSize

/-- What a round trip may rely on: `Open` undoes `Seal`, and `Seal` adds a tag. -/
structure Correct (A : Aead) : Prop where
  open_seal : ∀ n m, A.openWith n (A.sealWith n m) = some m
  addsTag : A.AddsTag

/-- `Open` accepts only what `Seal` makes. -/
def OnlySealed (A : Aead) : Prop :=
  ∀ n x m, A.openWith n x = some m → x = A.sealWith n m

/-- `Open` rejects a ciphertext that is shorter than a tag. -/
def RefusesShort (A : Aead) : Prop :=
  ∀ n x, x.length < tagSize → A.openWith n x = none

end Aead

namespace Encryptor

/-! ## `Encrypt` -/

/-- One `Seal` invocation. -/
structure SealCall where
  nonce : Nonce
  message : Bytes
  deriving DecidableEq

/-- The state shared by the calls on one `Encryptor`. -/
structure World where
  /-- how often the random source has been read -/
  draws : ℕ
  /-- every `Seal` invocation so far, in order -/
  seals : List SealCall

/-- `e.aead.Seal(nil, nonce, m, nil)`, recorded. -/
def World.sealWith (w : World) (A : Aead) (nonce : Nonce) (m : Bytes) : Bytes × World :=
  (A.sealWith nonce m, { w with seals := w.seals ++ [⟨nonce, m⟩] })

/-- `Encryptor.Encrypt`.  `rand i` is the outcome of the `i`-th
`io.ReadFull(rand.Reader, nonce)`. -/
def encrypt (A : Aead) (rand : ℕ → Option Nonce) (plaintext : Bytes) (w : World) :
    Go CryptoError Bytes × World :=
  if plaintext.length > maxPayloadSize then (.error (.error .payloadTooLarge), w)
  else
    let drawn := { w with draws := w.draws + 1 }
    match rand w.draws with
    | none => (.error (.error .random), drawn)
    | some nonce =>
      let lengthBuf := beBytes lengthSize plaintext.length
      let (encryptedLength, w₁) := drawn.sealWith A nonce lengthBuf
      let (encryptedPayload, w₂) := w₁.sealWith A nonce plaintext
      (.ok (nonce ++ encryptedLength ++ encryptedPayload), w₂)

/-! ## `Decrypt` -/

/-- The result of an `Open`, or the error `Decrypt` returns for it. -/
def opened (e : CryptoError) : Option Bytes → Go CryptoError Bytes
  | some b => .ok b
  | none => .error (.error e)

/-- `Encryptor.Decrypt`. -/
def decrypt (A : Aead) (ciphertext : Bytes) : Go CryptoError Bytes :=
  if ciphertext.length < nonceSize + lengthSize + tagSize then
    .error (.error .ciphertextTooShort)
  else do
    let nonce ← slice ciphertext 0 nonceSize
    let encryptedLength ← slice ciphertext nonceSize (nonceSize + lengthSize + tagSize)
    let lengthBuf ← opened .lengthCorrupted (A.openWith nonce encryptedLength)
    let payloadLen ← beField 2 lengthBuf
    let encryptedPayload ←
      slice ciphertext (nonceSize + lengthSize + tagSize) ciphertext.length
    if encryptedPayload.length < payloadLen + tagSize then
      .error (.error .payloadTooShort)
    else do
      -- `payloadLen` is a `uint16`, and so is `payloadLen+TagSize`
      let sealedPayload ← slice encryptedPayload 0 ((payloadLen + tagSize) % 2 ^ 16)
      opened .payloadCorrupted (A.openWith nonce sealedPayload)

/-! ## What the two functions can do -/

/-- `Encrypt` gets as far as sealing: the plaintext fits, and a nonce is drawn. -/
def Accepts (rand : ℕ → Option Nonce) (w : World) (p : Bytes) (nonce : Nonce) : Prop :=
  p.length ≤ maxPayloadSize ∧ rand w.draws = some nonce

theorem encrypt_of_accepts (A : Aead) {rand : ℕ → Option Nonce} {w : World} {p : Bytes}
    {nonce : Nonce} (h : Accepts rand w p nonce) :
    encrypt A rand p w
      = (.ok (nonce ++ A.sealWith nonce (beBytes lengthSize p.length) ++ A.sealWith nonce p),
         ⟨w.draws + 1, w.seals ++ [⟨nonce, beBytes lengthSize p.length⟩, ⟨nonce, p⟩]⟩) := by
  obtain ⟨hp, hr⟩ := h
  rw [encrypt, if_neg (not_lt.mpr hp), hr]
  simp [World.sealWith]

theorem encrypt_of_tooLarge (A : Aead) (rand : ℕ → Option Nonce) {w : World} {p : Bytes}
    (hp : ¬ p.length ≤ maxPayloadSize) :
    encrypt A rand p w = (.error (.error .payloadTooLarge), w) := by
  rw [encrypt, if_pos (not_le.mp hp)]

theorem encrypt_of_noRandom (A : Aead) {rand : ℕ → Option Nonce} {w : World} {p : Bytes}
    (hp : p.length ≤ maxPayloadSize) (hr : rand w.draws = none) :
    encrypt A rand p w = (.error (.error .random), { w with draws := w.draws + 1 }) := by
  rw [encrypt, if_neg (not_lt.mpr hp), hr]

/-- What `Encrypt` leaves behind: the two `Seal` calls of a frame, or none. -/
theorem encrypt_seals_cases (A : Aead) (rand : ℕ → Option Nonce) (p : Bytes) (w : World) :
    ((encrypt A rand p w).1.isOk = true ∧ ∃ nonce, (encrypt A rand p w).2.seals
        = w.seals ++ [⟨nonce, beBytes lengthSize p.length⟩, ⟨nonce, p⟩])
      ∨ ((encrypt A rand p w).1.isOk = false ∧ (encrypt A rand p w).2.seals = w.seals) := by
  by_cases hp : p.length ≤ maxPayloadSize
  · cases hr : rand w.draws with
    | none =>
      rw [encrypt_of_noRandom A hp hr]
      exact .inr ⟨rfl, rfl⟩
    | some nonce =>
      rw [encrypt_of_accepts A ⟨hp, hr⟩]
      exact .inl ⟨rfl, nonce, rfl⟩
  · rw [encrypt_of_tooLarge A rand hp]
    exact .inr ⟨rfl, rfl⟩

theorem opened_eq_ok {e : CryptoError} {o : Option Bytes} {b : Bytes} :
    opened e o = .ok b ↔ o = some b := by
  cases o <;> simp [opened]

/-- **Inversion of `Decrypt`.**  It succeeds with `p` exactly when both sealed
parts open under the nonce in front, the second one cut to the `uint16` sum of
the decrypted length and the tag size. -/
theorem decrypt_eq_ok_iff (A : Aead) (c p : Bytes) :
    decrypt A c = .ok p ↔
      42 ≤ c.length ∧ ∃ lengthBuf,
        A.openWith (c.take 24) ((c.take 42).drop 24) = some lengthBuf
        ∧ 2 ≤ lengthBuf.length
        ∧ beNat (lengthBuf.take 2) + 16 ≤ (c.drop 42).length
        ∧ A.openWith (c.take 24)
            ((c.drop 42).take ((beNat (lengthBuf.take 2) + 16) % 65536)) = some p := by
  have hN : nonceSize = 24 := rfl
  have hL : lengthSize = 2 := rfl
  have hT : tagSize = 16 := rfl
  unfold decrypt
  by_cases hc : c.length < nonceSize + lengthSize + tagSize
  · rw [if_pos hc]
    constructor
    · intro h
      cases h
    · rintro ⟨h, -⟩
      omega
  · rw [if_neg hc]
    simp only [Go.bind_eq_ok, slice_eq_ok, beField_eq_ok, opened_eq_ok]
    constructor
    -- the slices are in bounds once the length check has passed, so no case panics
    · rintro ⟨nonce, ⟨-, -, rfl⟩, el, ⟨-, -, rfl⟩, lb, hlb, n, ⟨hlb2, rfl⟩, ep, ⟨-, -, rfl⟩, hp⟩
      rw [List.take_length] at hp
      by_cases hshort : (c.drop (nonceSize + lengthSize + tagSize)).length
          < beNat (lb.take 2) + tagSize
      · rw [if_pos hshort] at hp
        cases hp
      · rw [if_neg hshort] at hp
        simp only [Go.bind_eq_ok, slice_eq_ok, opened_eq_ok] at hp
        obtain ⟨x, ⟨-, -, rfl⟩, hx⟩ := hp
        exact ⟨by omega, lb, hlb, hlb2, not_lt.mp hshort, hx⟩
    · rintro ⟨hlen, lb, hlb, hlb2, hroom, hp⟩
      refine ⟨_, ⟨by omega, by omega, rfl⟩, _, ⟨by omega, by omega, rfl⟩, lb, hlb, _,
        ⟨hlb2, rfl⟩, _, ⟨by omega, le_rfl, rfl⟩, ?_⟩
      rw [List.take_length]
      have hfits : ¬ (c.drop (nonceSize + lengthSize + tagSize)).length
          < beNat (lb.take 2) + tagSize := not_lt.mpr hroom
      have hcut : (beNat (lb.take 2) + 16) % 65536 ≤ (c.drop 42).length :=
        (Nat.mod_le _ _).trans hroom
      rw [if_neg hfits]
      simp only [Go.bind_eq_ok, slice_eq_ok, opened_eq_ok]
      exact ⟨_, ⟨Nat.zero_le _, hcut, rfl⟩, hp⟩

/-! ## A cipher to compute with -/

/-- A cipher with the length behaviour of the real one and a constant tag. -/
def tagCipher : Aead where
  sealWith := fun _ m => m ++ List.replicate tagSize 0
  openWith := fun _ x =>
    if tagSize ≤ x.length ∧ x.drop (x.length - tagSize) = List.replicate tagSize 0
    then some (x.take (x.length - tagSize)) else none

/-- A nonce to compute with. -/
def zeroNonce : Nonce := ⟨List.replicate nonceSize 0, rfl⟩

theorem tagCipher_correct : tagCipher.Correct where
  open_seal := by
    intro n m
    simp [tagCipher]
  addsTag := by
    intro n m
    simp [tagCipher]

theorem tagCipher_refusesShort : tagCipher.RefusesShort := by
  intro n x hx
  simp only [tagCipher]
  rw [if_neg]
  omega

/-! ## The round trip -/

section RoundTrip

variable {A : Aead} {rand : ℕ → Option Nonce} {w : World} {p : Bytes} {nonce : Nonce}

/-- The parts of a frame, as `Decrypt` cuts them out again. -/
theorem frame_parts {nonce s : Bytes} (hnonce : nonce.length = nonceSize) (hs : s.length = 18)
    (rest : Bytes) :
    let c := nonce ++ s ++ rest
    c.take 24 = nonce ∧ (c.take 42).drop 24 = s ∧ c.drop 42 = rest ∧ 42 ≤ c.length := by
  intro c
  have hn : nonce.length = 24 := hnonce
  have hfront : (nonce ++ s).length = 42 := by rw [List.length_append, hn, hs]
  refine ⟨?_, ?_, List.drop_left' hfront, ?_⟩
  · simp only [c, List.append_assoc]
    exact List.take_left' hn
  · simp only [c]
    rw [List.take_left' hfront]
    exact List.drop_left' hn
  · simp only [c]
    rw [List.length_append, hfront]
    omega

/-- Decrypting a frame whose sealed length says `n`: only the first
`(n + 16) mod 2^16` bytes behind it are opened. -/
theorem decrypt_frame (htag : A.AddsTag) {nonce m rest q : Bytes}
    (hnonce : nonce.length = nonceSize) (hm : m.length = lengthSize)
    (hopen : A.openWith nonce (A.sealWith nonce m) = some m) :
    decrypt A (nonce ++ A.sealWith nonce m ++ rest) = .ok q ↔
      beNat m + 16 ≤ rest.length ∧
        A.openWith nonce (rest.take ((beNat m + 16) % 65536)) = some q := by
  have hsealed : (A.sealWith nonce m).length = 18 := by
    rw [htag, hm]
    rfl
  obtain ⟨hfront, hlen, hrest, hc⟩ := frame_parts hnonce hsealed rest
  have hm' : m.take 2 = m := List.take_of_length_le hm.le
  rw [decrypt_eq_ok_iff, hfront, hlen, hrest, hopen]
  constructor
  · rintro ⟨-, lb, hlb, -, hroom, hq⟩
    cases hlb
    rw [hm'] at hroom hq
    exact ⟨hroom, hq⟩
  · rintro ⟨hroom, hq⟩
    refine ⟨hc, m, rfl, hm.ge, ?_, ?_⟩ <;> rwa [hm']

/-- The length field of an accepted payload spells its length. -/
theorem beNat_lengthBuf (hp : p.length ≤ maxPayloadSize) :
    beNat (beBytes lengthSize p.length) = p.length := by
  have hmax : maxPayloadSize = 65535 := rfl
  rw [beNat_beBytes]
  exact Nat.mod_eq_of_lt (show p.length < 65536 by omega)

theorem beNat_take_lengthBuf (hp : p.length ≤ maxPayloadSize) :
    beNat ((beBytes lengthSize p.length).take 2) = p.length := by
  have htwo : (beBytes lengthSize p.length).length = 2 := length_beBytes ..
  rw [List.take_of_length_le htwo.le]
  exact beNat_lengthBuf hp

/-- What `Decrypt` makes of a frame of `Encrypt`: it opens as much of the sealed payload as
the `uint16` sum says. -/
theorem decrypt_encrypt_eq_ok (hA : A.Correct) (h : Accepts rand w p nonce) {q : Bytes} :
    ((encrypt A rand p w).1 >>= decrypt A) = .ok q ↔
      A.openWith nonce ((A.sealWith nonce p).take ((p.length + 16) % 65536)) = some q := by
  have hroom : p.length + 16 ≤ (A.sealWith nonce p).length := (hA.addsTag _ _).ge
  rw [encrypt_of_accepts A h, Go.ok_bind,
    decrypt_frame hA.addsTag nonce.2 (length_beBytes ..) (hA.open_seal _ _), beNat_lengthBuf h.1]
  exact and_iff_right hroom

/-- Below 65520 bytes the `uint16` sum does not wrap, and the payload comes back. -/
theorem decrypt_encrypt_of_lt (hA : A.Correct) (h : Accepts rand w p nonce)
    (hp : p.length < 65520) : ((encrypt A rand p w).1 >>= decrypt A) = .ok p := by
  have hsum : (p.length + 16) % 65536 = p.length + 16 := Nat.mod_eq_of_lt (by omega)
  have hwhole : (A.sealWith nonce p).length ≤ p.length + 16 := (hA.addsTag _ _).le
  rw [decrypt_encrypt_eq_ok hA h, hsum, List.take_of_length_le hwhole]
  exact hA.open_seal _ _

/-- From 65520 bytes on the sum wraps, the sealed payload is cut to fewer than
16 bytes, and `Decrypt` does not return the payload. -/
theorem decrypt_encrypt_of_ge (hA : A.Correct) (hshort : A.RefusesShort)
    (h : Accepts rand w p nonce) (hp : 65520 ≤ p.length) (q : Bytes) :
    ((encrypt A rand p w).1 >>= decrypt A) ≠ .ok q := by
  have hmax : p.length ≤ 65535 := h.1
  have hwrap : (p.length + 16) % 65536 = p.length - 65520 := by omega
  rw [Ne, decrypt_encrypt_eq_ok hA h, hwrap]
  intro hq
  have hcut : ((A.sealWith nonce p).take (p.length - 65520)).length < tagSize := by
    have hT : tagSize = 16 := rfl
    rw [List.length_take]
    omega
  rw [hshort _ _ hcut] at hq
  cases hq

/-- **The round trip of one frame.**  For every key (an `Aead`), every drawn
nonce and every payload that `Encrypt` accepts, `Decrypt` gives the payload back
exactly when it has fewer than 65520 bytes. -/
theorem decrypt_encrypt_eq_ok_iff (hA : A.Correct) (hshort : A.RefusesShort)
    (h : Accepts rand w p nonce) :
    ((encrypt A rand p w).1 >>= decrypt A) = .ok p ↔ p.length < 65520 := by
  constructor
  · intro heq
    by_contra hp
    exact decrypt_encrypt_of_ge hA hshort h (not_lt.mp hp) p heq
  · exact decrypt_encrypt_of_lt hA h

/-- A two-byte payload comes back. -/
theorem decrypt_encrypt_two_bytes :
    ((encrypt tagCipher (fun _ => some zeroNonce) [104, 105] ⟨0, []⟩).1 >>= decrypt tagCipher)
      = .ok [104, 105] := by
  have haccepts : Accepts (fun _ => some zeroNonce) ⟨0, []⟩ [104, 105] zeroNonce :=
    ⟨by decide, rfl⟩
  exact (decrypt_encrypt_eq_ok_iff tagCipher_correct tagCipher_refusesShort haccepts).mpr
    (by decide)

/-- **The round trip fails at 65520 bytes**, a length that `Encrypt` accepts. -/
theorem decrypt_encrypt_fails_at_65520 :
    ¬ ∀ (A : Aead) (rand : ℕ → Option Nonce) (w : World) (p : Bytes) (nonce : Nonce),
        A.Correct → Accepts rand w p nonce →
        ((encrypt A rand p w).1 >>= decrypt A) = .ok p := by
  intro hall
  have haccepts : Accepts (fun _ => some zeroNonce) ⟨0, []⟩ (List.replicate 65520 0) zeroNonce := by
    refine ⟨?_, rfl⟩
    rw [List.length_replicate]
    decide
  refine decrypt_encrypt_of_ge tagCipher_correct tagCipher_refusesShort haccepts ?_ _
    (hall _ _ _ _ _ tagCipher_correct haccepts)
  rw [List.length_replicate]

end RoundTrip

/-! ## What is accepted -/

/-- What the lengths say: if the three parts of a string are sealed values, the length field has
two bytes and spells the length of the payload, and the `uint16` sum does not wrap. -/
theorem lengths_of_sealed {A : Aead} (htag : A.AddsTag) {c lb p n n' : Bytes} (hc : 42 ≤ c.length)
    (hroom : beNat (lb.take 2) + 16 ≤ (c.drop 42).length)
    (hlb : A.sealWith n lb = (c.take 42).drop 24)
    (hp : A.sealWith n' p = (c.drop 42).take ((beNat (lb.take 2) + 16) % 65536)) :
    lb.length = 2 ∧ beNat lb = p.length ∧ p.length < 65520 := by
  have hT : tagSize = 16 := rfl
  have htwo : lb.length = 2 := by
    have := congrArg List.length hlb
    rw [htag, List.length_drop, List.length_take] at this
    omega
  have hlt : beNat lb < 65536 := by
    have := beNat_lt lb
    rwa [htwo] at this
  rw [List.take_of_length_le htwo.le] at hroom hp
  -- a sum that wraps would leave less than a tag to open
  have hlen := congrArg List.length hp
  rw [htag, List.length_take] at hlen
  have hmod := Nat.mod_le (beNat lb + 16) 65536
  exact ⟨htwo, by omega, by omega⟩

/-- The frame of a payload under a nonce. -/
def frameOf (A : Aead) (nonce p : Bytes) : Bytes :=
  nonce ++ A.sealWith nonce (beBytes lengthSize p.length) ++ A.sealWith nonce p

/-- The payload length a string announces: what its sealed length opens to. -/
def announcedLength (A : Aead) (c : Bytes) : ℕ :=
  match A.openWith (c.take 24) ((c.take 42).drop 24) with
  | some lengthBuf => beNat (lengthBuf.take 2)
  | none => 0

/-- The string is what `Encrypt` makes of the payload when it draws the nonce in front. -/
def Canonical (A : Aead) (c p : Bytes) : Prop :=
  ∃ nonce : Nonce, nonce.1 = c.take nonceSize ∧ ∀ w, (encrypt A (fun _ => some nonce) p w).1 = .ok c

/-- One byte of a string is changed, appended or removed. -/
inductive Edit (s : Bytes) : Bytes → Prop where
  | change (i : ℕ) (b : UInt8) (hi : i < s.length) (hb : s[i]? ≠ some b) : Edit s (s.set i b)
  | append (b : UInt8) : Edit s (s ++ [b])
  | remove (i : ℕ) (hi : i < s.length) : Edit s (s.eraseIdx i)

/-- Every edit leads to a rejection or changes the nonce. -/
def Guarded (A : Aead) (c : Bytes) : Prop :=
  ∀ c', Edit c c' → c'.take nonceSize = c.take nonceSize → ∀ p', decrypt A c' ≠ .ok p'

theorem length_frameOf {A : Aead} (htag : A.AddsTag) (nonce p : Bytes) :
    (frameOf A nonce p).length = nonce.length + 34 + p.length := by
  have hT : tagSize = 16 := rfl
  have hL : lengthSize = 2 := rfl
  rw [frameOf, List.length_append, List.length_append, htag, htag, length_beBytes]
  omega

/-- `Decrypt` cuts a string in three. -/
theorem parts_append (c : Bytes) : c.take 24 ++ (c.take 42).drop 24 ++ c.drop 42 = c := by
  have hcut : (c.take 42).drop 24 ++ c.drop 42 = c.drop 24 := by
    rw [List.drop_take, show c.drop 42 = (c.drop 24).drop 18 by rw [List.drop_drop]]
    exact List.take_append_drop 18 (c.drop 24)
  rw [List.append_assoc, hcut, List.take_append_drop]

section Accepted

variable {A : Aead} (hA : A.Correct) {c p : Bytes}
include hA

/-- A frame is accepted with whatever stands behind it, unless the `uint16` sum wraps. -/
theorem decrypt_frameOf_append {nonce : Bytes} (hnonce : nonce.length = nonceSize)
    (hp : p.length < 65520) (extra : Bytes) :
    decrypt A (frameOf A nonce p ++ extra) = .ok p := by
  have hpay : (A.sealWith nonce p).length = p.length + 16 := hA.addsTag _ _
  have hsum : (p.length + 16) % 65536 = p.length + 16 := Nat.mod_eq_of_lt (by omega)
  have hroom : p.length + 16 ≤ (A.sealWith nonce p ++ extra).length := by
    rw [List.length_append, hpay]
    exact Nat.le_add_right ..
  rw [frameOf, List.append_assoc,
    decrypt_frame hA.addsTag hnonce (length_beBytes ..) (hA.open_seal _ _),
    beNat_lengthBuf (by rw [maxPayloadSize]; omega), hsum, List.take_left' hpay]
  exact ⟨hroom, hA.open_seal _ _⟩

theorem announcedLength_frameOf_append {nonce : Bytes} (hnonce : nonce.length = nonceSize)
    (hp : p.length < 65520) (extra : Bytes) :
    announcedLength A (frameOf A nonce p ++ extra) = p.length := by
  have hsealed : (A.sealWith nonce (beBytes lengthSize p.length)).length = 18 := by
    rw [hA.addsTag, length_beBytes]
    rfl
  obtain ⟨hfront, hlength, -⟩ := frame_parts hnonce hsealed (A.sealWith nonce p ++ extra)
  rw [frameOf, List.append_assoc, announcedLength, hfront, hlength, hA.open_seal]
  exact beNat_take_lengthBuf (by rw [maxPayloadSize]; omega)

/-- **Inversion of `Decrypt` for a cipher that opens only what it sealed**: what is accepted is a
frame of the payload, and anything behind it. -/
theorem decrypt_eq_ok_iff_frameOf (honly : A.OnlySealed) :
    decrypt A c = .ok p ↔
      p.length < 65520 ∧ nonceSize ≤ c.length ∧
        ∃ extra, c = frameOf A (c.take nonceSize) p ++ extra := by
  have hN : nonceSize = 24 := rfl
  constructor
  · intro h
    obtain ⟨hc, lb, hlb, -, hroom, hp⟩ := (decrypt_eq_ok_iff A c p).1 h
    have hlength := honly _ _ _ hlb
    have hpayload := honly _ _ _ hp
    obtain ⟨htwo, hplen, hsmall⟩ := lengths_of_sealed hA.addsTag hc hroom hlength.symm hpayload.symm
    have hbuf : lb = beBytes lengthSize p.length := by
      have := beBytes_beNat lb
      rw [htwo, hplen] at this
      exact this.symm
    rw [List.take_of_length_le htwo.le, hplen, Nat.mod_eq_of_lt (by omega)] at hpayload
    refine ⟨hsmall, by omega, (c.drop 42).drop (p.length + 16), ?_⟩
    rw [frameOf, hN, ← hbuf, ← hlength, ← hpayload, List.append_assoc, List.take_append_drop]
    exact (parts_append c).symm
  · rintro ⟨hp, hc, extra, hframe⟩
    rw [hframe]
    exact decrypt_frameOf_append hA (List.length_take_of_le hc) hp extra

/-- An accepted string announces the length of its payload, and begins with the frame. -/
theorem take_announced_of_decrypt (honly : A.OnlySealed) (h : decrypt A c = .ok p) :
    announcedLength A c = p.length ∧ c.take (58 + p.length) = frameOf A (c.take nonceSize) p := by
  obtain ⟨hp, hc, extra, hframe⟩ := (decrypt_eq_ok_iff_frameOf hA honly).1 h
  have hnonce : (c.take nonceSize).length = nonceSize := List.length_take_of_le hc
  constructor
  · rw [hframe]
    exact announcedLength_frameOf_append hA hnonce hp extra
  · nth_rewrite 1 [hframe]
    refine List.take_left' ?_
    rw [length_frameOf hA.addsTag, hnonce]
    rfl

/-- **Which edits are noticed**: of the strings with the same nonce, those are accepted with the
same payload that agree up to the end of the frame. -/
theorem decrypt_eq_ok_iff_take (honly : A.OnlySealed) (h : decrypt A c = .ok p) {c' : Bytes}
    (hsame : c'.take nonceSize = c.take nonceSize) :
    decrypt A c' = .ok p ↔ c'.take (58 + p.length) = c.take (58 + p.length) := by
  obtain ⟨hp, hc, -⟩ := (decrypt_eq_ok_iff_frameOf hA honly).1 h
  obtain ⟨-, hfront⟩ := take_announced_of_decrypt hA honly h
  constructor
  · intro hok
    rw [(take_announced_of_decrypt hA honly hok).2, hfront, hsame]
  · intro hagree
    have hc' : nonceSize ≤ c'.length := by
      have := congrArg List.length hsame
      rw [List.length_take, List.length_take] at this
      omega
    refine (decrypt_eq_ok_iff_frameOf hA honly).2 ⟨hp, hc', c'.drop (58 + p.length), ?_⟩
    rw [hsame, ← hfront, ← hagree, List.take_append_drop]

/-- An accepted string is a canonical frame exactly if it ends where the sealed payload that it
announces ends. -/
theorem canonical_iff (honly : A.OnlySealed) (h : decrypt A c = .ok p) :
    Canonical A c p ↔ c.length = 58 + announcedLength A c := by
  obtain ⟨hp, hc, -⟩ := (decrypt_eq_ok_iff_frameOf hA honly).1 h
  obtain ⟨hannounced, hfront⟩ := take_announced_of_decrypt hA honly h
  have hnonce : (c.take nonceSize).length = nonceSize := List.length_take_of_le hc
  have haccepts : ∀ (nonce : Nonce) w, Accepts (fun _ => some nonce) w p nonce :=
    fun nonce w => ⟨by rw [maxPayloadSize]; omega, rfl⟩
  rw [hannounced]
  constructor
  · rintro ⟨nonce, hdrawn, hencrypt⟩
    have hc' := hencrypt ⟨0, []⟩
    rw [encrypt_of_accepts A (haccepts nonce _), hdrawn] at hc'
    rw [← Except.ok.inj hc']
    refine (length_frameOf hA.addsTag _ p).trans ?_
    rw [hnonce]
    rfl
  · intro hexact
    refine ⟨⟨c.take nonceSize, hnonce⟩, rfl, fun w => ?_⟩
    rw [encrypt_of_accepts A (haccepts _ w)]
    exact congrArg Except.ok (hfront.symm.trans (List.take_of_length_le hexact.le))

/-- A byte behind an accepted string is never noticed. -/
theorem not_guarded (honly : A.OnlySealed) (h : decrypt A c = .ok p) : ¬ Guarded A c := by
  obtain ⟨-, hc, -⟩ := (decrypt_eq_ok_iff_frameOf hA honly).1 h
  obtain ⟨-, hfront⟩ := take_announced_of_decrypt hA honly h
  have hlen : 58 + p.length ≤ c.length := by
    have := congrArg List.length hfront
    rw [List.length_take, length_frameOf hA.addsTag, List.length_take_of_le hc, nonceSize] at this
    omega
  have hsame : (c ++ [0]).take nonceSize = c.take nonceSize := List.take_append_of_le_length hc
  intro hguarded
  refine hguarded (c ++ [0]) (.append 0) hsame p ?_
  rw [decrypt_eq_ok_iff_take hA honly h hsame]
  exact List.take_append_of_le_length hlen

/-- **No accepted string is a frame that cannot be edited.**  It may be what `Encrypt` makes of
the payload with its nonce, which it is exactly if it ends where the sealed payload it announces
ends; but a byte can be appended to it.  Of the strings with its nonce, those and only those give
the same payload that agree with it up to that end: an edit within the frame is noticed, and one
behind it is not. -/
theorem decrypt_never_canonical (honly : A.OnlySealed) (h : decrypt A c = .ok p) :
    ¬ (Canonical A c p ∧ Guarded A c) ∧
    (Canonical A c p ↔ c.length = 58 + announcedLength A c) ∧
    ∀ c', c'.take nonceSize = c.take nonceSize →
      (decrypt A c' = .ok p ↔
        c'.take (58 + announcedLength A c) = c.take (58 + announcedLength A c)) := by
  refine ⟨fun hboth => not_guarded hA honly h hboth.2, canonical_iff hA honly h, ?_⟩
  rw [(take_announced_of_decrypt hA honly h).1]
  exact fun c' hsame => decrypt_eq_ok_iff_take hA honly h hsame

end Accepted

theorem tagCipher_onlySealed : tagCipher.OnlySealed := by
  intro n x m h
  simp only [tagCipher] at h ⊢
  split_ifs at h with htag
  obtain rfl := Option.some.inj h
  rw [← htag.2, List.take_append_drop]

/-- The frame of `hi` is what `Encrypt` makes, but it can be edited. -/
theorem decrypt_never_canonical_two_bytes :
    Canonical tagCipher (frameOf tagCipher zeroNonce [104, 105]) [104, 105] ∧
      ¬ Guarded tagCipher (frameOf tagCipher zeroNonce [104, 105]) := by
  obtain ⟨hnever, hcanonical, -⟩ := decrypt_never_canonical tagCipher_correct tagCipher_onlySealed
    (show decrypt tagCipher (frameOf tagCipher zeroNonce [104, 105]) = .ok [104, 105] by decide)
  have hframe := hcanonical.2 (by decide)
  exact ⟨hframe, fun hguarded => hnever ⟨hframe, hguarded⟩⟩

/-- **A byte behind a frame is not noticed**: the frame of `hi` is accepted with a byte more,
and `Encrypt` makes no such string of `hi`, whatever nonce it draws. -/
theorem decrypt_accepts_longer_frame :
    decrypt tagCipher (frameOf tagCipher zeroNonce [104, 105] ++ [7]) = .ok [104, 105] ∧
      ∀ nonce w, (encrypt tagCipher (fun _ => some nonce) [104, 105] w).1
        ≠ .ok (frameOf tagCipher zeroNonce [104, 105] ++ [7]) := by
  refine ⟨by decide, fun nonce w h => ?_⟩
  have haccepts : Accepts (fun _ => some nonce) w [104, 105] nonce := ⟨by decide, rfl⟩
  rw [encrypt_of_accepts tagCipher haccepts] at h
  have hlen : (frameOf tagCipher nonce [104, 105]).length
      = (frameOf tagCipher zeroNonce [104, 105] ++ [7]).length :=
    congrArg List.length (Except.ok.inj h)
  rw [List.length_append, length_frameOf tagCipher_correct.addsTag,
    length_frameOf tagCipher_correct.addsTag, nonce.2, zeroNonce.2] at hlen
  exact absurd hlen (by decide)

end Encryptor
