/-
# Padding

Model of `internal/crypto/padding.go`.  The program is built for machines whose `int` has 64 bits
and for machines whose `int` has 32 (`linux/arm`, `linux/mips`), and every conversion to `int` and
every sum of `int`s here is one of the machine's `Arch`.

`padding_iff` says when padding and unpadding are right.  The length in front of received data is
the peer's to choose, and from 2^31 on it is negative as an `int` of 32 bits and passes the check.
-/
import IPShadowT.Fragment

open Bytes
open Fragment (AtoiError trimSpace)
open Go (Arch)

namespace Padding

/-! ## The functions -/

/-- `strconv.Atoi`, for the `int` of the machine. -/
def atoi (a : Arch) (s : List Char) : Except AtoiError ℤ :=
  match Fragment.atoi s with
  | .error e => .error e
  | .ok n => if a.int n = n then .ok n else .error .outOfRange

/-- The errors of `NewPadder`. -/
inductive PadderError where
  | sizeRange (sizeRange : String)
  | minSize (text : List Char) (err : AtoiError)
  | maxSize (text : List Char) (err : AtoiError)
  | range (minSize maxSize : ℤ)
  deriving DecidableEq, Repr

def PadderError.message (quote : String → String) : PadderError → String
  | sizeRange s => "invalid padding size range: " ++ quote s ++ " (expected 'min-max')"
  | minSize text err => "invalid min size: " ++ err.message quote text
  | maxSize text err => "invalid max size: " ++ err.message quote text
  | range min max => "invalid range: min=" ++ toString min ++ ", max=" ++ toString max

/-- `Padder`; one that is enabled has a range of sizes. -/
structure Padder where
  enabled : Bool
  minSize : ℕ
  maxSize : ℕ
  valid : enabled = true → minSize ≤ maxSize
  deriving DecidableEq

theorem disabled_valid : false = true → 0 ≤ 0 := fun _ => Nat.le_refl 0

theorem range_valid {minSize maxSize : ℤ} (h : ¬ (minSize < 0 ∨ maxSize < minSize)) :
    true = true → minSize.toNat ≤ maxSize.toNat := fun _ => by omega

/-- `NewPadder`. -/
def newPadder (a : Arch) (sizeRange : String) (enabled : Bool) : Except PadderError Padder :=
  if ¬ enabled then .ok ⟨false, 0, 0, disabled_valid⟩
  else
    match sizeRange.toList.splitOn '-' with
    | [low, high] =>
      match atoi a (trimSpace low) with
      | .error e => .error (.minSize (trimSpace low) e)
      | .ok minSize =>
        match atoi a (trimSpace high) with
        | .error e => .error (.maxSize (trimSpace high) e)
        | .ok maxSize =>
          if h : minSize < 0 ∨ maxSize < minSize then .error (.range minSize maxSize)
          else .ok ⟨true, minSize.toNat, maxSize.toNat, range_valid h⟩
    | _ => .error (.sizeRange sizeRange)

/-- The errors of `Pad`, both of the random source. -/
inductive PadError where
  | size
  | padding
  deriving DecidableEq, Repr

/-- What `Pad` writes before the message of the random source. -/
def PadError.message : PadError → String
  | size => ""
  | padding => "failed to generate padding: "

/-- What the random source gives: a number, of which `rand.Int` takes the rest, and bytes; `none`
where it fails. -/
structure Random where
  draw : Option ℕ
  bytes : Option (ℕ → UInt8)

/-- `randomSize`.  `rand.Int` panics if the number of sizes is not positive. -/
def randomSize (a : Arch) (p : Padder) (draw : Option ℕ) : Go PadError ℤ :=
  if p.maxSize = p.minSize then .ok p.minSize
  else
    let rangeSize := a.int (a.int (p.maxSize - p.minSize) + 1)
    if rangeSize ≤ 0 then .error .panic
    else
      match draw with
      | none => .error (.error .size)
      | some n => .ok (a.int (p.minSize + a.int (n % rangeSize)))

/-- `Pad`.  The buffer cannot have a negative length, and its slices are checked. -/
def pad (a : Arch) (p : Padder) (r : Random) (data : Bytes) : Go PadError Bytes :=
  if ¬ p.enabled then .ok data else do
  let paddingSize ← randomSize a p r.draw
  let size := a.int (a.int (4 + data.length) + paddingSize)
  if size < 0 then .error .panic else do
  let result := List.replicate size.toNat (0 : UInt8)
  let _ ← slice result 0 4
  let result := overwrite result (beBytes 4 data.length)
  let result := result.take 4 ++ overwrite (result.drop 4) (data.take (result.length - 4))
  if 0 < paddingSize then
    let start := a.int (4 + data.length)
    if start < 0 ∨ result.length < start then .error .panic
    else
      match r.bytes with
      | none => .error (.error .padding)
      | some bytes =>
        .ok (result.take start.toNat ++ (List.range (result.length - start.toNat)).map bytes)
  else .ok result

/-- The errors of `Unpad`. -/
inductive UnpadError where
  | tooShort
  | invalidLength (origLen available : ℕ)
  deriving DecidableEq, Repr

def UnpadError.message : UnpadError → String
  | tooShort => "padded data too short"
  | invalidLength origLen available => "invalid original length: " ++ toString origLen ++
      " (available: " ++ toString available ++ ")"

/-- `Unpad`.  The end of the slice is a `uint32`. -/
def unpad (a : Arch) (p : Padder) (data : Bytes) : Go UnpadError Bytes :=
  if ¬ p.enabled then .ok data
  else if data.length < 4 then .error (.error .tooShort)
  else
    let origLen := beNat (data.take 4)
    if a.int origLen > data.length - 4 then
      .error (.error (.invalidLength origLen (data.length - 4)))
    else slice data 4 ((4 + origLen) % 4294967296)

/-! ## What is to be shown -/

/-- The size of the padding that a draw stands for. -/
def Padder.choice (p : Padder) (draw : ℕ) : ℕ :=
  if p.maxSize = p.minSize then p.minSize else p.minSize + draw % (p.maxSize - p.minSize + 1)

/-- Unpadding gives the data back, and the padded data have a length in the range. -/
def RoundTrips (a : Arch) (p : Padder) (draw : ℕ) (bytes : ℕ → UInt8) (data : Bytes) : Prop :=
  ∃ padded, pad a p ⟨some draw, some bytes⟩ data = .ok padded ∧ unpad a p padded = .ok data ∧
    (p.enabled = true → 4 + data.length + p.minSize ≤ padded.length ∧
      padded.length ≤ 4 + data.length + p.maxSize)

/-- Unpadding returns an error, or the bytes that the length in front announces. -/
def UnpadsExactly (a : Arch) (p : Padder) (b : Bytes) : Prop :=
  (∃ e, unpad a p b = .error (.error e)) ∨
    ∃ r, unpad a p b = .ok r ∧ (p.enabled = false → r = b) ∧
      (p.enabled = true → 4 ≤ b.length ∧ 4 + beNat (b.take 4) ≤ b.length ∧
        r = (b.drop 4).take (beNat (b.take 4)))

/-- What a machine with 32 bits can count. -/
def Fits (p : Padder) (draw : ℕ) (data b : Bytes) : Prop :=
  p.maxSize - p.minSize + 1 < 2147483648 ∧ 4 + data.length + p.choice draw < 2147483648 ∧
    (4 ≤ b.length → beNat (b.take 4) < 2147483648)

section Choice

variable {p : Padder} (henabled : p.enabled = true)
include henabled

/-- The choice is in the range. -/
theorem choice_mem (draw : ℕ) : p.minSize ≤ p.choice draw ∧ p.choice draw ≤ p.maxSize := by
  have hvalid := p.valid henabled
  unfold Padder.choice
  split_ifs with hone
  · omega
  · have hlt := Nat.mod_lt draw (show 0 < p.maxSize - p.minSize + 1 by omega)
    omega

/-- The size is the choice, unless the number of sizes is negative. -/
theorem randomSize_eq {a : Arch} (hmax : p.maxSize < 2147483648) (draw : ℕ)
    (hrange : a = .bits64 ∨ p.maxSize - p.minSize + 1 < 2147483648) :
    randomSize a p (some draw) = .ok (p.choice draw : ℤ) := by
  have hvalid := p.valid henabled
  have hmem := choice_mem henabled draw
  have hcast : ((p.maxSize : ℤ) - p.minSize + 1) = ((p.maxSize - p.minSize + 1 : ℕ) : ℤ) := by
    omega
  have hint : a.int (a.int (p.maxSize - p.minSize) + 1) =
      ((p.maxSize - p.minSize + 1 : ℕ) : ℤ) := by
    rw [a.int_add, hcast]
    rcases hrange with rfl | hlt
    · exact Go.int_bits64 (by omega) (by omega)
    · exact a.int_of_lt (by omega) (by omega)
  unfold randomSize
  by_cases hone : p.maxSize = p.minSize
  · rw [if_pos hone, Padder.choice, if_pos hone]
  · have hchoice : p.choice draw = p.minSize + draw % (p.maxSize - p.minSize + 1) := if_neg hone
    have hlt := Nat.mod_lt draw (show 0 < p.maxSize - p.minSize + 1 by omega)
    have hn : a.int (draw % (p.maxSize - p.minSize + 1) : ℕ) =
        (draw % (p.maxSize - p.minSize + 1) : ℕ) := a.int_of_lt (by omega) (by omega)
    rw [if_neg hone]
    dsimp only
    rw [hint, if_neg (by omega), ← Int.natCast_emod, hn, a.int_of_lt (by omega) (by omega),
      hchoice, Nat.cast_add]

/-- If there are 2^31 sizes, their number is negative on a machine with 32 bits. -/
theorem randomSize_panics (hmax : p.maxSize < 2147483648) (draw : Option ℕ)
    (hrange : ¬ p.maxSize - p.minSize + 1 < 2147483648) :
    randomSize .bits32 p draw = .error .panic := by
  have hvalid := p.valid henabled
  have hneg : Arch.bits32.int (Arch.bits32.int (p.maxSize - p.minSize) + 1) < 0 := by
    rw [Arch.int_add]
    exact Go.int_bits32_neg (by omega) (by omega)
  unfold randomSize
  rw [if_neg (by omega)]
  exact if_pos hneg.le

end Choice

section Pad

variable {p : Padder} {a : Arch} {data b : Bytes}

/-- The buffer after the length and the data have been copied to it. -/
theorem copied_eq (data : Bytes) (k : ℕ) :
    (overwrite (List.replicate (4 + data.length + k) 0) (beBytes 4 data.length)).take 4 ++
        overwrite
          ((overwrite (List.replicate (4 + data.length + k) 0) (beBytes 4 data.length)).drop 4)
          (data.take ((overwrite (List.replicate (4 + data.length + k) 0)
            (beBytes 4 data.length)).length - 4)) =
      beBytes 4 data.length ++ (data ++ List.replicate k 0) := by
  have hprefixed : overwrite (List.replicate (4 + data.length + k) 0) (beBytes 4 data.length) =
      beBytes 4 data.length ++ List.replicate (data.length + k) 0 := by
    rw [overwrite, length_beBytes, List.drop_replicate, Nat.add_assoc, Nat.add_sub_cancel_left]
  have hroom : data.length ≤ (beBytes 4 data.length ++
      List.replicate (data.length + k) (0 : UInt8)).length - 4 := by
    rw [List.length_append, length_beBytes, List.length_replicate]
    omega
  rw [hprefixed, List.take_left' (length_beBytes ..), List.drop_left' (length_beBytes ..),
    List.take_of_length_le hroom, overwrite, List.drop_replicate, Nat.add_sub_cancel_left]

/-- What is padded, if no sum wraps around. -/
theorem pad_eq (henabled : p.enabled = true) {draw : ℕ}
    (hsize : randomSize a p (some draw) = .ok (p.choice draw : ℤ))
    (hfits : a = .bits64 ∧ data.length < 2147483648 ∧ p.choice draw < 2147483648 ∨
      4 + data.length + p.choice draw < 2147483648) (bytes : ℕ → UInt8) :
    pad a p ⟨some draw, some bytes⟩ data =
      .ok (beBytes 4 data.length ++ (data ++ (List.range (p.choice draw)).map bytes)) := by
  have hint : ∀ n : ℕ, n ≤ 4 + data.length + p.choice draw → a.int n = n := by
    intro n hn
    rcases hfits with ⟨rfl, hdata, hchoice⟩ | hlt
    · exact Go.int_bits64 (by omega) (by omega)
    · exact a.int_of_lt (by omega) (by omega)
  have hstart : a.int (4 + data.length) = (4 + data.length : ℕ) := by
    rw [← hint _ (Nat.le_add_right _ _)]
    rfl
  have htotal : a.int (a.int (4 + data.length) + p.choice draw) =
      (4 + data.length + p.choice draw : ℕ) := by
    rw [a.int_add, ← hint _ (Nat.le_refl _)]
    rfl
  have hslice : (slice (List.replicate (4 + data.length + p.choice draw) (0 : UInt8)) 0 4 :
      Go PadError Bytes) = .ok _ :=
    slice_eq_ok.2 ⟨Nat.zero_le 4, by rw [List.length_replicate]; omega, rfl⟩
  rw [pad, if_neg (not_not.2 henabled), hsize, Go.ok_bind]
  dsimp only
  rw [htotal, if_neg (by omega), Int.toNat_natCast, hslice, Go.ok_bind, copied_eq, hstart]
  generalize p.choice draw = k
  have hlen : (beBytes 4 data.length ++ (data ++ List.replicate k (0 : UInt8))).length =
      4 + data.length + k := by
    simp only [List.length_append, length_beBytes, List.length_replicate]
    omega
  rw [hlen]
  by_cases hk : 0 < k
  · rw [if_pos (by omega), if_neg (by omega), Int.toNat_natCast, ← List.append_assoc,
      List.take_left' (by simp), List.append_assoc, Nat.add_sub_cancel_left]
  · obtain rfl : k = 0 := by omega
    rw [if_neg (by omega)]
    rfl

/-- A sum from 2^31 on wraps around on a machine with 32 bits. -/
theorem pad_panics (henabled : p.enabled = true) {draw : ℕ} {bytes : ℕ → UInt8}
    (hsize : randomSize .bits32 p (some draw) = .ok (p.choice draw : ℤ))
    (hmax : p.choice draw < 2147483648) (hdata : data.length < 2147483648)
    (hlarge : ¬ 4 + data.length + p.choice draw < 2147483648) :
    pad .bits32 p ⟨some draw, some bytes⟩ data = .error .panic := by
  rw [pad, if_neg (not_not.2 henabled), hsize, Go.ok_bind]
  dsimp only
  rw [Arch.int_add]
  by_cases hneg : Arch.bits32.int (4 + data.length + p.choice draw) < 0
  · rw [if_pos hneg]
  · -- the sum has come around to a length that has no room for the prefix
    have hsmall : Arch.bits32.int (4 + data.length + p.choice draw) < 4 := by
      have hlt : (4 + data.length + p.choice draw : ℤ) ≥ 4294967296 := by
        by_contra hlt
        exact hneg (Go.int_bits32_neg (by omega) (by omega))
      show (4 + data.length + p.choice draw : ℤ).bmod 4294967296 < 4
      rw [Int.bmod_def]
      split_ifs <;> omega
    rw [if_neg hneg]
    generalize Arch.bits32.int (4 + data.length + p.choice draw) = size at hneg hsmall
    have hslice : (slice (List.replicate size.toNat (0 : UInt8)) 0 4 : Go PadError Bytes) =
        .error .panic := by
      refine if_neg ?_
      rw [List.length_replicate]
      omega
    rw [hslice]
    rfl

/-- The length in front of padded data is read back. -/
theorem unpad_padded (henabled : p.enabled = true) (hdata : data.length < 2147483648)
    (padding : Bytes) :
    unpad a p (beBytes 4 data.length ++ (data ++ padding)) = .ok data := by
  have hlen : (beBytes 4 data.length ++ (data ++ padding)).length =
      4 + data.length + padding.length := by
    simp only [List.length_append, length_beBytes]
    omega
  have horig : beNat ((beBytes 4 data.length ++ (data ++ padding)).take 4) = data.length := by
    rw [List.take_left' (length_beBytes ..), beNat_beBytes, Nat.mod_eq_of_lt (by omega)]
  rw [unpad, if_neg (not_not.2 henabled), hlen, if_neg (by omega), horig]
  dsimp only
  rw [a.int_of_lt (by omega) (by omega), if_neg (by omega), Nat.mod_eq_of_lt (by omega)]
  exact slice_append rfl (length_beBytes ..).symm rfl

/-- Unpadding, if the length in front is not negative. -/
theorem unpadsExactly_of_lt (henabled : p.enabled = true) (hb : b.length < 2147483648)
    (hlen : a = .bits64 ∨ (4 ≤ b.length → beNat (b.take 4) < 2147483648)) :
    UnpadsExactly a p b := by
  unfold UnpadsExactly
  rw [unpad, if_neg (not_not.2 henabled)]
  by_cases hshort : b.length < 4
  · rw [if_pos hshort]
    exact .inl ⟨_, rfl⟩
  rw [if_neg hshort]
  dsimp only
  have horig : beNat (b.take 4) < 4294967296 := by
    have hlt := beNat_lt (b.take 4)
    rwa [List.length_take, Nat.min_eq_left (by omega)] at hlt
  have hint : a.int (beNat (b.take 4)) = beNat (b.take 4) := by
    rcases hlen with rfl | hlen
    · exact Go.int_bits64 (by omega) (by omega)
    · have := hlen (by omega)
      exact a.int_of_lt (by omega) (by omega)
  rw [hint]
  by_cases hlong : (beNat (b.take 4) : ℤ) > b.length - 4
  · rw [if_pos hlong]
    exact .inl ⟨_, rfl⟩
  · rw [if_neg hlong, Nat.mod_eq_of_lt (by omega)]
    refine .inr ⟨_, slice_eq_ok.2 ⟨by omega, by omega, rfl⟩, fun hoff => ?_, fun _ => ?_⟩
    · rw [henabled] at hoff
      cases hoff
    · rw [List.drop_take, Nat.add_sub_cancel_left]
      exact ⟨by omega, by omega, rfl⟩

/-- **A length from 2^31 on panics** on a machine with 32 bits: it passes the check as a negative
number. -/
theorem unpad_panics (henabled : p.enabled = true) (hb : b.length < 2147483648)
    (hfour : 4 ≤ b.length) (hlarge : 2147483648 ≤ beNat (b.take 4)) :
    unpad .bits32 p b = .error .panic := by
  have horig : beNat (b.take 4) < 4294967296 := by
    have hlt := beNat_lt (b.take 4)
    rwa [List.length_take, Nat.min_eq_left hfour] at hlt
  have hneg := Go.int_bits32_neg (n := beNat (b.take 4)) (by omega) (by omega)
  rw [unpad, if_neg (not_not.2 henabled), if_neg (by omega)]
  dsimp only
  rw [if_neg (by omega)]
  exact if_neg (by omega)

end Pad

/-- A padder that is off changes nothing. -/
theorem disabled_exact {a : Arch} {p : Padder} (hoff : p.enabled = false) (draw : ℕ)
    (bytes : ℕ → UInt8) (data b : Bytes) :
    RoundTrips a p draw bytes data ∧ UnpadsExactly a p b := by
  have hunpad : ∀ b : Bytes, unpad a p b = .ok b := by
    intro b
    rw [unpad, hoff]
    rfl
  have hnot : ¬ p.enabled = true := by rw [hoff]; exact Bool.false_ne_true
  refine ⟨⟨data, ?_, hunpad data, fun h => absurd h hnot⟩,
    .inr ⟨b, hunpad b, fun _ => rfl, fun h => absurd h hnot⟩⟩
  rw [pad, hoff]
  rfl

section Exact

variable {p : Padder} (henabled : p.enabled = true) (hmax : p.maxSize < 2147483648) {draw : ℕ}
  {bytes : ℕ → UInt8} {data b : Bytes} (hdata : data.length < 2147483648)
  (hb : b.length < 2147483648)
include henabled hmax hdata hb

/-- Where 32 bits are not enough, something panics. -/
theorem fits_of_exact (hpads : RoundTrips .bits32 p draw bytes data)
    (hunpads : UnpadsExactly .bits32 p b) : Fits p draw data b := by
  obtain ⟨padded, hpad, -, -⟩ := hpads
  have hmem := choice_mem henabled draw
  have hrange : p.maxSize - p.minSize + 1 < 2147483648 := by
    by_contra hrange
    rw [pad, if_neg (not_not.2 henabled), randomSize_panics henabled hmax _ hrange] at hpad
    cases hpad
  refine ⟨hrange, ?_, fun hfour => ?_⟩
  · by_contra hlarge
    rw [pad_panics henabled (randomSize_eq henabled hmax draw (.inr hrange)) (by omega) hdata
      hlarge] at hpad
    cases hpad
  · by_contra hlarge
    have hpanic := unpad_panics henabled hb hfour (not_lt.1 hlarge)
    rcases hunpads with ⟨e, he⟩ | ⟨r, hr, -⟩
    · rw [hpanic] at he
      cases he
    · rw [hpanic] at hr
      cases hr

theorem exact_of_fits {a : Arch} (hfits : a = .bits64 ∨ Fits p draw data b) :
    RoundTrips a p draw bytes data ∧ UnpadsExactly a p b := by
  have hmem := choice_mem henabled draw
  have hsize : randomSize a p (some draw) = .ok (p.choice draw : ℤ) :=
    randomSize_eq henabled hmax draw (hfits.imp_right And.left)
  have hsum : a = .bits64 ∧ data.length < 2147483648 ∧ p.choice draw < 2147483648 ∨
      4 + data.length + p.choice draw < 2147483648 :=
    hfits.imp (fun h => ⟨h, hdata, by omega⟩) fun h => h.2.1
  have hpad := pad_eq henabled hsize hsum bytes
  refine ⟨⟨_, hpad, unpad_padded henabled hdata _, fun _ => ?_⟩,
    unpadsExactly_of_lt henabled hb (hfits.imp_right fun h => h.2.2)⟩
  simp only [List.length_append, length_beBytes, List.length_map, List.length_range]
  omega

end Exact

/-- **When padding is right.**  For every padder with sizes below 2^31, every draw and random
bytes, and all data and received bytes of less than 2^31 bytes: the data come back, with a length
in the range, and unpadding the received bytes returns an error or what their prefix announces;
exactly if the machine has 64 bits, or padding is off, or 32 bits are enough. -/
theorem padding_iff (a : Arch) (p : Padder) (hmax : p.maxSize < 2147483648) (draw : ℕ)
    (bytes : ℕ → UInt8) {data b : Bytes} (hdata : data.length < 2147483648)
    (hb : b.length < 2147483648) :
    RoundTrips a p draw bytes data ∧ UnpadsExactly a p b ↔
      a = .bits64 ∨ p.enabled = false ∨ Fits p draw data b := by
  cases henabled : p.enabled with
  | false => exact iff_of_true (disabled_exact henabled draw bytes data b) (.inr (.inl rfl))
  | true =>
    have hfalse : ¬ (true = false) := Bool.noConfusion
    rw [or_iff_right hfalse]
    constructor
    · rintro ⟨hpads, hunpads⟩
      cases a with
      | bits64 => exact .inl rfl
      | bits32 => exact .inr (fits_of_exact henabled hmax hdata hb hpads hunpads)
    · intro hfits
      exact exact_of_fits henabled hmax hdata hb hfits

/-- The padder for `16-256`. -/
def samplePadder : Padder := ⟨true, 16, 256, fun _ => Nat.le_of_ble_eq_true rfl⟩

/-- Three bytes are padded on a machine with 64 bits, and a length that is too large is refused. -/
theorem padding_bits64 :
    newPadder .bits64 "16-256" true = .ok samplePadder ∧
      RoundTrips .bits64 samplePadder 5 (fun _ => 7) [1, 2, 3] ∧
      UnpadsExactly .bits64 samplePadder [255, 255, 255, 255] :=
  ⟨by decide +kernel, (padding_iff .bits64 samplePadder (by decide) 5 (fun _ => 7) (by decide)
    (by decide)).2 (.inl rfl)⟩

/-- **Four bytes that crash a machine with 32 bits**: the length −1 is not more than the zero bytes
that follow, and the slice ends before its beginning. -/
theorem unpad_negative_length :
    newPadder .bits32 "16-256" true = .ok samplePadder ∧
      unpad .bits32 samplePadder [255, 255, 255, 255] = .error .panic ∧
      unpad .bits64 samplePadder [255, 255, 255, 255] =
        .error (.error (.invalidLength 4294967295 0)) := by
  decide +kernel

end Padding
