/-
# Base 32

The encoding of RFC 4648 in the alphabet `A`–`Z`, `2`–`7`, without padding.  The bits of the data,
with as many zeros behind them as are missing, are cut into groups of five, and each group is a
symbol.  Here the data and the symbols are numerals of one number: `n` bytes are `⌈8 n / 5⌉` digits
to the base 32.

`decode_toUpper_toLower` is the round trip for a text that was put in small letters on its way.
-/
import IPShadowT.Bytes

open Bytes

namespace Base32

/-! ## Numerals -/

/-- The `k` low digits of `n` to the base 32, the most significant first. -/
def digits : ℕ → ℕ → List ℕ
  | 0, _ => []
  | k + 1, n => n / 32 ^ k % 32 :: digits k n

/-- The number that digits to the base 32 spell. -/
def ofDigits : List ℕ → ℕ
  | [] => 0
  | d :: ds => d * 32 ^ ds.length + ofDigits ds

@[simp] theorem length_digits (k n : ℕ) : (digits k n).length = k := by
  induction k with
  | zero => rfl
  | succ k ih => rw [digits, List.length_cons, ih]

/-- Every digit is below 32. -/
theorem lt_of_mem_digits {k n d : ℕ} (h : d ∈ digits k n) : d < 32 := by
  induction k with
  | zero => cases h
  | succ k ih =>
    rw [digits] at h
    rcases List.mem_cons.1 h with rfl | hrest
    · exact Nat.mod_lt _ (by decide)
    · exact ih hrest

/-- The digits of a number, read back. -/
theorem ofDigits_digits (k n : ℕ) : ofDigits (digits k n) = n % 32 ^ k := by
  induction k with
  | zero => simp [digits, ofDigits, Nat.mod_one]
  | succ k ih =>
    rw [digits, ofDigits, length_digits, ih, Nat.mod_pow_succ]
    ring

/-! ## Symbols -/

/-- The symbol for a digit. -/
def symbol (d : ℕ) : UInt8 := UInt8.ofNat (if d < 26 then 65 + d else 24 + d)

/-- The digit that a symbol is for. -/
def value (c : UInt8) : Option ℕ :=
  if 65 ≤ c.toNat ∧ c.toNat ≤ 90 then some (c.toNat - 65)
  else if 50 ≤ c.toNat ∧ c.toNat ≤ 55 then some (c.toNat - 24)
  else none

/-- A letter as a small letter. -/
def lower (c : UInt8) : UInt8 := if 65 ≤ c.toNat ∧ c.toNat ≤ 90 then c + 32 else c

/-- A letter as a capital letter. -/
def upper (c : UInt8) : UInt8 := if 97 ≤ c.toNat ∧ c.toNat ≤ 122 then c - 32 else c

def toLower (s : Bytes) : Bytes := s.map lower

def toUpper (s : Bytes) : Bytes := s.map upper

theorem value_upper_lower_symbol : ∀ d < 32, value (upper (lower (symbol d))) = some d := by
  decide

/-- The least of the symbols is the digit `2`. -/
theorem le_lower_symbol : ∀ d < 32, 50 ≤ (lower (symbol d)).toNat := by
  decide

/-! ## Data -/

/-- The number of symbols for `n` bytes. -/
def encodedLen (n : ℕ) : ℕ := (8 * n + 4) / 5

/-- `EncodeToString`. -/
def encode (b : Bytes) : Bytes :=
  let k := encodedLen b.length
  (digits k (beNat b * 2 ^ (5 * k - 8 * b.length))).map symbol

/-- The data that symbols are for, if they are all in the alphabet and there are as many of them
as data can have. -/
def decode (s : Bytes) : Option Bytes := do
  let ds ← s.mapM value
  let n := 5 * s.length / 8
  if encodedLen n = s.length then some (beBytes n (ofDigits ds / 2 ^ (5 * s.length - 8 * n)))
  else none

@[simp] theorem length_encode (b : Bytes) : (encode b).length = encodedLen b.length := by
  rw [encode, List.length_map, length_digits]

@[simp] theorem length_toLower (s : Bytes) : (toLower s).length = s.length := List.length_map _

/-- No byte below `2` in a text. -/
theorem not_mem_toLower_encode {c : UInt8} (hc : c.toNat < 50) (b : Bytes) :
    c ∉ toLower (encode b) := by
  intro hmem
  obtain ⟨c', hc', rfl⟩ := List.mem_map.1 hmem
  rw [encode] at hc'
  obtain ⟨d, hd, rfl⟩ := List.mem_map.1 hc'
  have hle := le_lower_symbol d (lt_of_mem_digits hd)
  omega

/-- The bits of the data fill the digits. -/
theorem shifted_lt (b : Bytes) :
    beNat b * 2 ^ (5 * encodedLen b.length - 8 * b.length) < 32 ^ encodedLen b.length := by
  have hle : 8 * b.length ≤ 5 * encodedLen b.length := by
    unfold encodedLen
    omega
  calc beNat b * 2 ^ (5 * encodedLen b.length - 8 * b.length)
      < 256 ^ b.length * 2 ^ (5 * encodedLen b.length - 8 * b.length) :=
        Nat.mul_lt_mul_of_pos_right (beNat_lt b) (Nat.two_pow_pos _)
    _ = 2 ^ (8 * b.length + (5 * encodedLen b.length - 8 * b.length)) := by
        rw [Nat.pow_add, Nat.pow_mul]
    _ = 32 ^ encodedLen b.length := by
        rw [Nat.add_sub_cancel' hle, Nat.pow_mul]

/-- Digits that go through symbols and letters of either kind are read back. -/
theorem mapM_value {ds : List ℕ} (h : ∀ d ∈ ds, d < 32) :
    (toUpper (toLower (ds.map symbol))).mapM value = some ds := by
  induction ds with
  | nil => rfl
  | cons d ds ih =>
    obtain ⟨hd, hds⟩ := List.forall_mem_cons.1 h
    have hrest := ih hds
    simp only [toUpper, toLower, List.map_cons, List.mapM_cons] at hrest ⊢
    rw [value_upper_lower_symbol d hd, hrest]
    rfl

/-- **The round trip**, through small letters. -/
theorem decode_toUpper_toLower (b : Bytes) : decode (toUpper (toLower (encode b))) = some b := by
  have hn : 5 * encodedLen b.length / 8 = b.length := by
    unfold encodedLen
    omega
  have hlen : (toUpper (toLower (encode b))).length = encodedLen b.length := by
    rw [toUpper, List.length_map, length_toLower, length_encode]
  have hmap := mapM_value fun d hd => lt_of_mem_digits (d := d) (k := encodedLen b.length)
    (n := beNat b * 2 ^ (5 * encodedLen b.length - 8 * b.length)) hd
  rw [decode, hlen, hn, encode, hmap]
  show (if encodedLen b.length = encodedLen b.length then _ else _) = _
  rw [if_pos rfl, ofDigits_digits, Nat.mod_eq_of_lt (shifted_lt b),
    Nat.mul_div_cancel _ (Nat.two_pow_pos _), beBytes_beNat]

example : encode [102, 111, 111] = [77, 90, 88, 87, 54] := by decide

end Base32
