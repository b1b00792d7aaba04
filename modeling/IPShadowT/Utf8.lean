/-
# UTF-8 as Go reads and writes it

`range` over a string takes one rune after the other; where the bytes are not the encoding of a
rune, it takes a single byte for the replacement rune `U+FFFD`.  `string(r)` writes the encoding
of a rune.

`first` is the rune that the bytes begin with, by the table of well-formed sequences, and `range`
and `encodeRune` are the two operations.  `length_reencode_le` and `valid_of_length_reencode`
compare a text with what is written when all its runes are: it gets longer unless it is `Valid`.
-/
import Mathlib.Data.List.GetD
import IPShadowT.Bytes

open Bytes

namespace Utf8

/-! ## One rune -/

/-- A continuation byte. -/
def IsCont (b : ℕ) : Prop := 0x80 ≤ b ∧ b ≤ 0xBF

/-- A sequence of two bytes. -/
def IsTwo (a b : ℕ) : Prop := 0xC2 ≤ a ∧ a ≤ 0xDF ∧ IsCont b

/-- A sequence of three bytes, neither overlong nor a surrogate. -/
def IsThree (a b c : ℕ) : Prop :=
  0xE0 ≤ a ∧ a ≤ 0xEF ∧ IsCont b ∧ IsCont c ∧ (a = 0xE0 → 0xA0 ≤ b) ∧ (a = 0xED → b ≤ 0x9F)

/-- A sequence of four bytes, neither overlong nor above `U+10FFFF`. -/
def IsFour (a b c d : ℕ) : Prop :=
  0xF0 ≤ a ∧ a ≤ 0xF4 ∧ IsCont b ∧ IsCont c ∧ IsCont d ∧ (a = 0xF0 → 0x90 ≤ b) ∧
    (a = 0xF4 → b ≤ 0x8F)

instance (b : ℕ) : Decidable (IsCont b) := inferInstanceAs (Decidable (_ ∧ _))

instance (a b : ℕ) : Decidable (IsTwo a b) := inferInstanceAs (Decidable (_ ∧ _))

instance (a b c : ℕ) : Decidable (IsThree a b c) := inferInstanceAs (Decidable (_ ∧ _))

instance (a b c d : ℕ) : Decidable (IsFour a b c d) := inferInstanceAs (Decidable (_ ∧ _))

/-- A byte of the text; behind its end there is a zero, which continues nothing. -/
def byteAt (s : Bytes) (i : ℕ) : ℕ := (s.getD i 0).toNat

/-- The rune that a text begins with, and the number of its bytes. -/
def first (s : Bytes) : Option (ℕ × ℕ) :=
  let a := byteAt s 0
  let b := byteAt s 1
  let c := byteAt s 2
  let d := byteAt s 3
  if s = [] then none
  else if a < 0x80 then some (a, 1)
  else if IsTwo a b then some ((a - 0xC0) * 64 + (b - 0x80), 2)
  else if IsThree a b c then some ((a - 0xE0) * 4096 + (b - 0x80) * 64 + (c - 0x80), 3)
  else if IsFour a b c d then
    some ((a - 0xF0) * 262144 + (b - 0x80) * 4096 + (c - 0x80) * 64 + (d - 0x80), 4)
  else none

/-- `string(r)`. -/
def encodeRune (r : ℕ) : Bytes :=
  if r < 0x80 then [UInt8.ofNat r]
  else if r < 0x800 then [UInt8.ofNat (0xC0 + r / 64), UInt8.ofNat (0x80 + r % 64)]
  else if 0x10FFFF < r ∨ (0xD800 ≤ r ∧ r ≤ 0xDFFF) then [0xEF, 0xBF, 0xBD]
  else if r < 0x10000 then
    [UInt8.ofNat (0xE0 + r / 4096), UInt8.ofNat (0x80 + r / 64 % 64), UInt8.ofNat (0x80 + r % 64)]
  else
    [UInt8.ofNat (0xF0 + r / 262144), UInt8.ofNat (0x80 + r / 4096 % 64),
      UInt8.ofNat (0x80 + r / 64 % 64), UInt8.ofNat (0x80 + r % 64)]

/-! Writing a sequence that was read. -/

/-- The six bits in a continuation byte. -/
theorem IsCont.bits {b : ℕ} (h : IsCont b) : ∃ x < 64, b = 0x80 + x :=
  ⟨b - 0x80, by have := h.2; omega, (Nat.add_sub_of_le h.1).symm⟩

theorem encodeRune_two {a b : ℕ} (h : IsTwo a b) :
    encodeRune ((a - 0xC0) * 64 + (b - 0x80)) = [UInt8.ofNat a, UInt8.ofNat b] := by
  obtain ⟨hlo, hhi, hb⟩ := h
  obtain ⟨x, rfl⟩ := Nat.exists_eq_add_of_le (show 0xC0 ≤ a by omega)
  obtain ⟨y, hy, rfl⟩ := hb.bits
  rw [Nat.add_sub_cancel_left, Nat.add_sub_cancel_left]
  have hx : (x * 64 + y) / 64 = x := by omega
  have hy' : (x * 64 + y) % 64 = y := by omega
  rw [encodeRune, if_neg (by omega), if_pos (by omega), hx, hy']

/-- The bits of a sequence of three: at least `U+0800`, and not a surrogate. -/
theorem IsThree.bits {a b c : ℕ} (h : IsThree a b c) :
    ∃ x y z, (a = 0xE0 + x ∧ b = 0x80 + y ∧ c = 0x80 + z) ∧ z < 64 ∧ y < 64 ∧
      32 ≤ x * 64 + y ∧ x * 64 + y < 1024 ∧ (x * 64 + y < 864 ∨ 896 ≤ x * 64 + y) := by
  obtain ⟨hlo, hhi, hb, hc, hover, hsurrogate⟩ := h
  obtain ⟨x, rfl⟩ := Nat.exists_eq_add_of_le hlo
  obtain ⟨y, hy, rfl⟩ := hb.bits
  obtain ⟨z, hz, rfl⟩ := hc.bits
  exact ⟨x, y, z, ⟨rfl, rfl, rfl⟩, hz, hy, by omega, by omega, by omega⟩

theorem encodeRune_three {a b c : ℕ} (h : IsThree a b c) :
    encodeRune ((a - 0xE0) * 4096 + (b - 0x80) * 64 + (c - 0x80))
      = [UInt8.ofNat a, UInt8.ofNat b, UInt8.ofNat c] := by
  obtain ⟨x, y, z, ⟨rfl, rfl, rfl⟩, hz, hy, hover, hmax, hsurrogate⟩ := h.bits
  rw [Nat.add_sub_cancel_left, Nat.add_sub_cancel_left, Nat.add_sub_cancel_left]
  have hx : (x * 4096 + y * 64 + z) / 4096 = x := by omega
  have hy' : (x * 4096 + y * 64 + z) / 64 % 64 = y := by omega
  have hz' : (x * 4096 + y * 64 + z) % 64 = z := by omega
  rw [encodeRune, if_neg (by omega), if_neg (by omega), if_neg (by omega), if_pos (by omega), hx,
    hy', hz']

/-- The bits of a sequence of four: from `U+10000` to `U+10FFFF`. -/
theorem IsFour.bits {a b c d : ℕ} (h : IsFour a b c d) :
    ∃ x y z v, (a = 0xF0 + x ∧ b = 0x80 + y ∧ c = 0x80 + z ∧ d = 0x80 + v) ∧ v < 64 ∧ z < 64 ∧
      y < 64 ∧ 16 ≤ x * 64 + y ∧ x * 64 + y < 272 := by
  obtain ⟨hlo, hhi, hb, hc, hd, hover, hmax⟩ := h
  obtain ⟨x, rfl⟩ := Nat.exists_eq_add_of_le hlo
  obtain ⟨y, hy, rfl⟩ := hb.bits
  obtain ⟨z, hz, rfl⟩ := hc.bits
  obtain ⟨v, hv, rfl⟩ := hd.bits
  exact ⟨x, y, z, v, ⟨rfl, rfl, rfl, rfl⟩, hv, hz, hy, by omega, by omega⟩

theorem encodeRune_four {a b c d : ℕ} (h : IsFour a b c d) :
    encodeRune ((a - 0xF0) * 262144 + (b - 0x80) * 4096 + (c - 0x80) * 64 + (d - 0x80))
      = [UInt8.ofNat a, UInt8.ofNat b, UInt8.ofNat c, UInt8.ofNat d] := by
  obtain ⟨x, y, z, v, ⟨rfl, rfl, rfl, rfl⟩, hv, hz, hy, hover, hmax⟩ := h.bits
  rw [Nat.add_sub_cancel_left, Nat.add_sub_cancel_left, Nat.add_sub_cancel_left,
    Nat.add_sub_cancel_left]
  have hx : (x * 262144 + y * 4096 + z * 64 + v) / 262144 = x := by omega
  have hy' : (x * 262144 + y * 4096 + z * 64 + v) / 4096 % 64 = y := by omega
  have hz' : (x * 262144 + y * 4096 + z * 64 + v) / 64 % 64 = z := by omega
  have hv' : (x * 262144 + y * 4096 + z * 64 + v) % 64 = v := by omega
  rw [encodeRune, if_neg (by omega), if_neg (by omega), if_neg (by omega), if_neg (by omega), hx,
    hy', hz', hv']

section First

variable {s : Bytes}

theorem lt_length_of_byteAt {i : ℕ} (h : 0 < byteAt s i) : i < s.length := by
  by_contra hge
  rw [byteAt, List.getD_eq_default _ _ (not_lt.1 hge), UInt8.toNat_zero] at h
  exact absurd h (lt_irrefl 0)

theorem take_succ_byteAt {i : ℕ} (h : i < s.length) :
    s.take (i + 1) = s.take i ++ [UInt8.ofNat (byteAt s i)] := by
  rw [List.take_add_one, List.getElem?_eq_getElem h, byteAt, UInt8.ofNat_toNat,
    List.getD_eq_getElem _ _ h, Option.toList_some]

/-- **Writing the rune that was read gives its bytes back.** -/
theorem encodeRune_of_first {r w : ℕ} (h : first s = some (r, w)) :
    encodeRune r = s.take w ∧ 1 ≤ w ∧ w ≤ s.length := by
  unfold first at h
  dsimp only at h
  split_ifs at h with hnil hone htwo hthree hfour <;>
    obtain ⟨rfl, rfl⟩ := Prod.mk.inj (Option.some.inj h)
  · have hpos : 0 < s.length := List.length_pos_iff.2 hnil
    refine ⟨?_, le_rfl, hpos⟩
    rw [encodeRune, if_pos hone, take_succ_byteAt hpos]
    rfl
  · have hlen : 1 < s.length := lt_length_of_byteAt (by have := htwo.2.2.1; omega)
    refine ⟨?_, by decide, hlen⟩
    rw [encodeRune_two htwo, take_succ_byteAt hlen, take_succ_byteAt (by omega)]
    rfl
  · have hlen : 2 < s.length := lt_length_of_byteAt (by have := hthree.2.2.2.1.1; omega)
    refine ⟨?_, by decide, hlen⟩
    rw [encodeRune_three hthree, take_succ_byteAt hlen, take_succ_byteAt (by omega),
      take_succ_byteAt (by omega)]
    rfl
  · have hlen : 3 < s.length := lt_length_of_byteAt (by have := hfour.2.2.2.2.1.1; omega)
    refine ⟨?_, by decide, hlen⟩
    rw [encodeRune_four hfour, take_succ_byteAt hlen, take_succ_byteAt (by omega),
      take_succ_byteAt (by omega), take_succ_byteAt (by omega)]
    rfl

end First

theorem encodeRune_ne_nil (r : ℕ) : encodeRune r ≠ [] := by
  unfold encodeRune
  split_ifs <;> exact List.cons_ne_nil _ _

/-- In the encoding of a rune an ASCII byte stands only for itself. -/
theorem eq_of_mem_encodeRune {r : ℕ} {c : UInt8} (hc : c.toNat < 0x80) (h : c ∈ encodeRune r) :
    r = c.toNat := by
  have hbyte : ∀ n, 0x80 ≤ n → n < 0x100 → c ≠ UInt8.ofNat n := by
    rintro n hlo hhi rfl
    rw [UInt8.toNat_ofNat_of_lt' (by rw [UInt8.size]; omega)] at hc
    omega
  unfold encodeRune at h
  split_ifs at h with hone htwo hbad hthree
  · rw [List.mem_singleton.1 h, UInt8.toNat_ofNat_of_lt' (by rw [UInt8.size]; omega)]
  · simp only [List.mem_cons, List.not_mem_nil, or_false] at h
    rcases h with h | h <;> exact absurd h (hbyte _ (by omega) (by omega))
  · simp only [List.mem_cons, List.not_mem_nil, or_false] at h
    rcases h with rfl | rfl | rfl <;> exact absurd hc (by decide)
  · simp only [List.mem_cons, List.not_mem_nil, or_false] at h
    rcases h with h | h | h <;> exact absurd h (hbyte _ (by omega) (by omega))
  · simp only [List.mem_cons, List.not_mem_nil, or_false] at h
    rcases h with h | h | h | h <;> exact absurd h (hbyte _ (by omega) (by omega))

/-! ## Texts -/

/-- `utf8.DecodeRuneInString`. -/
def decodeRune (s : Bytes) : ℕ × ℕ := (first s).getD (0xFFFD, 1)

/-- At most `fuel` rounds of `range`. -/
def runes : (fuel : ℕ) → Bytes → List ℕ
  | 0, _ => []
  | fuel + 1, s =>
    if s = [] then [] else (decodeRune s).1 :: runes fuel (s.drop (decodeRune s).2)

/-- The runes of `for _, c := range s`. -/
def range (s : Bytes) : List ℕ := runes s.length s

/-- The text is one well-formed sequence after the other. -/
inductive Valid : Bytes → Prop
  | nil : Valid []
  | cons {s : Bytes} {r w : ℕ} (hfirst : first s = some (r, w)) (hrest : Valid (s.drop w)) : Valid s

section Text

variable {s : Bytes}

/-- What a round of `range` takes: a rune with its bytes, or a byte that begins none. -/
theorem decodeRune_cases (hs : s ≠ []) :
    (first s = some (decodeRune s) ∧ encodeRune (decodeRune s).1 = s.take (decodeRune s).2 ∧
        1 ≤ (decodeRune s).2 ∧ (decodeRune s).2 ≤ s.length) ∨
      ((decodeRune s).1 = 0xFFFD ∧ (decodeRune s).2 = 1 ∧ 0x80 ≤ byteAt s 0) := by
  unfold decodeRune
  cases h : first s with
  | some p =>
    obtain ⟨hencode, hpos, hle⟩ := encodeRune_of_first h
    exact .inl ⟨rfl, hencode, hpos, hle⟩
  | none =>
    refine .inr ⟨rfl, rfl, ?_⟩
    by_contra hlt
    unfold first at h
    dsimp only at h
    rw [if_neg hs, if_pos (not_le.1 hlt)] at h
    cases h

theorem decodeRune_width (hs : s ≠ []) : 1 ≤ (decodeRune s).2 ∧ (decodeRune s).2 ≤ s.length := by
  rcases decodeRune_cases hs with ⟨-, -, hwidth⟩ | ⟨-, hone, -⟩
  · exact hwidth
  · rw [hone]
    exact ⟨le_rfl, List.length_pos_iff.2 hs⟩

theorem take_decodeRune_ne_nil (hs : s ≠ []) : s.take (decodeRune s).2 ≠ [] := by
  intro hnil
  rcases List.take_eq_nil_iff.1 hnil with hzero | hnil
  · have := (decodeRune_width hs).1
    omega
  · exact hs hnil

theorem runes_fuel {fuel fuel' : ℕ} (h : s.length ≤ fuel) (h' : s.length ≤ fuel') :
    runes fuel s = runes fuel' s := by
  apply Go.loop_fuel List.length _ _ h h'
  · intro s fuel fuel' hzero
    obtain rfl := List.length_eq_zero_iff.1 hzero
    cases fuel <;> cases fuel' <;> rfl
  · intro s fuel fuel' hzero hrest
    have hs : s ≠ [] := fun hnil => hzero (List.length_eq_zero_iff.2 hnil)
    obtain ⟨hpos, hle⟩ := decodeRune_width hs
    have hlen := List.length_drop (i := (decodeRune s).2) (l := s)
    rw [runes, runes, if_neg hs, if_neg hs]
    exact congrArg _ (hrest _ (by omega))

theorem range_eq_cons (hs : s ≠ []) :
    range s = (decodeRune s).1 :: range (s.drop (decodeRune s).2) := by
  obtain ⟨hpos, hle⟩ := decodeRune_width hs
  have hlen := List.length_drop (i := (decodeRune s).2) (l := s)
  rw [range, range, show s.length = (s.length - 1) + 1 by omega, runes, if_neg hs]
  exact congrArg _ (runes_fuel (by omega) (by omega))

/-- **Induction along `range`.** -/
theorem range_induction {P : Bytes → Prop} (nil : P [])
    (cons : ∀ s, s ≠ [] → P (s.drop (decodeRune s).2) → P s) (s : Bytes) : P s := by
  induction hn : s.length using Nat.strong_induction_on generalizing s with
  | _ n ih =>
    by_cases hs : s = []
    · rwa [hs]
    · obtain ⟨hpos, hle⟩ := decodeRune_width hs
      refine cons s hs (ih _ ?_ _ rfl)
      rw [List.length_drop]
      omega

/-- What is written when all runes of a text are. -/
def reencode (s : Bytes) : Bytes := (range s).flatMap encodeRune

theorem length_reencode (hs : s ≠ []) :
    (reencode s).length = (encodeRune (decodeRune s).1).length +
      (reencode (s.drop (decodeRune s).2)).length := by
  rw [reencode, range_eq_cons hs, List.flatMap_cons, List.length_append]
  rfl

/-- A text is not longer than its runes. -/
theorem length_reencode_le (s : Bytes) : s.length ≤ (reencode s).length := by
  induction s using range_induction with
  | nil => exact Nat.zero_le _
  | cons s hs ih =>
    rw [length_reencode hs]
    rw [List.length_drop] at ih
    rcases decodeRune_cases hs with ⟨-, hencode, -, hle⟩ | ⟨hrune, hone, -⟩
    · rw [hencode, List.length_take_of_le hle]
      omega
    · have hthree : (encodeRune 0xFFFD).length = 3 := rfl
      rw [hrune, hthree]
      omega

/-- **A text that is as long as its runes is valid.** -/
theorem valid_of_length_reencode (h : (reencode s).length = s.length) : Valid s := by
  induction s using range_induction with
  | nil => exact .nil
  | cons s hs ih =>
    have hrest := length_reencode_le (s.drop (decodeRune s).2)
    have hlen := List.length_drop (i := (decodeRune s).2) (l := s)
    rw [length_reencode hs] at h
    rcases decodeRune_cases hs with ⟨hfirst, hencode, -, hle⟩ | ⟨hrune, hone, -⟩
    · rw [hencode, List.length_take_of_le hle] at h
      exact .cons hfirst (ih (by omega))
    · have hthree : (encodeRune 0xFFFD).length = 3 := rfl
      rw [hrune, hthree] at h
      omega

/-- A round that takes an ASCII rune takes its byte. -/
theorem take_of_ascii {c : UInt8} (hc : c.toNat < 0x80) (hs : s ≠ [])
    (h : (decodeRune s).1 = c.toNat) : s.take (decodeRune s).2 = [c] := by
  rcases decodeRune_cases hs with ⟨-, hencode, -⟩ | ⟨hrune, -⟩
  · rw [← hencode, h, encodeRune, if_pos hc, UInt8.ofNat_toNat]
  · omega

/-- A round that takes another rune does not take the byte. -/
theorem not_mem_take_of_ne {c : UInt8} (hc : c.toNat < 0x80) (hs : s ≠ [])
    (h : (decodeRune s).1 ≠ c.toNat) : c ∉ s.take (decodeRune s).2 := by
  intro hmem
  rcases decodeRune_cases hs with ⟨-, hencode, -⟩ | ⟨-, hone, hbyte⟩
  · rw [← hencode] at hmem
    exact h (eq_of_mem_encodeRune hc hmem)
  · rw [hone, take_succ_byteAt (List.length_pos_iff.2 hs), List.take_zero, List.nil_append,
      List.mem_singleton] at hmem
    have hlt : byteAt s 0 < 256 := (s.getD 0 0).toNat_lt
    rw [hmem, UInt8.toNat_ofNat_of_lt' (by rw [UInt8.size]; omega)] at hc
    omega

end Text

end Utf8
