/-
# Reading numbers with `fmt.Sscanf`

`sscanf` is Go's `fmt.Sscanf` for formats of `%d` and plain characters, on texts as lists of
characters.  It succeeds once the format is used up, whatever is left of the text.

`scanInt_toDigits` says that a number is read back, with what follows it left over.
-/
import IPShadowT.Bytes

open Go (Arch isSpace)

namespace Sscanf

/-- A part of a format. -/
inductive Directive where
  /-- `%d`, for an `int` -/
  | int
  /-- a character that is not a space -/
  | lit (c : Char)
  deriving DecidableEq, Repr

/-- Spaces are skipped, and a new line is an error. -/
def skipSpace : List Char → Option (List Char)
  | [] => some []
  | c :: s => if c = '\n' then none else if isSpace c then skipSpace s else some (c :: s)

/-- An optional sign. -/
def sign : List Char → Bool × List Char
  | '-' :: s => (true, s)
  | '+' :: s => (false, s)
  | s => (false, s)

/-- `%d`: the number, if it is an `int`, and what is left of the text. -/
def scanInt (a : Arch) (s : List Char) : Option (ℤ × List Char) :=
  match skipSpace s with
  | none => none
  | some s =>
    let signed := sign s
    let digits := signed.2.takeWhile Char.isDigit
    let n : ℤ := Nat.ofDigitChars 10 digits 0
    let n := if signed.1 then -n else n
    if digits = [] then none
    else if a.int n = n then some (n, signed.2.drop digits.length)
    else none

/-- The numbers that the directives read. -/
def sscanf (a : Arch) : List Directive → List Char → Option (List ℤ)
  | [], _ => some []
  | .int :: ds, s =>
    match scanInt a s with
    | some (n, s) => (sscanf a ds s).map (n :: ·)
    | none => none
  | .lit c :: ds, s =>
    match s with
    | d :: s => if c = d then sscanf a ds s else none
    | [] => none

/-! ## Numbers that were written -/

theorem not_isSpace_of_isDigit {c : Char} (h : c.isDigit = true) : isSpace c = false := by
  have hbounds : 48 ≤ c.toNat ∧ c.toNat ≤ 57 := by
    simpa [Char.isDigit, UInt32.le_iff_toNat_le] using h
  unfold isSpace
  simp only [List.mem_cons, List.not_mem_nil, or_false, decide_eq_false_iff_not]
  omega

/-- A digit is no space. -/
theorem skipSpace_of_isDigit {c : Char} (h : c.isDigit = true) (s : List Char) :
    skipSpace (c :: s) = some (c :: s) := by
  have hline : c ≠ '\n' := by
    rintro rfl
    exact absurd h (by decide)
  rw [skipSpace, if_neg hline, not_isSpace_of_isDigit h]
  rfl

/-- Nor a sign. -/
theorem sign_of_isDigit {c : Char} (h : c.isDigit = true) (s : List Char) :
    sign (c :: s) = (false, c :: s) := by
  unfold sign
  split
  · rename_i heq
    obtain ⟨rfl, -⟩ := List.cons.inj heq
    exact absurd h (by decide)
  · rename_i heq
    obtain ⟨rfl, -⟩ := List.cons.inj heq
    exact absurd h (by decide)
  · rfl

/-- **A number is read back**, up to the first character that is no digit. -/
theorem scanInt_toDigits {a : Arch} {n : ℕ} (hn : (n : ℤ) ≤ a.maxInt) {rest : List Char}
    (hrest : ∀ c ∈ rest.head?, c.isDigit = false) :
    scanInt a (Nat.toDigits 10 n ++ rest) = some ((n : ℤ), rest) := by
  have hdigit : ∀ c ∈ Nat.toDigits 10 n, c.isDigit = true :=
    fun c hc => Nat.isDigit_of_mem_toDigits (by decide) (by decide) hc
  have htake : (Nat.toDigits 10 n ++ rest).takeWhile Char.isDigit = Nat.toDigits 10 n := by
    rw [List.takeWhile_append_of_pos hdigit]
    cases rest with
    | nil => simp
    | cons c rest => simp [hrest c rfl]
  have hvalue : Nat.ofDigitChars 10 (Nat.toDigits 10 n) 0 = n :=
    Nat.ofDigitChars_toDigits (by decide) (by decide)
  have hne : Nat.toDigits 10 n ≠ [] := Nat.toDigits_ne_nil
  have hint : a.int n = n := by
    have hmax := a.maxInt_bounds
    exact Arch.int_of_le (by omega) hn
  have hskip : skipSpace (Nat.toDigits 10 n ++ rest) = some (Nat.toDigits 10 n ++ rest) ∧
      sign (Nat.toDigits 10 n ++ rest) = (false, Nat.toDigits 10 n ++ rest) := by
    obtain ⟨c, cs, hcons⟩ := List.exists_cons_of_ne_nil hne
    have hc : c.isDigit = true := hdigit c (hcons ▸ List.mem_cons_self)
    rw [hcons]
    exact ⟨skipSpace_of_isDigit hc _, sign_of_isDigit hc _⟩
  unfold scanInt
  rw [hskip.1]
  dsimp only
  rw [hskip.2]
  dsimp only
  rw [htake, hvalue, if_neg Bool.false_ne_true, if_neg hne, if_pos hint, List.drop_left]

end Sscanf
