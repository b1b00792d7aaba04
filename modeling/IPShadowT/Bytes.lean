/-
# Byte strings, big-endian fields and Go slice expressions

A byte string is a `List UInt8`.  Two things are collected here that every
parser and encoder of a length-prefixed format needs, besides the faults, loops and
integers of Go:

* big-endian numerals of any width (`beBytes`, `beNat`), with the round trip
  modulo `256 ^ k` in both directions;
* the bounds-checked index and slice expressions of Go (`index`, `slice`,
  `beField`): an access outside the data is `Fault.panic`, kept apart from the
  errors a function returns on purpose (`Fault.error`), so that "this never
  panics" is a statement about the model.
-/
import Mathlib.Data.List.Basic
import Mathlib.Tactic.Linarith
import Mathlib.Tactic.Ring

/-- A byte string. -/
abbrev Bytes := List UInt8

/-- How a Go function can fail: with an error value of its own, or by a
run-time panic. -/
inductive Fault (ε : Type) where
  | error (e : ε)
  | panic
  deriving DecidableEq, Repr

/-- The result of a Go function that returns `(α, error)` and may panic. -/
abbrev Go (ε α : Type) := Except (Fault ε) α

namespace Go

/-- `unicode.IsSpace`. -/
def isSpace (c : Char) : Bool :=
  c.toNat ∈ [0x09, 0x0A, 0x0B, 0x0C, 0x0D, 0x20, 0x85, 0xA0, 0x1680, 0x2028, 0x2029, 0x202F,
    0x205F, 0x3000] ∨ (0x2000 ≤ c.toNat ∧ c.toNat ≤ 0x200A)

variable {ε α β : Type}

@[simp] theorem ok_bind (a : α) (f : α → Go ε β) : ((.ok a : Go ε α) >>= f) = f a := rfl

/-- A sequence of two calls succeeds when both do. -/
theorem bind_eq_ok {x : Go ε α} {f : α → Go ε β} {b : β} :
    x >>= f = .ok b ↔ ∃ a, x = .ok a ∧ f a = .ok b := by
  cases x with
  | error e =>
    refine iff_of_false (fun h => by cases h) ?_
    rintro ⟨a, ha, -⟩
    cases ha
  | ok a => simp

theorem ok_pair_unique {x : Go ε (α × β)} {a a' : α} {b b' : β} (h : x = .ok (a, b))
    (h' : x = .ok (a', b')) : a = a' ∧ b = b' :=
  Prod.mk.inj (Except.ok.inj (h.symm.trans h'))

/-- The call returns, with a value or with an error. -/
def NoPanic (x : Go ε α) : Prop := x ≠ .error .panic

theorem NoPanic.ok (a : α) : NoPanic (.ok a : Go ε α) := nofun

theorem NoPanic.error (e : ε) : NoPanic (.error (.error e) : Go ε α) := nofun

/-- A sequence of calls returns if each does, the later ones for what the earlier ones
have returned. -/
theorem NoPanic.bind {x : Go ε α} {f : α → Go ε β} (hx : NoPanic x)
    (hf : ∀ a, x = .ok a → NoPanic (f a)) : NoPanic (x >>= f) := by
  rcases x with (e | _) | a
  · exact NoPanic.error e
  · exact absurd rfl hx
  · exact hf a rfl

/-- The value of an expression of type `int64`, which wraps around. -/
def int64 (n : ℤ) : ℤ := n.bmod 18446744073709551616

/-! ### Loops

A loop of the code is given a number of rounds. -/

/-- **A loop that is not cut short.**  If what is left, `room`, gets less in every round, then all
numbers of rounds that are not below it come to the same. -/
theorem loop_fuel {σ β : Type*} {loop : ℕ → σ → β} (room : σ → ℕ)
    (hdone : ∀ s fuel fuel', room s = 0 → loop fuel s = loop fuel' s)
    (hnext : ∀ s fuel fuel', room s ≠ 0 →
      (∀ s', room s' < room s → loop fuel s' = loop fuel' s') →
        loop (fuel + 1) s = loop (fuel' + 1) s)
    {s : σ} {fuel fuel' : ℕ} (h : room s ≤ fuel) (h' : room s ≤ fuel') :
    loop fuel s = loop fuel' s := by
  induction fuel generalizing s fuel' with
  | zero => exact hdone s 0 fuel' (Nat.le_zero.1 h)
  | succ fuel ih =>
    by_cases hzero : room s = 0
    · exact hdone s _ _ hzero
    · cases fuel' with
      | zero => exact absurd (Nat.le_zero.1 h') hzero
      | succ fuel' => exact hnext s fuel fuel' hzero fun s' hs' => ih (by omega) (by omega)

/-! ### Machines

An `int` has 64 bits on some machines and 32 on others. -/

/-- The width of an `int`. -/
inductive Arch where
  | bits32
  | bits64
  deriving DecidableEq, Repr

/-- The value of an expression of type `int`, which wraps around. -/
def Arch.int (a : Arch) (n : ℤ) : ℤ :=
  match a with
  | .bits32 => n.bmod 4294967296
  | .bits64 => int64 n

/-- The largest `int`. -/
def Arch.maxInt : Arch → ℤ
  | .bits32 => 2147483647
  | .bits64 => 9223372036854775807

theorem Arch.maxInt_bounds (a : Arch) : 2147483647 ≤ a.maxInt ∧ a.maxInt ≤ 9223372036854775807 := by
  cases a <;> decide

variable {n : ℤ}

theorem Arch.int_of_le {a : Arch} (hlow : -a.maxInt ≤ n) (hn : n ≤ a.maxInt) : a.int n = n := by
  cases a with
  | bits32 =>
    have hlow : -2147483647 ≤ n := hlow
    have hn : n ≤ 2147483647 := hn
    apply Int.bmod_eq_of_le
    · omega
    · omega
  | bits64 =>
    have hlow : -9223372036854775807 ≤ n := hlow
    have hn : n ≤ 9223372036854775807 := hn
    apply Int.bmod_eq_of_le
    · omega
    · omega

theorem Arch.int_of_lt (a : Arch) (h0 : 0 ≤ n) (hn : n < 2147483648) : a.int n = n := by
  have hmax := a.maxInt_bounds
  exact Arch.int_of_le (by omega) (by omega)

theorem int_bits64 (h0 : 0 ≤ n) (hn : n < 9223372036854775808) : Arch.bits64.int n = n := by
  apply Arch.int_of_le
  · exact Int.le_trans (by decide) h0
  · exact Int.le_of_lt_add_one hn

/-- From 2^31 on an `int` of 32 bits is negative. -/
theorem int_bits32_neg (hn : 2147483648 ≤ n) (hlt : n < 4294967296) : Arch.bits32.int n < 0 := by
  show n.bmod 4294967296 < 0
  rw [Int.bmod_def]
  split_ifs <;> omega

/-- A remainder has the sign of the dividend. -/
theorem tmod_neg_iff {n m : ℤ} : n.tmod m < 0 ↔ ¬ (0 ≤ n ∨ m ∣ n) := by
  rw [Int.dvd_iff_tmod_eq_zero]
  rcases lt_or_ge n 0 with hneg | h0
  · have hle : 0 ≤ (-n).tmod m := Int.tmod_nonneg m (by omega)
    rw [Int.neg_tmod] at hle
    omega
  · have hnonneg : 0 ≤ n.tmod m := Int.tmod_nonneg m h0
    exact iff_of_false (Int.not_lt.2 hnonneg) (not_not.2 (.inl h0))

/-- `l[i]` for an `int`. -/
def item (l : List α) (i : ℤ) : Go ε α :=
  if i < 0 then .error .panic
  else
    match l[i.toNat]? with
    | some x => .ok x
    | none => .error .panic

/-- An index within the bounds. -/
theorem item_of_lt {l : List α} {i : ℤ} (h0 : 0 ≤ i) (hlt : i < l.length) :
    ∃ x, l[i.toNat]? = some x ∧ (item l i : Go ε α) = .ok x := by
  have hget : l[i.toNat]? = some l[i.toNat] := List.getElem?_eq_getElem (by omega)
  refine ⟨l[i.toNat], hget, ?_⟩
  rw [item, if_neg (Int.not_lt.2 h0), hget]

theorem item_mem {l : List α} {i : ℤ} (h0 : 0 ≤ i) (hlt : i < l.length) :
    ∃ x ∈ l, (item l i : Go ε α) = .ok x := by
  obtain ⟨x, hx, hitem⟩ := item_of_lt h0 hlt
  exact ⟨x, List.mem_of_getElem? hx, hitem⟩

theorem Arch.int_add (a : Arch) (m n : ℤ) : a.int (a.int m + n) = a.int (m + n) := by
  cases a with
  | bits32 => exact Int.bmod_add_bmod
  | bits64 => exact Int.bmod_add_bmod

theorem Arch.int_mul (a : Arch) (m n : ℤ) : a.int (a.int m * n) = a.int (m * n) := by
  cases a with
  | bits32 => exact Int.bmod_mul_bmod
  | bits64 => exact Int.bmod_mul_bmod

theorem Arch.int_bounds (a : Arch) (n : ℤ) : -(a.maxInt + 1) ≤ a.int n ∧ a.int n ≤ a.maxInt := by
  cases a with
  | bits32 =>
    show -2147483648 ≤ n.bmod 4294967296 ∧ n.bmod 4294967296 ≤ 2147483647
    rw [Int.bmod_def]
    split_ifs <;> omega
  | bits64 =>
    show -9223372036854775808 ≤ n.bmod 18446744073709551616 ∧
      n.bmod 18446744073709551616 ≤ 9223372036854775807
    rw [Int.bmod_def]
    split_ifs <;> omega

/-- Which numbers are the smallest `int`. -/
theorem Arch.int_eq_least_iff (a : Arch) (n : ℤ) :
    a.int n = -(a.maxInt + 1) ↔ n % (2 * (a.maxInt + 1)) = a.maxInt + 1 := by
  cases a with
  | bits32 =>
    show n.bmod 4294967296 = -2147483648 ↔ n % 4294967296 = 2147483648
    rw [Int.bmod_def]
    split_ifs <;> omega
  | bits64 =>
    show n.bmod 18446744073709551616 = -9223372036854775808 ↔
      n % 18446744073709551616 = 9223372036854775808
    rw [Int.bmod_def]
    split_ifs <;> omega

/-- `if n < 0 { n = -n }` for an `int`: the smallest one is its own negative. -/
theorem Arch.int_abs (a : Arch) (n : ℤ) :
    (a.int n = -(a.maxInt + 1) ∧
        (if a.int n < 0 then a.int (-a.int n) else a.int n) = -(a.maxInt + 1)) ∨
      (a.int n ≠ -(a.maxInt + 1) ∧ 0 ≤ (if a.int n < 0 then a.int (-a.int n) else a.int n)) := by
  have hmax := a.maxInt_bounds
  obtain ⟨hlow, hhigh⟩ := a.int_bounds n
  by_cases hleast : a.int n = -(a.maxInt + 1)
  · refine .inl ⟨hleast, ?_⟩
    rw [hleast, if_pos (by omega), Int.neg_neg, a.int_eq_least_iff]
    exact Int.emod_eq_of_lt (by omega) (by omega)
  · refine .inr ⟨hleast, ?_⟩
    by_cases hneg : a.int n < 0
    · rw [if_pos hneg, Arch.int_of_le (by omega) (by omega)]
      omega
    · rw [if_neg hneg]
      exact Int.not_lt.1 hneg

end Go

namespace Bytes

/-! ## Big-endian numerals -/

/-- The number a big-endian numeral spells. -/
def beNat : Bytes → ℕ
  | [] => 0
  | b :: bs => b.toNat * 256 ^ bs.length + beNat bs

/-- The `k` low bytes of `n`, most significant first: the `i`-th byte is
`byte(n >> 8*(k-1-i))`, which truncates. -/
def beBytes : ℕ → ℕ → Bytes
  | 0, _ => []
  | k + 1, n => UInt8.ofNat (n / 256 ^ k) :: beBytes k n

/-- A field of `k` bytes. -/
@[simp] theorem length_beBytes (k n : ℕ) : (beBytes k n).length = k := by
  induction k with
  | zero => rfl
  | succ k ih => rw [beBytes, List.length_cons, ih]

/-- **Encoding then decoding** reduces the number to the width of the field. -/
theorem beNat_beBytes (k n : ℕ) : beNat (beBytes k n) = n % 256 ^ k := by
  induction k with
  | zero => simp [beBytes, beNat, Nat.mod_one]
  | succ k ih =>
    have hbyte : (UInt8.ofNat (n / 256 ^ k)).toNat = n / 256 ^ k % 256 := by simp
    rw [beBytes, beNat, length_beBytes, ih, hbyte, Nat.mod_pow_succ]
    ring

/-- A numeral of `k` digits is below `256 ^ k`. -/
theorem beNat_lt (b : Bytes) : beNat b < 256 ^ b.length := by
  induction b with
  | nil => simp [beNat]
  | cons x xs ih =>
    have hx : x.toNat + 1 ≤ 256 := x.toNat_lt
    rw [beNat, List.length_cons]
    calc x.toNat * 256 ^ xs.length + beNat xs
        < x.toNat * 256 ^ xs.length + 256 ^ xs.length := by omega
      _ = (x.toNat + 1) * 256 ^ xs.length := by ring
      _ ≤ 256 * 256 ^ xs.length := Nat.mul_le_mul_right _ hx
      _ = 256 ^ (xs.length + 1) := by ring

/-- A number has one numeral of each length. -/
theorem eq_of_beNat_eq {a b : Bytes} (hlen : a.length = b.length) (h : beNat a = beNat b) :
    a = b := by
  induction a generalizing b with
  | nil => exact (List.length_eq_zero_iff.1 hlen.symm).symm
  | cons x xs ih =>
    cases b with
    | nil => cases hlen
    | cons y ys =>
      have hlen' : xs.length = ys.length := Nat.succ.inj hlen
      have hpos : 0 < 256 ^ ys.length := Nat.pow_pos (by decide)
      have hx := beNat_lt xs
      have hy := beNat_lt ys
      rw [hlen'] at hx
      rw [beNat, beNat, hlen'] at h
      -- quotient and remainder by the weight of the first digit
      have hdiv := congrArg (· / 256 ^ ys.length) h
      have hmod := congrArg (· % 256 ^ ys.length) h
      simp only [Nat.mul_add_mod', Nat.mod_eq_of_lt hx, Nat.mod_eq_of_lt hy] at hmod
      simp only [Nat.mul_comm _ (256 ^ ys.length), Nat.mul_add_div hpos,
        Nat.div_eq_of_lt hx, Nat.div_eq_of_lt hy, Nat.add_zero] at hdiv
      rw [UInt8.toNat_inj.1 hdiv, ih hlen' hmod]

/-- **Decoding then encoding** gives the bytes back. -/
theorem beBytes_beNat (b : Bytes) : beBytes b.length (beNat b) = b := by
  apply eq_of_beNat_eq (length_beBytes _ _)
  rw [beNat_beBytes, Nat.mod_eq_of_lt (beNat_lt b)]

/-! ## Go index and slice expressions -/

variable {ε : Type}

/-- `b[i]`. -/
def index (b : Bytes) (i : ℕ) : Go ε UInt8 :=
  match b[i]? with
  | some x => .ok x
  | none => .error .panic

/-- `b[i:j]`. -/
def slice (b : Bytes) (i j : ℕ) : Go ε Bytes :=
  if i ≤ j ∧ j ≤ b.length then .ok ((b.take j).drop i) else .error .panic

/-- `binary.BigEndian.UintN(b)` for a field of `k` bytes: reads the first `k`
bytes and panics when there are fewer. -/
def beField (k : ℕ) (b : Bytes) : Go ε ℕ :=
  if k ≤ b.length then .ok (beNat (b.take k)) else .error .panic

/-- When a slice is in range. -/
theorem slice_eq_ok {b x : Bytes} {i j : ℕ} :
    (slice b i j : Go ε Bytes) = .ok x ↔ i ≤ j ∧ j ≤ b.length ∧ (b.take j).drop i = x := by
  unfold slice
  by_cases h : i ≤ j ∧ j ≤ b.length
  · rw [if_pos h, Except.ok.injEq]
    exact ⟨fun hx => ⟨h.1, h.2, hx⟩, fun hx => hx.2.2⟩
  · rw [if_neg h]
    constructor
    · intro hx
      cases hx
    · rintro ⟨h₁, h₂, -⟩
      exact absurd ⟨h₁, h₂⟩ h

variable {i : ℕ} {b : Bytes} {data rest : Bytes}

theorem beField_eq_ok {k n : ℕ} :
    (beField k b : Go ε ℕ) = .ok n ↔ k ≤ b.length ∧ beNat (b.take k) = n := by
  unfold beField
  by_cases h : k ≤ b.length
  · rw [if_pos h, Except.ok.injEq]
    exact ⟨fun hx => ⟨h, hx⟩, fun hx => hx.2⟩
  · rw [if_neg h]
    constructor
    · intro hx
      cases hx
    · rintro ⟨h₁, -⟩
      exact absurd h₁ h

theorem length_of_slice {b x : Bytes} {i j : ℕ} (h : (slice b i j : Go ε Bytes) = .ok x) :
    x.length = j - i := by
  obtain ⟨-, hj, rfl⟩ := slice_eq_ok.1 h
  rw [List.length_drop, List.length_take, Nat.min_eq_left hj]

/-- A slice, followed by what comes behind it. -/
theorem drop_of_slice {b x : Bytes} {i j : ℕ} (h : (slice b i j : Go ε Bytes) = .ok x) :
    b.drop i = x ++ b.drop j := by
  obtain ⟨hij, hj, rfl⟩ := slice_eq_ok.1 h
  have hle : i ≤ (b.take j).length := by
    rw [List.length_take]
    omega
  rw [← List.drop_append_of_le_length hle, List.take_append_drop]

/-- What is left when as much as `copy` takes has been taken. -/
theorem drop_length_take (b : Bytes) (n : ℕ) : b.drop (b.take n).length = b.drop n := by
  rw [List.length_take]
  rcases Nat.le_total n b.length with hn | hn
  · rw [Nat.min_eq_left hn]
  · rw [Nat.min_eq_right hn, List.drop_length, List.drop_of_length_le hn]

/-- A concatenation of texts that are not empty is as long as there are texts. -/
theorem length_le_flatMap {α : Type} {f : α → Bytes} (hf : ∀ a, 0 < (f a).length) (as : List α) :
    as.length ≤ (as.flatMap f).length := by
  induction as with
  | nil => exact Nat.le_refl 0
  | cons a as ih =>
    have ha := hf a
    rw [List.flatMap_cons, List.length_append, List.length_cons]
    omega

theorem index_noPanic (h : i < b.length) : Go.NoPanic (index b i : Go ε UInt8) := by
  unfold index
  rw [List.getElem?_eq_getElem h]
  exact Go.NoPanic.ok _

theorem slice_noPanic {i j : ℕ} (hij : i ≤ j) (hj : j ≤ b.length) :
    Go.NoPanic (slice b i j : Go ε Bytes) := by
  unfold slice
  rw [if_pos ⟨hij, hj⟩]
  exact Go.NoPanic.ok _

/-- Reading a field of `k` bytes at a position from which there are `k` bytes. -/
theorem beField_slice_noPanic {α : Type} {i k : ℕ} {f : ℕ → Go ε α} (h : i + k ≤ b.length)
    (hf : ∀ n, Go.NoPanic (f n)) :
    Go.NoPanic (slice b i (i + k) >>= fun x => beField k x >>= f) := by
  refine (slice_noPanic (Nat.le_add_right i k) h).bind fun x hx => ?_
  refine Go.NoPanic.bind ?_ fun n _ => hf n
  have hlen := length_of_slice hx
  unfold beField
  rw [if_pos (by omega)]
  exact Go.NoPanic.ok _

/-- A buffer after something has been copied to its front. -/
def overwrite (buf b : Bytes) : Bytes := b ++ buf.drop b.length

/-- The byte of `.`. -/
def dot : UInt8 := 46

theorem length_overwrite {buf b : Bytes} (h : b.length ≤ buf.length) :
    (overwrite buf b).length = buf.length := by
  rw [overwrite, List.length_append, List.length_drop]
  omega

/-- What has been copied is at the front. -/
theorem take_overwrite (buf b : Bytes) : (overwrite buf b).take b.length = b := List.take_left

/-- What is copied leaves the first `n` bytes as they are, if the buffer begins with its part
of them. -/
theorem take_overwrite_of_begins {buf b : Bytes} {n : ℕ} (h : b.take n <+: buf) :
    (overwrite buf b).take n = buf.take n := by
  rcases Nat.le_total b.length n with hshort | hlong
  · rw [List.take_of_length_le hshort] at h
    obtain ⟨rest, rfl⟩ := h
    rw [overwrite, List.drop_left]
  · have hlen : (b.take n).length = n := List.length_take_of_le hlong
    rw [overwrite, List.take_append_of_le_length hlong]
    simpa only [hlen] using List.prefix_iff_eq_take.1 h

/-! Reading at a place, in terms of what is left there. -/

/-- The byte at the front of what is left. -/
theorem index_of_drop {b : UInt8} (h : data.drop i = b :: rest) :
    (index data i : Go ε UInt8) = .ok b := by
  have hget : data[i]? = some b := by
    have := congrArg (·[0]?) h
    simpa using this
  rw [index, hget]

theorem lt_length_of_drop_eq_cons {b : UInt8} (h : data.drop i = b :: rest) : i < data.length := by
  have hlen := congrArg List.length h
  rw [List.length_drop, List.length_cons] at hlen
  omega

theorem exists_drop_eq_cons {data : Bytes} (h : i < data.length) :
    ∃ b rest, data.drop i = b :: rest :=
  ⟨_, _, List.drop_eq_getElem_cons h⟩

theorem drop_succ_add {b : UInt8} (h : data.drop i = b :: rest) (k : ℕ) :
    data.drop (i + (k + 1)) = rest.drop k := by
  rw [← List.drop_drop, h, List.drop_succ_cons]

/-! Reading at the place where something was written. -/

theorem index_append {data a c : Bytes} {x : UInt8} (h : data = a ++ x :: c) (hi : i = a.length) :
    (index data i : Go ε UInt8) = .ok x := by
  subst h hi
  simp [index]

theorem slice_append {data a b c : Bytes} {i j : ℕ} (h : data = a ++ (b ++ c))
    (hi : i = a.length) (hj : j = i + b.length) : (slice data i j : Go ε Bytes) = .ok b := by
  subst h hi hj
  refine slice_eq_ok.2 ⟨Nat.le_add_right _ _, by simp, ?_⟩
  rw [← List.append_assoc, ← List.length_append, List.take_left, List.drop_left]

theorem beField_beBytes {k n : ℕ} (h : n < 256 ^ k) :
    (beField k (beBytes k n) : Go ε ℕ) = .ok n := by
  refine beField_eq_ok.2 ⟨(length_beBytes k n).ge, ?_⟩
  rw [List.take_of_length_le (length_beBytes k n).le, beNat_beBytes, Nat.mod_eq_of_lt h]

end Bytes
