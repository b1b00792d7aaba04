/-
# The hash of a client address

`ipHash` in `internal/loadbalancer/balancer.go` takes the text of the client as a numeral in base
31, wrapped around to an `int`, and negates it if it is negative.  The smallest `int` is its own
negative, so one value of the hash leaves a negative index.

`ipHash_index_iff` says for which texts and numbers of backends the index is in range, for both
widths of an `int`; for the others `GetBackend` panics (`getBackend_ipHash`).  There are texts of
letters and digits among them (`ipHash_negative_index`).
-/
import IPShadowT.LoadBalancer

open Go (Arch item item_mem)

namespace LoadBalancer

/-- The numeral in base 31, without an end. -/
def numeral (clientIP : String) : ℤ := clientIP.toList.foldl (fun hash c => hash * 31 + c.toNat) 0

/-- The index that `ipHash` computes for `n` backends. -/
def ipHashIndex (a : Arch) (n : ℕ) (clientIP : String) : ℤ :=
  let hash := clientIP.toList.foldl (fun hash c => a.int (hash * 31 + c.toNat)) 0
  (if hash < 0 then a.int (-hash) else hash).tmod n

section Index

variable {α : Type} {a : Arch}

theorem ipHash_eq_item {l : List α} (hl : l ≠ []) (clientIP : String) :
    ipHash a l clientIP = item l (ipHashIndex a l.length clientIP) := by
  have hlen : (l.length : ℤ) ≠ 0 := Int.natCast_ne_zero.2 (List.length_pos_of_ne_nil hl).ne'
  rw [ipHash, rem_eq hlen]
  rfl

/-- Wrapping around at every character is wrapping around once. -/
theorem foldl_hash (a : Arch) (cs : List Char) (hash : ℤ) :
    cs.foldl (fun hash c => a.int (hash * 31 + c.toNat)) (a.int hash) =
      a.int (cs.foldl (fun hash c => hash * 31 + c.toNat) hash) := by
  induction cs generalizing hash with
  | nil => rfl
  | cons c cs ih =>
    rw [List.foldl_cons, List.foldl_cons, ← ih]
    congr 1
    calc a.int (a.int hash * 31 + c.toNat)
        = a.int (a.int (a.int hash * 31) + c.toNat) := (a.int_add _ _).symm
      _ = a.int (a.int (hash * 31) + c.toNat) := by rw [a.int_mul]
      _ = a.int (hash * 31 + c.toNat) := a.int_add _ _

theorem hash_eq (a : Arch) (clientIP : String) :
    clientIP.toList.foldl (fun hash c => a.int (hash * 31 + c.toNat)) 0 =
      a.int (numeral clientIP) := by
  have hzero : a.int 0 = 0 := a.int_of_lt (Int.le_refl 0) (by decide)
  have hfold := foldl_hash a clientIP.toList 0
  rwa [hzero] at hfold

/-- The one value of the hash that stays negative does not come up, or the number of backends
divides it. -/
def Hashes (a : Arch) (n : ℕ) (clientIP : String) : Prop :=
  numeral clientIP % (2 * (a.maxInt + 1)) ≠ a.maxInt + 1 ∨ (n : ℤ) ∣ a.maxInt + 1

theorem ipHashIndex_neg_iff (a : Arch) (n : ℕ) (clientIP : String) :
    ipHashIndex a n clientIP < 0 ↔ ¬ Hashes a n clientIP := by
  have hmax := a.maxInt_bounds
  unfold ipHashIndex Hashes
  dsimp only
  rw [hash_eq, Go.tmod_neg_iff, Ne, ← a.int_eq_least_iff, not_iff_not]
  rcases a.int_abs (numeral clientIP) with ⟨hleast, heq⟩ | ⟨hleast, hpos⟩
  · rw [heq, Int.dvd_neg]
    have hneg : ¬ 0 ≤ -(a.maxInt + 1) := by omega
    exact or_congr (iff_of_false hneg (not_not_intro hleast)) Iff.rfl
  · exact iff_of_true (.inl hpos) (.inl hleast)

/-- **The index of `ipHash`** is in range exactly if the numeral is not, modulo the number of
`int`s, half of that number, or the number of backends divides that half. -/
theorem ipHash_index_iff (a : Arch) {l : List α} (hl : l ≠ []) (clientIP : String) :
    ipHash a l clientIP = item l (ipHashIndex a l.length clientIP) ∧
      (0 ≤ ipHashIndex a l.length clientIP ∧ ipHashIndex a l.length clientIP ≤ l.length - 1 ↔
        Hashes a l.length clientIP) := by
  have hpos : 0 < (l.length : ℤ) := Int.natCast_pos.2 (List.length_pos_of_ne_nil hl)
  have hlt : ipHashIndex a l.length clientIP < l.length := Int.tmod_lt_of_pos _ hpos
  refine ⟨ipHash_eq_item hl clientIP, ?_⟩
  rw [← not_iff_not, ← ipHashIndex_neg_iff]
  omega

theorem ipHash_index_three :
    ipHash .bits64 [0, 1, 2] "10.0.0.1" = item [0, 1, 2] (ipHashIndex .bits64 3 "10.0.0.1") ∧
      (0 ≤ ipHashIndex .bits64 3 "10.0.0.1" ∧ ipHashIndex .bits64 3 "10.0.0.1" ≤ (3 : ℕ) - 1 ↔
        Hashes .bits64 3 "10.0.0.1") :=
  ipHash_index_iff .bits64 (List.cons_ne_nil 0 [1, 2]) "10.0.0.1"

/-- A client string of letters and digits whose hash is the smallest `int` of 64 bits: with three
backends the index is negative, and the call panics. -/
theorem ipHash_negative_index :
    ipHashIndex .bits64 3 "8KzMYK96Z11LG" = -2 ∧
      ipHash .bits64 [0, 1, 2] "8KzMYK96Z11LG" = .error .panic := by
  decide +kernel

/-- **`GetBackend` by the hash** returns a healthy backend on these inputs and panics on all
others. -/
theorem getBackend_ipHash (a : Arch) {b : Balancer} (hs : b.strategy = .ipHash)
    (hne : b.getHealthy ≠ []) (clientIP : String) :
    (Hashes a b.getHealthy.length clientIP ∧
        ∃ x ∈ b.getHealthy, b.getBackend a clientIP = .ok (some x)) ∨
      (¬ Hashes a b.getHealthy.length clientIP ∧ b.getBackend a clientIP = .error .panic) := by
  have hget : b.getBackend a clientIP =
      some <$> item b.getHealthy (ipHashIndex a b.getHealthy.length clientIP) := by
    rw [← ipHash_eq_item hne, Balancer.getBackend, hs]
    exact if_neg (List.length_pos_of_ne_nil hne).ne'
  have hpos : 0 < (b.getHealthy.length : ℤ) := Int.natCast_pos.2 (List.length_pos_of_ne_nil hne)
  by_cases hashes : Hashes a b.getHealthy.length clientIP
  · have h0 := Int.not_lt.1 (mt (ipHashIndex_neg_iff a _ clientIP).1 (not_not_intro hashes))
    obtain ⟨x, hx, hitem⟩ := item_mem h0 (Int.tmod_lt_of_pos _ hpos)
    refine .inl ⟨hashes, x, hx, ?_⟩
    rw [hget]
    exact congrArg (some <$> ·) hitem
  · have hneg := (ipHashIndex_neg_iff a _ clientIP).2 hashes
    refine .inr ⟨hashes, ?_⟩
    rw [hget, item, if_pos hneg]
    rfl

end Index

end LoadBalancer
