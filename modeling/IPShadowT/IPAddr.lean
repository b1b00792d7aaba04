/-
# The text of numbers and of IP addresses

`%d` and `%x` of Go's `fmt`, and `net.IP.String`: four numbers with dots between them, or
eight groups of hexadecimal digits with colons between them, of which the longest run of
two or more zero groups, the first of them if there are several, is left out.  An IPv4
address that is mapped into IPv6 has the text of the IPv4 address.

What the results are for: the text of an IPv6 address always has a colon in it,
`colon_mem_ipv6String`, and no other text here has; and different integers have different texts,
`itoa_injective`.
-/
import IPShadowT.HostPort

open HostPort
open Bytes (dot)

namespace IPAddr

/-! ## Numbers -/

/-- The digit of a value below 16. -/
def digitByte (d : ℕ) : UInt8 := UInt8.ofNat (if d < 10 then 48 + d else 87 + d)

/-- A numeral, of at most `fuel` digits. -/
def numeral (base : ℕ) : ℕ → ℕ → Bytes
  | 0, _ => []
  | fuel + 1, n =>
    (if n < base then [] else numeral base fuel (n / base)) ++ [digitByte (n % base)]

/-- `%d`. -/
def decimal (n : ℕ) : Bytes := numeral 10 (n + 1) n

/-- `%x`. -/
def hex (n : ℕ) : Bytes := numeral 16 (n + 1) n

theorem exists_of_mem_numeral {base : ℕ} (hbase : 0 < base) {fuel n : ℕ} {b : UInt8}
    (h : b ∈ numeral base fuel n) : ∃ d < base, b = digitByte d := by
  induction fuel generalizing n with
  | zero => cases h
  | succ fuel ih =>
    rw [numeral] at h
    rcases List.mem_append.1 h with hfront | hlast
    · split_ifs at hfront
      · cases hfront
      · exact ih hfront
    · exact ⟨n % base, Nat.mod_lt _ hbase, List.mem_singleton.1 hlast⟩

/-- A number below `base ^ k` has at most `k` digits. -/
theorem length_numeral_le {base k n : ℕ} (hn : n < base ^ (k + 1)) (fuel : ℕ) :
    (numeral base fuel n).length ≤ k + 1 := by
  induction fuel generalizing k n with
  | zero => exact Nat.zero_le _
  | succ fuel ih =>
    rw [numeral, List.length_append, List.length_singleton]
    split_ifs with hlt
    · simp
    · cases k with
      | zero =>
        rw [Nat.zero_add, Nat.pow_one] at hn
        exact absurd hn hlt
      | succ k =>
        have hdiv : n / base < base ^ (k + 1) := by
          rw [Nat.pow_succ] at hn
          exact Nat.div_lt_of_lt_mul (by rwa [Nat.mul_comm] at hn)
        have hle := ih hdiv
        omega

/-- A number has a digit. -/
theorem numeral_ne_nil (base fuel n : ℕ) : numeral base (fuel + 1) n ≠ [] := by
  rw [numeral]
  exact List.append_ne_nil_of_right_ne_nil _ (List.cons_ne_nil _ _)

/-- The value of a digit, of which the letters may be small or capital. -/
def digitValue (c : UInt8) : ℕ :=
  if c.toNat < 58 then c.toNat - 48 else if c.toNat < 97 then c.toNat - 55 else c.toNat - 87

/-- The number that a numeral spells. -/
def ofNumeral (base : ℕ) (b : Bytes) : ℕ := b.foldl (fun n c => base * n + digitValue c) 0

theorem digitValue_digitByte : ∀ d < 16, digitValue (digitByte d) = d := by decide

/-- **Numbers are read back.** -/
theorem ofNumeral_numeral {base fuel n : ℕ} (hbase : 1 < base) (hle : base ≤ 16)
    (hfuel : n < fuel) : ofNumeral base (numeral base fuel n) = n := by
  induction fuel generalizing n with
  | zero => exact absurd hfuel (Nat.not_lt_zero n)
  | succ fuel ih =>
    have hlt : n % base < base := Nat.mod_lt _ (by omega)
    rw [numeral, ofNumeral, List.foldl_append, List.foldl_cons, List.foldl_nil,
      digitValue_digitByte _ (by omega)]
    split_ifs with hn
    · rw [List.foldl_nil, Nat.mul_zero, Nat.zero_add, Nat.mod_eq_of_lt hn]
    · have hdiv : n / base < n := Nat.div_lt_self (by omega) hbase
      have hfront := ih (n := n / base) (by omega)
      rw [ofNumeral] at hfront
      rw [hfront, Nat.div_add_mod]

/-- Different numbers, different texts. -/
theorem decimal_injective : Function.Injective decimal := by
  intro m n h
  have hm := ofNumeral_numeral (show 1 < 10 by decide) (by decide) (Nat.lt_succ_self m)
  have hn := ofNumeral_numeral (show 1 < 10 by decide) (by decide) (Nat.lt_succ_self n)
  rw [← hm, ← hn]
  exact congrArg (ofNumeral 10) h

/-- The byte `-`. -/
def minus : UInt8 := 45

/-- `%d` of an integer. -/
def itoa (n : ℤ) : Bytes := if n < 0 then minus :: decimal n.natAbs else decimal n.natAbs

/-! ## Addresses -/

/-- An IPv4 address. -/
def ipv4String (ip : Bytes) : Bytes := List.intercalate [dot] (ip.map fun b => decimal b.toNat)

/-- The groups of an IPv6 address. -/
def groups : Bytes → List ℕ
  | a :: b :: rest => (a.toNat * 256 + b.toNat) :: groups rest
  | _ => []

/-- How many groups at the front are zero. -/
def zeroRun (gs : List ℕ) : ℕ := (gs.takeWhile (· = 0)).length

/-- Where the longest run of at least two zero groups starts, and its length; the length is
zero if there is none. -/
def longestZeros (gs : List ℕ) : ℕ × ℕ :=
  (List.range gs.length).foldl
    (fun best i =>
      let len := zeroRun (gs.drop i)
      if 2 ≤ len ∧ best.2 < len then (i, len) else best)
    (0, 0)

/-- Groups with colons between them. -/
def joinGroups (gs : List ℕ) : Bytes := List.intercalate [colon] (gs.map hex)

/-- An IPv6 address, in groups. -/
def ipv6String (gs : List ℕ) : Bytes :=
  let (start, len) := longestZeros gs
  if len = 0 then joinGroups gs
  else joinGroups (gs.take start) ++ colon :: colon :: joinGroups (gs.drop (start + len))

/-- An IPv4 address mapped into IPv6. -/
def Is4In6 (ip : Bytes) : Prop := ip.take 12 = [0, 0, 0, 0, 0, 0, 0, 0, 0, 0, 255, 255]

instance (ip : Bytes) : Decidable (Is4In6 ip) := inferInstanceAs (Decidable (_ = _))

/-- `net.IP.String`, for an address of 16 bytes. -/
def ipString (ip : Bytes) : Bytes :=
  if Is4In6 ip then ipv4String (ip.drop 12) else ipv6String (groups ip)

example : ipString [32, 1, 13, 184, 0, 0, 0, 0, 0, 0, 0, 0, 0, 0, 0, 1]
    = [50, 48, 48, 49, 58, 100, 98, 56, 58, 58, 49] := by decide +kernel

/-! ## The bytes of the texts -/

theorem intercalate_cons_cons (s : UInt8) (part next : Bytes) (parts : List Bytes) :
    List.intercalate [s] (part :: next :: parts)
      = part ++ s :: List.intercalate [s] (next :: parts) :=
  rfl

theorem mem_intercalate {s b : UInt8} {parts : List Bytes}
    (h : b ∈ List.intercalate [s] parts) : b = s ∨ ∃ part ∈ parts, b ∈ part := by
  induction parts with
  | nil => cases h
  | cons part parts ih =>
    cases parts with
    | nil =>
      refine .inr ⟨part, List.mem_singleton_self part, ?_⟩
      simpa [List.intercalate] using h
    | cons next parts =>
      rw [intercalate_cons_cons] at h
      rcases List.mem_append.1 h with hpart | hrest
      · exact .inr ⟨part, List.mem_cons_self, hpart⟩
      · rcases List.mem_cons.1 hrest with rfl | hrest
        · exact .inl rfl
        · rcases ih hrest with rfl | ⟨q, hq, hb⟩
          · exact .inl rfl
          · exact .inr ⟨q, List.mem_cons_of_mem _ hq, hb⟩

/-- A byte that is not a digit of the base is not in a numeral. -/
theorem not_mem_numeral {base : ℕ} (hbase : 0 < base) {b : UInt8}
    (hb : ∀ d < base, b ≠ digitByte d) (fuel n : ℕ) : b ∉ numeral base fuel n := by
  intro h
  obtain ⟨d, hd, heq⟩ := exists_of_mem_numeral hbase h
  exact hb d hd heq

theorem not_mem_decimal {b : UInt8} (hb : ∀ d < 10, b ≠ digitByte d) (n : ℕ) : b ∉ decimal n :=
  not_mem_numeral (by decide) hb _ _

theorem not_mem_itoa {b : UInt8} (hminus : b ≠ minus) (hb : ∀ d < 10, b ≠ digitByte d) (n : ℤ) :
    b ∉ itoa n := by
  unfold itoa
  split_ifs
  · intro hmem
    rcases List.mem_cons.1 hmem with heq | hrest
    · exact hminus heq
    · exact not_mem_decimal hb _ hrest
  · exact not_mem_decimal hb _

/-- The text of an integer of 64 bits. -/
theorem length_itoa {n : ℤ} (h : n.natAbs < 10 ^ 19) :
    1 ≤ (itoa n).length ∧ (itoa n).length ≤ 20 := by
  have hpos : 1 ≤ (decimal n.natAbs).length := List.length_pos_iff.2 (numeral_ne_nil _ _ _)
  have hle : (decimal n.natAbs).length ≤ 19 := length_numeral_le (k := 18) h _
  unfold itoa
  split_ifs
  · rw [List.length_cons]
    omega
  · omega

/-- The same for integers. -/
theorem itoa_injective : Function.Injective itoa := by
  intro m n h
  have hminus : ∀ k, minus ∉ decimal k := not_mem_decimal (by decide)
  unfold itoa at h
  split_ifs at h with hm hn hn
  · have := decimal_injective (List.cons.inj h).2
    omega
  · exact absurd (h ▸ List.mem_cons_self) (hminus _)
  · exact absurd (h.symm ▸ List.mem_cons_self) (hminus _)
  · have := decimal_injective h
    omega

theorem colon_not_mem_decimal (n : ℕ) : colon ∉ decimal n := not_mem_decimal (by decide) n

theorem bracketless_decimal (n : ℕ) : Bracketless (decimal n) :=
  ⟨not_mem_decimal (by decide) n, not_mem_decimal (by decide) n⟩

theorem not_mem_ipv4String {b : UInt8} (hdot : b ≠ dot) (hb : ∀ d < 10, b ≠ digitByte d)
    (ip : Bytes) : b ∉ ipv4String ip := by
  intro h
  rcases mem_intercalate h with heq | ⟨part, hpart, hmem⟩
  · exact hdot heq
  · obtain ⟨x, -, rfl⟩ := List.mem_map.1 hpart
    exact not_mem_decimal hb _ hmem

/-- The text of an IPv4 address has no colon. -/
theorem colon_not_mem_ipv4String (ip : Bytes) : colon ∉ ipv4String ip :=
  not_mem_ipv4String (by decide) (by decide) ip

theorem bracketless_ipv4String (ip : Bytes) : Bracketless (ipv4String ip) :=
  ⟨not_mem_ipv4String (by decide) (by decide) ip, not_mem_ipv4String (by decide) (by decide) ip⟩

/-- An IPv4 address has a text of at most 15 bytes. -/
theorem length_ipv4String_le {ip : Bytes} (h : ip.length = 4) : (ipv4String ip).length ≤ 15 := by
  obtain ⟨a, b, c, d, rfl⟩ := List.length_eq_four.1 h
  have hdec : ∀ x : UInt8, (decimal x.toNat).length ≤ 3 := fun x =>
    length_numeral_le (k := 2) (x.toNat_lt.trans (by decide)) _
  have ha := hdec a
  have hb := hdec b
  have hc := hdec c
  have hd := hdec d
  show (decimal a.toNat ++ dot :: (decimal b.toNat ++ dot :: (decimal c.toNat
    ++ dot :: (decimal d.toNat ++ [])))).length ≤ 15
  simp only [List.length_append, List.length_cons, List.length_nil]
  omega

theorem lbrack_not_mem_joinGroups (gs : List ℕ) : lbrack ∉ joinGroups gs := by
  intro h
  rcases mem_intercalate h with heq | ⟨part, hpart, hmem⟩
  · cases heq
  · obtain ⟨x, -, rfl⟩ := List.mem_map.1 hpart
    exact not_mem_numeral (by decide) (by decide) _ _ hmem

theorem lbrack_not_mem_ipv6String (gs : List ℕ) : lbrack ∉ ipv6String gs := by
  unfold ipv6String
  dsimp only
  split_ifs
  · exact lbrack_not_mem_joinGroups _
  · simp only [List.mem_append, List.mem_cons, not_or]
    exact ⟨lbrack_not_mem_joinGroups _, by decide, by decide, lbrack_not_mem_joinGroups _⟩

/-- **The text of an IPv6 address has a colon in it.** -/
theorem colon_mem_ipv6String {gs : List ℕ} (h : 2 ≤ gs.length) : colon ∈ ipv6String gs := by
  unfold ipv6String
  dsimp only
  split_ifs
  · obtain ⟨a, b, rest, rfl⟩ : ∃ a b rest, gs = a :: b :: rest := by
      rcases gs with _ | ⟨a, _ | ⟨b, rest⟩⟩
      · cases h
      · simp at h
      · exact ⟨a, b, rest, rfl⟩
    rw [joinGroups, List.map_cons, List.map_cons, intercalate_cons_cons]
    simp
  · simp

/-- Two bytes make a group. -/
theorem length_groups (ip : Bytes) : (groups ip).length = ip.length / 2 := by
  induction ip using groups.induct with
  | case1 a b rest ih =>
    rw [groups, List.length_cons, ih, List.length_cons, List.length_cons]
    omega
  | case2 ip hshort =>
    rcases ip with _ | ⟨a, _ | ⟨b, rest⟩⟩
    · rfl
    · simp [groups]
    · exact absurd rfl (hshort a b rest)

/-- The text of an address of 16 bytes has a colon unless it is a mapped one. -/
theorem colon_mem_ipString_iff {ip : Bytes} (h : ip.length = 16) :
    colon ∈ ipString ip ↔ ¬ Is4In6 ip := by
  unfold ipString
  split_ifs with hmapped
  · exact iff_of_false (colon_not_mem_ipv4String _) (not_not.2 hmapped)
  · refine iff_of_true (colon_mem_ipv6String ?_) hmapped
    rw [length_groups, h]
    decide

end IPAddr
