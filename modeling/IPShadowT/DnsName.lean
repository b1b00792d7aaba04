/-
# Domain names on the wire

A domain name in a DNS message is a sequence of labels of 1 to 63 bytes, each behind a byte with
its length, and ends with a zero byte or, if it is compressed, with a pointer of two bytes whose
top two bits are set.

`wire` has labels behind their length bytes, and `decode` reads an uncompressed name by the rules
above; `decode_wire_iff` says which labels are read back.
-/
import IPShadowT.Bytes

open Bytes

namespace DnsName

/-! ## Uncompressed names -/

/-- The labels, each behind a byte with its length. -/
def wire (labels : List Bytes) : Bytes := labels.flatMap fun l => UInt8.ofNat l.length :: l

/-- The labels of an uncompressed name, and what stands behind it. -/
def decode : Bytes → Option (List Bytes × Bytes)
  | [] => none
  | b :: rest =>
    if b = 0 then some ([], rest)
    else if 63 < b.toNat ∨ rest.length < b.toNat then none
    else
      (decode (rest.drop b.toNat)).map fun r => (rest.take b.toNat :: r.1, r.2)
termination_by d => d.length
decreasing_by
  rw [List.length_drop, List.length_cons]
  omega

@[simp] theorem wire_nil : wire [] = [] := rfl

theorem wire_cons (l : Bytes) (labels : List Bytes) :
    wire (l :: labels) = UInt8.ofNat l.length :: (l ++ wire labels) := by
  rw [wire, List.flatMap_cons, List.cons_append]
  rfl

theorem wire_append (labels labels' : List Bytes) :
    wire (labels ++ labels') = wire labels ++ wire labels' := List.flatMap_append

theorem length_wire_cons (l : Bytes) (labels : List Bytes) :
    (wire (l :: labels)).length = l.length + 1 + (wire labels).length := by
  rw [wire_cons, List.length_cons, List.length_append]
  omega

theorem length_le_length_wire (labels : List Bytes) : labels.length ≤ (wire labels).length := by
  induction labels with
  | nil => exact Nat.le_refl 0
  | cons l labels ih =>
    rw [length_wire_cons, List.length_cons]
    omega

theorem decode_zero (rest : Bytes) : decode (0 :: rest) = some ([], rest) := by
  rw [decode, if_pos rfl]

/-- The length byte of a label that is not too long for it. -/
theorem toNat_length {l : Bytes} (h : l.length ≤ 255) : (UInt8.ofNat l.length).toNat = l.length :=
  UInt8.toNat_ofNat_of_lt' (by rw [UInt8.size]; omega)

/-- One label is read. -/
theorem decode_label {l : Bytes} (hpos : 1 ≤ l.length) (hlen : l.length ≤ 255) (rest : Bytes) :
    decode (UInt8.ofNat l.length :: (l ++ rest)) =
      if 63 < l.length then none else (decode rest).map fun r => (l :: r.1, r.2) := by
  have htoNat := toNat_length hlen
  have hne : UInt8.ofNat l.length ≠ 0 := by
    intro h0
    rw [h0] at htoNat
    exact absurd htoNat (by simp; omega)
  rw [decode, if_neg hne, htoNat]
  by_cases hlong : 63 < l.length
  · rw [if_pos (.inl hlong), if_pos hlong]
  · have hfits : ¬ (63 < l.length ∨ (l ++ rest).length < l.length) := by
      rw [List.length_append]
      omega
    rw [if_neg hfits, if_neg hlong, List.take_left, List.drop_left]

/-- **Labels that are short enough are read back, and others are not.** -/
theorem decode_wire_iff {labels : List Bytes} (h : ∀ l ∈ labels, 1 ≤ l.length ∧ l.length ≤ 255)
    (rest : Bytes) :
    (∃ r, decode (wire labels ++ 0 :: rest) = some r) ↔ ∀ l ∈ labels, l.length ≤ 63 := by
  induction labels with
  | nil => exact iff_of_true ⟨_, decode_zero rest⟩ (List.forall_mem_nil _)
  | cons l labels ih =>
    obtain ⟨hl, hlabels⟩ := List.forall_mem_cons.1 h
    rw [wire_cons, List.cons_append, List.append_assoc, decode_label hl.1 hl.2,
      List.forall_mem_cons, ← ih hlabels]
    by_cases hlong : 63 < l.length
    · rw [if_pos hlong]
      refine iff_of_false ?_ fun hle => absurd hle.1 (by omega)
      rintro ⟨r, hr⟩
      cases hr
    · rw [if_neg hlong]
      constructor
      · rintro ⟨r, hr⟩
        obtain ⟨r', hr', -⟩ := Option.map_eq_some_iff.1 hr
        exact ⟨by omega, r', hr'⟩
      · rintro ⟨-, r', hr'⟩
        exact ⟨_, by rw [hr']; rfl⟩

/-- **The round trip.** -/
theorem decode_wire {labels : List Bytes} (h : ∀ l ∈ labels, 1 ≤ l.length ∧ l.length ≤ 63)
    (rest : Bytes) : decode (wire labels ++ 0 :: rest) = some (labels, rest) := by
  induction labels with
  | nil => exact decode_zero rest
  | cons l labels ih =>
    obtain ⟨hl, hlabels⟩ := List.forall_mem_cons.1 h
    rw [wire_cons, List.cons_append, List.append_assoc, decode_label hl.1 (by omega),
      if_neg (by omega), ih hlabels]
    rfl

/-- The question of a message, behind a header of 12 bytes; the class is IN. -/
theorem drop_message {header : Bytes} (hheader : header.length = 12) (labels : List Bytes)
    (qtype : UInt16) :
    (header ++ wire labels ++ [0x00] ++
        [UInt8.ofNat (qtype.toNat / 256), UInt8.ofNat qtype.toNat] ++ [0x00, 0x01]).drop 12 =
      wire labels ++ 0 :: (beBytes 2 qtype.toNat ++ [0, 1]) := by
  have htype : beBytes 2 qtype.toNat
      = [UInt8.ofNat (qtype.toNat / 256), UInt8.ofNat qtype.toNat] := by
    simp [beBytes]
  rw [List.append_assoc, List.append_assoc, List.append_assoc, List.drop_left' hheader, htype]
  rfl

/-- What is read has the length of what was written. -/
theorem length_of_decode {d rest : Bytes} {labels : List Bytes}
    (h : decode d = some (labels, rest)) : d.length = (wire labels).length + 1 + rest.length := by
  induction d using decode.induct generalizing labels with
  | case1 =>
    rw [decode] at h
    cases h
  | case2 rest' =>
    rw [decode_zero] at h
    obtain ⟨rfl, rfl⟩ := Prod.mk.inj (Option.some.inj h)
    rw [List.length_cons, wire_nil, List.length_nil]
    omega
  | case3 b rest' hne hbad =>
    rw [decode, if_neg hne, if_pos hbad] at h
    cases h
  | case4 b rest' hne hok ih =>
    rw [decode, if_neg hne, if_neg hok] at h
    obtain ⟨⟨labels', rest''⟩, hr, heq⟩ := Option.map_eq_some_iff.1 h
    dsimp only at heq
    obtain ⟨rfl, rfl⟩ := Prod.mk.inj heq
    have hlen := ih hr
    rw [List.length_drop] at hlen
    rw [length_wire_cons, List.length_cons, List.length_take]
    omega

/-! ## Names in a message -/

/-- A label. -/
structure Label where
  bytes : Bytes
  nonempty : 1 ≤ bytes.length
  short : bytes.length ≤ 63

/-- A label of one byte. -/
def Label.ofByte (b : UInt8) : Label := ⟨[b], Nat.le_refl 1, Nat.le_of_ble_eq_true rfl⟩

/-- A pointer: a place in the message, in 14 bits. -/
abbrev Pointer := Fin 16384

def Pointer.encode (p : Pointer) : Bytes :=
  [UInt8.ofNat (192 + p.val / 256), UInt8.ofNat p.val]

/-- A name in a message: labels, and behind them the end or a pointer. -/
structure Name where
  labels : List Label
  pointer : Option Pointer

/-- The end of a name. -/
def Name.ending (n : Name) : Bytes :=
  match n.pointer with
  | none => [0]
  | some p => p.encode

def Name.encode (n : Name) : Bytes := wire (n.labels.map Label.bytes) ++ n.ending

/-- The forms that a name can have in a message. -/
inductive Form where
  | full
  | pointer
  | mixed
  deriving DecidableEq, Repr

def Name.form (n : Name) : Form :=
  match n.pointer with
  | none => .full
  | some _ => if n.labels = [] then .pointer else .mixed

/-- The name is labels that end in a pointer. -/
def Name.Mixed (n : Name) : Prop := n.form = .mixed

theorem Name.mixed_iff {n : Name} : n.Mixed ↔ n.labels ≠ [] ∧ n.pointer.isSome := by
  unfold Name.Mixed Name.form
  cases n.pointer <;> simp

theorem Name.eq_of_form_pointer {n : Name} (h : n.form = .pointer) :
    n.labels = [] ∧ ∃ p, n.pointer = some p := by
  unfold Name.form at h
  cases hp : n.pointer with
  | none =>
    rw [hp] at h
    cases h
  | some p =>
    rw [hp] at h
    dsimp only at h
    split_ifs at h with hlabels
    exact ⟨hlabels, p, rfl⟩

end DnsName
