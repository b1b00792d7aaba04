/-
# DNS responses

Model of `parseDNSResponse` in `internal/dns/resolver.go` and of `parseTXTResponse` in
`internal/stealth/dns_tunnel.go`.  Both walk over the message with an offset that a length byte
may carry past its end; every access to the message is checked, and so is that the loops end.

`parseDNSResponse_eq` says what the first parser computes, as a function of what stands behind the
header: `answers`.  The safety of both parsers is `parsers_safe`.  `parse_exact_iff` compares the
addresses with those of the records in a well-formed message.
-/
import IPShadowT.DnsName

open Bytes DnsName

namespace DnsResponse

/-! ## `parseDNSResponse` -/

/-- The error of `parseDNSResponse`. -/
inductive DnsError where
  | tooShort
  deriving DecidableEq, Repr

def DnsError.message : DnsError → String
  | tooShort => "DNS response too short"

/-- `int(data[i])<<8 | int(data[i+1])`. -/
def uint16At {ε : Type} (data : Bytes) (i : ℕ) : Go ε ℕ := do
  let hi ← index data i
  let lo ← index data (i + 1)
  .ok (hi.toNat * 256 + lo.toNat)

/-- The loops that skip a name, which differ in whether they know pointers.  A loop that does not
end within `fuel` rounds is a panic here. -/
def skipName {ε : Type} (pointers : Bool) (data : Bytes) : (fuel : ℕ) → (offset : ℕ) → Go ε ℕ
  | 0, _ => .error .panic
  | fuel + 1, offset =>
    if offset < data.length then do
      let length ← index data offset
      if length = 0 then .ok (offset + 1)
      else if pointers ∧ 192 ≤ length.toNat then .ok (offset + 2)
      else skipName pointers data fuel (offset + (length.toNat + 1))
    else .ok offset

/-- The owner name of a record; a pointer is only known at its beginning. -/
def skipOwner {ε : Type} (data : Bytes) (offset : ℕ) : Go ε ℕ := do
  let first ← index data offset
  if 192 ≤ first.toNat then .ok (offset + 2)
  else skipName false data (data.length + 1) offset

/-- `net.IPv4`. -/
def netIPv4 (a b c d : UInt8) : Bytes := List.replicate 10 0 ++ [255, 255, a, b, c, d]

/-- The address in a record of `rdlength` bytes from `offset` on, if it has one. -/
def parseAddress {ε : Type} (data : Bytes) (rtype rdlength offset : ℕ) : Go ε (List Bytes) :=
  if rtype = 1 ∧ rdlength = 4 then do
    let a ← index data offset
    let b ← index data (offset + 1)
    let c ← index data (offset + 2)
    let d ← index data (offset + 3)
    .ok [netIPv4 a b c d]
  else if rtype = 28 ∧ rdlength = 16 then do
    let ip ← slice data offset (offset + 16)
    .ok [ip]
  else .ok []

/-- The loop over the answers, of which `count` are left. -/
def parseAnswers {ε : Type} (data : Bytes) :
    (count : ℕ) → (offset : ℕ) → (ips : List Bytes) → Go ε (List Bytes)
  | 0, _, ips => .ok ips
  | count + 1, offset, ips =>
    if offset < data.length then do
      let offset ← skipOwner data offset
      if data.length < offset + 10 then .ok ips else do
      let rtype ← uint16At data offset
      -- class and TTL are not looked at
      let rdlength ← uint16At data (offset + 8)
      let offset := offset + 10
      if data.length < offset + rdlength then .ok ips else do
      let ip ← parseAddress data rtype rdlength offset
      parseAnswers data count (offset + rdlength) (ips ++ ip)
    else .ok ips

/-- `parseDNSResponse`. -/
def parseDNSResponse (data : Bytes) : Go DnsError (List Bytes) :=
  if data.length < 12 then .error (.error .tooShort) else do
  let answerCount ← uint16At data 6
  if answerCount = 0 then .ok [] else do
  let offset ← skipName true data (data.length + 1) 12
  -- `offset += 4` for QTYPE and QCLASS
  parseAnswers data answerCount (offset + 4) []

/-! ## `parseTXTResponse` -/

/-- The errors of `parseTXTResponse`. -/
inductive TxtError where
  | tooShort
  | noAnswer
  | truncated
  | overflow
  | empty
  deriving DecidableEq, Repr

def TxtError.message : TxtError → String
  | tooShort => "response too short"
  | noAnswer => "no answer section"
  | truncated => "truncated answer"
  | overflow => "RDATA overflow"
  | empty => "empty TXT record"

/-- The loop over the name of the question, which stops before its zero byte or behind a
pointer. -/
def skipQuestion (data : Bytes) : (fuel : ℕ) → (offset : ℕ) → Go TxtError ℕ
  | 0, _ => .error .panic
  | fuel + 1, offset =>
    if offset < data.length then do
      let length ← index data offset
      if length = 0 then .ok offset
      else if 192 ≤ length.toNat then .ok (offset + 2)
      else skipQuestion data fuel (offset + (length.toNat + 1))
    else .ok offset

/-- `offset++` where the byte there is zero. -/
def skipZero (data : Bytes) (offset : ℕ) : Go TxtError ℕ :=
  if offset < data.length then do
    let b ← index data offset
    if b = 0 then .ok (offset + 1) else .ok offset
  else .ok offset

/-- The end of `parseTXTResponse`: the first string of a record of `rdLen` bytes. -/
def parseTXT (data : Bytes) (offset rdLen : ℕ) : Go TxtError Bytes :=
  if 1 < rdLen then do
    let txtLen ← index data offset
    let offset := offset + 1
    if offset + txtLen.toNat ≤ data.length then slice data offset (offset + txtLen.toNat)
    else .error (.error .empty)
  else .error (.error .empty)

/-- `parseTXTResponse` from the answer on. -/
def parseAnswer (data : Bytes) (offset : ℕ) : Go TxtError Bytes :=
  if data.length ≤ offset then .error (.error .noAnswer) else do
  let first ← index data offset
  let offset := if 192 ≤ first.toNat then offset + 2 else offset
  let offset := offset + 8
  if data.length < offset + 2 then .error (.error .truncated) else do
  let rdLen ← uint16At data offset
  let offset := offset + 2
  if data.length < offset + rdLen then .error (.error .overflow) else
  parseTXT data offset rdLen

/-- `parseTXTResponse`. -/
def parseTXTResponse (data : Bytes) : Go TxtError Bytes :=
  if data.length < 12 then .error (.error .tooShort) else do
  let offset ← skipQuestion data (data.length + 1) 12
  let offset ← skipZero data offset
  parseAnswer data (offset + 4)

/-! ## What `parseDNSResponse` computes -/

/-- What stands behind the name at the beginning, for a loop that knows pointers or does not. -/
def afterLabels (pointers : Bool) : Bytes → Bytes
  | [] => []
  | b :: rest =>
    if b = 0 then rest
    else if pointers ∧ 192 ≤ b.toNat then rest.drop 1
    else afterLabels pointers (rest.drop b.toNat)
termination_by d => d.length
decreasing_by
  rw [List.length_drop, List.length_cons]
  omega

/-- What stands behind the owner name at the beginning. -/
def afterOwner : Bytes → Bytes
  | [] => []
  | b :: rest => if 192 ≤ b.toNat then rest.drop 1 else afterLabels false (b :: rest)

/-- The address in the data of a record, if it has one. -/
def address (rtype : ℕ) (rdata : Bytes) : Option Bytes :=
  if rtype = 1 ∧ rdata.length = 4 then some (List.replicate 10 0 ++ 255 :: 255 :: rdata)
  else if rtype = 28 ∧ rdata.length = 16 then some rdata
  else none

/-- The addresses in `count` records, up to the first that does not fit. -/
def answers : (count : ℕ) → Bytes → List Bytes
  | 0, _ => []
  | count + 1, d =>
    let body := afterOwner d
    let rdata := body.drop 10
    let rdlength := beNat ((body.drop 8).take 2)
    if body.length < 10 ∨ rdata.length < rdlength then []
    else
      (address (beNat (body.take 2)) (rdata.take rdlength)).toList ++
        answers count (rdata.drop rdlength)

section Access

variable {ε : Type} {data : Bytes} {i : ℕ}

theorem uint16At_eq (h : i + 2 ≤ data.length) :
    (uint16At data i : Go ε ℕ) = .ok (beNat ((data.drop i).take 2)) := by
  obtain ⟨hi, rest, hdrop⟩ := exists_drop_eq_cons (show i < data.length by omega)
  obtain ⟨lo, rest', hdrop'⟩ := exists_drop_eq_cons (show i + 1 < data.length by omega)
  have hrest : rest = lo :: rest' := by
    rw [← hdrop', drop_succ_add hdrop 0, List.drop_zero]
  rw [uint16At, index_of_drop hdrop, Go.ok_bind, index_of_drop hdrop', Go.ok_bind, hdrop, hrest]
  simp [beNat]

variable {offset : ℕ}

/-- A loop over a name ends behind the name. -/
theorem skipName_eq (pointers : Bool) {fuel : ℕ} (hfuel : data.length ≤ offset + fuel) :
    ∃ offset', (skipName pointers data (fuel + 1) offset : Go ε ℕ) = .ok offset' ∧
      data.drop offset' = afterLabels pointers (data.drop offset) := by
  induction fuel generalizing offset with
  | zero =>
    have hend : data.drop offset = [] := List.drop_of_length_le hfuel
    rw [skipName, if_neg (by omega), hend, afterLabels]
    exact ⟨offset, rfl, hend⟩
  | succ fuel ih =>
    by_cases hlt : offset < data.length
    · obtain ⟨b, rest, hdrop⟩ := exists_drop_eq_cons hlt
      rw [skipName, if_pos hlt, index_of_drop hdrop, Go.ok_bind, hdrop, afterLabels]
      split_ifs with hzero hpointer
      · exact ⟨offset + 1, rfl, drop_succ_add hdrop 0⟩
      · exact ⟨offset + 2, rfl, drop_succ_add hdrop 1⟩
      · rw [← drop_succ_add hdrop]
        exact ih (by omega)
    · have hend : data.drop offset = [] := List.drop_of_length_le (by omega)
      rw [skipName, if_neg hlt, hend, afterLabels]
      exact ⟨offset, rfl, hend⟩

theorem skipOwner_eq (hlt : offset < data.length) :
    ∃ offset', (skipOwner data offset : Go ε ℕ) = .ok offset' ∧
      data.drop offset' = afterOwner (data.drop offset) := by
  obtain ⟨b, rest, hdrop⟩ := exists_drop_eq_cons hlt
  rw [skipOwner, index_of_drop hdrop, Go.ok_bind, hdrop, afterOwner]
  split_ifs with hpointer
  · exact ⟨offset + 2, rfl, drop_succ_add hdrop 1⟩
  · rw [← hdrop]
    exact skipName_eq false (by omega)

theorem parseAddress_eq (rtype : ℕ) {rdlength : ℕ} (h : offset + rdlength ≤ data.length) :
    (parseAddress data rtype rdlength offset : Go ε (List Bytes)) =
      .ok (address rtype ((data.drop offset).take rdlength)).toList := by
  have hlen : ((data.drop offset).take rdlength).length = rdlength := by
    rw [List.length_take, List.length_drop]
    omega
  rw [parseAddress, address, hlen]
  split_ifs with h4 h6
  · obtain ⟨-, rfl⟩ := h4
    obtain ⟨a, as, ha⟩ := exists_drop_eq_cons (show offset < data.length by omega)
    obtain ⟨b, bs, hb⟩ := exists_drop_eq_cons (show offset + 1 < data.length by omega)
    obtain ⟨c, cs, hc⟩ := exists_drop_eq_cons (show offset + 2 < data.length by omega)
    obtain ⟨d, ds, hd⟩ := exists_drop_eq_cons (show offset + 3 < data.length by omega)
    have hfour : (data.drop offset).take 4 = [a, b, c, d] := by
      rw [ha, ← List.drop_zero (l := as), ← drop_succ_add ha 0, hb, ← List.drop_zero (l := bs),
        ← drop_succ_add hb 0, hc, ← List.drop_zero (l := cs), ← drop_succ_add hc 0, hd]
      rfl
    rw [index_of_drop ha, index_of_drop hb, index_of_drop hc, index_of_drop hd, hfour]
    rfl
  · obtain ⟨-, rfl⟩ := h6
    have hslice : (slice data offset (offset + 16) : Go ε Bytes)
        = .ok ((data.drop offset).take 16) := by
      refine slice_eq_ok.2 ⟨by omega, h, ?_⟩
      rw [List.drop_take, Nat.add_sub_cancel_left]
    rw [hslice]
    rfl
  · rfl

/-- **The loop over the answers.** -/
theorem parseAnswers_eq (count : ℕ) (ips : List Bytes) :
    (parseAnswers data count offset ips : Go ε (List Bytes)) =
      .ok (ips ++ answers count (data.drop offset)) := by
  induction count generalizing offset ips with
  | zero => rw [parseAnswers, answers, List.append_nil]
  | succ count ih =>
    by_cases hlt : offset < data.length
    · obtain ⟨body, hskip, hbody⟩ := skipOwner_eq (ε := ε) hlt
      have hlen : (afterOwner (data.drop offset)).length = data.length - body := by
        rw [← hbody, List.length_drop]
      rw [parseAnswers, if_pos hlt, hskip, Go.ok_bind, answers]
      dsimp only
      by_cases hshort : data.length < body + 10
      · rw [if_pos hshort, if_pos (.inl (by omega)), List.append_nil]
      · have htype := uint16At_eq (ε := ε) (show body + 2 ≤ data.length by omega)
        have hrdlength := uint16At_eq (ε := ε) (show body + 8 + 2 ≤ data.length by omega)
        rw [← List.drop_drop, hbody] at hrdlength
        rw [hbody] at htype
        rw [if_neg hshort, htype, Go.ok_bind, hrdlength, Go.ok_bind]
        generalize beNat (((afterOwner (data.drop offset)).drop 8).take 2) = rdlength
        have hrdata : (afterOwner (data.drop offset)).drop 10 = data.drop (body + 10) := by
          rw [← hbody, List.drop_drop]
        have hfits : (data.drop (body + 10)).length = data.length - (body + 10) :=
          List.length_drop ..
        rw [hrdata]
        by_cases hlong : data.length < body + 10 + rdlength
        · rw [if_pos hlong, if_pos (.inr (by omega)), List.append_nil]
        · rw [if_neg hlong, if_neg (by omega), parseAddress_eq _ (by omega), Go.ok_bind, ih,
            List.append_assoc, List.drop_drop]
    · rw [parseAnswers, if_neg hlt, List.drop_of_length_le (by omega), answers]
      simp [afterOwner]

end Access

/-- The number of answers in the header. -/
def answerCount (data : Bytes) : ℕ := beNat ((data.drop 6).take 2)

/-- **What `parseDNSResponse` computes.** -/
theorem parseDNSResponse_eq {data : Bytes} (h : 12 ≤ data.length) :
    parseDNSResponse data =
      .ok (answers (answerCount data) ((afterLabels true (data.drop 12)).drop 4)) := by
  rw [parseDNSResponse, if_neg (by omega), uint16At_eq (show 6 + 2 ≤ data.length by omega),
    Go.ok_bind, answerCount]
  by_cases hnone : beNat ((data.drop 6).take 2) = 0
  · rw [if_pos hnone, hnone, answers]
  · obtain ⟨offset, hskip, hdrop⟩ := skipName_eq (ε := DnsError) true
      (show data.length ≤ 12 + data.length by omega)
    rw [if_neg hnone, hskip, Go.ok_bind, parseAnswers_eq, List.nil_append, ← List.drop_drop, hdrop]

/-! ## The parsers are safe -/

theorem length_answers_le (count : ℕ) (d : Bytes) : (answers count d).length ≤ count := by
  induction count generalizing d with
  | zero => exact Nat.le_refl 0
  | succ count ih =>
    rw [answers]
    split_ifs
    · exact Nat.zero_le _
    · have hone : ∀ o : Option Bytes, o.toList.length ≤ 1 := by
        intro o
        cases o <;> simp
      rw [List.length_append]
      have := hone (address (beNat ((afterOwner d).take 2))
        (((afterOwner d).drop 10).take (beNat (((afterOwner d).drop 8).take 2))))
      have := ih (((afterOwner d).drop 10).drop (beNat (((afterOwner d).drop 8).take 2)))
      omega

section Txt

variable {data : Bytes}

theorem skipQuestion_noPanic {fuel offset : ℕ} (hfuel : data.length ≤ offset + fuel) :
    Go.NoPanic (skipQuestion data (fuel + 1) offset) := by
  induction fuel generalizing offset with
  | zero =>
    rw [skipQuestion, if_neg (by omega)]
    exact Go.NoPanic.ok _
  | succ fuel ih =>
    rw [skipQuestion]
    split_ifs with hlt
    · refine (index_noPanic hlt).bind fun length _ => ?_
      split_ifs
      · exact Go.NoPanic.ok _
      · exact Go.NoPanic.ok _
      · exact ih (by omega)
    · exact Go.NoPanic.ok _

theorem skipZero_noPanic (offset : ℕ) : Go.NoPanic (skipZero data offset) := by
  unfold skipZero
  split_ifs with hlt
  · refine (index_noPanic hlt).bind fun b _ => ?_
    split_ifs <;> exact Go.NoPanic.ok _
  · exact Go.NoPanic.ok _

theorem uint16At_noPanic {ε : Type} {i : ℕ} (h : i + 2 ≤ data.length) :
    Go.NoPanic (uint16At data i : Go ε ℕ) := by
  rw [uint16At_eq h]
  exact Go.NoPanic.ok _

theorem parseTXT_noPanic {offset rdLen : ℕ} (h : offset + rdLen ≤ data.length) :
    Go.NoPanic (parseTXT data offset rdLen) := by
  unfold parseTXT
  split_ifs with hmore
  · refine (index_noPanic (by omega)).bind fun txtLen _ => ?_
    dsimp only
    split_ifs with hfits
    · exact slice_noPanic (by omega) hfits
    · exact Go.NoPanic.error _
  · exact Go.NoPanic.error _

theorem parseAnswer_noPanic (data : Bytes) (offset : ℕ) : Go.NoPanic (parseAnswer data offset) := by
  unfold parseAnswer
  by_cases hnone : data.length ≤ offset
  · rw [if_pos hnone]
    exact Go.NoPanic.error _
  rw [if_neg hnone]
  refine (index_noPanic (not_le.1 hnone)).bind fun first _ => ?_
  dsimp only
  generalize (if 192 ≤ first.toNat then offset + 2 else offset) + 8 = body
  by_cases hshort : data.length < body + 2
  · rw [if_pos hshort]
    exact Go.NoPanic.error _
  rw [if_neg hshort]
  refine (uint16At_noPanic (not_lt.1 hshort)).bind fun rdLen _ => ?_
  by_cases hlong : data.length < body + 2 + rdLen
  · rw [if_pos hlong]
    exact Go.NoPanic.error _
  · rw [if_neg hlong]
    exact parseTXT_noPanic (not_lt.1 hlong)

theorem parseTXTResponse_noPanic (data : Bytes) : Go.NoPanic (parseTXTResponse data) := by
  unfold parseTXTResponse
  split_ifs
  · exact Go.NoPanic.error _
  refine (skipQuestion_noPanic (by omega)).bind fun question _ => ?_
  exact (skipZero_noPanic question).bind fun offset _ => parseAnswer_noPanic data _

end Txt

/-- **The parsers are safe.**  For every byte string both return: no loop runs on, and no access
is outside the data.  `parseDNSResponse` returns no more addresses than the header announces. -/
theorem parsers_safe (data : Bytes) :
    Go.NoPanic (parseDNSResponse data) ∧ Go.NoPanic (parseTXTResponse data) ∧
      ∀ ips, parseDNSResponse data = .ok ips → ips.length ≤ answerCount data := by
  refine ⟨?_, parseTXTResponse_noPanic data, fun ips hips => ?_⟩ <;>
    by_cases hshort : data.length < 12
  · rw [parseDNSResponse, if_pos hshort]
    exact Go.NoPanic.error _
  · rw [parseDNSResponse_eq (not_lt.1 hshort)]
    exact Go.NoPanic.ok _
  · rw [parseDNSResponse, if_pos hshort] at hips
    cases hips
  · rw [parseDNSResponse_eq (not_lt.1 hshort)] at hips
    obtain rfl := Except.ok.inj hips
    exact length_answers_le ..

/-! ## Well-formed messages -/

/-- A resource record without its owner name. -/
structure Record where
  rtype : UInt16
  rclass : UInt16
  ttl : UInt32
  rdata : Bytes
  short : rdata.length < 65536

def Record.encode (r : Record) : Bytes :=
  beBytes 2 r.rtype.toNat ++ (beBytes 2 r.rclass.toNat ++ (beBytes 4 r.ttl.toNat ++
    (beBytes 2 r.rdata.length ++ r.rdata)))

/-- The address of an A record with 4 bytes of data or an AAAA record with 16. -/
def Record.address (r : Record) : Option Bytes := DnsResponse.address r.rtype.toNat r.rdata

/-- The answer section. -/
def encodeAnswers (rs : List (Name × Record)) : Bytes :=
  rs.flatMap fun r => r.1.encode ++ r.2.encode

/-- A response with one question, apart from its answers; `trailer` has the other sections. -/
structure Response where
  id : UInt16
  flags : UInt16
  nscount : UInt16
  arcount : UInt16
  qname : Name
  qtype : UInt16
  qclass : UInt16
  trailer : Bytes

def Response.encode (m : Response) (rs : List (Name × Record)) : Bytes :=
  (beBytes 2 m.id.toNat ++ (beBytes 2 m.flags.toNat ++ beBytes 2 1)) ++ (beBytes 2 rs.length ++
    ((beBytes 2 m.nscount.toNat ++ beBytes 2 m.arcount.toNat) ++ (m.qname.encode ++
      ((beBytes 2 m.qtype.toNat ++ beBytes 2 m.qclass.toNat) ++ (encodeAnswers rs ++ m.trailer)))))

section Names

variable (tail : Bytes)

theorem afterLabels_zero (pointers : Bool) : afterLabels pointers (0 :: tail) = tail := by
  rw [afterLabels, if_pos rfl]

/-- The first byte of a label is its length. -/
theorem toNat_label (l : Label) : (UInt8.ofNat l.bytes.length).toNat = l.bytes.length :=
  toNat_length (l.short.trans (by decide))

theorem label_ne_zero (l : Label) : UInt8.ofNat l.bytes.length ≠ 0 := by
  intro h0
  have htoNat := toNat_label l
  have hpos := l.nonempty
  rw [h0, UInt8.toNat_zero] at htoNat
  omega

theorem label_lt_pointer (l : Label) : ¬ 192 ≤ (UInt8.ofNat l.bytes.length).toNat := by
  rw [toNat_label]
  have := l.short
  omega

/-- The loops walk over labels. -/
theorem afterLabels_wire (pointers : Bool) (labels : List Label) :
    afterLabels pointers (wire (labels.map Label.bytes) ++ tail) = afterLabels pointers tail := by
  induction labels with
  | nil => rfl
  | cons l labels ih =>
    rw [List.map_cons, wire_cons, List.cons_append, afterLabels, if_neg (label_ne_zero l),
      if_neg fun h => label_lt_pointer l h.2, toNat_label, List.append_assoc, List.drop_left, ih]

/-- Behind a label the loop over an owner name does not know pointers. -/
theorem afterOwner_wire_cons (l : Label) (labels : List Label) :
    afterOwner (wire ((l :: labels).map Label.bytes) ++ tail) = afterLabels false tail := by
  rw [← afterLabels_wire tail false (l :: labels), List.map_cons, wire_cons, List.cons_append,
    afterOwner, if_neg (label_lt_pointer l)]

/-- The first byte of a pointer. -/
theorem toNat_pointer (p : Pointer) : (UInt8.ofNat (192 + p.val / 256)).toNat = 192 + p.val / 256 :=
  UInt8.toNat_ofNat_of_lt' (by rw [UInt8.size]; omega)

theorem pointer_ne_zero (p : Pointer) : UInt8.ofNat (192 + p.val / 256) ≠ 0 := by
  intro h0
  have htoNat := toNat_pointer p
  rw [h0, UInt8.toNat_zero] at htoNat
  omega

/-- The loop over the question knows all names. -/
theorem afterLabels_encode (n : Name) : afterLabels true (n.encode ++ tail) = tail := by
  rw [Name.encode, List.append_assoc, afterLabels_wire, Name.ending]
  cases n.pointer with
  | none => exact afterLabels_zero tail true
  | some p =>
    have hpointer : 192 ≤ (UInt8.ofNat (192 + p.val / 256)).toNat := by
      rw [toNat_pointer]
      exact Nat.le_add_right ..
    show afterLabels true (UInt8.ofNat (192 + p.val / 256) :: UInt8.ofNat p.val :: tail) = tail
    rw [afterLabels, if_neg (pointer_ne_zero p), if_pos ⟨rfl, hpointer⟩]
    rfl

/-- Owner names that are all labels or all pointer are skipped. -/
theorem afterOwner_encode {n : Name} (h : ¬ n.Mixed) : afterOwner (n.encode ++ tail) = tail := by
  obtain ⟨labels, pointer⟩ := n
  cases labels with
  | nil =>
    cases pointer with
    | none =>
      show afterOwner (0 :: tail) = tail
      rw [afterOwner, if_neg (by decide), afterLabels_zero]
    | some p =>
      show afterOwner (UInt8.ofNat (192 + p.val / 256) :: UInt8.ofNat p.val :: tail) = tail
      rw [afterOwner, toNat_pointer, if_pos (by omega)]
      rfl
  | cons l labels =>
    cases pointer with
    | none =>
      rw [Name.encode, List.append_assoc, afterOwner_wire_cons]
      exact afterLabels_zero tail false
    | some p => exact absurd (Name.mixed_iff.2 ⟨List.cons_ne_nil _ _, rfl⟩) h

/-- **A pointer behind labels is taken for a length**: the loop jumps over what follows it. -/
theorem afterOwner_mixed {n : Name} (h : n.Mixed) :
    ∃ k, 191 ≤ k ∧ ∀ tail, afterOwner (n.encode ++ tail) = afterLabels false (tail.drop k) := by
  obtain ⟨hlabels, hpointer⟩ := Name.mixed_iff.1 h
  obtain ⟨labels, pointer⟩ := n
  obtain ⟨l, labels, rfl⟩ := List.exists_cons_of_ne_nil hlabels
  obtain ⟨p, rfl⟩ := Option.isSome_iff_exists.1 hpointer
  refine ⟨191 + p.val / 256, Nat.le_add_right .., fun tail => ?_⟩
  rw [Name.encode, List.append_assoc, afterOwner_wire_cons]
  show afterLabels false (UInt8.ofNat (192 + p.val / 256) :: UInt8.ofNat p.val :: tail) = _
  rw [afterLabels, if_neg (pointer_ne_zero p), if_neg fun h => Bool.false_ne_true h.1,
    toNat_pointer, show 192 + p.val / 256 = 191 + p.val / 256 + 1 by omega, List.drop_succ_cons]

end Names

section Records

variable (r : Record) (rest : Bytes)

theorem length_encode_record : r.encode.length = 10 + r.rdata.length := by
  simp only [Record.encode, List.length_append, length_beBytes]
  omega

/-- A record begins with its type. -/
theorem encode_rtype : beNat ((r.encode ++ rest).take 2) = r.rtype.toNat := by
  rw [Record.encode, List.append_assoc, List.take_left' (length_beBytes ..), beNat_beBytes]
  exact Nat.mod_eq_of_lt r.rtype.toNat_lt

theorem encode_rdlength : beNat (((r.encode ++ rest).drop 8).take 2) = r.rdata.length := by
  have hcut : r.encode ++ rest =
      (beBytes 2 r.rtype.toNat ++ (beBytes 2 r.rclass.toNat ++ beBytes 4 r.ttl.toNat)) ++
        (beBytes 2 r.rdata.length ++ (r.rdata ++ rest)) := by
    simp only [Record.encode, List.append_assoc]
  rw [hcut, List.drop_left' (by simp), List.take_left' (length_beBytes ..), beNat_beBytes]
  exact Nat.mod_eq_of_lt r.short

theorem encode_rdata : (r.encode ++ rest).drop 10 = r.rdata ++ rest := by
  have hcut : r.encode ++ rest =
      (beBytes 2 r.rtype.toNat ++ (beBytes 2 r.rclass.toNat ++ (beBytes 4 r.ttl.toNat ++
        beBytes 2 r.rdata.length))) ++ (r.rdata ++ rest) := by
    simp only [Record.encode, List.append_assoc]
  rw [hcut]
  exact List.drop_left' (by simp)

/-- A record whose owner name is skipped is read. -/
theorem answers_record {n : Name} (h : ¬ n.Mixed) (count : ℕ) :
    answers (count + 1) (n.encode ++ (r.encode ++ rest)) =
      r.address.toList ++ answers count rest := by
  have hfits : ¬ ((r.encode ++ rest).length < 10 ∨ (r.rdata ++ rest).length < r.rdata.length) := by
    rw [List.length_append, length_encode_record, List.length_append]
    omega
  rw [answers, afterOwner_encode _ h]
  rw [encode_rtype, encode_rdlength, encode_rdata, if_neg hfits, List.take_left, List.drop_left]
  rfl

/-- Of a record whose owner name is not skipped, the data do not matter if they are short. -/
theorem answers_mixed {n : Name} (h : n.Mixed) {r r' : Record} (hr : r.rdata.length = 4)
    (hr' : r'.rdata.length = 4) (count : ℕ) :
    answers count (n.encode ++ (r.encode ++ rest)) =
      answers count (n.encode ++ (r'.encode ++ rest)) := by
  obtain ⟨k, hk, hjump⟩ := afterOwner_mixed h
  have hdrop : (r.encode ++ rest).drop k = (r'.encode ++ rest).drop k := by
    have hlen := length_encode_record r
    have hlen' := length_encode_record r'
    have hgone : r.encode.drop k = [] := List.drop_of_length_le (by omega)
    have hgone' : r'.encode.drop k = [] := List.drop_of_length_le (by omega)
    rw [List.drop_append, List.drop_append, hgone, hgone', hlen, hlen', hr, hr']
  cases count with
  | zero => rfl
  | succ count => rw [answers, answers, hjump, hjump, hdrop]

end Records

theorem length_encode_ge (m : Response) (rs : List (Name × Record)) :
    12 ≤ (m.encode rs).length := by
  simp only [Response.encode, List.length_append, length_beBytes]
  omega

/-- What stands behind the header. -/
theorem drop_encode (m : Response) (rs : List (Name × Record)) :
    (m.encode rs).drop 12 = m.qname.encode ++
      ((beBytes 2 m.qtype.toNat ++ beBytes 2 m.qclass.toNat) ++
        (encodeAnswers rs ++ m.trailer)) := by
  have hsix : (beBytes 2 m.id.toNat ++ (beBytes 2 m.flags.toNat ++ beBytes 2 1)).length = 6 := by
    simp
  have hfour : (beBytes 2 m.nscount.toNat ++ beBytes 2 m.arcount.toNat).length = 4 := by simp
  rw [Response.encode, show 12 = 6 + (2 + 4) from rfl, ← List.drop_drop, List.drop_left' hsix,
    ← List.drop_drop, List.drop_left' (length_beBytes ..), List.drop_left' hfour]

/-- What the parser makes of a message is what it makes of the answer section. -/
theorem parse_encode (m : Response) {rs : List (Name × Record)} (hcount : rs.length < 65536) :
    parseDNSResponse (m.encode rs) = .ok (answers rs.length (encodeAnswers rs ++ m.trailer)) := by
  have hsix : (beBytes 2 m.id.toNat ++ (beBytes 2 m.flags.toNat ++ beBytes 2 1)).length = 6 := by
    simp
  have hfour : (beBytes 2 m.qtype.toNat ++ beBytes 2 m.qclass.toNat).length = 4 := by simp
  have hanswers : answerCount (m.encode rs) = rs.length := by
    rw [answerCount, Response.encode, List.drop_left' hsix, List.take_left' (length_beBytes ..),
      beNat_beBytes]
    exact Nat.mod_eq_of_lt hcount
  rw [parseDNSResponse_eq (length_encode_ge m rs), hanswers, drop_encode, afterLabels_encode,
    List.drop_left' hfour]

/-- A record without an address. -/
def emptyRecord : Record := ⟨0, 0, 0, [], Nat.le_of_ble_eq_true rfl⟩

/-- An A record. -/
def aRecord (b : UInt8) : Record := ⟨1, 1, 0, [b, b, b, b], Nat.le_of_ble_eq_true rfl⟩

/-- Its address, as `net.IPv4` stores it. -/
theorem address_aRecord (b : UInt8) :
    (aRecord b).address = some (List.replicate 10 0 ++ [255, 255, b, b, b, b]) := rfl

/-- Behind such an owner name there are two addresses that the parser does not tell apart. -/
theorem answers_mixed_wrong {n : Name} (h : n.Mixed) (count : ℕ) (rest : Bytes)
    (more : List Bytes) :
    ¬ ∀ b, answers count (n.encode ++ ((aRecord b).encode ++ rest))
      = (List.replicate 10 0 ++ [255, 255, b, b, b, b]) :: more := by
  intro hall
  have hsame := (hall 1).symm.trans ((answers_mixed rest h rfl rfl count).trans (hall 2))
  exact absurd (List.cons.inj hsame).1 (by decide)

theorem encodeAnswers_zip_cons (n : Name) (names : List Name) (r : Record) (records : List Record)
    (trailer : Bytes) :
    encodeAnswers ((n :: names).zip (r :: records)) ++ trailer
      = n.encode ++ (r.encode ++ (encodeAnswers (names.zip records) ++ trailer)) := by
  simp [encodeAnswers]

/-- The answer section is read whole, whatever the records, exactly if no owner name has both
labels and a pointer. -/
theorem answers_exact_iff (names : List Name) (trailer : Bytes) :
    (∀ records : List Record, records.length = names.length →
        answers names.length (encodeAnswers (names.zip records) ++ trailer)
          = records.filterMap Record.address) ↔
      ∀ n ∈ names, ¬ n.Mixed := by
  induction names with
  | nil =>
    refine iff_of_true (fun records hlen => ?_) (List.forall_mem_nil _)
    rw [List.length_eq_zero_iff.1 hlen]
    rfl
  | cons n names ih =>
    rw [List.forall_mem_cons, ← ih]
    constructor
    · intro hall
      have hn : ¬ n.Mixed := by
        intro hmixed
        have hrecord : ∀ b, _ := fun b =>
          hall (aRecord b :: List.replicate names.length emptyRecord) (by simp)
        simp only [encodeAnswers_zip_cons, List.filterMap_cons, address_aRecord] at hrecord
        exact answers_mixed_wrong hmixed _ _ _ hrecord
      refine ⟨hn, fun records hlen => ?_⟩
      have hrest := hall (emptyRecord :: records) (by simp [hlen])
      rwa [encodeAnswers_zip_cons, List.length_cons, answers_record _ _ hn] at hrest
    · rintro ⟨hn, hrest⟩ records hlen
      cases records with
      | nil => cases hlen
      | cons r records =>
        rw [encodeAnswers_zip_cons, List.length_cons, answers_record _ _ hn,
          hrest records (Nat.succ.inj hlen), List.filterMap_cons]
        cases r.address <;> rfl

/-- **When the parser is exact.**  In a well-formed response with these owner names, the parser
finds the addresses of the A and AAAA records in order, whatever the records are, exactly if no
owner name is labels that end in a pointer. -/
theorem parse_exact_iff (m : Response) (names : List Name) (hcount : names.length < 65536) :
    (∀ records : List Record, records.length = names.length →
        parseDNSResponse (m.encode (names.zip records)) = .ok (records.filterMap Record.address)) ↔
      ∀ n ∈ names, ¬ n.Mixed := by
  rw [← answers_exact_iff names m.trailer]
  refine forall_congr' fun records => imp_congr_right fun hlen => ?_
  have hzip : (names.zip records).length = names.length := by
    rw [List.length_zip, hlen, Nat.min_self]
  rw [parse_encode m (by rwa [hzip]), hzip, Except.ok.injEq]

/-- A response to a question about `e`. -/
def exampleResponse : Response :=
  ⟨0xABCD, 0x8180, 0, 0, ⟨[Label.ofByte 101], none⟩, 1, 1, []⟩

/-- A record with the address `1.2.3.4`. -/
def exampleRecord : Record := ⟨1, 1, 256, [1, 2, 3, 4], Nat.le_of_ble_eq_true rfl⟩

/-- One with the address `5.6.7.8`, and one of another type. -/
def laterRecord : Record := ⟨1, 1, 256, [5, 6, 7, 8], Nat.le_of_ble_eq_true rfl⟩

def aliasRecord : Record := ⟨5, 1, 256, [1, 119, 0], Nat.le_of_ble_eq_true rfl⟩

/-- Three records: the owner of the first and the last is a pointer to the name of the question,
and that of the alias between them is written out. -/
theorem parse_exact_pointer :
    parseDNSResponse (exampleResponse.encode [(⟨[], some 12⟩, exampleRecord),
        (⟨[Label.ofByte 101], none⟩, aliasRecord), (⟨[], some 12⟩, laterRecord)])
      = .ok [netIPv4 1 2 3 4, netIPv4 5 6 7 8] := by
  have hplain :
      ∀ n ∈ [⟨[], some 12⟩, ⟨[Label.ofByte 101], none⟩, ⟨[], some 12⟩], ¬ Name.Mixed n := by
    simp [Name.mixed_iff]
  exact (parse_exact_iff exampleResponse _ (by decide)).2 hplain
    [exampleRecord, aliasRecord, laterRecord] rfl

/-- **A label before the pointer loses the record**: the owner name of the same record is `w` and
a pointer to the name of the question. -/
theorem parse_loses_mixed :
    parseDNSResponse
        (exampleResponse.encode [(⟨[Label.ofByte 119], some 12⟩, exampleRecord)]) = .ok [] ∧
      exampleRecord.address = some (netIPv4 1 2 3 4) := by
  decide +kernel

end DnsResponse
