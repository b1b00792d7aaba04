/-
# The DNS tunnel

Model of `Send`, `splitIntoLabels` and `buildDNSQueryPacket` in `internal/stealth/dns_tunnel.go`,
and the exactness of `parseTXTResponse`, which is modelled with the other parser of responses.

Upstream, data are written to base 32 and cut into labels of a name, from which a reader gets them
back (`send_lossless`).  Downstream, the data are in the strings of a TXT record, and
`txt_exact_iff` says when they are found.
-/
import IPShadowT.Base32
import IPShadowT.DnsResponse
import IPShadowT.IPAddr

open Bytes DnsName IPAddr

namespace DnsTunnel

/-! ## The functions -/

/-- `DNSTunnel`, as far as the names of queries depend on it. -/
structure DNSTunnel where
  domain : Bytes
  maxLabelLen : ℕ

/-- `NewDNSTunnel`. -/
def newDNSTunnel (domain : Bytes) : DNSTunnel := ⟨domain, 63⟩

/-- The error of `Send`. -/
inductive SendError where
  | tooLong (length : ℕ)
  deriving DecidableEq, Repr

def SendError.message : SendError → String
  | tooLong n => "DNS query too long: " ++ toString n ++ " chars"

/-- The loop of `splitIntoLabels`.  A loop that does not end within `fuel` rounds is a panic
here. -/
def splitLoop (maxLen : ℕ) : (fuel : ℕ) → (s : Bytes) → (labels : List Bytes) →
    Go SendError (List Bytes)
  | 0, _, _ => .error .panic
  | fuel + 1, s, labels =>
    if 0 < s.length then
      let stop := if s.length < maxLen then s.length else maxLen
      splitLoop maxLen fuel (s.drop stop) (labels ++ [s.take stop])
    else .ok labels

/-- `splitIntoLabels`. -/
def splitIntoLabels (s : Bytes) (maxLen : ℕ) : Go SendError (List Bytes) :=
  splitLoop maxLen (s.length + 1) s []

/-- `strings.Join(parts, ".")`. -/
def join (parts : List Bytes) : Bytes := [dot].intercalate parts

/-- The name of the query in `Send`. -/
def queryName (dt : DNSTunnel) (data sessionID : Bytes) (seq : Int64) : Go SendError Bytes := do
  let encoded := Base32.toLower (Base32.encode data)
  let labels ← splitIntoLabels encoded (dt.maxLabelLen - 5)
  .ok (join (labels ++ [itoa seq.toInt, sessionID, dt.domain]))

/-- The header of a query: the ID, recursion desired, and one question. -/
def packetHeader : Bytes := [0x12, 0x34, 0x01, 0x00, 0x00, 0x01, 0, 0, 0, 0, 0, 0]

/-- `buildDNSQueryPacket`. -/
def buildDNSQueryPacket (name : Bytes) (qtype : UInt16) : Bytes :=
  packetHeader
    ++ ((name.splitOn dot).flatMap fun part => UInt8.ofNat part.length :: part)
    ++ [0x00] ++ [UInt8.ofNat (qtype.toNat / 256), UInt8.ofNat qtype.toNat] ++ [0x00, 0x01]

/-- `Send`, up to the packet that `sendDNSQuery` writes. -/
def send (dt : DNSTunnel) (data sessionID : Bytes) (seq : Int64) : Go SendError Bytes := do
  let name ← queryName dt data sessionID seq
  if 253 < name.length then .error (.error (.tooLong name.length))
  else .ok (buildDNSQueryPacket name 1)

/-! ## Labels and names -/

/-- Text that can be a label between dots. -/
def IsLabel (l : Bytes) : Prop := dot ∉ l ∧ 1 ≤ l.length ∧ l.length ≤ 63

/-- The loop cuts the text into labels of at most the given length. -/
theorem splitLoop_eq {maxLen : ℕ} (hmax : 0 < maxLen) {fuel : ℕ} {s : Bytes}
    (hfuel : s.length < fuel) (labels : List Bytes) :
    ∃ pieces, splitLoop maxLen fuel s labels = .ok (labels ++ pieces) ∧ pieces.flatten = s ∧
      ∀ p ∈ pieces, 1 ≤ p.length ∧ p.length ≤ maxLen := by
  induction fuel generalizing s labels with
  | zero => exact absurd hfuel (Nat.not_lt_zero _)
  | succ fuel ih =>
    rw [splitLoop]
    by_cases hs : 0 < s.length
    · rw [if_pos hs]
      dsimp only
      generalize hstop : (if s.length < maxLen then s.length else maxLen) = stop
      have hbound : 1 ≤ stop ∧ stop ≤ maxLen ∧ stop ≤ s.length := by
        split_ifs at hstop <;> omega
      have hrest : (s.drop stop).length < fuel := by
        rw [List.length_drop]
        omega
      obtain ⟨pieces, heq, hflatten, hpieces⟩ := ih hrest (labels ++ [s.take stop])
      refine ⟨s.take stop :: pieces, ?_, ?_, ?_⟩
      · rw [heq, List.append_assoc, List.singleton_append]
      · rw [List.flatten_cons, hflatten, List.take_append_drop]
      · refine List.forall_mem_cons.2 ⟨?_, hpieces⟩
        rw [List.length_take]
        omega
    · rw [if_neg hs]
      have hnil : s = [] := List.eq_nil_of_length_eq_zero (by omega)
      exact ⟨[], by rw [List.append_nil], hnil.symm, List.forall_mem_nil _⟩

/-- A domain at the end of a name is its labels at the end of the name. -/
theorem join_append_join (parts : List Bytes) {domain : List Bytes} (hne : domain ≠ []) :
    join (parts ++ [join domain]) = join (parts ++ domain) := by
  obtain ⟨l, domain, rfl⟩ := List.exists_cons_of_ne_nil hne
  induction parts with
  | nil => exact List.intercalate_singleton
  | cons p parts ih =>
    cases parts with
    | nil =>
      show [dot].intercalate [p, join (l :: domain)] = [dot].intercalate (p :: l :: domain)
      rw [List.intercalate_cons_cons, List.intercalate_cons_cons, List.intercalate_singleton]
      rfl
    | cons q parts =>
      unfold join at ih ⊢
      simp only [List.cons_append, List.intercalate_cons_cons] at ih ⊢
      rw [ih]

theorem isLabel_itoa (seq : Int64) : IsLabel (itoa seq.toInt) := by
  have hlt := seq.toInt_lt
  have hle := seq.le_toInt
  have hlen := length_itoa (n := seq.toInt) (by omega)
  exact ⟨not_mem_itoa (by decide) (by decide) _, hlen.1, by omega⟩

section Names

variable {session : Bytes} {domain : List Bytes} {data : Bytes} {seq : Int64}

/-- **The name of a query** has the data in its first labels. -/
theorem queryName_eq (hne : domain ≠ []) (data session : Bytes) (seq : Int64) :
    ∃ labels, queryName (newDNSTunnel (join domain)) data session seq =
        .ok (join (labels ++ itoa seq.toInt :: session :: domain)) ∧
      labels.flatten = Base32.toLower (Base32.encode data) ∧ ∀ l ∈ labels, IsLabel l := by
  obtain ⟨labels, heq, hflatten, hlabels⟩ := splitLoop_eq (show 0 < 58 by decide)
    (Nat.lt_succ_self (Base32.toLower (Base32.encode data)).length) []
  refine ⟨labels, ?_, hflatten, fun l hl => ?_⟩
  · have hjoin := join_append_join (labels ++ [itoa seq.toInt, session]) hne
    simp only [List.append_assoc, List.cons_append, List.nil_append] at hjoin
    show (splitLoop 58 _ _ [] >>= fun labels =>
      .ok (join (labels ++ [itoa seq.toInt, session, join domain]))) = _
    rw [heq, Go.ok_bind, List.nil_append, hjoin]
  · have hdot : dot ∉ labels.flatten := by
      rw [hflatten]
      exact Base32.not_mem_toLower_encode (by decide) data
    obtain ⟨hpos, hle⟩ := hlabels l hl
    exact ⟨fun hmem => hdot (List.mem_flatten_of_mem hl hmem), hpos, hle.trans (by decide)⟩

/-- The parts of such a name are labels. -/
theorem isLabel_parts (seq : Int64) {labels : List Bytes} (hlabels : ∀ l ∈ labels, IsLabel l)
    (hsession : IsLabel session) (hdomain : ∀ l ∈ domain, IsLabel l) :
    ∀ l ∈ labels ++ itoa seq.toInt :: session :: domain, IsLabel l := by
  intro l hl
  rcases List.mem_append.1 hl with hl | hl
  · exact hlabels l hl
  · rcases List.mem_cons.1 hl with rfl | hl
    · exact isLabel_itoa seq
    · rcases List.mem_cons.1 hl with rfl | hl
      · exact hsession
      · exact hdomain l hl

theorem splitOn_name {labels : List Bytes}
    (hparts : ∀ l ∈ labels ++ itoa seq.toInt :: session :: domain, IsLabel l) :
    (join (labels ++ itoa seq.toInt :: session :: domain)).splitOn dot =
      labels ++ itoa seq.toInt :: session :: domain :=
  List.splitOn_intercalate dot (fun l hl => (hparts l hl).1) (by simp)

theorem send_of_name {dt : DNSTunnel} {name : Bytes}
    (h : queryName dt data session seq = .ok name) :
    send dt data session seq =
      if 253 < name.length then .error (.error (.tooLong name.length))
      else .ok (buildDNSQueryPacket name 1) := by
  rw [send, h, Go.ok_bind]

theorem take_buildDNSQueryPacket (name : Bytes) (qtype : UInt16) :
    (buildDNSQueryPacket name qtype).take 12 = packetHeader := by
  rw [buildDNSQueryPacket, List.append_assoc, List.append_assoc, List.append_assoc,
    List.take_left' (by decide)]

/-- The question of a query. -/
theorem drop_buildDNSQueryPacket (name : Bytes) (qtype : UInt16) :
    (buildDNSQueryPacket name qtype).drop 12 =
      wire (name.splitOn dot) ++ 0 :: (beBytes 2 qtype.toNat ++ [0, 1]) :=
  drop_message (show packetHeader.length = 12 by decide) (name.splitOn dot) qtype

end Names

/-- **The encoding is lossless.**  Unless the name is too long, a packet is built in which a reader
finds one question: labels whose concatenation is read back as the data, and behind them the
sequence number, the session and the labels of the domain.  The name of a query in one domain
determines the data, the sequence number and the session. -/
theorem send_lossless {session : Bytes} {domain : List Bytes} (hsession : IsLabel session)
    (hne : domain ≠ []) (hdomain : ∀ l ∈ domain, IsLabel l) (data : Bytes) (seq : Int64) :
    ((∀ n, send (newDNSTunnel (join domain)) data session seq ≠ .error (.error (.tooLong n))) →
      ∃ packet labels, send (newDNSTunnel (join domain)) data session seq = .ok packet ∧
        packet.take 12 = packetHeader ∧
        decode (packet.drop 12) =
          some (labels ++ itoa seq.toInt :: session :: domain, [0, 1, 0, 1]) ∧
        (∀ l ∈ labels ++ itoa seq.toInt :: session :: domain, 1 ≤ l.length ∧ l.length ≤ 63) ∧
        Base32.decode (Base32.toUpper labels.flatten) = some data) ∧
    ∀ data' session' seq', IsLabel session' →
      queryName (newDNSTunnel (join domain)) data session seq =
        queryName (newDNSTunnel (join domain)) data' session' seq' →
      data = data' ∧ session = session' ∧ seq = seq' := by
  obtain ⟨labels, hname, hflatten, hlabels⟩ := queryName_eq hne data session seq
  have hparts := isLabel_parts seq hlabels hsession hdomain
  have hread : Base32.decode (Base32.toUpper labels.flatten) = some data := by
    rw [hflatten]
    exact Base32.decode_toUpper_toLower data
  constructor
  · intro haccepted
    have hsend := send_of_name hname
    by_cases hlong : 253 < (join (labels ++ itoa seq.toInt :: session :: domain)).length
    · rw [if_pos hlong] at hsend
      exact absurd hsend (haccepted _)
    rw [if_neg hlong] at hsend
    refine ⟨_, labels, hsend, take_buildDNSQueryPacket _ _, ?_, fun l hl => (hparts l hl).2, hread⟩
    have htype : beBytes 2 (1 : UInt16).toNat ++ [0, 1] = [0, 1, 0, 1] := by decide
    rw [drop_buildDNSQueryPacket, splitOn_name hparts, decode_wire fun l hl => (hparts l hl).2,
      htype]
  · intro data' session' seq' hsession' heq
    obtain ⟨labels', hname', hflatten', hlabels'⟩ := queryName_eq hne data' session' seq'
    have hparts' := isLabel_parts seq' hlabels' hsession' hdomain
    rw [hname, hname'] at heq
    -- the names have the same parts, and the same domain at their ends
    have hsplit := congrArg (List.splitOn dot) (Except.ok.inj heq)
    rw [splitOn_name hparts, splitOn_name hparts'] at hsplit
    have hfront : labels ++ [itoa seq.toInt, session] = labels' ++ [itoa seq'.toInt, session'] := by
      have happend : (labels ++ [itoa seq.toInt, session]) ++ domain =
          (labels' ++ [itoa seq'.toInt, session']) ++ domain := by
        simpa using hsplit
      exact List.append_cancel_right happend
    obtain ⟨rfl, hlast⟩ := List.append_inj' hfront (by simp)
    obtain ⟨hseq, hrest⟩ := List.cons.inj hlast
    refine ⟨?_, (List.cons.inj hrest).1, Int64.toInt_inj.1 (itoa_injective hseq)⟩
    rw [hflatten', Base32.decode_toUpper_toLower] at hread
    exact (Option.some.inj hread).symm

/-- The query for `foo` with the sequence number −1, in the domain `t.io`. -/
theorem send_lossless_foo :
    ∃ packet labels, send (newDNSTunnel (join [[116], [105, 111]])) [102, 111, 111] [115] (-1) =
        .ok packet ∧
      decode (packet.drop 12) =
        some (labels ++ [[45, 49], [115], [116], [105, 111]], [0, 1, 0, 1]) ∧
      Base32.decode (Base32.toUpper labels.flatten) = some [102, 111, 111] := by
  have hdomain : ∀ l ∈ [[116], [105, 111]], IsLabel l := by
    unfold IsLabel
    decide
  have hname : queryName (newDNSTunnel (join [[116], [105, 111]])) [102, 111, 111] [115] (-1) =
      .ok [109, 122, 120, 119, 54, 46, 45, 49, 46, 115, 46, 116, 46, 105, 111] := by
    decide +kernel
  have haccepted : ∀ n, send (newDNSTunnel (join [[116], [105, 111]])) [102, 111, 111] [115] (-1) ≠
      .error (.error (.tooLong n)) := by
    intro n h
    rw [send, hname] at h
    cases h
  have hsession : IsLabel [115] := by
    unfold IsLabel
    decide
  obtain ⟨packet, labels, hsend, -, hdecode, -, hdata⟩ :=
    (send_lossless hsession (List.cons_ne_nil _ _) hdomain [102, 111, 111] (-1)).1 haccepted
  exact ⟨packet, labels, hsend, hdecode, hdata⟩

/-! ## The answer -/

open DnsResponse

/-- The data of a TXT record: character strings, each behind a byte with its length. -/
structure TxtData where
  strings : List Bytes
  nonempty : strings ≠ []
  short : ∀ s ∈ strings, s.length ≤ 255
  fits : (wire strings).length < 65536

/-- A TXT record. -/
def TxtData.record (t : TxtData) (rclass : UInt16) (ttl : UInt32) : Record :=
  ⟨16, rclass, ttl, wire t.strings, t.fits⟩

/-- In every response with one question, whose name is the first in the message and so has no
pointer, and with one answer, a TXT record with these strings whose owner name has this form, the
parser finds the strings. -/
def Exact (form : Form) (t : TxtData) : Prop :=
  ∀ (m : Response) (owner : Name) (rclass : UInt16) (ttl : UInt32),
    m.qname.pointer = none → owner.form = form →
      parseTXTResponse (m.encode [(owner, t.record rclass ttl)]) = .ok t.strings.flatten

section Answer

variable {data rest : Bytes} {offset : ℕ}

theorem skipQuestion_zero (h : data.drop offset = 0 :: rest) (fuel : ℕ) :
    skipQuestion data (fuel + 1) offset = .ok offset := by
  have hlt := lt_length_of_drop_eq_cons h
  rw [skipQuestion, if_pos hlt, index_of_drop h, Go.ok_bind, if_pos rfl]

/-- The loop over the question walks over labels. -/
theorem skipQuestion_wire {labels : List Label} {fuel : ℕ} (hfuel : labels.length ≤ fuel)
    (h : data.drop offset = wire (labels.map Label.bytes) ++ 0 :: rest) :
    skipQuestion data (fuel + 1) offset =
      .ok (offset + (wire (labels.map Label.bytes)).length) := by
  induction labels generalizing offset fuel with
  | nil => exact skipQuestion_zero h fuel
  | cons l labels ih =>
    rw [List.map_cons, wire_cons, List.cons_append] at h
    have hlt := lt_length_of_drop_eq_cons h
    rw [List.length_cons] at hfuel
    obtain ⟨fuel, rfl⟩ : ∃ k, fuel = k + 1 := ⟨fuel - 1, by omega⟩
    have hnext : data.drop (offset + (l.bytes.length + 1)) =
        wire (labels.map Label.bytes) ++ 0 :: rest := by
      rw [drop_succ_add h, List.append_assoc, List.drop_left]
    rw [skipQuestion, if_pos hlt, index_of_drop h, Go.ok_bind, if_neg (label_ne_zero l),
      if_neg (label_lt_pointer l), toNat_label,
      ih (by omega) hnext, List.map_cons, length_wire_cons]
    congr 1
    omega

theorem skipZero_zero (h : data.drop offset = 0 :: rest) :
    skipZero data offset = .ok (offset + 1) := by
  have hlt := lt_length_of_drop_eq_cons h
  rw [skipZero, if_pos hlt, index_of_drop h, Go.ok_bind, if_pos rfl]

/-- Where the answer begins in a response to a question whose name is written in full. -/
theorem parseTXTResponse_encode {m : Response} (hq : m.qname.pointer = none)
    (rs : List (Name × Record)) :
    ∃ offset, (m.encode rs).drop offset = encodeAnswers rs ++ m.trailer ∧
      parseTXTResponse (m.encode rs) = parseAnswer (m.encode rs) offset := by
  obtain ⟨id, flags, nscount, arcount, ⟨labels, pointer⟩, qtype, qclass, trailer⟩ := m
  obtain rfl : pointer = none := hq
  generalize hm : (⟨id, flags, nscount, arcount, ⟨labels, none⟩, qtype, qclass, trailer⟩ :
    Response) = m
  have hlong := length_encode_ge m rs
  have hquestion : (m.encode rs).drop 12 = wire (labels.map Label.bytes) ++
      0 :: ((beBytes 2 qtype.toNat ++ beBytes 2 qclass.toNat) ++
        (encodeAnswers rs ++ trailer)) := by
    rw [drop_encode, ← hm, Name.encode, List.append_assoc]
    rfl
  generalize m.encode rs = data at hlong hquestion ⊢
  have hfuel : labels.length ≤ data.length := by
    have hlen := congrArg List.length hquestion
    have hle := length_le_length_wire (labels.map Label.bytes)
    simp only [List.length_drop, List.length_append, List.length_map] at hlen hle
    omega
  have hname := congrArg (List.drop (wire (labels.map Label.bytes)).length) hquestion
  rw [List.drop_drop, List.drop_left] at hname
  refine ⟨12 + (wire (labels.map Label.bytes)).length + 1 + 4, ?_, ?_⟩
  · rw [Nat.add_assoc _ 1 4, Nat.add_comm 1 4, drop_succ_add hname, List.drop_left' (by simp), ← hm]
  · rw [parseTXTResponse, if_neg (by omega), skipQuestion_wire hfuel hquestion, Go.ok_bind,
      skipZero_zero hname, Go.ok_bind]

/-- The rest of the parser, at a record whose owner name it takes to end at `body`. -/
theorem parseAnswer_eq {first : UInt8} {body : ℕ} (h : data.drop offset = first :: rest)
    (hbody : body = if 192 ≤ first.toNat then offset + 2 else offset)
    (hlong : body + 10 ≤ data.length) :
    parseAnswer data offset =
      if data.length < body + 10 + beNat (((data.drop body).drop 8).take 2) then
        .error (.error .overflow)
      else parseTXT data (body + 10) (beNat (((data.drop body).drop 8).take 2)) := by
  have hlt := lt_length_of_drop_eq_cons h
  rw [parseAnswer, if_neg (by omega), index_of_drop h, Go.ok_bind]
  dsimp only
  rw [← hbody, if_neg (by omega), uint16At_eq (by omega), Go.ok_bind, List.drop_drop]

/-- The first string of a record of more than one byte is taken. -/
theorem parseTXT_wire {s : Bytes} {strings : List Bytes} (hs : s.length ≤ 255)
    (h : data.drop offset = wire (s :: strings) ++ rest) :
    parseTXT data offset (wire (s :: strings)).length =
      if 1 < (wire (s :: strings)).length then .ok s else .error (.error .empty) := by
  have hdrop : data.drop offset = UInt8.ofNat s.length :: (s ++ (wire strings ++ rest)) := by
    rw [h, wire_cons, List.cons_append, List.append_assoc]
  have hnext : data.drop (offset + 1) = s ++ (wire strings ++ rest) := by
    rw [drop_succ_add hdrop 0, List.drop_zero]
  have hfits : offset + 1 + s.length ≤ data.length := by
    have := congrArg List.length hdrop
    simp only [List.length_drop, List.length_cons, List.length_append] at this
    omega
  rw [parseTXT]
  by_cases hmore : 1 < (wire (s :: strings)).length
  · rw [if_pos hmore, if_pos hmore, index_of_drop hdrop, Go.ok_bind]
    dsimp only
    rw [toNat_length hs, if_pos hfits]
    refine slice_eq_ok.2 ⟨Nat.le_add_right .., hfits, ?_⟩
    rw [List.drop_take, hnext, Nat.add_sub_cancel_left, List.take_left]
  · rw [if_neg hmore, if_neg hmore]

end Answer

section Exactness

variable {m : Response} {t : TxtData}

/-- Of a record whose owner name is a pointer, the first string is taken, unless the data are one
byte. -/
theorem parse_pointer (hq : m.qname.pointer = none) {s : Bytes} {strings : List Bytes}
    (ht : t.strings = s :: strings) (p : Pointer) (rclass : UInt16) (ttl : UInt32) :
    parseTXTResponse (m.encode [(⟨[], some p⟩, t.record rclass ttl)]) =
      if 1 < (wire t.strings).length then .ok s else .error (.error .empty) := by
  obtain ⟨offset, hdrop, hparse⟩ :=
    parseTXTResponse_encode hq [((⟨[], some p⟩ : Name), t.record rclass ttl)]
  rw [hparse]
  generalize m.encode [((⟨[], some p⟩ : Name), t.record rclass ttl)] = data at hdrop ⊢
  generalize hr : t.record rclass ttl = r at hdrop
  have hrdata : r.rdata = wire (s :: strings) := by
    rw [← hr, ← ht]
    rfl
  have hfirst : data.drop offset = UInt8.ofNat (192 + p.val / 256) :: UInt8.ofNat p.val ::
      (r.encode ++ m.trailer) := by
    simpa [encodeAnswers, Name.encode, Name.ending, Pointer.encode] using hdrop
  have hbody : data.drop (offset + 2) = r.encode ++ m.trailer := drop_succ_add hfirst 1
  have hlen := congrArg List.length hbody
  rw [List.length_drop, List.length_append, length_encode_record] at hlen
  have htext : data.drop (offset + 2 + 10) = wire (s :: strings) ++ m.trailer := by
    rw [← List.drop_drop, hbody, encode_rdata, hrdata]
  have hpointer : 192 ≤ (UInt8.ofNat (192 + p.val / 256)).toNat := by
    rw [toNat_pointer]
    exact Nat.le_add_right ..
  rw [parseAnswer_eq hfirst (if_pos hpointer).symm (by omega), hbody, encode_rdlength,
    if_neg (by omega), hrdata, ht]
  exact parseTXT_wire (t.short s (ht ▸ List.mem_cons_self)) htext

/-- **An owner name with labels is not skipped**: for a short one, a part of the time to live is
taken for the length of the data. -/
theorem parse_labels (hq : m.qname.pointer = none) {owner : Name}
    (howner : owner = ⟨[Label.ofByte 119], none⟩ ∨ owner = ⟨[Label.ofByte 119], some 12⟩) :
    parseTXTResponse (m.encode [(owner, t.record 1 0)]) = .error (.error .empty) := by
  obtain ⟨offset, hdrop, hparse⟩ := parseTXTResponse_encode hq [(owner, t.record 1 0)]
  rw [hparse]
  generalize m.encode [(owner, t.record 1 0)] = data at hdrop ⊢
  have hrecord : (t.record 1 0).encode ++ m.trailer = 0 :: 16 :: 0 :: 1 :: 0 :: 0 :: 0 :: 0 ::
      (beBytes 2 (wire t.strings).length ++ (wire t.strings ++ m.trailer)) := by
    simp [Record.encode, TxtData.record, beBytes]
  have hanswers : data.drop offset = owner.encode ++ ((t.record 1 0).encode ++ m.trailer) := by
    simpa [encodeAnswers] using hdrop
  obtain ⟨tail, hfirst, hzero, hlong⟩ : ∃ tail, data.drop offset = 1 :: tail ∧
      ((data.drop offset).drop 8).take 2 = [0, 0] ∧ 10 ≤ (data.drop offset).length := by
    rw [hanswers, hrecord]
    rcases howner with rfl | rfl
    · exact ⟨_, rfl, rfl, Nat.le_add_left ..⟩
    · exact ⟨_, rfl, rfl, Nat.le_add_left ..⟩
  rw [List.length_drop] at hlong
  have hlen : beNat [0, 0] = 0 := rfl
  rw [parseAnswer_eq hfirst (if_neg (by decide)).symm (by omega), hzero, hlen,
    if_neg (by omega), parseTXT, if_neg (by decide)]

end Exactness

/-- **When the parser is exact**: the owner name is a pointer, all strings but the first are empty,
and the data are not one empty string. -/
theorem txt_exact_iff (form : Form) (t : TxtData) :
    Exact form t ↔ form = .pointer ∧ (∀ s ∈ t.strings.tail, s = []) ∧ t.strings ≠ [[]] := by
  obtain ⟨s, strings, ht⟩ := List.exists_cons_of_ne_nil t.nonempty
  have hflatten : s = t.strings.flatten ↔ ∀ s' ∈ t.strings.tail, s' = [] := by
    rw [ht, List.flatten_cons, List.tail_cons, List.self_eq_append_right, List.flatten_eq_nil_iff]
  have hone : 1 < (wire t.strings).length ↔ t.strings ≠ [[]] := by
    rw [ht, length_wire_cons]
    have hle := length_le_length_wire strings
    constructor
    · rintro hlt heq
      obtain ⟨rfl, rfl⟩ := List.cons.inj heq
      exact absurd hlt (by decide)
    · intro hne
      by_contra hlt
      refine hne ?_
      rw [List.eq_nil_of_length_eq_zero (show s.length = 0 by omega),
        List.eq_nil_of_length_eq_zero (show strings.length = 0 by omega)]
  constructor
  · intro hexact
    have hpointer : form = .pointer := by
      by_contra hform
      have hname : ∃ owner : Name, owner.form = form ∧
          (owner = ⟨[Label.ofByte 119], none⟩ ∨ owner = ⟨[Label.ofByte 119], some 12⟩) := by
        cases form with
        | full => exact ⟨_, rfl, .inl rfl⟩
        | pointer => exact absurd rfl hform
        | mixed => exact ⟨_, rfl, .inr rfl⟩
      obtain ⟨owner, howner, heq⟩ := hname
      have hok := hexact exampleResponse owner 1 0 rfl howner
      rw [parse_labels rfl heq] at hok
      cases hok
    have hok := hexact exampleResponse ⟨[], some 12⟩ 1 0 rfl hpointer.symm
    rw [parse_pointer rfl ht] at hok
    split_ifs at hok with hlt
    exact ⟨hpointer, hflatten.1 (Except.ok.inj hok), hone.1 hlt⟩
  · rintro ⟨rfl, htail, hne⟩ m ⟨labels, pointer⟩ rclass ttl hq hform
    obtain ⟨rfl, p, rfl⟩ := Name.eq_of_form_pointer hform
    rw [parse_pointer hq ht, if_pos (hone.2 hne), hflatten.2 htail]

/-- **Three responses that are not read exactly.**  Of the strings `ab` and `c` only the first is
found; behind an owner name that is written in full, what is found are the length of the data and
of the string; and one empty string is refused. -/
theorem txt_not_exact :
    ∃ abc ab empty : TxtData, abc.strings = [[97, 98], [99]] ∧ ab.strings = [[97, 98]] ∧
      empty.strings = [[]] ∧
      parseTXTResponse (exampleResponse.encode [(⟨[], some 12⟩, abc.record 1 0)]) = .ok [97, 98] ∧
      parseTXTResponse (exampleResponse.encode [(⟨[Label.ofByte 101], none⟩, ab.record 1 515)]) =
        .ok [0, 3, 2] ∧
      parseTXTResponse (exampleResponse.encode [(⟨[], some 12⟩, empty.record 1 0)]) =
        .error (.error .empty) := by
  refine ⟨⟨[[97, 98], [99]], by decide, by decide, by decide⟩, ⟨[[97, 98]], by decide, by decide,
    by decide⟩, ⟨[[]], by decide, by decide, by decide⟩, rfl, rfl, rfl, ?_, ?_, ?_⟩
  · decide +kernel
  · decide +kernel
  · decide +kernel

end DnsTunnel
