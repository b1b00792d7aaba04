/-
# The server name in a ClientHello

A ClientHello with any session id, cipher suites, compression methods and extensions, in
the record that TLS puts it into, and what `findSNIOffset` and `replaceSNI` of
`IPShadowT.SniSpoof` do with it:

* `findSNIOffset_locates`: the offset is that of the first `server_name` extension;
* `replaceSNI_frame`: the bytes of the first host name are replaced, and no others;
* `write_before_name`: a hello that is cut is cut before the extension.

A hello is cut at the places where the parser stops,

    front (43) | session id | suites | compression | length | extensions

and each function of the parser has one lemma that takes it from one place to the next.
-/
import IPShadowT.ClientHello
import IPShadowT.SniSpoof

open Bytes
open Reality (encodeField length_encodeField)

namespace SniSpoof

/-! ## Messages -/

/-- An extension: its type and its body. -/
structure Extension where
  type : UInt16
  body : Bytes
  deriving DecidableEq, Repr

def Extension.encode (x : Extension) : Bytes := encodeField x.type.toNat x.body

/-- The extensions, behind their length. -/
def extensionsBlock (exts : List Extension) : Bytes :=
  beBytes 2 (exts.flatMap Extension.encode).length ++ exts.flatMap Extension.encode

/-- What follows the random in a hello. -/
def afterRandom (sessionID suites compression block : Bytes) : Bytes :=
  UInt8.ofNat sessionID.length :: (sessionID
    ++ (beBytes 2 suites.length ++ (suites
      ++ UInt8.ofNat compression.length :: (compression ++ block))))

/-- A ClientHello whose fields fit their lengths.  It may end before the extensions. -/
structure Hello where
  recordVersion : UInt16
  version : UInt16
  random : Bytes
  sessionID : Bytes
  cipherSuites : List UInt16
  compression : Bytes
  extensions : Option (List Extension)
  random_length : random.length = 32
  sessionID_length : sessionID.length < 256
  cipherSuites_length : 2 * cipherSuites.length < 256 ^ 2
  compression_length : compression.length < 256
  extensions_length : ∀ exts, extensions = some exts →
    (exts.flatMap Extension.encode).length < 256 ^ 2

namespace Hello

variable (h : Hello)

def encodedSuites : Bytes := Reality.encodeSuites h.cipherSuites

/-- The extensions, if there are any. -/
def block : Bytes :=
  match h.extensions with
  | none => []
  | some exts => extensionsBlock exts

/-- The body of the handshake message. -/
def body : Bytes :=
  beBytes 2 h.version.toNat
    ++ (h.random ++ afterRandom h.sessionID h.encodedSuites h.compression h.block)

/-- The headers of the record and of the handshake message, the version and the random. -/
def front : Bytes :=
  0x16 :: (beBytes 2 h.recordVersion.toNat ++ (beBytes 2 (4 + h.body.length)
    ++ 0x01 :: (beBytes 3 h.body.length ++ (beBytes 2 h.version.toNat ++ h.random))))

/-- The record. -/
def encode : Bytes :=
  h.front ++ afterRandom h.sessionID h.encodedSuites h.compression h.block

theorem length_front : h.front.length = 43 := by
  simp [front, h.random_length]

theorem length_encodedSuites : h.encodedSuites.length < 256 ^ 2 := by
  have hlen : h.encodedSuites.length = 2 * h.cipherSuites.length := by
    simp [encodedSuites, Reality.encodeSuites, List.length_flatMap, Nat.mul_comm]
  rw [hlen]
  exact h.cipherSuites_length

end Hello

theorem Extension.length_encode (x : Extension) : x.encode.length = 4 + x.body.length :=
  length_encodeField _ _

theorem Extension.encode_pos (x : Extension) : 0 < x.encode.length := by
  rw [x.length_encode]
  omega

/-! ## From field to field -/

variable {x : Extension} {before after : List Extension} {data a c : Bytes} {exts : List Extension}
variable {total : ℕ}

theorem uint16At_append {i n : ℕ} (hdata : data = a ++ (beBytes 2 n ++ c)) (hi : i = a.length)
    (hn : n < 256 ^ 2) : uint16At data i = .ok n := by
  subst hdata hi
  have hslice : (slice (a ++ (beBytes 2 n ++ c)) a.length (a ++ (beBytes 2 n ++ c)).length
      : Go Empty Bytes) = .ok (beBytes 2 n ++ c) := by
    rw [slice, if_pos ⟨by rw [List.length_append]; omega, le_rfl⟩, List.take_length, List.drop_left]
  have htake : (beBytes 2 n ++ c).take 2 = beBytes 2 n := List.take_left' (length_beBytes 2 n)
  rw [uint16At, hslice, Go.ok_bind]
  refine beField_eq_ok.2 ⟨?_, ?_⟩
  · rw [List.length_append, length_beBytes]
    omega
  · rw [htake, beNat_beBytes, Nat.mod_eq_of_lt hn]

section Fields

variable {front sessionID suites compression block : Bytes}

/-- The parser skips the session id, the cipher suites and the compression methods. -/
theorem findSNIOffset_afterRandom (hfront : front.length = 43) (hid : sessionID.length < 256)
    (hsuites : suites.length < 256 ^ 2) (hcomp : compression.length < 256) :
    findSNIOffset (front ++ afterRandom sessionID suites compression block)
      = fromExtensions (front ++ afterRandom sessionID suites compression block)
          (47 + sessionID.length + suites.length + compression.length) := by
  set data := front ++ afterRandom sessionID suites compression block with hdata
  have hlen : data.length = 47 + sessionID.length + suites.length + compression.length
      + block.length := by
    simp only [hdata, afterRandom, List.length_append, List.length_cons, length_beBytes, hfront]
    omega
  have hidByte : (UInt8.ofNat sessionID.length).toNat = sessionID.length :=
    UInt8.toNat_ofNat_of_lt' hid
  have hcompByte : (UInt8.ofNat compression.length).toNat = compression.length :=
    UInt8.toNat_ofNat_of_lt' hcomp
  have hread₁ : (index data 43 : Go Empty UInt8) = .ok (UInt8.ofNat sessionID.length) :=
    index_append hdata hfront.symm
  have hread₂ : uint16At data (43 + (1 + sessionID.length)) = .ok suites.length := by
    refine uint16At_append (a := front ++ UInt8.ofNat sessionID.length :: sessionID)
      (c := suites ++ UInt8.ofNat compression.length :: (compression ++ block)) ?_ ?_ hsuites
    · rw [hdata, afterRandom, List.append_assoc, List.cons_append]
    · rw [List.length_append, List.length_cons, hfront]
      omega
  have hread₃ : (index data (43 + (1 + sessionID.length) + (2 + suites.length))
      : Go Empty UInt8) = .ok (UInt8.ofNat compression.length) := by
    refine index_append (a := front ++ (UInt8.ofNat sessionID.length :: (sessionID
      ++ (beBytes 2 suites.length ++ suites)))) (c := compression ++ block) ?_ ?_
    · simp only [hdata, afterRandom, List.append_assoc, List.cons_append]
    · simp only [List.length_append, List.length_cons, length_beBytes, hfront]
      omega
  rw [findSNIOffset, if_neg (by omega), fromSessionID, if_neg (by omega), hread₁, Go.ok_bind,
    hidByte, fromCipherSuites, if_neg (by omega), hread₂, Go.ok_bind, fromCompression,
    if_neg (by omega), hread₃, Go.ok_bind, hcompByte]
  congr 1
  omega

end Fields

/-! ## The loop over encoded extensions -/

theorem sniLoop_end {data : Bytes} {extEnd offset : ℕ} (h : data.length ≤ offset + 4)
    (rounds : ℕ) : sniLoop data extEnd (rounds + 1) offset = .ok (-1) := by
  rw [sniLoop, if_neg (by omega)]
  rfl

/-- A round that finds an extension with something behind its header. -/
theorem sniLoop_round (hdata : data = a ++ (x.encode ++ c))
    (hlen : (x.encode ++ c).length < 256 ^ 2) (hmore : x.body ++ c ≠ []) (rounds : ℕ) :
    sniLoop data data.length (rounds + 1) a.length =
      if x.type = 0 then .ok a.length
      else sniLoop data data.length rounds (a ++ x.encode).length := by
  have hpos : 0 < x.body.length + c.length := by
    rw [← List.length_append]
    exact List.length_pos_iff.2 hmore
  have htotal : data.length = a.length + 4 + (x.body.length + c.length) := by
    rw [hdata, List.length_append, List.length_append, x.length_encode]
    omega
  have hfit : x.body.length < 256 ^ 2 := by
    rw [List.length_append, x.length_encode] at hlen
    omega
  rw [Extension.encode, encodeField, List.append_assoc, List.append_assoc] at hdata
  have htype : uint16At data a.length = .ok x.type.toNat :=
    uint16At_append hdata rfl x.type.toNat_lt
  have hbody : uint16At data (a.length + 2) = .ok x.body.length := by
    refine uint16At_append (a := a ++ beBytes 2 x.type.toNat) (c := x.body ++ c) ?_ ?_ hfit
    · rw [hdata, List.append_assoc]
    · rw [List.length_append, length_beBytes]
  have hzero : x.type.toNat = 0x0000 ↔ x.type = 0 := by
    rw [← UInt16.toNat_inj]
    rfl
  rw [sniLoop, if_pos ⟨by omega, by omega⟩, htype, Go.ok_bind, hbody, Go.ok_bind]
  simp only [hzero]
  rw [List.length_append, x.length_encode]
  rfl

/-- The extensions before the first `server_name` are skipped. -/
theorem sniLoop_finds {before : List Extension} {rounds : ℕ}
    (hdata : data = a ++ (before.flatMap Extension.encode ++ (x.encode ++ c)))
    (hbefore : ∀ y ∈ before, y.type ≠ 0) (hx : x.type = 0) (hmore : x.body ++ c ≠ [])
    (hlen : (before.flatMap Extension.encode ++ (x.encode ++ c)).length < 256 ^ 2)
    (hrounds : before.length < rounds) :
    sniLoop data data.length rounds a.length
      = .ok ((a ++ before.flatMap Extension.encode).length : ℤ) := by
  induction before generalizing a rounds with
  | nil =>
    obtain ⟨rounds, rfl⟩ : ∃ k, rounds = k + 1 := Nat.exists_eq_succ_of_ne_zero (by omega)
    rw [sniLoop_round hdata hlen hmore, if_pos hx, List.flatMap_nil, List.append_nil]
  | cons y before ih =>
    obtain ⟨rounds, rfl⟩ : ∃ k, rounds = k + 1 := Nat.exists_eq_succ_of_ne_zero (by omega)
    obtain ⟨hy, hbefore⟩ := List.forall_mem_cons.1 hbefore
    rw [List.flatMap_cons, List.append_assoc] at hdata hlen
    have hrest : y.body ++ (before.flatMap Extension.encode ++ (x.encode ++ c)) ≠ [] := by
      have hpos := x.encode_pos
      rw [← List.length_pos_iff]
      simp only [List.length_append]
      omega
    have hnext : data = (a ++ y.encode)
        ++ (before.flatMap Extension.encode ++ (x.encode ++ c)) := by
      rw [hdata, List.append_assoc]
    have hfit : (before.flatMap Extension.encode ++ (x.encode ++ c)).length < 256 ^ 2 := by
      rw [List.length_append] at hlen
      omega
    rw [sniLoop_round hdata hlen hrest, if_neg hy,
      ih hnext hbefore hfit (Nat.lt_of_succ_lt_succ hrounds), List.append_assoc,
      List.flatMap_cons]

/-- Without a `server_name` the loop ends at the last extension, or at its body if that is
empty. -/
theorem sniLoop_absent {data a : Bytes} {rounds : ℕ}
    (hdata : data = a ++ exts.flatMap Extension.encode) (hexts : ∀ y ∈ exts, y.type ≠ 0)
    (hlen : (exts.flatMap Extension.encode).length < 256 ^ 2) (hrounds : exts.length < rounds) :
    sniLoop data data.length rounds a.length = .ok (-1) := by
  induction exts generalizing a rounds with
  | nil =>
    obtain ⟨rounds, rfl⟩ : ∃ k, rounds = k + 1 := Nat.exists_eq_succ_of_ne_zero (by omega)
    refine sniLoop_end ?_ rounds
    rw [hdata, List.flatMap_nil, List.append_nil]
    omega
  | cons y exts ih =>
    obtain ⟨rounds, rfl⟩ : ∃ k, rounds = k + 1 := Nat.exists_eq_succ_of_ne_zero (by omega)
    obtain ⟨hy, hexts⟩ := List.forall_mem_cons.1 hexts
    rw [List.flatMap_cons] at hdata hlen
    have hfit : (exts.flatMap Extension.encode).length < 256 ^ 2 := by
      rw [List.length_append] at hlen
      omega
    by_cases hmore : y.body ++ exts.flatMap Extension.encode = []
    · refine sniLoop_end ?_ rounds
      obtain ⟨hnil, hrest⟩ := List.append_eq_nil_iff.1 hmore
      rw [hdata, hrest, List.append_nil, List.length_append, y.length_encode, hnil]
      exact le_rfl
    · have hnext : data = (a ++ y.encode) ++ exts.flatMap Extension.encode := by
        rw [hdata, List.append_assoc]
      rw [sniLoop_round hdata hlen hmore, if_neg hy,
        ih hnext hexts hfit (Nat.lt_of_succ_lt_succ hrounds)]

/-! ## The extension that is found -/

/-- What comes before the extensions. -/
def beforeBlock (front sessionID suites compression : Bytes) : Bytes :=
  front ++ afterRandom sessionID suites compression []

/-- A hello up to its cut, for fields that fit their lengths. -/
structure Fits (front sessionID suites compression : Bytes) : Prop where
  front : front.length = 43
  sessionID : sessionID.length < 256
  suites : suites.length < 256 ^ 2
  compression : compression.length < 256

theorem afterRandom_eq (front sessionID suites compression block : Bytes) :
    front ++ afterRandom sessionID suites compression block
      = beforeBlock front sessionID suites compression ++ block := by
  simp [beforeBlock, afterRandom]

/-- What comes before an extension: the length of all extensions, and those before it. -/
def beforeExtension (base : Bytes) (total : ℕ) (before : List Extension) : Bytes :=
  base ++ (beBytes 2 total ++ before.flatMap Extension.encode)

theorem flatMap_encode_cut (before : List Extension) (x : Extension) (after : List Extension) :
    (before ++ x :: after).flatMap Extension.encode
      = before.flatMap Extension.encode ++ (x.encode ++ after.flatMap Extension.encode) := by
  rw [List.flatMap_append, List.flatMap_cons]

/-- A hello, cut before one of its extensions. -/
theorem Hello.encode_cut (h : Hello) (hexts : h.extensions = some (before ++ x :: after)) :
    h.encode = beforeExtension (beforeBlock h.front h.sessionID h.encodedSuites h.compression)
        ((before ++ x :: after).flatMap Extension.encode).length before
      ++ (x.encode ++ after.flatMap Extension.encode) := by
  rw [Hello.encode, Hello.block, hexts]
  dsimp only
  rw [afterRandom_eq, extensionsBlock, beforeExtension]
  nth_rewrite 2 [flatMap_encode_cut]
  simp only [List.append_assoc]

section Block

variable {front sessionID suites compression : Bytes}
  (hfits : Fits front sessionID suites compression)
include hfits

theorem findSNIOffset_block (block : Bytes) :
    findSNIOffset (beforeBlock front sessionID suites compression ++ block)
      = fromExtensions (beforeBlock front sessionID suites compression ++ block)
          (beforeBlock front sessionID suites compression).length := by
  have hlen : (beforeBlock front sessionID suites compression).length
      = 47 + sessionID.length + suites.length + compression.length := by
    simp only [beforeBlock, afterRandom, List.length_append, List.length_cons, length_beBytes,
      hfits.front, List.length_nil]
    omega
  rw [hlen, ← afterRandom_eq]
  exact findSNIOffset_afterRandom hfits.front hfits.sessionID hfits.suites hfits.compression

/-- A block of extensions is searched from its first to its last byte. -/
theorem findSNIOffset_extensionsBlock (hne : exts ≠ [])
    (hlen : (exts.flatMap Extension.encode).length < 256 ^ 2) :
    let a := beforeBlock front sessionID suites compression
      ++ beBytes 2 (exts.flatMap Extension.encode).length
    let data := a ++ exts.flatMap Extension.encode
    findSNIOffset data = sniLoop data data.length data.length a.length := by
  intro a data
  set base := beforeBlock front sessionID suites compression
  have hdata : data = base ++ (beBytes 2 (exts.flatMap Extension.encode).length
      ++ exts.flatMap Extension.encode) := List.append_assoc ..
  have ha : a.length = base.length + 2 := by
    rw [List.length_append, length_beBytes]
  have htotal : data.length = a.length + (exts.flatMap Extension.encode).length :=
    List.length_append
  have hpos : exts.length ≤ (exts.flatMap Extension.encode).length :=
    length_le_flatMap Extension.encode_pos exts
  have hsome : 0 < exts.length := List.length_pos_iff.2 hne
  have hread : uint16At data base.length = .ok (exts.flatMap Extension.encode).length :=
    uint16At_append hdata rfl hlen
  have hblock : findSNIOffset data = fromExtensions data base.length := by
    rw [hdata]
    exact findSNIOffset_block hfits _
  rw [hblock, fromExtensions, if_neg (by omega), hread, Go.ok_bind]
  dsimp only
  rw [← ha, ← htotal]

/-- The first `server_name` extension is found, unless it is empty and the last of all. -/
theorem findSNIOffset_finds (hbefore : ∀ y ∈ before, y.type ≠ 0) (hx : x.type = 0)
    (hmore : x.body ++ after.flatMap Extension.encode ≠ [])
    (htotal : ((before ++ x :: after).flatMap Extension.encode).length = total)
    (hlen : total < 256 ^ 2) :
    findSNIOffset (beforeExtension (beforeBlock front sessionID suites compression) total before
        ++ (x.encode ++ after.flatMap Extension.encode))
      = .ok ((beforeExtension (beforeBlock front sessionID suites compression) total
          before).length : ℤ) := by
  subst htotal
  have hne : before ++ x :: after ≠ [] :=
    List.append_ne_nil_of_right_ne_nil _ (List.cons_ne_nil _ _)
  have hfind := findSNIOffset_extensionsBlock hfits hne hlen
  have hcount := length_le_flatMap Extension.encode_pos (before ++ x :: after)
  have hsplit := flatMap_encode_cut before x after
  set base := beforeBlock front sessionID suites compression
    ++ beBytes 2 ((before ++ x :: after).flatMap Extension.encode).length with hbase
  rw [beforeExtension, ← List.append_assoc _ _ (before.flatMap Extension.encode), ← hbase]
  clear_value base
  rw [List.append_assoc, ← hsplit]
  refine hfind.trans (sniLoop_finds ?_ hbefore hx hmore ?_ ?_)
  · rw [hsplit]
  · rw [← hsplit]
    exact hlen
  · rw [List.length_append, List.length_cons] at hcount
    rw [List.length_append]
    omega

theorem findSNIOffset_absent (hexts : ∀ y ∈ exts, y.type ≠ 0)
    (hlen : (exts.flatMap Extension.encode).length < 256 ^ 2) :
    findSNIOffset (front ++ afterRandom sessionID suites compression (extensionsBlock exts))
      = .ok (-1) := by
  rw [afterRandom_eq]
  by_cases hne : exts = []
  · subst hne
    rw [findSNIOffset_block hfits, fromExtensions, if_pos]
    · rfl
    · rw [List.length_append, extensionsBlock, List.flatMap_nil, List.append_nil, length_beBytes]
  · have hcount := length_le_flatMap Extension.encode_pos exts
    rw [extensionsBlock, ← List.append_assoc]
    refine (findSNIOffset_extensionsBlock hfits hne hlen).trans (sniLoop_absent rfl hexts hlen ?_)
    rw [List.length_append, List.length_append, length_beBytes]
    omega

end Block

theorem Hello.fits (h : Hello) : Fits h.front h.sessionID h.encodedSuites h.compression :=
  ⟨h.length_front, h.sessionID_length, h.length_encodedSuites, h.compression_length⟩

/-- **Where the server name is looked for.**  On every byte string `findSNIOffset` returns, with
`-1` or a position in the data.  For every hello with a `server_name` extension, not all of
them empty, it returns the offset of the first; for every hello without one, `-1`. -/
theorem findSNIOffset_locates :
    (∀ data, ∃ i : ℤ, findSNIOffset data = .ok i ∧ (i = -1 ∨ 0 ≤ i ∧ i < data.length)) ∧
      ∀ h : Hello,
        (∀ before x after, h.extensions = some (before ++ x :: after) →
          (∀ y ∈ before, y.type ≠ 0) → x.type = 0 → (∃ y ∈ x :: after, y.type = 0 ∧ y.body ≠ []) →
            ∃ a, h.encode = a ++ (x.encode ++ after.flatMap Extension.encode) ∧
              findSNIOffset h.encode = .ok (a.length : ℤ)) ∧
        ((∀ exts, h.extensions = some exts → ∀ y ∈ exts, y.type ≠ 0) →
          findSNIOffset h.encode = .ok (-1)) := by
  refine ⟨findSNIOffset_safe, fun h => ⟨?_, ?_⟩⟩
  · intro before x after hexts hbefore hx hnonempty
    have hmore : x.body ++ after.flatMap Extension.encode ≠ [] := by
      obtain ⟨y, hy, -, hbody⟩ := hnonempty
      intro hnil
      obtain ⟨hxnil, hafter⟩ := List.append_eq_nil_iff.1 hnil
      rcases List.mem_cons.1 hy with rfl | hy
      · exact hbody hxnil
      · have hpos := y.encode_pos
        rw [List.flatMap_eq_nil_iff.1 hafter y hy] at hpos
        cases hpos
    have hfind := findSNIOffset_finds h.fits hbefore hx hmore rfl (h.extensions_length _ hexts)
    exact ⟨_, h.encode_cut hexts, by rw [h.encode_cut hexts, hfind]⟩
  · intro habsent
    rw [Hello.encode, Hello.block]
    cases hexts : h.extensions with
    | none =>
      dsimp only
      rw [afterRandom_eq, findSNIOffset_block h.fits, List.append_nil, fromExtensions,
        if_pos (Nat.le_add_right _ 2)]
      rfl
    | some exts =>
      exact findSNIOffset_absent h.fits (habsent exts hexts) (h.extensions_length exts hexts)

/-- The extension `supported_groups`, and a `server_name` whose body is the list of the name
`a.b`. -/
def sampleExtensions : List Extension :=
  [⟨10, [0, 2, 0, 29]⟩, ⟨0, [0, 6, 0, 0, 3, 97, 46, 98]⟩]

theorem sampleExtensions_length (exts : List Extension) (h : some sampleExtensions = some exts) :
    (exts.flatMap Extension.encode).length < 256 ^ 2 := by
  rw [← Option.some.inj h]
  decide

/-- A hello with one cipher suite and these extensions. -/
def sampleHello : Hello where
  recordVersion := 0x0301
  version := 0x0303
  random := List.replicate 32 0
  sessionID := []
  cipherSuites := [0x1301]
  compression := [0]
  extensions := some sampleExtensions
  random_length := List.length_replicate
  sessionID_length := by decide
  cipherSuites_length := by decide
  compression_length := by decide
  extensions_length := sampleExtensions_length

theorem findSNIOffset_sample :
    ∃ a, sampleHello.encode = a ++ [0, 0, 0, 8, 0, 6, 0, 0, 3, 97, 46, 98] ∧
      findSNIOffset sampleHello.encode = .ok (a.length : ℤ) :=
  (findSNIOffset_locates.2 sampleHello).1 [⟨10, [0, 2, 0, 29]⟩]
    ⟨0, [0, 6, 0, 0, 3, 97, 46, 98]⟩ [] rfl (by decide) rfl ⟨_, List.mem_cons_self, rfl, by decide⟩

/-! ## The name in it -/

/-- An entry of the list of names: its type, which is always that of a host name, its length
and the name. -/
def encodeName (host : Bytes) : Bytes := 0x00 :: (beBytes 2 host.length ++ host)

/-- A `server_name` extension with these host names. -/
def serverName (hosts : List Bytes) : Extension :=
  ⟨0, beBytes 2 (hosts.flatMap encodeName).length ++ hosts.flatMap encodeName⟩

theorem serverName_body_append_ne_nil (hosts : List Bytes) (c : Bytes) :
    (serverName hosts).body ++ c ≠ [] := by
  rw [← List.length_pos_iff, serverName]
  simp

/-- The nine bytes of such an extension before its first name, for a name of `n` bytes and
`m` bytes of names behind it. -/
def nameHeader (n m : ℕ) : Bytes :=
  beBytes 2 0 ++ (beBytes 2 (5 + n + m) ++ (beBytes 2 (3 + n + m) ++ 0x00 :: beBytes 2 n))

theorem length_nameHeader (n m : ℕ) : (nameHeader n m).length = 9 := by
  simp [nameHeader]

theorem serverName_encode (host : Bytes) (more : List Bytes) :
    (serverName (host :: more)).encode
      = nameHeader host.length (more.flatMap encodeName).length
          ++ (host ++ more.flatMap encodeName) := by
  have hlist : ((host :: more).flatMap encodeName).length
      = 3 + host.length + (more.flatMap encodeName).length := by
    simp only [List.flatMap_cons, encodeName, List.length_append, List.length_cons, length_beBytes]
    omega
  have hbody : (serverName (host :: more)).body.length
      = 5 + host.length + (more.flatMap encodeName).length := by
    rw [serverName, List.length_append, length_beBytes, hlist]
    omega
  rw [Extension.encode, encodeField, hbody, nameHeader, serverName, hlist]
  simp [List.flatMap_cons, encodeName]

/-- In data with a name of `n` bytes at the place that `findSNIOffset` leads to, `replaceSNI`
overwrites the name. -/
theorem replaceSNI_at {a host c : Bytes} {m : ℕ} (newSNI : Bytes) (hpos : 0 < host.length)
    (hlen : host.length < 256 ^ 2)
    (hfind : findSNIOffset (a ++ (nameHeader host.length m ++ (host ++ c))) = .ok (a.length : ℤ)) :
    replaceSNI (a ++ (nameHeader host.length m ++ (host ++ c))) newSNI
      = .ok (a ++ (nameHeader host.length m ++ (fitted newSNI host.length ++ c))) := by
  set data := a ++ (nameHeader host.length m ++ (host ++ c)) with hdata
  have htotal : data.length = a.length + 9 + host.length + c.length := by
    simp only [hdata, List.length_append, length_nameHeader]
    omega
  have hread : uint16At data (a.length + 4 + 2 + 1) = .ok host.length := by
    refine uint16At_append (a := a ++ (beBytes 2 0 ++ (beBytes 2 (5 + host.length + m)
      ++ (beBytes 2 (3 + host.length + m) ++ [0x00])))) (c := host ++ c) ?_ ?_ hlen
    · simp [hdata, nameHeader]
    · simp
  have hfield : hostField data a.length = .ok (some (a.length + 9, host.length)) := by
    rw [hostField]
    dsimp only
    rw [if_neg (by omega), if_neg (by omega), if_neg (by omega), hread, Go.ok_bind,
      if_neg (by omega)]
    rfl
  have hcut : (a ++ nameHeader host.length m).length = a.length + 9 := by
    rw [List.length_append, length_nameHeader]
  have htake : data.take (a.length + 9) = a ++ nameHeader host.length m := by
    rw [hdata, ← List.append_assoc]
    exact List.take_left' hcut
  have hdrop : data.drop (a.length + 9 + host.length) = c := by
    rw [hdata, ← List.append_assoc, ← List.append_assoc]
    refine List.drop_left' ?_
    rw [List.length_append, hcut]
  have hnonneg : ¬ ((a.length : ℤ) < 0) := by omega
  rw [replaceSNI, hfind, Go.ok_bind, if_neg hnonneg, Int.toNat_natCast, hfield, Go.ok_bind]
  dsimp only
  rw [copyAt_eq (by rw [length_fitted]; omega), length_fitted, htake, hdrop, List.append_assoc]

/-- The first name is found, whatever it is. -/
theorem findSNIOffset_serverName {front sessionID suites compression : Bytes}
    (hfits : Fits front sessionID suites compression) {host : Bytes} {more : List Bytes}
    (hbefore : ∀ y ∈ before, y.type ≠ 0)
    (htotal : ((before ++ serverName (host :: more) :: after).flatMap Extension.encode).length
      = total) (hlen : total < 256 ^ 2) :
    let a := beforeExtension (beforeBlock front sessionID suites compression) total before
    findSNIOffset (a ++ (nameHeader host.length (more.flatMap encodeName).length
        ++ (host ++ (more.flatMap encodeName ++ after.flatMap Extension.encode))))
      = .ok (a.length : ℤ) := by
  intro a
  have hmore := serverName_body_append_ne_nil (host :: more) (after.flatMap Extension.encode)
  have hfind := findSNIOffset_finds hfits hbefore rfl hmore htotal hlen
  rw [serverName_encode] at hfind
  simpa only [List.append_assoc] using hfind

/-- The length of the extensions depends on the host name by its length. -/
theorem length_flatMap_serverName (before after : List Extension) (host : Bytes)
    (more : List Bytes) :
    ((before ++ serverName (host :: more) :: after).flatMap Extension.encode).length
      = host.length + (9 + (before.flatMap Extension.encode).length
          + (more.flatMap encodeName).length + (after.flatMap Extension.encode).length) := by
  rw [flatMap_encode_cut, serverName_encode]
  simp only [List.length_append, length_nameHeader]
  omega

theorem replaceSNI_serverName {front sessionID suites compression : Bytes}
    (hfits : Fits front sessionID suites compression) {host : Bytes} {more : List Bytes}
    (hbefore : ∀ y ∈ before, y.type ≠ 0)
    (htotal : ((before ++ serverName (host :: more) :: after).flatMap Extension.encode).length
      = total) (hlen : total < 256 ^ 2) (hpos : 0 < host.length) (newSNI : Bytes) :
    let a := beforeExtension (beforeBlock front sessionID suites compression) total before
      ++ nameHeader host.length (more.flatMap encodeName).length
    let c := more.flatMap encodeName ++ after.flatMap Extension.encode
    replaceSNI (a ++ (host ++ c)) newSNI = .ok (a ++ (fitted newSNI host.length ++ c)) := by
  intro a c
  have hfind := findSNIOffset_serverName hfits hbefore htotal hlen
  have hhost : host.length < 256 ^ 2 := by
    rw [length_flatMap_serverName] at htotal
    omega
  rw [List.append_assoc, List.append_assoc]
  exact replaceSNI_at newSNI hpos hhost hfind

/-- **Only the name changes.**  On every byte string and for every new name, `replaceSNI`
returns as many bytes as it was given.  In a hello whose first `server_name` extension has a
host name, the bytes of its first host name become the new name, cut off or filled up with
dots, and all others stay; doing it again changes nothing. -/
theorem replaceSNI_frame :
    (∀ data newSNI, ∃ result, replaceSNI data newSNI = .ok result ∧
        result.length = data.length) ∧
      ∀ (h : Hello) (before after : List Extension) (host : Bytes) (more : List Bytes),
        h.extensions = some (before ++ serverName (host :: more) :: after) →
        (∀ y ∈ before, y.type ≠ 0) → 0 < host.length →
        ∃ a, ∀ newSNI : Bytes,
          let c := more.flatMap encodeName ++ after.flatMap Extension.encode
          let name := (newSNI ++ List.replicate host.length dot).take host.length
          h.encode = a ++ (host ++ c) ∧
            replaceSNI h.encode newSNI = .ok (a ++ (name ++ c)) ∧
            replaceSNI (a ++ (name ++ c)) newSNI = .ok (a ++ (name ++ c)) := by
  refine ⟨replaceSNI_safe, ?_⟩
  intro h before after host more hexts hbefore hpos
  have hlen := h.extensions_length _ hexts
  have hencode := h.encode_cut hexts
  rw [serverName_encode, List.append_assoc, List.append_assoc, ← List.append_assoc] at hencode
  refine ⟨_, fun newSNI => ⟨hencode, ?_⟩⟩
  -- the new name has the length of the old one, and with it the same bytes before it
  have hsame : (fitted newSNI host.length).length = host.length := length_fitted newSNI host.length
  have htotal : ((before ++ serverName (fitted newSNI host.length :: more) :: after).flatMap
      Extension.encode).length
        = ((before ++ serverName (host :: more) :: after).flatMap Extension.encode).length := by
    rw [length_flatMap_serverName, length_flatMap_serverName, hsame]
  have hfirst := replaceSNI_serverName h.fits hbefore rfl hlen hpos newSNI
  have hagain := replaceSNI_serverName h.fits hbefore htotal hlen (hsame.symm ▸ hpos) newSNI
  rw [hsame] at hagain
  rw [← fitted_eq_take]
  exact ⟨by rw [hencode, hfirst], hagain⟩

/-- The name `a.b` becomes `x..`. -/
theorem replaceSNI_sample :
    ∃ a, sampleHello.encode = a ++ [97, 46, 98] ∧
      replaceSNI sampleHello.encode [120] = .ok (a ++ [120, 46, 46]) ∧
      replaceSNI (a ++ [120, 46, 46]) [120] = .ok (a ++ [120, 46, 46]) :=
  have ⟨a, ha⟩ := replaceSNI_frame.2 sampleHello [⟨10, [0, 2, 0, 29]⟩] [] [97, 46, 98] [] rfl
    (by decide) (by decide)
  ⟨a, ha [120]⟩

/-! ## Two segments -/

/-- A hello that is cut where `findSNIOffset` says goes out in two writes. -/
theorem writeSplit_calls {c : SpoofConn} (hc : c.conn.sink.Reliable)
    (hauto : c.spoofer.splitPos ≤ 0) {a b : Bytes} (ha : a ≠ [])
    (hfind : findSNIOffset (a ++ b) = .ok (a.length : ℤ)) :
    Yields (c.writeSplit (a ++ b)) fun r => r.2.2.conn.calls = c.conn.calls ++ [a, b] := by
  have hpos : 0 < a.length := List.length_pos_iff.2 ha
  have hcut : c.splitAt (a ++ b) (a.length : ℤ) = a.length := by
    rw [SpoofConn.splitAt, if_neg (by omega), Int.toNat_natCast]
  have hfirst : (slice (a ++ b) 0 a.length : Go Empty Bytes) = .ok a :=
    slice_append (a := []) (c := b) rfl rfl (Nat.zero_add _).symm
  have hsecond : (slice (a ++ b) a.length (a ++ b).length : Go Empty Bytes) = .ok b :=
    slice_append (c := []) (by rw [List.append_nil]) rfl List.length_append
  have hnext : Sink.Reliable ⟨c.conn.sink.written ++ a, []⟩ := rfl
  rw [SpoofConn.writeSplit, hfind, Go.ok_bind, if_neg (by omega)]
  dsimp only
  rw [hcut, hfirst, Go.ok_bind, SpoofConn.writeDirect_eq hc]
  dsimp only
  rw [hsecond, Go.ok_bind, SpoofConn.writeDirect_eq hnext]
  exact ⟨_, rfl, List.append_assoc ..⟩

/-- A spoofer without a method, or with the method to split, cuts the first hello. -/
theorem write_eq_writeSplit {cfg : SNISpoofing} (hmethod : cfg.method ∈ [.other "", .split])
    (conn : Recorder) {p : Bytes} (hhello : isTLSClientHello p = true) :
    (wrapConn conn (newSNISpoofing cfg)).write p
      = SpoofConn.writeSplit ⟨conn, newSNISpoofing cfg, false⟩ p := by
  have hsplit : (newSNISpoofing cfg).method = .split := by
    simp only [List.mem_cons, List.not_mem_nil, or_false] at hmethod
    rcases hmethod with h | h
    · exact if_pos h
    · rw [newSNISpoofing, h]
      rfl
  rw [SpoofConn.write, wrapConn, if_neg (not_not.2 rfl)]
  dsimp only
  rw [if_neg (not_not.2 hhello), hsplit]

/-- **The extension is not in the first segment.**  On a connection that takes everything, unless a
place to cut is configured, a hello with a host name goes out in two writes, of which the first is
all that stands in front of the `server_name` extension and the second starts with it. -/
theorem write_before_name {conn : Recorder} (hconn : conn.sink.Reliable) {cfg : SNISpoofing}
    (hmethod : cfg.method ∈ [.other "", .split]) (hauto : cfg.splitPos ≤ 0) (h : Hello)
    (hhello : isTLSClientHello h.encode = true) {before after : List Extension} {host : Bytes}
    {more : List Bytes} (hexts : h.extensions = some (before ++ serverName (host :: more) :: after))
    (hbefore : ∀ y ∈ before, y.type ≠ 0) :
    ∃ a, h.encode = a ++ ((serverName (host :: more)).encode ++ after.flatMap Extension.encode) ∧
      Yields ((wrapConn conn (newSNISpoofing cfg)).write h.encode) fun r =>
        r.2.2.conn.calls = conn.calls
          ++ [a, (serverName (host :: more)).encode ++ after.flatMap Extension.encode] := by
  have hmore := serverName_body_append_ne_nil (host :: more) (after.flatMap Extension.encode)
  have hfind :=
    findSNIOffset_finds h.fits hbefore rfl hmore rfl (h.extensions_length _ hexts)
  have hne : ∀ total, beforeExtension (beforeBlock h.front h.sessionID h.encodedSuites
      h.compression) total before ≠ [] := by
    intro total
    rw [← List.length_pos_iff, beforeExtension, beforeBlock]
    simp [afterRandom]
  rw [write_eq_writeSplit hmethod conn hhello, h.encode_cut hexts]
  exact ⟨_, rfl, writeSplit_calls hconn hauto (hne _) hfind⟩

theorem write_before_name_sample :
    ∃ a, sampleHello.encode = a ++ [0, 0, 0, 8, 0, 6, 0, 0, 3, 97, 46, 98] ∧
      Yields ((wrapConn ⟨⟨[], []⟩, []⟩ (newSNISpoofing ⟨[], .split, 0⟩)).write
        sampleHello.encode) fun r =>
          r.2.2.conn.calls = [a, [0, 0, 0, 8, 0, 6, 0, 0, 3, 97, 46, 98]] := by
  have hconn : (Recorder.mk ⟨[], []⟩ []).sink.Reliable := rfl
  have hexts : sampleHello.extensions
      = some ([⟨10, [0, 2, 0, 29]⟩] ++ serverName [[97, 46, 98]] :: []) := rfl
  exact write_before_name hconn (by decide) (by decide) _ (by decide +kernel) hexts (by decide)

end SniSpoof
