/-
# ClientHello messages and what the parser finds in them

A ClientHello as a value, with the encoding that TLS gives it, and
`wrapTLSHandshakeRecord` of `internal/antidpi/reality.go`, which puts the encoding into
a record.  The parser of `IPShadowT.RealityHello` inverts the two: from the record of
any hello with a key share it returns the session id of the hello and its X25519 key.

Where a hello has several `key_share` extensions, each one that has an X25519 key
overwrites the key found before it, so the last of them decides; within one extension
the first entry does.
-/
import IPShadowT.RealityHello

open Bytes

namespace Reality

/-! ## Messages -/

/-- An entry of a `key_share` extension. -/
structure KeyShareEntry where
  group : UInt16
  key : Bytes
  deriving DecidableEq

/-- An extension: a `key_share`, or one of another type with any content. -/
inductive Extension where
  | keyShare (entries : List KeyShareEntry)
  | other (type : UInt16) (data : Bytes) (htype : type ≠ 0x0033)

/-- A ClientHello with a session id of 32 bytes.  The compression list has a length of one
byte. -/
structure ClientHello where
  version : UInt16
  random : Bytes
  sessionID : Bytes
  cipherSuites : List UInt16
  compression : Bytes
  extensions : List Extension
  random_length : random.length = 32
  sessionID_length : sessionID.length = 32
  compression_length : compression.length < 256

/-! ## The encoding -/

/-- A field: its type, its length and its body. -/
def encodeField (kind : ℕ) (body : Bytes) : Bytes :=
  beBytes 2 kind ++ (beBytes 2 body.length ++ body)

def KeyShareEntry.encode (e : KeyShareEntry) : Bytes := encodeField e.group.toNat e.key

/-- The entries of a key share, behind their length. -/
def encodeEntries (entries : List KeyShareEntry) : Bytes :=
  beBytes 2 (entries.flatMap KeyShareEntry.encode).length
    ++ entries.flatMap KeyShareEntry.encode

def Extension.encode : Extension → Bytes
  | .keyShare entries => encodeField 0x0033 (encodeEntries entries)
  | .other type data _ => encodeField type.toNat data

/-- The cipher suites of a hello. -/
def encodeSuites (suites : List UInt16) : Bytes := suites.flatMap fun c => beBytes 2 c.toNat

namespace ClientHello

variable (h : ClientHello)

def encodedSuites : Bytes := encodeSuites h.cipherSuites

def encodedExtensions : Bytes := h.extensions.flatMap Extension.encode

/-- The body from the extensions on. -/
def extensionsPart : Bytes :=
  beBytes 2 h.encodedExtensions.length ++ h.encodedExtensions

/-- The body from the cipher suites on. -/
def suitesPart : Bytes :=
  beBytes 2 h.encodedSuites.length
    ++ (h.encodedSuites
      ++ UInt8.ofNat h.compression.length :: (h.compression ++ h.extensionsPart))

/-- The body from the session id on. -/
def sessionPart : Bytes :=
  UInt8.ofNat h.sessionID.length :: (h.sessionID ++ h.suitesPart)

def body : Bytes := beBytes 2 h.version.toNat ++ (h.random ++ h.sessionPart)

/-- The handshake message. -/
def encode : Bytes := 0x01 :: (beBytes 3 h.body.length ++ h.body)

end ClientHello

/-- `wrapTLSHandshakeRecord`. -/
def wrapTLSHandshakeRecord (handshake : Bytes) : Bytes :=
  [0x16, 0x03, 0x01, UInt8.ofNat (handshake.length / 256), UInt8.ofNat handshake.length]
    ++ handshake

/-! ## The key of a hello -/

/-- An entry the server can use. -/
def KeyShareEntry.IsX25519 (e : KeyShareEntry) : Prop := e.group = 0x001d ∧ e.key.length = 32

instance (e : KeyShareEntry) : Decidable e.IsX25519 :=
  inferInstanceAs (Decidable (e.group = 0x001d ∧ e.key.length = 32))

/-- The first X25519 key among some entries. -/
def firstX25519 (entries : List KeyShareEntry) : Option Bytes :=
  (entries.find? fun e => e.IsX25519).map KeyShareEntry.key

/-- The X25519 key of an extension, if it is a key share and has one. -/
def Extension.x25519 : Extension → Option Bytes
  | .keyShare entries => firstX25519 entries
  | .other _ _ _ => none

/-- The first X25519 key of the last key share that has one. -/
def ClientHello.x25519Key (h : ClientHello) : Option Bytes :=
  (h.extensions.filterMap Extension.x25519).getLast?

/-! ## The loops over encoded fields -/

@[simp] theorem length_encodeField (kind : ℕ) (body : Bytes) :
    (encodeField kind body).length = 4 + body.length := by
  simp [encodeField]
  omega

/-- One round of a loop reads the field that was written at its position. -/
theorem nextField_encodeField {ε : Type} {data pre rest body : Bytes} {fin pos kind : ℕ}
    (hdata : data = pre ++ (encodeField kind body ++ rest)) (hpos : pos = pre.length)
    (hkind : kind < 256 ^ 2) (hlen : body.length < 256 ^ 2) (hfin : pos + 4 + body.length ≤ fin) :
    (nextField data fin pos : Go ε _) = .ok (some (kind, body, pos + 4 + body.length)) := by
  rw [encodeField, List.append_assoc, List.append_assoc] at hdata
  have hlenField : data = (pre ++ beBytes 2 kind) ++ (beBytes 2 body.length ++ (body ++ rest)) := by
    rw [hdata, List.append_assoc]
  have hbody : data
      = (pre ++ (beBytes 2 kind ++ beBytes 2 body.length)) ++ (body ++ rest) := by
    rw [hdata]
    simp only [List.append_assoc]
  unfold nextField
  rw [if_pos (by omega), slice_append hdata hpos (by simp), Go.ok_bind, beField_beBytes hkind,
    Go.ok_bind, slice_append hlenField (by simp [hpos]) (by simp), Go.ok_bind,
    beField_beBytes hlen, Go.ok_bind, if_neg (by omega)]
  rw [slice_append hbody (by simp [hpos]) rfl]
  rfl

theorem toNat_lt_sq (x : UInt16) : x.toNat < 256 ^ 2 := x.toNat_lt

variable {fuel : ℕ} {payload : Bytes} {key : Bytes}

/-- The key share loop over encoded entries finds the first key. -/
theorem keyShareLoop_encode {extData : Bytes} (pre : Bytes) {entries : List KeyShareEntry}
    (hdata : extData = pre ++ entries.flatMap KeyShareEntry.encode)
    (hlen : extData.length < 256 ^ 2) (hfuel : entries.length < fuel) :
    keyShareLoop extData fuel pre.length
      = match firstX25519 entries with
        | some key => .ok key
        | none => .error (.error .notFound) := by
  induction entries generalizing pre fuel with
  | nil =>
    have hend : extData.length < pre.length + 4 := by
      rw [hdata]
      simp
    rw [keyShareLoop_of_lt hend]
    rfl
  | cons e entries ih =>
    obtain ⟨fuel, rfl⟩ : ∃ f, fuel = f + 1 := ⟨fuel - 1, by omega⟩
    rw [List.flatMap_cons] at hdata
    have hlength := congrArg List.length hdata
    simp only [KeyShareEntry.encode, List.length_append, length_encodeField] at hlength
    rw [keyShareLoop, nextField_encodeField hdata rfl (toNat_lt_sq _) (by omega) (by omega),
      Go.ok_bind]
    have hgroup : e.group.toNat = 0x001d ↔ e.group = 0x001d := by
      rw [← UInt16.toNat_inj]
      rfl
    by_cases he : e.IsX25519
    · rw [firstX25519, List.find?_cons_of_pos (by simpa using he)]
      dsimp only
      rw [if_pos ⟨hgroup.2 he.1, he.2⟩]
      rfl
    · rw [firstX25519, List.find?_cons_of_neg (by simpa using he)]
      dsimp only
      rw [if_neg fun hx => he ⟨hgroup.1 hx.1, hx.2⟩]
      -- the rest of the loop starts behind this entry
      have hpre : pre.length + 4 + e.key.length = (pre ++ e.encode).length := by
        simp [KeyShareEntry.encode, Nat.add_assoc]
      rw [hpre]
      exact ih _ (by rw [hdata, List.append_assoc]) (Nat.lt_of_succ_lt_succ hfuel)

theorem parseKeyShareX25519_encode {entries : List KeyShareEntry}
    (hlen : (encodeEntries entries).length < 256 ^ 2) :
    parseKeyShareX25519 (encodeEntries entries)
      = match firstX25519 entries with
        | some key => .ok key
        | none => .error (.error .notFound) := by
  have hcount := length_le_flatMap (f := KeyShareEntry.encode)
    (fun e => by simp [KeyShareEntry.encode]) entries
  have hlength : (encodeEntries entries).length
      = 2 + (entries.flatMap KeyShareEntry.encode).length := by
    simp [encodeEntries]
  unfold parseKeyShareX25519
  rw [if_neg (by omega)]
  exact keyShareLoop_encode (beBytes 2 _) rfl hlen (by omega)

/-- One round of the extension loop over an encoded extension. -/
theorem extensionLoop_encode_cons {payload pre rest : Bytes} (x : Extension)
    (hdata : payload = pre ++ (x.encode ++ rest)) (hlen : payload.length < 256 ^ 2) (key : Bytes) :
    extensionLoop payload payload.length (fuel + 1) pre.length key
      = extensionLoop payload payload.length fuel (pre ++ x.encode).length
          (x.x25519.getD key) := by
  have hlength := congrArg List.length hdata
  cases x with
  | keyShare entries =>
    simp only [Extension.encode, List.length_append, length_encodeField] at hlength
    have hentries : (encodeEntries entries).length < 256 ^ 2 := by omega
    rw [extensionLoop,
      nextField_encodeField hdata rfl (by decide) (by omega) (by omega), Go.ok_bind]
    simp only [if_true, parseKeyShareX25519_encode hentries, Extension.x25519,
      Extension.encode, List.length_append, length_encodeField, Nat.add_assoc]
    cases firstX25519 entries with
    | none => rfl
    | some k => rfl
  | other type data htype =>
    simp only [Extension.encode, List.length_append, length_encodeField] at hlength
    have htype' : type.toNat ≠ 0x0033 := fun h => htype (UInt16.toNat_inj.1 h)
    rw [extensionLoop,
      nextField_encodeField hdata rfl (toNat_lt_sq _) (by omega) (by omega), Go.ok_bind]
    simp only [if_neg htype', Extension.x25519, Extension.encode, List.length_append,
      length_encodeField, Nat.add_assoc, Option.getD_none]

/-- The extension loop over encoded extensions ends with the last key. -/
theorem extensionLoop_encode (pre : Bytes) {extensions : List Extension}
    (hdata : payload = pre ++ extensions.flatMap Extension.encode) (hlen : payload.length < 256 ^ 2)
    (hfuel : extensions.length < fuel) (key : Bytes) :
    extensionLoop payload payload.length fuel pre.length key
      = .ok ((extensions.filterMap Extension.x25519).getLast?.getD key) := by
  induction extensions generalizing pre fuel key with
  | nil =>
    have hend : payload.length < pre.length + 4 := by
      rw [hdata]
      simp
    rw [extensionLoop_of_lt hend]
    rfl
  | cons x extensions ih =>
    obtain ⟨fuel, rfl⟩ : ∃ f, fuel = f + 1 := ⟨fuel - 1, by omega⟩
    rw [List.flatMap_cons] at hdata
    rw [extensionLoop_encode_cons x hdata hlen,
      ih _ (by rw [hdata, List.append_assoc]) (Nat.lt_of_succ_lt_succ hfuel)]
    cases hx : x.x25519 with
    | none => rw [List.filterMap_cons_none hx, Option.getD_none]
    | some k =>
      rw [List.filterMap_cons_some hx, List.getLast?_cons, Option.getD_some, Option.getD_some]

/-! ## The parser on an encoded hello -/

section Parse

variable (h : ClientHello)

theorem parseExtensions_encode (pre : Bytes) (hdata : payload = pre ++ h.extensionsPart)
    (hlen : payload.length < 256 ^ 2) :
    parseExtensions payload pre.length = .ok (h.x25519Key.getD []) := by
  have hcount := length_le_flatMap (f := Extension.encode)
    (fun x => by cases x <;> simp [Extension.encode]) h.extensions
  have hlength : payload.length = pre.length + (2 + h.encodedExtensions.length) := by
    rw [hdata, ClientHello.extensionsPart, List.length_append, List.length_append, length_beBytes]
  have hpre : payload
      = (pre ++ beBytes 2 h.encodedExtensions.length) ++ h.extensions.flatMap Extension.encode := by
    rw [hdata, List.append_assoc]
    rfl
  unfold parseExtensions
  rw [if_neg (by omega), slice_append hdata rfl (by simp), Go.ok_bind,
    beField_beBytes (by omega), Go.ok_bind]
  have hend : pre.length + 2 + h.encodedExtensions.length = payload.length := by omega
  have hstart : pre.length + 2 = (pre ++ beBytes 2 h.encodedExtensions.length).length := by
    simp
  dsimp only
  rw [hend, if_neg (by omega), hstart]
  exact extensionLoop_encode _ hpre hlen (hcount.trans_lt (by
    show h.encodedExtensions.length < _
    omega)) []

theorem parseAfterSessionID_encode (pre : Bytes) (hdata : payload = pre ++ h.suitesPart)
    (hlen : payload.length < 256 ^ 2) :
    parseAfterSessionID payload pre.length = .ok (h.x25519Key.getD []) := by
  have hcomp : (UInt8.ofNat h.compression.length).toNat = h.compression.length :=
    UInt8.toNat_ofNat_of_lt' h.compression_length
  rw [ClientHello.suitesPart] at hdata
  have hlength := congrArg List.length hdata
  simp only [List.length_append, List.length_cons, length_beBytes] at hlength
  have hcompAt : payload
      = (pre ++ (beBytes 2 h.encodedSuites.length ++ h.encodedSuites))
        ++ UInt8.ofNat h.compression.length :: (h.compression ++ h.extensionsPart) := by
    rw [hdata]
    simp only [List.append_assoc]
  have hextAt : payload
      = (pre ++ (beBytes 2 h.encodedSuites.length ++ (h.encodedSuites
          ++ UInt8.ofNat h.compression.length :: h.compression))) ++ h.extensionsPart := by
    rw [hdata]
    simp only [List.append_assoc, List.cons_append]
  unfold parseAfterSessionID
  rw [if_neg (by omega), slice_append hdata rfl (by simp), Go.ok_bind,
    beField_beBytes (by omega), Go.ok_bind]
  dsimp only
  rw [if_neg (by omega), index_append hcompAt (by simp), Go.ok_bind, hcomp]
  have hstart : pre.length + (2 + h.encodedSuites.length) + (1 + h.compression.length)
      = (pre ++ (beBytes 2 h.encodedSuites.length ++ (h.encodedSuites
          ++ UInt8.ofNat h.compression.length :: h.compression))).length := by
    simp only [List.length_append, List.length_cons, length_beBytes]
    omega
  rw [hstart]
  exact parseExtensions_encode h _ hextAt hlen

theorem parseHandshake_encode (hlen : h.encode.length < 256 ^ 2) :
    parseHandshake h.encode = .ok (h.sessionID, h.x25519Key.getD []) := by
  have hsess : (UInt8.ofNat h.sessionID.length).toNat = h.sessionID.length := by
    rw [h.sessionID_length]
    rfl
  -- what stands before the session id
  set front : Bytes :=
    0x01 :: (beBytes 3 h.body.length ++ (beBytes 2 h.version.toNat ++ h.random)) with hfront
  have hfront_length : front.length = 38 := by
    simp [hfront, h.random_length]
  have hsessAt : h.encode = front ++ UInt8.ofNat h.sessionID.length :: (h.sessionID
      ++ h.suitesPart) := by
    rw [hfront, ClientHello.encode, List.cons_append, List.append_assoc, List.append_assoc]
    rfl
  have hidAt : h.encode = (front ++ [UInt8.ofNat h.sessionID.length]) ++ (h.sessionID
      ++ h.suitesPart) := by
    rw [hsessAt, List.append_assoc]
    rfl
  have hsuitesAt : h.encode = (front ++ UInt8.ofNat h.sessionID.length :: h.sessionID)
      ++ h.suitesPart := by
    rw [hsessAt, List.append_assoc]
    rfl
  have hlength := congrArg List.length hsessAt
  simp only [List.length_append, List.length_cons, hfront_length] at hlength
  have htype : (index h.encode 0 : Go HelloError UInt8) = .ok 0x01 := rfl
  unfold parseHandshake
  rw [if_neg (by omega), htype, Go.ok_bind, if_neg (by decide), if_neg (by omega),
    index_append hsessAt hfront_length.symm, Go.ok_bind, hsess, if_neg (by omega),
    slice_append hidAt (by simp [hfront_length]) rfl, Go.ok_bind]
  have hstart : 39 + h.sessionID.length
      = (front ++ UInt8.ofNat h.sessionID.length :: h.sessionID).length := by
    simp only [List.length_append, List.length_cons, hfront_length]
    omega
  rw [hstart, parseAfterSessionID_encode h _ hsuitesAt hlen]
  rfl

end Parse

/-- The record gives back the message it was made of. -/
theorem parseClientHelloAuth_wrap {handshake : Bytes} (hlen : handshake.length < 256 ^ 2) :
    parseClientHelloAuth (wrapTLSHandshakeRecord handshake)
      = parseHandshake handshake >>= fun ids => checkLengths ids.1 ids.2 := by
  have hrecord : (UInt8.ofNat (handshake.length / 256)).toNat * 256
      + (UInt8.ofNat handshake.length).toNat = handshake.length := by
    simp only [UInt8.toNat_ofNat', Nat.reducePow]
    omega
  have hlength : (wrapTLSHandshakeRecord handshake).length = 5 + handshake.length := by
    simp only [wrapTLSHandshakeRecord, List.length_append, List.length_cons, List.length_nil]
  have hdata : wrapTLSHandshakeRecord handshake
      = [0x16, 0x03, 0x01, UInt8.ofNat (handshake.length / 256), UInt8.ofNat handshake.length]
        ++ (handshake ++ []) := by
    rw [List.append_nil]
    rfl
  have htype : (index (wrapTLSHandshakeRecord handshake) 0 : Go HelloError UInt8) = .ok 0x16 :=
    rfl
  have hhi : (index (wrapTLSHandshakeRecord handshake) 3 : Go HelloError UInt8)
      = .ok (UInt8.ofNat (handshake.length / 256)) := rfl
  have hlo : (index (wrapTLSHandshakeRecord handshake) 4 : Go HelloError UInt8)
      = .ok (UInt8.ofNat handshake.length) := rfl
  unfold parseClientHelloAuth
  rw [if_neg (by omega), htype, Go.ok_bind, if_neg (by decide), hhi, Go.ok_bind, hlo, Go.ok_bind]
  dsimp only
  rw [hrecord, if_neg (by omega), slice_append (i := 5) hdata rfl rfl, Go.ok_bind]

theorem length_of_mem_x25519 {x : Extension} (hx : x.x25519 = some key) : key.length = 32 := by
  cases x with
  | keyShare entries =>
    obtain ⟨e, he, rfl⟩ := Option.map_eq_some_iff.1 hx
    have hprop := List.find?_some he
    exact (of_decide_eq_true hprop).2
  | other type data htype => cases hx

theorem ClientHello.length_x25519Key {h : ClientHello} (hkey : h.x25519Key = some key) :
    key.length = 32 := by
  obtain ⟨x, -, hx⟩ := List.mem_filterMap.1 (List.mem_of_getLast? hkey)
  exact length_of_mem_x25519 hx

/-- A parser reads back the session id and the key of a hello that was put into a
record. -/
theorem parseClientHelloAuth_wrap_encode {h : ClientHello} (hlen : h.encode.length ≤ 65535)
    (hkey : h.x25519Key = some key) :
    parseClientHelloAuth (wrapTLSHandshakeRecord h.encode) = .ok (h.sessionID, key) := by
  have hlen' : h.encode.length < 256 ^ 2 := Nat.lt_succ_of_le hlen
  rw [parseClientHelloAuth_wrap hlen', parseHandshake_encode h hlen', hkey, Go.ok_bind]
  exact checkLengths_of_length h.sessionID_length (ClientHello.length_x25519Key hkey)

/-- **The parser inverts the encoder and never panics.**  From the record of a hello with
a key share it returns the session id and the key of the hello.  On any bytes, it and the
parser of the key share return, and do so by themselves: a loop that may go on for longer
gives the same result. -/
theorem parseClientHelloAuth_encode :
    (∀ (h : ClientHello) (key : Bytes), h.encode.length ≤ 65535 → h.x25519Key = some key →
        parseClientHelloAuth (wrapTLSHandshakeRecord h.encode) = .ok (h.sessionID, key))
      ∧ (∀ rawData, parseClientHelloAuth rawData ≠ .error .panic)
      ∧ (∀ extData, parseKeyShareX25519 extData ≠ .error .panic)
      ∧ (∀ extData pos fuel, extData.length ≤ fuel →
        keyShareLoop extData fuel pos = keyShareLoop extData extData.length pos)
      ∧ ∀ payload extEnd pos fuel key, extEnd ≤ payload.length → payload.length ≤ fuel →
        extensionLoop payload extEnd fuel pos key
          = extensionLoop payload extEnd payload.length pos key := by
  refine ⟨fun h key hlen hkey => parseClientHelloAuth_wrap_encode hlen hkey,
    parseClientHelloAuth_noPanic, parseKeyShareX25519_noPanic, ?_, ?_⟩
  · intro extData pos fuel hfuel
    exact keyShareLoop_fuel (by omega) (by omega)
  · intro payload extEnd pos fuel key hend hfuel
    exact extensionLoop_fuel (by omega) (by omega)

/-- The compression list with the null method only, which clients send, is short enough. -/
theorem length_nullCompression_lt : ([0] : Bytes).length < 256 := by decide

/-- A hello with two cipher suites, an extension without meaning and two key shares, the
first entry of which is not of the right group. -/
def sampleHello : ClientHello where
  version := 0x0303
  random := List.replicate 32 7
  sessionID := List.replicate 32 9
  cipherSuites := [0x1301, 0x1302]
  compression := [0]
  extensions :=
    [.keyShare [⟨0x001d, List.replicate 32 1⟩], .other 0x0a0a [] (by decide),
      .keyShare [⟨0x0017, [4, 5]⟩, ⟨0x001d, List.replicate 32 2⟩, ⟨0x001d, List.replicate 32 3⟩]]
  random_length := rfl
  sessionID_length := rfl
  compression_length := length_nullCompression_lt

theorem parseClientHelloAuth_sampleHello :
    parseClientHelloAuth (wrapTLSHandshakeRecord sampleHello.encode)
        = .ok (List.replicate 32 9, List.replicate 32 2)
      ∧ keyShareLoop [0, 0] 9 2 = keyShareLoop [0, 0] 2 2
      ∧ extensionLoop [1] 1 5 0 [] = extensionLoop [1] 1 1 0 [] :=
  ⟨parseClientHelloAuth_encode.1 sampleHello (List.replicate 32 2) (by decide +kernel)
      (by decide +kernel),
    parseClientHelloAuth_encode.2.2.2.1 [0, 0] 2 9 (by decide),
    parseClientHelloAuth_encode.2.2.2.2 [1] 1 0 5 [] (by decide) (by decide)⟩

end Reality
