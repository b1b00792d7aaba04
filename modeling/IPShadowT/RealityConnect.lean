/-
# The REALITY handshake from both sides

`NewRealityClient`, `Connect` and `sendAuthenticatedClientHello` of `internal/antidpi/reality.go`
against `HandleConnection`, with the key generator whose output both are configured with.  What uTLS
makes of a fingerprint is any ClientHello; its `MarshalClientHello` is a parameter, of which is used
that it lays a hello out as TLS does (`Marshals`).

`handshake_agrees` says when the server takes the client for one of its own, and that the client
then learns it.  If the server does not, the client talks to the fallback server, and is deceived
only by an answer that begins with `REALITYOK`.
-/
import IPShadowT.ClientHello
import IPShadowT.RealityIdentity
import IPShadowT.RealityProxy

open Bytes

namespace Reality

/-! ## Keys -/

/-- The public keys of X25519: both sides compute the same secret. -/
structure KeyPairs (C : Crypto) where
  pub : Bytes → Bytes
  pub_length : ∀ key, (pub key).length = 32
  agree : ∀ a b, C.ecdh a (pub b) = C.ecdh b (pub a)

/-- A digit of `hex.EncodeToString`. -/
def hexChar (n : ℕ) : UInt8 := if n < 10 then UInt8.ofNat (48 + n) else UInt8.ofNat (87 + n)

/-- `hex.EncodeToString`. -/
def hexEncode (b : Bytes) : Bytes :=
  b.flatMap fun x => [hexChar (x.toNat / 16), hexChar (x.toNat % 16)]

theorem hexDigit_hexChar : ∀ n < 16, hexDigit (hexChar n) = some n := by
  decide

@[simp] theorem length_hexEncode (b : Bytes) : (hexEncode b).length = 2 * b.length := by
  induction b with
  | nil => rfl
  | cons x b ih =>
    have hcons : hexEncode (x :: b)
        = hexChar (x.toNat / 16) :: hexChar (x.toNat % 16) :: hexEncode b := rfl
    rw [hcons, List.length_cons, List.length_cons, ih, List.length_cons]
    omega

/-- What is written in hexadecimal is read back. -/
theorem hexDecode_hexEncode (b : Bytes) : hexDecode (hexEncode b) = some b := by
  induction b with
  | nil => rfl
  | cons x b ih =>
    have hlt : x.toNat < 256 := x.toNat_lt
    have hbyte : UInt8.ofNat (x.toNat / 16 * 16 + x.toNat % 16) = x := by
      rw [Nat.div_add_mod', UInt8.ofNat_toNat]
    show (do
      let hi ← hexDigit (hexChar (x.toNat / 16))
      let lo ← hexDigit (hexChar (x.toNat % 16))
      let bs ← hexDecode (hexEncode b)
      return UInt8.ofNat (hi * 16 + lo) :: bs) = some (x :: b)
    rw [hexDigit_hexChar _ (by omega), hexDigit_hexChar _ (by omega), ih]
    show some (UInt8.ofNat (x.toNat / 16 * 16 + x.toNat % 16) :: b) = _
    rw [hbyte]

/-- `GenerateRealityKeyPair`, for the key that is drawn. -/
def generateRealityKeyPair {C : Crypto} (K : KeyPairs C) (key : Bytes) : Bytes × Bytes :=
  (hexEncode key, hexEncode (K.pub key))

/-- `GenerateShortID`, for the eight bytes that are drawn. -/
def generateShortID (id : Bytes) : Bytes := hexEncode id

/-! ## The client -/

def KeyShareEntry.inject (ephPub : Bytes) (e : KeyShareEntry) : KeyShareEntry :=
  if e.group = 0x001d then { e with key := ephPub } else e

def Extension.inject (ephPub : Bytes) : Extension → Extension
  | .keyShare entries => .keyShare (entries.map (KeyShareEntry.inject ephPub))
  | .other type data htype => .other type data htype

/-- `injectRealityKeyShare`. -/
def injectRealityKeyShare (extensions : List Extension) (ephPub : Bytes) : List Extension :=
  extensions.map (Extension.inject ephPub)

/-- `patchHelloX25519KeyShare`. -/
def patchHelloX25519KeyShare (hello : ClientHello) (ephPub : Bytes) : ClientHello :=
  { hello with extensions := injectRealityKeyShare hello.extensions ephPub }

/-- What can fail in uTLS. -/
inductive PresetError where
  | spec
  | applyPreset
  | buildState
  | marshal
  deriving DecidableEq, Repr

inductive ConnectError where
  | token
  | preset (e : PresetError)
  | emptyHello
  | writeHello
  | response (e : ReadError)
  | rejected
  deriving DecidableEq, Repr

/-- The text of an error, up to the error that it passes on. -/
def ConnectError.text : ConnectError → String
  | .token => "build auth token: "
  | .preset .spec => ""
  | .preset .applyPreset => "apply ClientHello preset: "
  | .preset .buildState => "build handshake state: "
  | .preset .marshal => "marshal ClientHello: "
  | .emptyHello => "empty ClientHello"
  | .writeHello => "write ClientHello: "
  | .response _ => "REALITY auth response failed: "
  | .rejected => "REALITY authentication rejected by server"

/-- What a call draws and reads: the ephemeral key, the padding and the time. -/
structure Draw where
  key : Bytes
  padding : Bytes
  now : Int
  padding_length : padding.length = 4

/-- `MarshalClientHello` writes a hello as TLS lays it out. -/
def Marshals (marshal : ClientHello → Bytes) : Prop := ∀ hello, marshal hello = hello.encode

section Client

variable (C : Crypto) (K : KeyPairs C) (marshal : ClientHello → Bytes) (rc : RealityClient)
  (d : Draw)

/-- `BuildAuthToken`. -/
def Draw.token : Option AuthToken :=
  buildAuthToken C d.key rc.publicKey rc.shortID d.now d.padding d.padding_length

/-- The ClientHello of a token: the key share is put into the preset, the session id is set, and
the key share is patched once more. -/
def authenticatedHello (preset : ClientHello) (token : AuthToken) (ephPub : Bytes) : ClientHello :=
  let hello := { preset with extensions := injectRealityKeyShare preset.extensions ephPub }
  let hello := { hello with
    sessionID := serializeAuthToken token
    sessionID_length := length_serializeAuthToken token }
  patchHelloX25519KeyShare hello ephPub

/-- `sendAuthenticatedClientHello`, with what uTLS makes of the preset. -/
def sendAuthenticatedClientHello (preset : Except PresetError ClientHello) (conn : Sink) :
    Except ConnectError Unit × Sink :=
  match d.token C rc with
  | none => (.error .token, conn)
  | some token =>
    match preset with
    | .error e => (.error (.preset e), conn)
    | .ok preset =>
      let raw := marshal (authenticatedHello preset token (K.pub d.key))
      if raw.length = 0 then (.error .emptyHello, conn)
      else
        match conn.write (wrapTLSHandshakeRecord raw) with
        | (false, conn') => (.error .writeHello, conn')
        | (true, conn') => (.ok (), conn')

/-- `Connect`: what is left to be read from the connection, and what has been written to it. -/
def connect (preset : Except PresetError ClientHello) (conn : Sink) (incoming : Source) :
    Except ConnectError Source × Sink :=
  match sendAuthenticatedClientHello C K marshal rc d preset conn with
  | (.error e, conn') => (.error e, conn')
  | (.ok (), conn') =>
    match incoming.readFull realityAuthOK.length with
    | (.error e, _) => (.error (.response e), conn')
    | (.ok resp, rest) =>
      if resp ≠ realityAuthOK then (.error .rejected, conn') else (.ok rest, conn')

end Client

/-! ## The key share -/

/-- An extension with an X25519 key share, of whatever length. -/
def Extension.OffersX25519 : Extension → Prop
  | .keyShare entries => ∃ e ∈ entries, e.group = 0x001d
  | .other _ _ _ => False

/-- A preset with an X25519 key share. -/
def ClientHello.OffersX25519 (h : ClientHello) : Prop := ∃ x ∈ h.extensions, x.OffersX25519

theorem KeyShareEntry.inject_inject (ephPub : Bytes) (e : KeyShareEntry) :
    (e.inject ephPub).inject ephPub = e.inject ephPub := by
  unfold KeyShareEntry.inject
  split_ifs <;> rfl

/-- The second patch changes nothing. -/
theorem injectRealityKeyShare_twice (extensions : List Extension) (ephPub : Bytes) :
    injectRealityKeyShare (injectRealityKeyShare extensions ephPub) ephPub
      = injectRealityKeyShare extensions ephPub := by
  unfold injectRealityKeyShare
  rw [List.map_map]
  apply List.map_congr_left
  intro x _
  cases x with
  | keyShare entries =>
    show Extension.keyShare ((entries.map _).map _) = Extension.keyShare (entries.map _)
    rw [List.map_map]
    congr 1
    apply List.map_congr_left
    intro e _
    exact e.inject_inject ephPub
  | other type data htype => rfl

section Inject

variable {ephPub : Bytes} (hlen : ephPub.length = 32)

include hlen

theorem KeyShareEntry.isX25519_inject (e : KeyShareEntry) :
    (e.inject ephPub).IsX25519 ↔ e.group = 0x001d := by
  unfold KeyShareEntry.inject KeyShareEntry.IsX25519
  split_ifs with h
  · exact iff_of_true ⟨h, hlen⟩ h
  · exact iff_of_false (fun hx => h hx.1) h

/-- An X25519 key that is found is the one that was put in. -/
theorem Extension.x25519_inject (x : Extension) (key : Bytes) :
    (x.inject ephPub).x25519 = some key ↔ x.OffersX25519 ∧ key = ephPub := by
  cases x with
  | keyShare entries =>
    have hfind : (fun e : KeyShareEntry => decide e.IsX25519) ∘ KeyShareEntry.inject ephPub
        = fun e => decide (e.group = 0x001d) := by
      funext e
      exact decide_eq_decide.2 (e.isX25519_inject hlen)
    show ((entries.map _).find? _).map _ = some key ↔ (∃ e ∈ entries, _) ∧ _
    rw [List.find?_map, hfind, Option.map_map]
    have hkey : ∀ e : KeyShareEntry, e.group = 0x001d → (e.inject ephPub).key = ephPub := by
      intro e he
      rw [KeyShareEntry.inject, if_pos he]
    constructor
    · intro h
      obtain ⟨e, he, rfl⟩ := Option.map_eq_some_iff.1 h
      have hfound := List.find?_some he
      have hgroup : e.group = 0x001d := of_decide_eq_true hfound
      exact ⟨⟨e, List.mem_of_find?_eq_some he, hgroup⟩, hkey e hgroup⟩
    · rintro ⟨⟨e, he, hgroup⟩, rfl⟩
      have hsome : (entries.find? fun e => decide (e.group = 0x001d)).isSome :=
        List.find?_isSome.2 ⟨e, he, decide_eq_true hgroup⟩
      obtain ⟨e', he'⟩ := Option.isSome_iff_exists.1 hsome
      have hfound := List.find?_some he'
      have hgroup' : e'.group = 0x001d := of_decide_eq_true hfound
      rw [he']
      exact congrArg some (hkey e' hgroup')
  | other type data htype => exact iff_of_false nofun fun h => h.1

theorem x25519Key_inject {h : ClientHello} {extensions : List Extension}
    (hext : h.extensions = injectRealityKeyShare extensions ephPub) (key : Bytes) :
    h.x25519Key = some key ↔ (∃ x ∈ extensions, x.OffersX25519) ∧ key = ephPub := by
  have hmem : ∀ k, k ∈ h.extensions.filterMap Extension.x25519 ↔
      (∃ x ∈ extensions, x.OffersX25519) ∧ k = ephPub := by
    intro k
    simp only [hext, injectRealityKeyShare, List.mem_filterMap, List.mem_map,
      exists_exists_and_eq_and, Extension.x25519_inject hlen]
    constructor
    · rintro ⟨x, hx, hoffers, rfl⟩
      exact ⟨⟨x, hx, hoffers⟩, rfl⟩
    · rintro ⟨⟨x, hx, hoffers⟩, rfl⟩
      exact ⟨x, hx, hoffers, rfl⟩
  constructor
  · exact fun hkey => (hmem key).1 (List.mem_of_getLast? hkey)
  · rintro ⟨hoffers, rfl⟩
    have hne : h.extensions.filterMap Extension.x25519 ≠ [] :=
      List.ne_nil_of_mem ((hmem key).2 ⟨hoffers, rfl⟩)
    rw [ClientHello.x25519Key, List.getLast?_eq_some_getLast hne]
    exact congrArg some ((hmem _).1 (List.getLast_mem hne)).2

end Inject

/-! ## The server -/

section Server

variable {C : Crypto} (K : KeyPairs C) {rc : RealityClient} {d : Draw} {token : AuthToken}
  {preset : ClientHello}

/-- What the server reads from the hello of a client. -/
theorem parse_authenticatedHello
    (hlen : (authenticatedHello preset token (K.pub d.key)).encode.length ≤ 16384)
    (sessionID ephPub : Bytes) :
    parseClientHelloAuth
        (wrapTLSHandshakeRecord (authenticatedHello preset token (K.pub d.key)).encode)
          = .ok (sessionID, ephPub)
      ↔ preset.OffersX25519 ∧ sessionID = serializeAuthToken token ∧ ephPub = K.pub d.key := by
  have hext : (authenticatedHello preset token (K.pub d.key)).extensions
      = injectRealityKeyShare preset.extensions (K.pub d.key) :=
    injectRealityKeyShare_twice preset.extensions (K.pub d.key)
  have hkey := x25519Key_inject (K.pub_length d.key) hext
  have hwrap := parseClientHelloAuth_wrap (hlen.trans_lt (by decide))
  have hparse := parseHandshake_encode _ (hlen.trans_lt (by decide))
  by_cases hoffers : preset.OffersX25519
  · have hread := parseClientHelloAuth_wrap_encode (hlen.trans (by decide))
      ((hkey _).2 ⟨hoffers, rfl⟩)
    have hid : (authenticatedHello preset token (K.pub d.key)).sessionID
        = serializeAuthToken token := rfl
    rw [hread, hid]
    constructor
    · intro h
      obtain ⟨rfl, rfl⟩ := Prod.mk.inj (Except.ok.inj h)
      exact ⟨hoffers, rfl, rfl⟩
    · rintro ⟨-, rfl, rfl⟩
      rfl
  · have hnone : (authenticatedHello preset token (K.pub d.key)).x25519Key = none := by
      cases hx : (authenticatedHello preset token (K.pub d.key)).x25519Key with
      | none => rfl
      | some key => exact absurd ((hkey key).1 hx).1 hoffers
    refine iff_of_false ?_ fun h => hoffers h.1
    rw [hwrap, hparse, hnone, Go.ok_bind]
    intro h
    unfold checkLengths at h
    split_ifs at h with hid hshort
    exact hshort nofun

/-- `readClientHelloRecord` returns the record of a hello, however it comes in. -/
theorem readClientHelloRecord_wrap {conn : Incoming} {handshake more : Bytes}
    (hconn : conn.inTime.flatten = wrapTLSHandshakeRecord handshake ++ more)
    (hpos : 0 < handshake.length) (hlen : handshake.length ≤ 16384) :
    ∃ rest, readClientHelloRecord conn = (none, wrapTLSHandshakeRecord handshake, rest)
      ∧ rest.flatten = more ++ conn.remaining.flatten := by
  have hrecord : (UInt8.ofNat (handshake.length / 256)).toNat * 256
      + (UInt8.ofNat handshake.length).toNat = handshake.length := by
    simp only [UInt8.toNat_ofNat', Nat.reducePow]
    omega
  have hcut : conn.inTime.flatten
      = [0x16, 0x03, 0x01, UInt8.ofNat (handshake.length / 256), UInt8.ofNat handshake.length]
        ++ (handshake ++ more) := by
    rw [hconn, wrapTLSHandshakeRecord, List.append_assoc]
  obtain ⟨rest, hheader, hrest⟩ := Source.readFull_append hcut
  obtain ⟨rest', hread, hrest'⟩ := Source.readFull_append hrest
  have hbuffered : conn.inTime.buffered 5
      = [0x16, 0x03, 0x01, UInt8.ofNat (handshake.length / 256), UInt8.ofNat handshake.length] := by
    rw [Source.buffered_of_le (by rw [hcut]; simp), hcut]
    rfl
  have hbuffered' : rest.buffered handshake.length = handshake := by
    rw [Source.buffered_of_le (by rw [hrest]; simp), hrest, List.take_left]
  have hlength : recordLen (conn.inTime.buffered 5) = handshake.length := by
    rw [hbuffered]
    exact hrecord
  refine ⟨rest' ++ conn.remaining, ?_, by rw [List.flatten_append, hrest']⟩
  have hheader : conn.inTime.readFull 5 = (_, rest) := hheader
  unfold readClientHelloRecord
  rw [hheader]
  dsimp only
  rw [if_neg (by rw [hbuffered]; exact not_not.2 rfl), hlength, if_neg (by omega), hread, hbuffered,
    hbuffered']
  rfl

/-- Whether the server lets a client in. -/
structure LetsIn (rs : RealityServer) (rc : RealityClient) (preset : ClientHello)
    (token : AuthToken) (clientNow serverNow : Int) : Prop where
  offers : preset.OffersX25519
  fresh : ¬ rs.replay.Seen (serializeAuthToken token)
  allowed : ∃ id ∈ rs.shortIDs, id ≠ [] ∧ shortIDKey id = shortIDKey rc.shortID
  timely : |(unix32 serverNow : Int) - unix32 clientNow| ≤ 120

/-- What was built with the public key of the server is genuine for it. -/
theorem genuine_token (rs : RealityServer) (hkey : rc.publicKey = K.pub rs.privateKey)
    (htoken : d.token C rc = some token) :
    Genuine C rs.privateKey rs.shortIDs (K.pub d.key) (serializeAuthToken token) ↔
      ∃ id ∈ rs.shortIDs, id ≠ [] ∧ shortIDKey id = shortIDKey rc.shortID := by
  have hbuild : (buildAuthToken C d.key rc.publicKey rc.shortID d.now d.padding
      d.padding_length).map serializeAuthToken = some (serializeAuthToken token) :=
    Option.map_eq_some_iff.2 ⟨token, htoken, rfl⟩
  obtain ⟨secret, hsecret, hlen, hid, hts, hcode⟩ := built_fields hbuild
  have hfind : (findShortID rs.shortIDs (shortIDField (serializeAuthToken token))).isSome ↔
      ∃ id ∈ rs.shortIDs, id ≠ [] ∧ shortIDKey id = shortIDKey rc.shortID := by
    rw [hid, findShortID_normalize, List.find?_isSome]
    constructor
    · rintro ⟨a, ha, hfound⟩
      obtain ⟨hne, hsame⟩ := of_decide_eq_true hfound
      exact ⟨a, ha, hne, hsame.symm⟩
    · rintro ⟨a, ha, hne, hsame⟩
      exact ⟨a, ha, decide_eq_true ⟨hne, hsame.symm⟩⟩
  rw [hkey, K.agree] at hsecret
  refine ⟨fun h => hfind.1 h.allowed, fun h => ⟨hlen, K.pub_length _, ⟨secret, hsecret, ?_⟩,
    hfind.2 h⟩⟩
  rw [hcode, hts, hid]

theorem verifyClientHello_authenticated (rs : RealityServer)
    (hkey : rc.publicKey = K.pub rs.privateKey) (htoken : d.token C rc = some token)
    (hlen : (authenticatedHello preset token (K.pub d.key)).encode.length ≤ 16384)
    (clock : Clock) :
    (rs.verifyClientHello C
        (wrapTLSHandshakeRecord (authenticatedHello preset token (K.pub d.key)).encode)
        clock).1 = .ok true ↔ LetsIn rs rc preset token d.now clock.verified := by
  have hts : timestampField (serializeAuthToken token) = unix32 d.now := by
    obtain ⟨secret, -, hmake⟩ := Option.bind_eq_some_iff.1 htoken
    obtain rfl := Option.some.inj hmake
    exact timestampField_serializeAuthToken _
  rw [verifyClientHello_accepts_iff]
  constructor
  · rintro ⟨sessionID, ephPub, hparse, hfresh, hgenuine, htimely⟩
    obtain ⟨hoffers, rfl, rfl⟩ := (parse_authenticatedHello K hlen _ _).1 hparse
    rw [Timely, hts] at htimely
    exact ⟨hoffers, hfresh, (genuine_token K rs hkey htoken).1 hgenuine, htimely⟩
  · rintro ⟨hoffers, hfresh, hallowed, htimely⟩
    refine ⟨_, _, (parse_authenticatedHello K hlen _ _).2 ⟨hoffers, rfl, rfl⟩, hfresh,
      (genuine_token K rs hkey htoken).2 hallowed, ?_⟩
    rw [Timely, hts]
    exact htimely

theorem verifyClientHello_noPanic (C : Crypto) (rs : RealityServer) (rawData : Bytes)
    (clock : Clock) : (rs.verifyClientHello C rawData clock).1 ≠ .error .panic := by
  unfold RealityServer.verifyClientHello
  rcases hparse : parseClientHelloAuth rawData with (e | _) | ⟨sessionID, ephPub⟩
  · exact nofun
  · exact absurd hparse (parseClientHelloAuth_noPanic rawData)
  · dsimp only
    split_ifs <;> exact nofun

end Server

/-! ## Both sides -/

section Both

variable {C : Crypto} (K : KeyPairs C) {marshal : ClientHello → Bytes} (hmarshal : Marshals marshal)
  {rc : RealityClient} {d : Draw} {token : AuthToken} {preset : ClientHello}

include hmarshal

/-- What the client sends. -/
theorem sendAuthenticatedClientHello_eq (htoken : d.token C rc = some token) (conn : Sink)
    (hconn : conn.Reliable) :
    sendAuthenticatedClientHello C K marshal rc d (.ok preset) conn
      = (.ok (), ⟨conn.written ++ wrapTLSHandshakeRecord
          (authenticatedHello preset token (K.pub d.key)).encode, []⟩) := by
  rw [sendAuthenticatedClientHello, htoken]
  dsimp only
  rw [hmarshal, if_neg (by simp [ClientHello.encode]), Sink.write_of_reliable hconn]

variable (preset) in
/-- The client takes what begins with the ten bytes it waits for. -/
theorem connect_eq_ok_iff (htoken : d.token C rc = some token) {conn : Sink}
    (hconn : conn.Reliable) (incoming : Source) (later : Bytes) :
    (∃ rest, (connect C K marshal rc d (.ok preset) conn incoming).1 = .ok rest
        ∧ rest.flatten = later)
      ↔ incoming.flatten = realityAuthOK ++ later := by
  unfold connect
  rw [sendAuthenticatedClientHello_eq K hmarshal htoken conn hconn]
  dsimp only
  constructor
  · rintro ⟨rest, hok, rfl⟩
    rcases hread : incoming.readFull realityAuthOK.length with ⟨e | resp, rest'⟩
    · rw [hread] at hok
      cases hok
    · rw [hread] at hok
      dsimp only at hok
      split_ifs at hok with hresp
      obtain rfl := Except.ok.inj hok
      obtain ⟨-, hfront, hback⟩ := Source.readFull_eq_ok hread
      rw [← not_not.1 hresp, hfront, hback, List.take_append_drop]
  · intro hin
    obtain ⟨rest, hread, hrest⟩ := Source.readFull_append hin
    refine ⟨rest, ?_, hrest⟩
    rw [hread]
    dsimp only
    rw [if_neg (not_not.2 rfl)]

section Handshake

variable {rs : RealityServer} (hkey : rc.publicKey = K.pub rs.privateKey)
  (htoken : d.token C rc = some token)
  (hlen : (authenticatedHello preset token (K.pub d.key)).encode.length ≤ 16384)
  {conn : Incoming} {more : Bytes}
  (hconn : conn.inTime.flatten
    = (sendAuthenticatedClientHello C K marshal rc d (.ok preset) ⟨[], []⟩).2.written ++ more)
  (clock : Clock) (fallback : Option Fallback) (rounds back : ℕ)

include htoken hlen hconn in
/-- The server reads the hello, and nothing else. -/
theorem readClientHelloRecord_sent :
    ∃ rest, readClientHelloRecord conn = (none,
        wrapTLSHandshakeRecord (authenticatedHello preset token (K.pub d.key)).encode, rest)
      ∧ rest.flatten = more ++ conn.remaining.flatten := by
  have hpeer : Sink.Reliable ⟨[], []⟩ := rfl
  apply readClientHelloRecord_wrap
  · rw [hconn, sendAuthenticatedClientHello_eq K hmarshal htoken _ hpeer, List.nil_append]
  · simp [ClientHello.encode]
  · exact hlen

include hkey htoken hlen hconn in
/-- What the server makes of it, and what it writes to the client. -/
theorem handleConnection_sent :
    let r := handleConnection C rs clock conn ⟨[], []⟩ fallback rounds back
    (LetsIn rs rc preset token d.now clock.verified →
        r.result = .ok true ∧ r.unread.flatten = more ++ conn.remaining.flatten
          ∧ r.peer.written = realityAuthOK)
      ∧ (¬ LetsIn rs rc preset token d.now clock.verified →
        r.result = .ok false ∧ r.peer.written <+: answered fallback) := by
  obtain ⟨rest, hread, hrest⟩ := readClientHelloRecord_sent K hmarshal htoken hlen hconn
  have hverify := verifyClientHello_authenticated K rs hkey htoken hlen clock
  have hpanic := verifyClientHello_noPanic C rs (wrapTLSHandshakeRecord
    (authenticatedHello preset token (K.pub d.key)).encode) clock
  have hpeer : Sink.Reliable ⟨[], []⟩ := rfl
  rw [handleConnection, hread]
  dsimp only
  generalize rs.verifyClientHello C _ clock = verdict at hverify hpanic ⊢
  rcases verdict with ⟨(e | _) | ok, rs'⟩
  · exact e.elim
  · exact absurd rfl hpanic
  · cases ok with
    | false =>
      exact ⟨fun hin => (nomatch hverify.2 hin),
        fun _ => ⟨rfl, proxyToFallback_peer hpeer fallback rest _ rounds back⟩⟩
    | true => exact ⟨fun _ => ⟨rfl, hrest, rfl⟩, fun hin => absurd (hverify.1 rfl) hin⟩

end Handshake

variable (preset) in
/-- **Both sides agree.**  However the hello is cut on its way, the server takes the client for one
of its own if and only if the preset offers X25519, the token is new, the short id is one of the
server's, and the clocks are close.  If it does, the client connects on what the server writes to
it, and each side then reads what the other writes behind the handshake.  If it does not, the client
gets nothing but the beginning of what the fallback server answers, and connects only if that begins
with `REALITYOK`. -/
theorem handshake_agrees (rs : RealityServer) (hkey : rc.publicKey = K.pub rs.privateKey)
    (htoken : d.token C rc = some token)
    (hlen : (authenticatedHello preset token (K.pub d.key)).encode.length ≤ 16384)
    (conn : Incoming) (more : Bytes)
    (hconn : conn.inTime.flatten
      = (sendAuthenticatedClientHello C K marshal rc d (.ok preset) ⟨[], []⟩).2.written ++ more)
    (clock : Clock) (fallback : Option Fallback) (rounds back : ℕ) :
    let r := handleConnection C rs clock conn ⟨[], []⟩ fallback rounds back
    (LetsIn rs rc preset token d.now clock.verified → r.result = .ok true
        ∧ r.unread.flatten = more ++ conn.remaining.flatten
        ∧ ∀ (incoming : Source) (later : Bytes), incoming.flatten = r.peer.written ++ later →
          ∃ rest, (connect C K marshal rc d (.ok preset) ⟨[], []⟩ incoming).1 = .ok rest
            ∧ rest.flatten = later)
      ∧ (¬ LetsIn rs rc preset token d.now clock.verified → r.result = .ok false
        ∧ r.peer.written <+: answered fallback
        ∧ ∀ incoming : Source, incoming.flatten = r.peer.written →
          ((∃ rest, (connect C K marshal rc d (.ok preset) ⟨[], []⟩ incoming).1 = .ok rest)
            ↔ realityAuthOK <+: r.peer.written)) := by
  intro r
  have hpeer : Sink.Reliable ⟨[], []⟩ := rfl
  have hclient := connect_eq_ok_iff K hmarshal preset htoken hpeer
  obtain ⟨hin, hout⟩ :=
    handleConnection_sent K hmarshal hkey htoken hlen hconn clock fallback rounds back
  constructor
  · intro h
    obtain ⟨hresult, hunread, hwritten⟩ := hin h
    refine ⟨hresult, hunread, fun incoming later hincoming => (hclient incoming later).2 ?_⟩
    rw [hincoming]
    exact congrArg (· ++ later) hwritten
  · intro h
    obtain ⟨hresult, hwritten⟩ := hout h
    refine ⟨hresult, hwritten, fun incoming hincoming => ?_⟩
    rw [← hincoming]
    constructor
    · rintro ⟨rest, hok⟩
      exact ⟨rest.flatten, ((hclient incoming _).1 ⟨rest, hok, rfl⟩).symm⟩
    · rintro ⟨later, hlater⟩
      obtain ⟨rest, hok, -⟩ := (hclient incoming later).2 hlater.symm
      exact ⟨rest, hok⟩

end Both

namespace Sample

/-- Multiplication of numbers of 256 bits in the place of X25519. -/
def mulCrypto : Crypto where
  ecdh priv pub := some (beBytes 32 (beNat priv * beNat pub))
  hmac key message := beBytes 32 (beNat (key ++ message))
  hmac_length _ _ := length_beBytes ..

theorem beBytes_mul_mod (a b : ℕ) :
    beBytes 32 (a * (9 * b % 256 ^ 32)) = beBytes 32 (9 * (a * b)) := by
  apply eq_of_beNat_eq (by rw [length_beBytes, length_beBytes])
  rw [beNat_beBytes, beNat_beBytes, Nat.mul_mod_mod, Nat.mul_left_comm]

def mulKeys : KeyPairs mulCrypto where
  pub key := beBytes 32 (9 * beNat key)
  pub_length _ := length_beBytes ..
  agree a b := by
    show some (beBytes 32 _) = some (beBytes 32 _)
    rw [beNat_beBytes, beNat_beBytes, beBytes_mul_mod, beBytes_mul_mod,
      Nat.mul_comm (beNat a) (beNat b)]

def mulServer : RealityServer :=
  ⟨List.replicate 32 3, [hexEncode (List.replicate 8 7)], newReplayProtection (2 * 60 * 10 ^ 9)⟩

def mulClient : RealityClient :=
  ⟨mulKeys.pub (List.replicate 32 3), hexEncode (List.replicate 8 7)⟩

def mulDraw : Draw := ⟨List.replicate 32 5, [1, 2, 3, 4], 1700000000 * 10 ^ 9, rfl⟩

/-- A minute later. -/
def mulClock : Clock := ⟨1700000060 * 10 ^ 9, 1700000060 * 10 ^ 9, 1700000060 * 10 ^ 9⟩

theorem offersX25519_sampleHello : sampleHello.OffersX25519 :=
  ⟨_, List.mem_cons_self, _, List.mem_cons_self, rfl⟩

/-- What the client sends, in one piece. -/
def mulIncoming : Incoming :=
  ⟨[(sendAuthenticatedClientHello mulCrypto mulKeys ClientHello.encode mulClient mulDraw
    (.ok sampleHello) ⟨[], []⟩).2.written], none⟩

/-- A client of a server that has just started, and the answer on which it connects. -/
theorem handshake_agrees_mul :
    let r := handleConnection mulCrypto mulServer mulClock mulIncoming ⟨[], []⟩ none 0 0
    r.result = .ok true ∧
      ∃ rest, (connect mulCrypto mulKeys ClientHello.encode mulClient mulDraw (.ok sampleHello)
        ⟨[], []⟩ [r.peer.written]).1 = .ok rest ∧ rest.flatten = [] := by
  have htoken : mulDraw.token mulCrypto mulClient = some _ := rfl
  have hmarshal : Marshals ClientHello.encode := fun _ => rfl
  obtain ⟨hin, -⟩ := handshake_agrees mulKeys hmarshal sampleHello mulServer rfl htoken
    (by decide +kernel) mulIncoming []
    (by rw [mulIncoming, List.flatten_singleton, List.append_nil]) mulClock none 0 0
  obtain ⟨hresult, -, hconnect⟩ := hin ⟨offersX25519_sampleHello, nofun,
    ⟨_, List.mem_singleton_self _, nofun, rfl⟩, by decide +kernel⟩
  exact ⟨hresult, hconnect _ [] (by rw [List.flatten_singleton, List.append_nil])⟩

end Sample

section KeyGen

variable {C : Crypto} (K : KeyPairs C) {marshal : ClientHello → Bytes} (hmarshal : Marshals marshal)

include hmarshal

/-- **What the key generator prints fits together.**  A server and a client that are configured with
a key pair and a short id from the generator can be made, and the first hello of the client lets it
in, whatever was drawn, if the preset offers X25519 and the clocks are close. -/
theorem keygen_fits (key id : Bytes) (hkey : key.length = 32) (hid : id.length = 8) :
    ∃ rs rc, newRealityServer (generateRealityKeyPair K key).1 [generateShortID id] = .ok rs
      ∧ newRealityClient (generateRealityKeyPair K key).2 (generateShortID id) = .ok rc
      ∧ ∀ (d : Draw) (preset : ClientHello) (token : AuthToken) (conn : Incoming) (clock : Clock)
          (fallback : Option Fallback) (rounds back : ℕ) (incoming : Source) (later : Bytes),
        d.token C rc = some token → preset.OffersX25519 →
        (authenticatedHello preset token (K.pub d.key)).encode.length ≤ 16384 →
        |(unix32 clock.verified : Int) - unix32 d.now| ≤ 120 →
        conn.inTime.flatten
          = (sendAuthenticatedClientHello C K marshal rc d (.ok preset) ⟨[], []⟩).2.written →
        incoming.flatten
          = (handleConnection C rs clock conn ⟨[], []⟩ fallback rounds back).peer.written ++ later →
        (handleConnection C rs clock conn ⟨[], []⟩ fallback rounds back).result = .ok true
          ∧ ∃ rest, (connect C K marshal rc d (.ok preset) ⟨[], []⟩ incoming).1 = .ok rest
            ∧ rest.flatten = later := by
  refine ⟨⟨key, [generateShortID id], newReplayProtection (2 * 60 * 10 ^ 9)⟩,
    ⟨K.pub key, generateShortID id⟩, ?_, ?_, ?_⟩
  · show newRealityServer (hexEncode key) _ = _
    rw [newRealityServer, hexDecode_hexEncode]
    dsimp only
    rw [if_neg (not_not.2 hkey)]
  · show newRealityClient (hexEncode (K.pub key)) _ = _
    rw [newRealityClient, hexDecode_hexEncode]
    dsimp only
    rw [if_neg (not_not.2 (K.pub_length key))]
  · intro d preset token conn clock fallback rounds back incoming later htoken hoffers hlen
      hclock hconn hin
    have hne : generateShortID id ≠ [] := by
      intro hnil
      have hlength := length_hexEncode id
      rw [show hexEncode id = [] from hnil, hid] at hlength
      cases hlength
    have hletsIn : LetsIn ⟨key, [generateShortID id], newReplayProtection (2 * 60 * 10 ^ 9)⟩
        ⟨K.pub key, generateShortID id⟩ preset token d.now clock.verified :=
      ⟨hoffers, nofun, ⟨_, List.mem_singleton_self _, hne, rfl⟩, hclock⟩
    have hconn := hconn.trans (List.append_nil _).symm
    have hpeer : Sink.Reliable ⟨[], []⟩ := rfl
    obtain ⟨hresult, -, hwritten⟩ :=
      (handleConnection_sent K hmarshal rfl htoken hlen hconn clock fallback rounds back).1 hletsIn
    rw [hwritten] at hin
    exact ⟨hresult, (connect_eq_ok_iff K hmarshal preset htoken hpeer incoming later).2 hin⟩

end KeyGen

/-- The key of `Sample.mulServer`, from the generator. -/
theorem Sample.keygen_fits_mul :
    ∃ rs, newRealityServer (generateRealityKeyPair mulKeys (List.replicate 32 3)).1
        [generateShortID (List.replicate 8 7)] = .ok rs
      ∧ (handleConnection mulCrypto rs mulClock mulIncoming ⟨[], []⟩ none 0 0).result
        = .ok true := by
  have hmarshal : Marshals ClientHello.encode := fun _ => rfl
  obtain ⟨rs, rc, hrs, hrc, h⟩ := keygen_fits mulKeys hmarshal (List.replicate 32 3)
    (List.replicate 8 7) rfl rfl
  have hclient : newRealityClient (generateRealityKeyPair mulKeys (List.replicate 32 3)).2
      (generateShortID (List.replicate 8 7)) = .ok mulClient := by decide +kernel
  obtain rfl := Except.ok.inj (hrc.symm.trans hclient)
  refine ⟨rs, hrs, (h mulDraw sampleHello _ mulIncoming mulClock none 0 0
    [(handleConnection mulCrypto rs mulClock mulIncoming ⟨[], []⟩ none 0 0).peer.written] [] rfl
    offersX25519_sampleHello ?_ ?_ ?_ ?_).1⟩
  · decide +kernel
  · decide +kernel
  · exact List.flatten_singleton ..
  · rw [List.flatten_singleton, List.append_nil]

end Reality
