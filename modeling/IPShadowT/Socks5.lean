/-
# The SOCKS5 listener

`Forwarder.socks5Handshake` and `Forwarder.handleSOCKS5` of `internal/tunnel/forwarder.go`.
A client sends a greeting and then a CONNECT request; the forwarder turns the address in
the request into a text and sends it through the tunnel in a destination header.

* One `Read` is made for each message, so that the handshake is right exactly for the
  connections that deliver the greeting with the first and the request with the second,
  or happen to look as if they did: `socks5Handshake_iff`.
* The text is `host:port` for every kind of address, which the other side cannot split if
  the host is an IPv6 address: `delivered_iff`.
-/
import IPShadowT.IPAddr
import IPShadowT.TunnelHeader

open Bytes HostPort IPAddr TunnelHeader

namespace Socks5

/-! ## The handshake -/

/-- The errors of `socks5Handshake`. -/
inductive Socks5Error where
  | greeting
  | version (v : UInt8)
  | request
  | command (c : UInt8)
  | ipv4TooShort
  | domainTooShort
  | ipv6TooShort
  | addressType (t : UInt8)
  deriving DecidableEq, Repr

def Socks5Error.message : Socks5Error → String
  | .greeting => "failed to read SOCKS5 greeting"
  | .version v => "not SOCKS5: version " ++ toString v.toNat
  | .request => "failed to read SOCKS5 request"
  | .command c => "unsupported SOCKS5 command: " ++ toString c.toNat
  | .ipv4TooShort => "IPv4 address too short"
  | .domainTooShort => "domain address too short"
  | .ipv6TooShort => "IPv6 address too short"
  | .addressType t => "unsupported address type: " ++ toString t.toNat

/-- `fmt.Sprintf("%s:%d", host, port)`. -/
def hostPort (host : Bytes) (port : ℕ) : Bytes := host ++ colon :: decimal port

/-- The text for the address in `buf[i:j]` and the port after it. -/
def addrAndPort (buf : Bytes) (i j : ℕ) (text : Bytes → Bytes) : Go Socks5Error Bytes := do
  let addr ← slice buf i j
  let port ← beField 2 (← slice buf j (j + 2))
  return hostPort (text addr) port

/-- The switch of `socks5Handshake` over the type of the address, for a request of `n`
bytes. -/
def parseAddress (buf : Bytes) (n : ℕ) (atyp : UInt8) : Go Socks5Error Bytes :=
  if atyp = 0x01 then
    if n < 10 then .error (.error .ipv4TooShort) else addrAndPort buf 4 8 ipv4String
  else if atyp = 0x03 then do
    let domainLen ← index buf 4
    if n < 5 + domainLen.toNat + 2 then .error (.error .domainTooShort)
    else addrAndPort buf 5 (5 + domainLen.toNat) id
  else if atyp = 0x04 then
    if n < 22 then .error (.error .ipv6TooShort) else addrAndPort buf 4 20 ipString
  else .error (.error (.addressType atyp))

/-- `socks5Handshake` from the command on. -/
def parseRequest (buf : Bytes) (n : ℕ) : Go Socks5Error Bytes := do
  let ver ← index buf 0
  let cmd ← index buf 1
  if ver ≠ 0x05 ∨ cmd ≠ 0x01 then .error (.error (.command cmd)) else do
  let atyp ← index buf 3
  parseAddress buf n atyp

/-- `make([]byte, 258)`. -/
def emptyBuf : Bytes := List.replicate 258 0

/-- `socks5Handshake` after a first `Read` that has returned `a`: what the buffer holds. -/
def checkGreeting (a : Bytes) : Go Socks5Error Bytes :=
  if a.length < 2 then .error (.error .greeting)
  else do
    let ver ← index (overwrite emptyBuf a) 0
    if ver ≠ 0x05 then .error (.error (.version ver)) else return overwrite emptyBuf a

/-- `socks5Handshake` after a second `Read` that has returned `b`: the destination. -/
def checkRequest (buf b : Bytes) : Go Socks5Error Bytes :=
  if b.length < 7 then .error (.error .request) else parseRequest (overwrite buf b) b.length

/-- The reply that no authentication is required. -/
def methodReply : Bytes := [0x05, 0x00]

/-- `socks5Handshake`: the destination, what is left on the connection, and what has been
written to it. -/
def socks5Handshake (conn : Source) : Go Socks5Error Bytes × Source × Bytes :=
  match conn.read 258 with
  | none => (.error (.error .greeting), conn, [])
  | some (a, conn₁) =>
    match checkGreeting a with
    | .error e => (.error e, conn₁, [])
    | .ok buf =>
      match conn₁.read 258 with
      | none => (.error (.error .request), conn₁, methodReply)
      | some (b, conn₂) => (checkRequest buf b, conn₂, methodReply)

/-- What `handleSOCKS5` has written to the client and into the tunnel, and what of the
connection it relays, if it comes to that. -/
structure Handled where
  replies : Bytes
  stream : Option Sink
  relayed : Option Source
  deriving DecidableEq, Repr

/-- The reply that a connection could not be made. -/
def failureReply : Bytes := [0x05, 0x01, 0x00, 0x01, 0, 0, 0, 0, 0, 0]

/-- The reply that it could. -/
def successReply : Bytes := [0x05, 0x00, 0x00, 0x01, 0, 0, 0, 0, 0, 0]

/-- `handleSOCKS5`, with the stream that `getStream` returns. -/
def handleSOCKS5 (conn : Source) (stream : Option Sink) : Handled :=
  match socks5Handshake conn with
  | (.error _, _, replies) => ⟨replies, stream, none⟩
  | (.ok dest, rest, replies) =>
    match stream with
    | none => ⟨replies ++ failureReply, none, none⟩
    | some s =>
      match writeDestHeader s dest with
      | (.error _, s') => ⟨replies ++ failureReply, some s', none⟩
      | (.ok (), s') => ⟨replies ++ successReply, some s', some rest⟩

/-! ## The messages of a client -/

/-- A greeting: the authentication methods that are offered. -/
structure Greeting where
  methods : Bytes
  methods_length : methods.length ≤ 255

def Greeting.encode (g : Greeting) : Bytes :=
  0x05 :: UInt8.ofNat g.methods.length :: g.methods

/-- The address in a request. -/
inductive Address where
  | ipv4 (ip : Bytes) (hip : ip.length = 4)
  | domain (name : Bytes) (hname : name.length ≤ 255)
  | ipv6 (ip : Bytes) (hip : ip.length = 16)

namespace Address

/-- The address with its type in front. -/
def encode : Address → Bytes
  | .ipv4 ip _ => 0x01 :: ip
  | .domain name _ => 0x03 :: UInt8.ofNat name.length :: name
  | .ipv6 ip _ => 0x04 :: ip

/-- The text of the address. -/
def host : Address → Bytes
  | .ipv4 ip _ => ipv4String ip
  | .domain name _ => name
  | .ipv6 ip _ => ipString ip

end Address

/-- A CONNECT request. -/
structure Request where
  address : Address
  port : UInt16

namespace Request

/-- The request, with any value of the reserved byte. -/
def encodeWith (rsv : UInt8) (r : Request) : Bytes :=
  [0x05, 0x01, rsv] ++ (r.address.encode ++ beBytes 2 r.port.toNat)

/-- The request as a client sends it. -/
def encode (r : Request) : Bytes := encodeWith 0x00 r

/-- The destination that is requested. -/
def dest (r : Request) : Bytes := hostPort r.address.host r.port.toNat

end Request

/-! ## What the parser finds -/

variable {buf dest : Bytes} {r : Request} {n : ℕ}

theorem addrAndPort_eq_ok_iff {i j : ℕ} {text : Bytes → Bytes} :
    addrAndPort buf i j text = .ok dest ↔
      ∃ front addr port rest, buf = front ++ (addr ++ (port ++ rest)) ∧ front.length = i ∧
        i + addr.length = j ∧ port.length = 2 ∧ hostPort (text addr) (beNat port) = dest := by
  constructor
  · intro h
    obtain ⟨addr, haddr, h⟩ := Go.bind_eq_ok.1 h
    obtain ⟨port, hport, h⟩ := Go.bind_eq_ok.1 h
    obtain ⟨num, hnum, h⟩ := Go.bind_eq_ok.1 h
    have haddr_length := length_of_slice haddr
    have hport_length := length_of_slice hport
    obtain ⟨hij, hj, -⟩ := slice_eq_ok.1 haddr
    obtain ⟨-, rfl⟩ := beField_eq_ok.1 hnum
    refine ⟨buf.take i, addr, port, buf.drop (j + 2), ?_, ?_, ?_, ?_, ?_⟩
    · rw [← drop_of_slice hport, ← drop_of_slice haddr, List.take_append_drop]
    · exact List.length_take_of_le (hij.trans hj)
    · omega
    · omega
    · rw [List.take_of_length_le (by omega)] at h
      exact Except.ok.inj h
  · rintro ⟨front, addr, port, rest, rfl, rfl, rfl, hport, rfl⟩
    have hslice : (slice (front ++ (addr ++ (port ++ rest))) (front.length + addr.length)
        (front.length + addr.length + 2) : Go Socks5Error Bytes) = .ok port := by
      refine slice_append (a := front ++ addr) (c := rest) ?_ ?_ ?_
      · rw [List.append_assoc]
      · rw [List.length_append]
      · rw [hport]
    have hnum : (beField 2 port : Go Socks5Error ℕ) = .ok (beNat port) :=
      beField_eq_ok.2 ⟨hport.ge, by rw [List.take_of_length_le hport.le]⟩
    unfold addrAndPort
    rw [slice_append rfl rfl rfl, Go.ok_bind, hslice, Go.ok_bind, hnum]
    rfl

/-- A request put together from the bytes of its address and its port. -/
theorem request_of_parts (rsv : UInt8) (address : Address) {port : Bytes}
    (h : port.length = 2) :
    ∃ r : Request, r.encodeWith rsv = [0x05, 0x01, rsv] ++ (address.encode ++ port) ∧
      r.dest = hostPort address.host (beNat port) := by
  have hlt := beNat_lt port
  rw [h] at hlt
  have hnum : (UInt16.ofNat (beNat port)).toNat = beNat port := UInt16.toNat_ofNat_of_lt' hlt
  have hbytes := beBytes_beNat port
  rw [h] at hbytes
  refine ⟨⟨address, UInt16.ofNat (beNat port)⟩, ?_, ?_⟩
  · rw [Request.encodeWith, hnum, hbytes]
  · rw [Request.dest, hnum]

theorem beNat_beBytes_port (port : UInt16) : beNat (beBytes 2 port.toNat) = port.toNat := by
  rw [beNat_beBytes]
  exact Nat.mod_eq_of_lt port.toNat_lt

/-- An address of a fixed size, behind a front of three bytes and its type. -/
theorem addrAndPort_four_eq_ok (size : ℕ) {text : Bytes → Bytes} {atyp : UInt8}
    (hatyp : (index buf 3 : Go Socks5Error UInt8) = .ok atyp)
    (h : addrAndPort buf 4 (4 + size) text = .ok dest) :
    ∃ front addr port rest, buf = front ++ (atyp :: addr ++ (port ++ rest)) ∧
      front.length = 3 ∧ addr.length = size ∧ port.length = 2 ∧
      hostPort (text addr) (beNat port) = dest := by
  obtain ⟨front, addr, port, rest, rfl, hfront, haddr, hport, hdest⟩ := addrAndPort_eq_ok_iff.1 h
  obtain ⟨f₀, f₁, f₂, f₃, rfl⟩ := List.length_eq_four.1 hfront
  obtain rfl : f₃ = atyp := Except.ok.inj hatyp
  exact ⟨[f₀, f₁, f₂], addr, port, rest, rfl, rfl, Nat.add_left_cancel haddr, hport, hdest⟩

/-- A domain name, behind a front of three bytes, its type and its length. -/
theorem addrAndPort_five_eq_ok {atyp domainLen : UInt8}
    (hatyp : (index buf 3 : Go Socks5Error UInt8) = .ok atyp)
    (hlen : (index buf 4 : Go Socks5Error UInt8) = .ok domainLen)
    (h : addrAndPort buf 5 (5 + domainLen.toNat) id = .ok dest) :
    ∃ front addr port rest,
      buf = front ++ (atyp :: UInt8.ofNat addr.length :: addr ++ (port ++ rest)) ∧
        front.length = 3 ∧ addr.length = domainLen.toNat ∧ port.length = 2 ∧
        hostPort addr (beNat port) = dest := by
  obtain ⟨front, addr, port, rest, rfl, hfront, haddr, hport, hdest⟩ := addrAndPort_eq_ok_iff.1 h
  obtain ⟨f₀, more, rfl⟩ := List.exists_cons_of_length_eq_add_one hfront
  obtain ⟨f₁, f₂, f₃, f₄, rfl⟩ := List.length_eq_four.1 (Nat.succ.inj hfront)
  obtain rfl : f₃ = atyp := Except.ok.inj hatyp
  obtain rfl : f₄ = domainLen := Except.ok.inj hlen
  have hname : addr.length = f₄.toNat := Nat.add_left_cancel haddr
  refine ⟨[f₀, f₁, f₂], addr, port, rest, ?_, rfl, hname, hport, hdest⟩
  rw [hname, UInt8.ofNat_toNat]
  rfl

/-- What the switch accepts. -/
theorem parseAddress_eq_ok {atyp : UInt8} (hatyp : (index buf 3 : Go Socks5Error UInt8) = .ok atyp)
    (h : parseAddress buf n atyp = .ok dest) :
    ∃ (front : Bytes) (address : Address) (port rest : Bytes),
      buf = front ++ (address.encode ++ (port ++ rest)) ∧ front.length = 3 ∧ port.length = 2 ∧
        3 + address.encode.length + 2 ≤ n ∧ hostPort address.host (beNat port) = dest := by
  unfold parseAddress at h
  by_cases h₁ : atyp = 0x01
  · rw [if_pos h₁] at h
    split_ifs at h with hn
    obtain ⟨front, addr, port, rest, rfl, hfront, haddr, hport, hdest⟩ :=
      addrAndPort_four_eq_ok 4 hatyp h
    subst h₁
    refine ⟨front, .ipv4 addr haddr, port, rest, rfl, hfront, hport, ?_, hdest⟩
    simp only [Address.encode, List.length_cons]
    omega
  rw [if_neg h₁] at h
  by_cases h₃ : atyp = 0x03
  · rw [if_pos h₃] at h
    obtain ⟨domainLen, hlen, h⟩ := Go.bind_eq_ok.1 h
    split_ifs at h with hn
    obtain ⟨front, addr, port, rest, rfl, hfront, hname, hport, hdest⟩ :=
      addrAndPort_five_eq_ok hatyp hlen h
    subst h₃
    have hle : addr.length ≤ 255 := by
      have hlt := domainLen.toNat_lt
      omega
    refine ⟨front, .domain addr hle, port, rest, rfl, hfront, hport, ?_, hdest⟩
    simp only [Address.encode, List.length_cons]
    omega
  rw [if_neg h₃] at h
  by_cases h₄ : atyp = 0x04
  · rw [if_pos h₄] at h
    split_ifs at h with hn
    obtain ⟨front, addr, port, rest, rfl, hfront, haddr, hport, hdest⟩ :=
      addrAndPort_four_eq_ok 16 hatyp h
    subst h₄
    refine ⟨front, .ipv6 addr haddr, port, rest, rfl, hfront, hport, ?_, hdest⟩
    simp only [Address.encode, List.length_cons]
    omega
  · rw [if_neg h₄] at h
    cases h

/-- The switch accepts an address that lies in the first `n` bytes. -/
theorem parseAddress_encode (front : Bytes) (hfront : front.length = 3) (address : Address)
    {port : Bytes} (hport : port.length = 2) (rest : Bytes) (hn : 3 + address.encode.length + 2 ≤ n)
    :
    ∃ atyp, (index (front ++ (address.encode ++ (port ++ rest))) 3 : Go Socks5Error UInt8)
        = .ok atyp ∧
      parseAddress (front ++ (address.encode ++ (port ++ rest))) n atyp
        = .ok (hostPort address.host (beNat port)) := by
  obtain ⟨f₀, f₁, f₂, rfl⟩ := List.length_eq_three.1 hfront
  cases address with
  | ipv4 ip hip =>
    rw [Address.encode, List.length_cons] at hn
    refine ⟨0x01, rfl, ?_⟩
    unfold parseAddress
    rw [if_pos rfl, if_neg (by omega)]
    exact addrAndPort_eq_ok_iff.2
      ⟨[f₀, f₁, f₂, 0x01], ip, port, rest, rfl, rfl, by rw [hip], hport, rfl⟩
  | domain name hname =>
    have hlen : (UInt8.ofNat name.length).toNat = name.length :=
      UInt8.toNat_ofNat_of_lt' (Nat.lt_succ_of_le hname)
    rw [Address.encode, List.length_cons, List.length_cons] at hn
    refine ⟨0x03, rfl, ?_⟩
    unfold parseAddress
    rw [if_neg (by decide), if_pos rfl]
    refine Go.bind_eq_ok.2 ⟨UInt8.ofNat name.length, rfl, ?_⟩
    rw [hlen, if_neg (by omega)]
    exact addrAndPort_eq_ok_iff.2
      ⟨[f₀, f₁, f₂, 0x03, UInt8.ofNat name.length], name, port, rest, rfl, rfl, rfl, hport, rfl⟩
  | ipv6 ip hip =>
    rw [Address.encode, List.length_cons] at hn
    refine ⟨0x04, rfl, ?_⟩
    unfold parseAddress
    rw [if_neg (by decide), if_neg (by decide), if_pos rfl, if_neg (by omega)]
    exact addrAndPort_eq_ok_iff.2
      ⟨[f₀, f₁, f₂, 0x04], ip, port, rest, rfl, rfl, by rw [hip], hport, rfl⟩

theorem length_encodeWith (rsv : UInt8) (r : Request) :
    (r.encodeWith rsv).length = 3 + r.address.encode.length + 2 := by
  simp only [Request.encodeWith, List.length_append, length_beBytes, List.length_cons,
    List.length_nil]
  omega

/-- **What the parser accepts**: a CONNECT request at the front of the buffer that lies
within the first `n` bytes. -/
theorem parseRequest_eq_ok_iff :
    parseRequest buf n = .ok dest ↔
      ∃ (rsv : UInt8) (r : Request) (rest : Bytes), buf = r.encodeWith rsv ++ rest ∧
        (r.encodeWith rsv).length ≤ n ∧ r.dest = dest := by
  constructor
  · intro h
    obtain ⟨ver, hver, h⟩ := Go.bind_eq_ok.1 h
    obtain ⟨cmd, hcmd, h⟩ := Go.bind_eq_ok.1 h
    split_ifs at h with hconnect
    rw [not_or, not_not, not_not] at hconnect
    obtain ⟨atyp, hatyp, h⟩ := Go.bind_eq_ok.1 h
    obtain ⟨front, address, port, rest, rfl, hfront, hport, hn, hdest⟩ :=
      parseAddress_eq_ok hatyp h
    obtain ⟨f₀, f₁, rsv, rfl⟩ := List.length_eq_three.1 hfront
    obtain rfl : f₀ = 0x05 := (Except.ok.inj hver).trans hconnect.1
    obtain rfl : f₁ = 0x01 := (Except.ok.inj hcmd).trans hconnect.2
    obtain ⟨r, hencode, hr⟩ := request_of_parts rsv address hport
    refine ⟨rsv, r, rest, ?_, ?_, hr.trans hdest⟩
    · rw [hencode, List.append_assoc, List.append_assoc]
    · rw [hencode]
      simp only [List.length_append, List.length_cons, List.length_nil]
      omega
  · rintro ⟨rsv, r, rest, rfl, hn, rfl⟩
    rw [length_encodeWith] at hn
    obtain ⟨atyp, hatyp, hparse⟩ := parseAddress_encode [0x05, 0x01, rsv] rfl r.address
      (length_beBytes 2 r.port.toNat) rest hn
    have hbuf : r.encodeWith rsv ++ rest
        = [0x05, 0x01, rsv] ++ (r.address.encode ++ (beBytes 2 r.port.toNat ++ rest)) := by
      rw [Request.encodeWith, List.append_assoc, List.append_assoc]
    rw [hbuf]
    unfold parseRequest
    refine Go.bind_eq_ok.2 ⟨0x05, rfl, Go.bind_eq_ok.2 ⟨0x01, rfl, ?_⟩⟩
    rw [if_neg (by decide)]
    refine Go.bind_eq_ok.2 ⟨atyp, hatyp, ?_⟩
    rw [hparse, beNat_beBytes_port]
    rfl

/-! ## The two reads -/

/-- The handshake succeeds with this destination, and leaves these bytes. -/
def Serves (conn : Source) (dest tail : Bytes) : Prop :=
  (socks5Handshake conn).1 = .ok dest ∧ (socks5Handshake conn).2.1.flatten = tail

/-- The bytes start with a CONNECT request for this destination. -/
def NamesDest (b dest : Bytes) : Prop :=
  ∃ (rsv : UInt8) (r : Request) (rest : Bytes), b = r.encodeWith rsv ++ rest ∧ r.dest = dest

/-- The first two reads deliver these messages between them, the first at least two bytes of
them and the second a request for this destination. -/
def ReadsMessages (conn : Source) (messages dest : Bytes) : Prop :=
  ∃ a conn₁ b conn₂, conn.read 258 = some (a, conn₁) ∧ conn₁.read 258 = some (b, conn₂) ∧
    2 ≤ a.length ∧ a ++ b = messages ∧ NamesDest b dest

/-- What is left in the buffer of the first message does not matter for the second. -/
theorem parseRequest_overwrite_iff {buf b dest : Bytes} :
    parseRequest (overwrite buf b) b.length = .ok dest ↔ NamesDest b dest := by
  rw [parseRequest_eq_ok_iff, overwrite]
  constructor
  · rintro ⟨rsv, r, rest, hbuf, hle, hdest⟩
    refine ⟨rsv, r, rest.take (b.length - (r.encodeWith rsv).length), ?_, hdest⟩
    have htake := congrArg (List.take b.length) hbuf
    rwa [List.take_left, List.take_append, List.take_of_length_le hle] at htake
  · rintro ⟨rsv, r, rest, rfl, hdest⟩
    refine ⟨rsv, r, rest ++ buf.drop (r.encodeWith rsv ++ rest).length, ?_, ?_, hdest⟩
    · rw [List.append_assoc]
    · rw [List.length_append]
      exact Nat.le_add_right _ _

theorem NamesDest.length_ge {b dest : Bytes} (h : NamesDest b dest) : 7 ≤ b.length := by
  obtain ⟨rsv, ⟨address, port⟩, rest, rfl, -⟩ := h
  rw [List.length_append, length_encodeWith]
  cases address with
  | ipv4 ip hip => simp only [Address.encode, List.length_cons]; omega
  | domain name hname => simp only [Address.encode, List.length_cons]; omega
  | ipv6 ip hip => simp only [Address.encode, List.length_cons]; omega

/-- The second message is accepted if it starts with a request. -/
theorem checkRequest_iff {buf b dest : Bytes} :
    checkRequest buf b = .ok dest ↔ NamesDest b dest := by
  unfold checkRequest
  split_ifs with hshort
  · refine iff_of_false nofun fun h => ?_
    have := h.length_ge
    omega
  · exact parseRequest_overwrite_iff

/-- The first message is accepted if it has two bytes, the first of them the version. -/
theorem checkGreeting_eq_ok_iff {a buf : Bytes} :
    checkGreeting a = .ok buf ↔
      ∃ a', a = 0x05 :: a' ∧ 0 < a'.length ∧ overwrite emptyBuf a = buf := by
  unfold checkGreeting
  rcases a with _ | ⟨ver, a'⟩
  · exact iff_of_false nofun fun ⟨_, h, _⟩ => nomatch h
  · have hver : (index (overwrite emptyBuf (ver :: a')) 0 : Go Socks5Error UInt8) = .ok ver := rfl
    rw [hver, Go.ok_bind, List.length_cons]
    constructor
    · intro h
      split_ifs at h with hshort hv
      obtain rfl := not_not.1 hv
      exact ⟨a', rfl, by omega, Except.ok.inj h⟩
    · rintro ⟨_, ⟨⟩, hpos, rfl⟩
      rw [if_neg (by omega), if_neg (not_not.2 rfl)]
      rfl

/-- The handshake on a connection whose first two reads are long enough. -/
theorem socks5Handshake_of_reads {conn conn₁ conn₂ : Source} {a b : Bytes}
    (ha : conn.read 258 = some (0x05 :: a, conn₁)) (ha_pos : 0 < a.length)
    (hb : conn₁.read 258 = some (b, conn₂)) :
    socks5Handshake conn
      = (checkRequest (overwrite emptyBuf (0x05 :: a)) b, conn₂, methodReply) := by
  unfold socks5Handshake
  rw [ha]
  dsimp only
  rw [checkGreeting_eq_ok_iff.2 ⟨a, rfl, ha_pos, rfl⟩]
  dsimp only
  rw [hb]

/-- What a successful handshake has read. -/
theorem reads_of_socks5Handshake {conn : Source} {dest : Bytes}
    (h : (socks5Handshake conn).1 = .ok dest) :
    ∃ a conn₁ b conn₂, conn.read 258 = some (a, conn₁) ∧ conn₁.read 258 = some (b, conn₂) ∧
      2 ≤ a.length ∧ (socks5Handshake conn).2.1 = conn₂ ∧ NamesDest b dest := by
  unfold socks5Handshake at h ⊢
  rcases ha : conn.read 258 with _ | ⟨a, conn₁⟩
  · rw [ha] at h
    cases h
  · rw [ha] at h
    dsimp only at h ⊢
    rcases hgreeting : checkGreeting a with e | buf
    · rw [hgreeting] at h
      cases h
    · rw [hgreeting] at h
      dsimp only at h ⊢
      obtain ⟨a', rfl, hpos, -⟩ := checkGreeting_eq_ok_iff.1 hgreeting
      rcases hb : conn₁.read 258 with _ | ⟨b, conn₂⟩
      · rw [hb] at h
        cases h
      · rw [hb] at h
        exact ⟨_, conn₁, b, conn₂, rfl, hb, Nat.succ_le_succ hpos, rfl, checkRequest_iff.1 h⟩

/-- **When the handshake is right.**  A client sends a greeting, a request and some data.
The handshake returns the destination of the request and leaves the data, exactly if the
first two reads deliver the two messages and nothing else, and the second one starts with a
request for that destination. -/
theorem socks5Handshake_iff (g : Greeting) (r : Request) (tail : Bytes) (conn : Source)
    (hconn : conn.flatten = g.encode ++ r.encode ++ tail) :
    Serves conn r.dest tail ↔ ReadsMessages conn (g.encode ++ r.encode) r.dest := by
  constructor
  · rintro ⟨hdest, hrest⟩
    obtain ⟨a, conn₁, b, conn₂, ha, hb, ha_len, hleft, hnames⟩ := reads_of_socks5Handshake hdest
    refine ⟨a, conn₁, b, conn₂, ha, hb, ha_len, ?_, hnames⟩
    rw [hleft] at hrest
    rw [← Source.read_eq_some ha, ← Source.read_eq_some hb, hrest, ← List.append_assoc] at hconn
    exact List.append_cancel_right hconn
  · rintro ⟨a, conn₁, b, conn₂, ha, hb, ha_len, hmessages, hnames⟩
    -- the first read starts with the version of the greeting
    obtain ⟨a', rfl⟩ : ∃ a', a = 0x05 :: a' := by
      cases a with
      | nil => exact absurd ha_len (by decide)
      | cons x a' => exact ⟨a', by rw [(List.cons.inj hmessages).1]⟩
    rw [List.length_cons] at ha_len
    have hshake := socks5Handshake_of_reads ha (by omega) hb
    unfold Serves
    rw [hshake]
    refine ⟨checkRequest_iff.2 hnames, ?_⟩
    have hall : (0x05 :: a' ++ b) ++ conn₂.flatten = (g.encode ++ r.encode) ++ tail := by
      rw [← hconn, ← Source.read_eq_some ha, ← Source.read_eq_some hb, List.append_assoc]
    rw [hmessages] at hall
    exact List.append_cancel_left hall

/-- A client that offers no authentication. -/
def plainGreeting : Greeting := ⟨[0x00], by decide⟩

/-- A request for `127.0.0.1:80`. -/
def localRequest : Request := ⟨.ipv4 [127, 0, 0, 1] rfl, 80⟩

/-- Each message in a piece of its own. -/
theorem serves_whole_messages :
    Serves [[5, 1, 0], [5, 1, 0, 1, 127, 0, 0, 1, 0, 80], [71, 69, 84]] localRequest.dest
      [71, 69, 84] :=
  (socks5Handshake_iff plainGreeting localRequest [71, 69, 84]
    [[5, 1, 0], [5, 1, 0, 1, 127, 0, 0, 1, 0, 80], [71, 69, 84]] (by decide)).2
    ⟨[5, 1, 0], [[5, 1, 0, 1, 127, 0, 0, 1, 0, 80], [71, 69, 84]],
      [5, 1, 0, 1, 127, 0, 0, 1, 0, 80], [[71, 69, 84]], rfl, rfl, by decide, rfl,
      0x00, localRequest, [], rfl, rfl⟩

/-- **A request in two pieces is refused.** -/
theorem request_in_two_pieces :
    ¬ ∀ (g : Greeting) (r : Request) (tail : Bytes) (conn : Source), (∀ c ∈ conn, c ≠ []) →
        conn.flatten = g.encode ++ r.encode ++ tail → Serves conn r.dest tail := by
  intro hall
  have hserves := hall plainGreeting localRequest []
    [[5, 1, 0], [5, 1, 0, 1, 127], [0, 0, 1, 0, 80]] (by decide) (by decide)
  have herror : (socks5Handshake [[5, 1, 0], [5, 1, 0, 1, 127], [0, 0, 1, 0, 80]]).1
      = .error (.error .request) := by
    decide
  rw [Serves, herror] at hserves
  cases hserves.1

/-! ## The destination on the other side -/

/-- The handshake on messages that come in one piece each. -/
theorem socks5Handshake_whole (g : Greeting) (hfit : r.encode.length ≤ 258) (later : Source) :
    socks5Handshake (g.encode :: r.encode :: later) = (.ok r.dest, later, methodReply) := by
  have hg : g.encode.length ≤ 258 := by
    have hle := g.methods_length
    simp only [Greeting.encode, List.length_cons]
    omega
  have hnames : NamesDest r.encode r.dest := ⟨0x00, r, [], by rw [List.append_nil]; rfl, rfl⟩
  have hshake := socks5Handshake_of_reads (Source.read_cons_of_le hg (r.encode :: later))
    (Nat.succ_pos _) (Source.read_cons_of_le hfit later)
  rw [hshake, checkRequest_iff.2 hnames]

/-- An address as it may stand in front of a port: names have 1 to 251 bytes, without
colons and brackets. -/
def Address.Plain : Address → Prop
  | .domain name _ => 1 ≤ name.length ∧ name.length ≤ 251 ∧ colon ∉ name ∧ Bracketless name
  | _ => True

/-- An IPv6 address whose text is not that of an IPv4 address. -/
def Address.Bare6 : Address → Prop
  | .ipv6 ip _ => ¬ Is4In6 ip
  | _ => False

/-- However the stream is cut on its way, the other side reads a destination from it that
it splits into the host and the port of the request. -/
def Delivered (h : Handled) (r : Request) : Prop :=
  ∃ s, h.stream = some s ∧ ∀ (stream : Source) (more : Bytes), stream.flatten = s.written ++ more →
    ∃ dest rest, readDestHeader stream = (.ok dest, rest) ∧ rest.flatten = more ∧
      splitHostPort dest = .ok (r.address.host, decimal r.port.toNat)

theorem length_encode_le (h : r.address.Plain) : r.encode.length ≤ 258 := by
  rw [Request.encode, length_encodeWith]
  obtain ⟨address, port⟩ := r
  cases address with
  | ipv4 ip hip => simp only [Address.encode, List.length_cons]; omega
  | domain name hname =>
    have hle := h.2.1
    simp only [Address.encode, List.length_cons]
    omega
  | ipv6 ip hip => simp only [Address.encode, List.length_cons]; omega

/-- The text of an address that can stand in front of a port as it is. -/
theorem host_of_plain {a : Address} (h : a.Plain) (hbare : ¬ a.Bare6) :
    colon ∉ a.host ∧ Bracketless a.host ∧ a.host.length ≤ 251 := by
  cases a with
  | ipv4 ip hip =>
    have hle := length_ipv4String_le hip
    exact ⟨colon_not_mem_ipv4String ip, bracketless_ipv4String ip, hle.trans (by decide)⟩
  | domain name hname => exact ⟨h.2.2.1, h.2.2.2, h.2.1⟩
  | ipv6 ip hip =>
    have hmapped : Is4In6 ip := not_not.1 hbare
    have hlen : (ip.drop 12).length = 4 := by
      rw [List.length_drop, hip]
    have hle := length_ipv4String_le hlen
    show colon ∉ ipString ip ∧ Bracketless (ipString ip) ∧ (ipString ip).length ≤ 251
    rw [ipString, if_pos hmapped]
    exact ⟨colon_not_mem_ipv4String _, bracketless_ipv4String _, hle.trans (by decide)⟩

/-- The text of any other address is not split again. -/
theorem splitHostPort_of_bare6 (h : r.address.Bare6) :
    splitHostPort r.dest = .error .tooManyColons := by
  obtain ⟨address, port⟩ := r
  cases address with
  | ipv4 ip hip => exact h.elim
  | domain name hname => exact h.elim
  | ipv6 ip hip =>
    have hbare : ¬ Is4In6 ip := h
    have hlbrack : lbrack ∉ ipString ip := by
      rw [ipString, if_neg hbare]
      exact lbrack_not_mem_ipv6String _
    exact splitHostPort_unbracketed hlbrack (colon_not_mem_decimal _)
      ((colon_mem_ipString_iff hip).2 hbare)

/-- What the forwarder sends, for messages in one piece each and a stream that takes it. -/
theorem handleSOCKS5_stream (g : Greeting) (h : r.address.Plain) (later : Source) :
    (handleSOCKS5 (g.encode :: r.encode :: later) (some ⟨[], []⟩)).stream
      = some ⟨if r.dest.length > maxDestLen then []
          else beBytes 2 r.dest.length ++ r.dest, []⟩ := by
  unfold handleSOCKS5
  rw [socks5Handshake_whole g (length_encode_le h)]
  dsimp only
  unfold writeDestHeader
  split_ifs <;> rfl

theorem length_dest_pos (r : Request) : 0 < r.dest.length := by
  simp [Request.dest, hostPort]

/-- An IPv6 address with colons in its text does not arrive. -/
theorem not_delivered_of_bare6 (g : Greeting) (later : Source) (h : r.address.Plain)
    (hbare : r.address.Bare6) :
    ¬ Delivered (handleSOCKS5 (g.encode :: r.encode :: later) (some ⟨[], []⟩)) r := by
  rintro ⟨s, hs, hread⟩
  rw [handleSOCKS5_stream g h later] at hs
  obtain rfl := Option.some.inj hs
  by_cases hlong : r.dest.length > maxDestLen
  · -- nothing is sent, and nothing can be read
    obtain ⟨dest, rest, hdest, -⟩ := hread [] [] (by rw [if_pos hlong]; rfl)
    cases hdest
  · have hflat : List.flatten [beBytes 2 r.dest.length ++ r.dest]
        = beBytes 2 r.dest.length ++ r.dest ++ [] := by
      simp
    rw [if_neg hlong] at hread
    obtain ⟨dest, rest, hdest, -, hsplit⟩ := hread _ [] hflat
    obtain ⟨rest', hdest', -⟩ :=
      readDestHeader_written (length_dest_pos r) (not_lt.1 hlong) hflat
    obtain rfl : dest = r.dest := Except.ok.inj (congrArg Prod.fst (hdest.symm.trans hdest'))
    rw [splitHostPort_of_bare6 hbare] at hsplit
    cases hsplit

/-- **When a destination arrives.**  For messages in one piece each, the server splits the
destination it reads into the host and the port that were requested, exactly if the
address is not an IPv6 address with colons in its text. -/
theorem delivered_iff (g : Greeting) (r : Request) (later : Source) (h : r.address.Plain) :
    Delivered (handleSOCKS5 (g.encode :: r.encode :: later) (some ⟨[], []⟩)) r ↔
      ¬ r.address.Bare6 := by
  constructor
  · intro hdelivered hbare
    exact not_delivered_of_bare6 g later h hbare hdelivered
  · intro hbare
    obtain ⟨hcolon, hbracketless, hle⟩ := host_of_plain h hbare
    have hport : (decimal r.port.toNat).length ≤ 5 :=
      length_numeral_le (k := 4) (r.port.toNat_lt.trans (by decide)) _
    have hlen : r.dest.length ≤ maxDestLen := by
      simp only [Request.dest, hostPort, List.length_append, List.length_cons, maxDestLen]
      omega
    refine ⟨_, handleSOCKS5_stream g h later, fun stream more hflat => ?_⟩
    rw [if_neg (not_lt.2 hlen)] at hflat
    obtain ⟨rest, hdest, hrest⟩ := readDestHeader_written (length_dest_pos r) hlen hflat
    exact ⟨r.dest, rest, hdest, hrest,
      splitHostPort_plain hbracketless (bracketless_decimal _) (colon_not_mem_decimal _) hcolon⟩

/-- An IPv4 destination arrives. -/
theorem delivered_local :
    Delivered (handleSOCKS5 [plainGreeting.encode, localRequest.encode] (some ⟨[], []⟩))
      localRequest :=
  (delivered_iff plainGreeting localRequest [] trivial).2 id

/-- A request for the IPv6 address `::1` and port 80, whose text is `::1:80`. -/
def loopback6Request : Request := ⟨.ipv6 [0, 0, 0, 0, 0, 0, 0, 0, 0, 0, 0, 0, 0, 0, 0, 1] rfl, 80⟩

/-- **An IPv6 destination does not arrive.** -/
theorem loopback6_not_delivered :
    ¬ ∀ (g : Greeting) (r : Request) (later : Source), r.address.Plain →
        Delivered (handleSOCKS5 (g.encode :: r.encode :: later) (some ⟨[], []⟩)) r := by
  intro hall
  have hbare : loopback6Request.address.Bare6 := by
    show ¬ Is4In6 [0, 0, 0, 0, 0, 0, 0, 0, 0, 0, 0, 0, 0, 0, 0, 1]
    decide
  have hplain : loopback6Request.address.Plain := trivial
  exact not_delivered_of_bare6 plainGreeting [] hplain hbare
    (hall plainGreeting loopback6Request [] hplain)

end Socks5
