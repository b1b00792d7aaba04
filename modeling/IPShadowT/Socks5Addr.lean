/-
# The second parser of SOCKS5 addresses

`ParseSOCKS5Addr` of `internal/tunnel/socks5.go` reads an address and a port off a reader,
field by field.  The listener does not use it: `socks5Handshake` takes the same address out
of the 258 bytes that one `Read` fills.

A request for a name of 252 bytes or more does not fit in these.  `ParseSOCKS5Addr` reads
every address (`parseSOCKS5Addr_encode`), so that the two agree on the requests that fit and
on no others: `parsers_agree_iff`.
-/
import IPShadowT.Socks5

open Bytes HostPort IPAddr

namespace Socks5

/-! ## The parser -/

/-- The errors of `ParseSOCKS5Addr`. -/
inductive AddrError where
  | read (e : ReadError)
  | addressType (t : UInt8)
  deriving DecidableEq, Repr

/-- The message of an error that `ParseSOCKS5Addr` makes itself. -/
def AddrError.message : AddrError → Option String
  | .read _ => none
  | .addressType t => some ("unsupported address type: " ++ toString t.toNat)

/-- `net.IP.String`, for an address of 4 or 16 bytes. -/
def netIPString (ip : Bytes) : Bytes := if ip.length = 4 then ipv4String ip else ipString ip

/-- `io.ReadFull` of a field of `n` bytes, and what is done with it. -/
def readField (n : ℕ) (r : Source) (next : Bytes → Source → Except AddrError Bytes × Source) :
    Except AddrError Bytes × Source :=
  match r.readFull n with
  | (.error e, r') => (.error (.read e), r')
  | (.ok field, r') => next field r'

/-- The end of `ParseSOCKS5Addr`: the port, and the text. -/
def readPort (host : Bytes) (r : Source) : Except AddrError Bytes × Source :=
  readField 2 r fun portBuf r => (.ok (hostPort host (beNat portBuf)), r)

/-- An IP address of `size` bytes. -/
def readIP (size : ℕ) (r : Source) : Except AddrError Bytes × Source :=
  readField size r fun ip r => readPort (netIPString ip) r

/-- A name, with its length in front. -/
def readDomain (r : Source) : Except AddrError Bytes × Source :=
  readField 1 r fun lenBuf r => readField (beNat lenBuf) r readPort

/-- The switch over the type of the address. -/
def readAddr (addrType : Bytes) (r : Source) : Except AddrError Bytes × Source :=
  if addrType = [0x01] then readIP 4 r
  else if addrType = [0x03] then readDomain r
  else if addrType = [0x04] then readIP 16 r
  else (.error (.addressType (addrType.headD 0)), r)

/-- `ParseSOCKS5Addr`: the destination, and what is left of the stream. -/
def parseSOCKS5Addr (r : Source) : Except AddrError Bytes × Source := readField 1 r readAddr

/-! ## It reads every address -/

variable {r : Source} {later : Bytes}

/-- However the stream is cut, a field at its head is read, and the rest is left to what comes
next. -/
theorem readField_append {field later : Bytes} {n : ℕ} (hn : field.length = n)
    (hr : r.flatten = field ++ later) (next : Bytes → Source → Except AddrError Bytes × Source) :
    ∃ r', readField n r next = next field r' ∧ r'.flatten = later := by
  obtain ⟨r', hread, hr'⟩ := Source.readFull_append hr
  rw [hn] at hread
  refine ⟨r', ?_, hr'⟩
  rw [readField, hread]

theorem readPort_append (host : Bytes) (port : UInt16)
    (hr : r.flatten = beBytes 2 port.toNat ++ later) :
    ∃ r', readPort host r = (.ok (hostPort host port.toNat), r') ∧ r'.flatten = later := by
  obtain ⟨r', hread, hr'⟩ := readField_append (length_beBytes 2 port.toNat) hr
    fun portBuf r => (.ok (hostPort host (beNat portBuf)), r)
  rw [beNat_beBytes_port] at hread
  exact ⟨r', hread, hr'⟩

theorem readIP_append {ip : Bytes} {size : ℕ} (hsize : ip.length = size) (port : UInt16)
    (hr : r.flatten = ip ++ (beBytes 2 port.toNat ++ later)) :
    ∃ r', readIP size r = (.ok (hostPort (netIPString ip) port.toNat), r')
      ∧ r'.flatten = later := by
  obtain ⟨r₁, hread₁, hr₁⟩ := readField_append hsize hr fun ip r => readPort (netIPString ip) r
  obtain ⟨r₂, hread₂, hr₂⟩ := readPort_append (netIPString ip) port hr₁
  exact ⟨r₂, hread₁.trans hread₂, hr₂⟩

theorem readDomain_append {name : Bytes} (hname : name.length ≤ 255) (port : UInt16)
    (hr : r.flatten = [UInt8.ofNat name.length] ++ (name ++ (beBytes 2 port.toNat ++ later))) :
    ∃ r', readDomain r = (.ok (hostPort name port.toNat), r') ∧ r'.flatten = later := by
  have hlen : beNat [UInt8.ofNat name.length] = name.length := by
    rw [beNat, beNat, UInt8.toNat_ofNat', List.length_nil, Nat.pow_zero]
    omega
  obtain ⟨r₁, hread₁, hr₁⟩ := readField_append (n := 1) rfl hr fun lenBuf r =>
    readField (beNat lenBuf) r readPort
  obtain ⟨r₂, hread₂, hr₂⟩ := readField_append hlen.symm hr₁ readPort
  obtain ⟨r₃, hread₃, hr₃⟩ := readPort_append name port hr₂
  exact ⟨r₃, hread₁.trans (hread₂.trans hread₃), hr₃⟩

/-- **An address is read back**, whatever its kind and however the stream is cut, and what
follows the port is left. -/
theorem parseSOCKS5Addr_encode (q : Request)
    (hr : r.flatten = q.address.encode ++ (beBytes 2 q.port.toNat ++ later)) :
    ∃ rest, parseSOCKS5Addr r = (.ok q.dest, rest) ∧ rest.flatten = later := by
  obtain ⟨address, port⟩ := q
  cases address with
  | ipv4 ip hip =>
    have htype : r.flatten = [0x01] ++ (ip ++ (beBytes 2 port.toNat ++ later)) := hr
    obtain ⟨r₁, hread₁, hr₁⟩ := readField_append (n := 1) rfl htype readAddr
    obtain ⟨r₂, hread₂, hr₂⟩ := readIP_append hip port hr₁
    have htext : netIPString ip = ipv4String ip := if_pos hip
    refine ⟨r₂, ?_, hr₂⟩
    rw [parseSOCKS5Addr, hread₁, readAddr, if_pos rfl, hread₂, htext]
    rfl
  | domain name hname =>
    have htype : r.flatten = [0x03] ++ ([UInt8.ofNat name.length]
        ++ (name ++ (beBytes 2 port.toNat ++ later))) := hr
    obtain ⟨r₁, hread₁, hr₁⟩ := readField_append (n := 1) rfl htype readAddr
    obtain ⟨r₂, hread₂, hr₂⟩ := readDomain_append hname port hr₁
    refine ⟨r₂, ?_, hr₂⟩
    rw [parseSOCKS5Addr, hread₁, readAddr, if_neg (by decide), if_pos rfl, hread₂]
    rfl
  | ipv6 ip hip =>
    have htype : r.flatten = [0x04] ++ (ip ++ (beBytes 2 port.toNat ++ later)) := hr
    obtain ⟨r₁, hread₁, hr₁⟩ := readField_append (n := 1) rfl htype readAddr
    obtain ⟨r₂, hread₂, hr₂⟩ := readIP_append hip port hr₁
    have htext : netIPString ip = ipString ip := if_neg (by omega)
    refine ⟨r₂, ?_, hr₂⟩
    rw [parseSOCKS5Addr, hread₁, readAddr, if_neg (by decide), if_neg (by decide), if_pos rfl,
      hread₂, htext]
    rfl

/-! ## Where the two differ -/

/-- The request fits in the buffer of `socks5Handshake`. -/
def Request.Fits (q : Request) : Prop := q.encode.length ≤ 258

instance (q : Request) : Decidable q.Fits := inferInstanceAs (Decidable (_ ≤ _))

/-- Only the name of a domain can be too long, from 252 bytes on. -/
theorem Request.not_fits_iff (q : Request) :
    ¬ q.Fits ↔ ∃ name hname, q.address = .domain name hname ∧ 252 ≤ name.length := by
  obtain ⟨address, port⟩ := q
  rw [Request.Fits, Request.encode, length_encodeWith]
  cases address with
  | ipv4 ip hip =>
    rw [Address.encode, List.length_cons]
    refine iff_of_false (by omega) fun hdomain => ?_
    obtain ⟨_, _, heq, -⟩ := hdomain
    cases heq
  | domain name hname =>
    rw [Address.encode, List.length_cons, List.length_cons]
    constructor
    · intro hlong
      exact ⟨name, hname, rfl, by omega⟩
    · intro hdomain
      obtain ⟨_, _, heq, hlong⟩ := hdomain
      cases heq
      omega
  | ipv6 ip hip =>
    rw [Address.encode, List.length_cons]
    refine iff_of_false (by omega) fun hdomain => ?_
    obtain ⟨_, _, heq, -⟩ := hdomain
    cases heq

/-- The handshake refuses a request that does not fit. -/
theorem socks5Handshake_of_not_fits (g : Greeting) {q : Request} (hlong : ¬ q.Fits)
    (later : Source) :
    (socks5Handshake (g.encode :: q.encode :: later)).1 = .error (.error .domainTooShort) := by
  obtain ⟨name, hname, haddress, hlen⟩ := q.not_fits_iff.1 hlong
  obtain ⟨address, port⟩ := q
  obtain rfl : address = .domain name hname := haddress
  set q : Request := ⟨.domain name hname, port⟩
  have hg : g.encode.length ≤ 258 := by
    have hle := g.methods_length
    simp only [Greeting.encode, List.length_cons]
    omega
  have hread : Source.read 258 (q.encode :: later)
      = some (q.encode.take 258, q.encode.drop 258 :: later) := if_neg hlong
  have htake : (q.encode.take 258).length = 258 :=
    List.length_take_of_le (Nat.le_of_lt (Nat.not_le.1 hlong))
  rw [socks5Handshake_of_reads (Source.read_cons_of_le hg _) (Nat.succ_pos _) hread]
  dsimp only
  rw [checkRequest, htake, if_neg (by decide)]
  have hnum : (UInt8.ofNat name.length).toNat = name.length :=
    UInt8.toNat_ofNat_of_lt' (Nat.lt_succ_of_le hname)
  -- the front of the buffer, up to the length of the name
  obtain ⟨buf, hbuf⟩ : ∃ buf, overwrite (overwrite emptyBuf g.encode) (q.encode.take 258)
      = 0x05 :: 0x01 :: 0x00 :: 0x03 :: UInt8.ofNat name.length :: buf := ⟨_, rfl⟩
  have hshort : (258 : ℕ) < 5 + (UInt8.ofNat name.length).toNat + 2 := by omega
  have hparse : parseAddress
      (0x05 :: 0x01 :: 0x00 :: 0x03 :: UInt8.ofNat name.length :: buf) 258 0x03
      = .error (.error .domainTooShort) := by
    rw [parseAddress, if_neg (by decide), if_pos rfl]
    show (if 258 < 5 + (UInt8.ofNat name.length).toNat + 2 then _ else _) = _
    rw [if_pos hshort]
  have hgreeting : (0x05 :: UInt8.ofNat g.methods.length :: g.methods) = g.encode := rfl
  rw [hgreeting, hbuf]
  exact hparse

/-- Both parsers return this destination, or neither does. -/
def Agree (a : Go Socks5Error Bytes) (b : Except AddrError Bytes) : Prop :=
  ∀ dest, a = .ok dest ↔ b = .ok dest

/-- **When the two parsers agree.**  The greeting and the request come in one piece each, and
the address of the request, in any pieces, is what `ParseSOCKS5Addr` reads.  The results
agree exactly if the request fits in 258 bytes: for every address but the names of 252 to 255
bytes, which the handshake refuses and `ParseSOCKS5Addr` accepts. -/
theorem parsers_agree_iff (g : Greeting) (q : Request) (later addr : Source)
    (haddr : addr.flatten = q.address.encode ++ beBytes 2 q.port.toNat) :
    Agree (socks5Handshake (g.encode :: q.encode :: later)).1 (parseSOCKS5Addr addr).1 ↔
      ¬ ∃ name hname, q.address = .domain name hname ∧ 252 ≤ name.length := by
  rw [← q.not_fits_iff, not_not]
  have hparse : (parseSOCKS5Addr addr).1 = .ok q.dest := by
    rw [← List.append_nil (beBytes 2 q.port.toNat)] at haddr
    obtain ⟨rest, hparse, -⟩ := parseSOCKS5Addr_encode q haddr
    rw [hparse]
  rw [hparse]
  by_cases hfits : q.Fits
  · rw [socks5Handshake_whole g hfits later]
    refine iff_of_true (fun dest => ?_) hfits
    rw [Except.ok.injEq, Except.ok.injEq]
  · rw [socks5Handshake_of_not_fits g hfits later]
    refine iff_of_false (fun h => ?_) hfits
    cases (h q.dest).2 rfl

/-- A request for `127.0.0.1:80`, its address in two pieces. -/
theorem parsers_agree_local :
    Agree (socks5Handshake [plainGreeting.encode, localRequest.encode]).1
      (parseSOCKS5Addr [[1, 127, 0], [0, 1, 0, 80]]).1 :=
  (parsers_agree_iff plainGreeting localRequest [] [[1, 127, 0], [0, 1, 0, 80]] (by decide)).2
    nofun

/-- A request for a name of 252 letters. -/
def longRequest : Request :=
  ⟨.domain (List.replicate 252 97) (List.length_replicate.trans_le (by decide)), 443⟩

/-- **A name of 252 bytes**: one parser accepts what the other refuses. -/
theorem long_name_disagrees :
    (socks5Handshake [plainGreeting.encode, longRequest.encode]).1
        = .error (.error .domainTooShort) ∧
      (parseSOCKS5Addr [longRequest.address.encode ++ beBytes 2 443]).1
        = .ok longRequest.dest := by
  have hlong : ¬ longRequest.Fits :=
    longRequest.not_fits_iff.2 ⟨_, _, rfl, List.length_replicate.ge⟩
  have haddr : List.flatten [longRequest.address.encode ++ beBytes 2 443]
      = longRequest.address.encode ++ (beBytes 2 longRequest.port.toNat ++ []) := by
    rw [List.append_nil]
    exact List.append_nil _
  obtain ⟨rest, hparse, -⟩ := parseSOCKS5Addr_encode longRequest haddr
  exact ⟨socks5Handshake_of_not_fits plainGreeting hlong [], by rw [hparse]⟩

end Socks5
