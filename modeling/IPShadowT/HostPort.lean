/-
# `host:port` addresses

`net.SplitHostPort` and `net.JoinHostPort` of Go's standard library, on byte
strings.  A host with a colon in it (an IPv6 literal) is written in brackets.

`splitHostPort_joinHostPort` is the round trip for hosts without brackets.
`IPText` is the shape that the text of an IP address always has: no brackets, and
either no colon (IPv4) or at least two (IPv6).  Its point is
`Peer.addr_ne_text`: an address with a port is never itself the text of an IP
address.
-/
import IPShadowT.Bytes

namespace HostPort

/-- The byte `:`. -/
def colon : UInt8 := 58

/-- The byte `[`. -/
def lbrack : UInt8 := 91

/-- The byte `]`. -/
def rbrack : UInt8 := 93

/-! ## Searching for a byte -/

/-- `bytealg.IndexByteString`: the first position of `c`. -/
def indexByte (c : UInt8) : Bytes → Option ℕ
  | [] => none
  | x :: xs => if x = c then some 0 else (indexByte c xs).map (· + 1)

/-- `bytealg.LastIndexByteString`: the last position of `c`. -/
def lastIndexByte (c : UInt8) : Bytes → Option ℕ
  | [] => none
  | x :: xs =>
    match lastIndexByte c xs with
    | some i => some (i + 1)
    | none => if x = c then some 0 else none

theorem indexByte_append {c : UInt8} {a z : Bytes} (h : c ∉ a) :
    indexByte c (a ++ c :: z) = some a.length := by
  induction a with
  | nil => simp [indexByte]
  | cons x xs ih =>
    rw [List.mem_cons, not_or] at h
    rw [List.cons_append, indexByte, if_neg (Ne.symm h.1), ih h.2]
    rfl

theorem lastIndexByte_eq_none {c : UInt8} {b : Bytes} (h : c ∉ b) : lastIndexByte c b = none := by
  induction b with
  | nil => rfl
  | cons x xs ih =>
    rw [List.mem_cons, not_or] at h
    rw [lastIndexByte, ih h.2]
    exact if_neg (Ne.symm h.1)

theorem lastIndexByte_append {c : UInt8} {a z : Bytes} (h : c ∉ z) :
    lastIndexByte c (a ++ c :: z) = some a.length := by
  induction a with
  | nil =>
    rw [List.nil_append, lastIndexByte, lastIndexByte_eq_none h]
    exact if_pos rfl
  | cons x xs ih =>
    rw [List.cons_append, lastIndexByte, ih]
    rfl

/-! ## Splitting and joining -/

/-- The reasons `SplitHostPort` gives. -/
inductive AddrError where
  | missingPort
  | tooManyColons
  | missingRbrack
  | unexpectedLbrack
  | unexpectedRbrack
  deriving DecidableEq, Repr

/-- The end of `SplitHostPort`: no bracket may stand where none was expected. -/
def finishSplit (hostport host : Bytes) (i j k : ℕ) : Except AddrError (Bytes × Bytes) :=
  if lbrack ∈ hostport.drop j then .error .unexpectedLbrack
  else if rbrack ∈ hostport.drop k then .error .unexpectedRbrack
  else .ok (host, hostport.drop (i + 1))

/-- `net.SplitHostPort`. -/
def splitHostPort (hostport : Bytes) : Except AddrError (Bytes × Bytes) :=
  match lastIndexByte colon hostport with
  | none => .error .missingPort
  | some i =>
    if hostport.head? = some lbrack then
      match indexByte rbrack hostport with
      | none => .error .missingRbrack
      | some e =>
        if e + 1 = hostport.length then .error .missingPort
        else if e + 1 = i then
          finishSplit hostport ((hostport.take e).drop 1) i 1 (e + 1)
        else if hostport[e + 1]? = some colon then .error .tooManyColons
        else .error .missingPort
    else
      let host := hostport.take i
      if colon ∈ host then .error .tooManyColons
      else finishSplit hostport host i 0 0

/-- `net.JoinHostPort`. -/
def joinHostPort (host port : Bytes) : Bytes :=
  if colon ∈ host then lbrack :: host ++ rbrack :: colon :: port
  else host ++ colon :: port

/-! ## The round trip -/

/-- A host or a port as it stands inside an address. -/
def Bracketless (b : Bytes) : Prop := lbrack ∉ b ∧ rbrack ∉ b

section RoundTrip

variable {host port : Bytes}

theorem finishSplit_eq_ok {hostport : Bytes} {i j k : ℕ} (hj : lbrack ∉ hostport.drop j)
    (hk : rbrack ∉ hostport.drop k) :
    finishSplit hostport host i j k = .ok (host, hostport.drop (i + 1)) := by
  rw [finishSplit, if_neg hj, if_neg hk]

/-- A bracketed host. -/
theorem splitHostPort_bracketed (hhost : Bracketless host) (hport : Bracketless port)
    (hcolon : colon ∉ port) :
    splitHostPort (lbrack :: host ++ rbrack :: colon :: port) = .ok (host, port) := by
  have hlast : lastIndexByte colon (lbrack :: host ++ rbrack :: colon :: port)
      = some (host.length + 2) := by
    have h := lastIndexByte_append (a := lbrack :: host ++ [rbrack]) hcolon
    simpa using h
  have hend : indexByte rbrack (lbrack :: host ++ rbrack :: colon :: port)
      = some (host.length + 1) := by
    have hmem : rbrack ∉ lbrack :: host := by
      rw [List.mem_cons, not_or]
      exact ⟨by decide, hhost.2⟩
    exact indexByte_append hmem
  have hne : host.length + 1 + 1 ≠ (lbrack :: host ++ rbrack :: colon :: port).length := by
    simp
  have htail : (lbrack :: host ++ rbrack :: colon :: port).drop (host.length + 1 + 1)
      = colon :: port := by
    rw [List.cons_append, List.drop_succ_cons, ← List.drop_drop, List.drop_left]
    rfl
  have hport' : (lbrack :: host ++ rbrack :: colon :: port).drop (host.length + 2 + 1) = port := by
    rw [← List.drop_drop, htail]
    rfl
  rw [splitHostPort, hlast]
  dsimp only
  rw [if_pos (by rfl), hend]
  dsimp only
  rw [if_neg hne, if_pos rfl, finishSplit_eq_ok, hport']
  · simp
  · show lbrack ∉ host ++ rbrack :: colon :: port
    simp only [List.mem_append, List.mem_cons, not_or]
    exact ⟨hhost.1, by decide, by decide, hport.1⟩
  · rw [htail, List.mem_cons, not_or]
    exact ⟨by decide, hport.2⟩

/-- A host without a colon. -/
theorem splitHostPort_plain (hhost : Bracketless host) (hport : Bracketless port)
    (hcolon : colon ∉ port) (hplain : colon ∉ host) :
    splitHostPort (host ++ colon :: port) = .ok (host, port) := by
  have hmem : ∀ b, b ∉ host → b ≠ colon → b ∉ port → b ∉ host ++ colon :: port := by
    intro b h₁ h₂ h₃
    simp only [List.mem_append, List.mem_cons, not_or]
    exact ⟨h₁, h₂, h₃⟩
  have hl : lbrack ∉ host ++ colon :: port := hmem _ hhost.1 (by decide) hport.1
  have hhead : ¬ (host ++ colon :: port).head? = some lbrack := by
    intro h
    exact hl (List.mem_of_mem_head? h)
  have hport' : (host ++ colon :: port).drop (host.length + 1) = port := by
    rw [← List.drop_drop, List.drop_left]
    rfl
  rw [splitHostPort, lastIndexByte_append hcolon]
  dsimp only
  rw [if_neg hhead, List.take_left, if_neg hplain, finishSplit_eq_ok, hport']
  · exact hl
  · exact hmem _ hhost.2 (by decide) hport.2

/-- A host with a colon and no brackets around it. -/
theorem splitHostPort_unbracketed (hlbrack : lbrack ∉ host) (hcolon : colon ∉ port)
    (hmem : colon ∈ host) : splitHostPort (host ++ colon :: port) = .error .tooManyColons := by
  have hhead : ¬ (host ++ colon :: port).head? = some lbrack := by
    intro h
    cases host with
    | nil => cases hmem
    | cons x xs =>
      obtain rfl : x = lbrack := Option.some.inj h
      exact hlbrack List.mem_cons_self
  rw [splitHostPort, lastIndexByte_append hcolon]
  dsimp only
  rw [if_neg hhead, List.take_left, if_pos hmem]

/-- **Splitting what was joined** gives the host and the port back. -/
theorem splitHostPort_joinHostPort (hhost : Bracketless host) (hport : Bracketless port)
    (hcolon : colon ∉ port) : splitHostPort (joinHostPort host port) = .ok (host, port) := by
  unfold joinHostPort
  split_ifs with h
  · exact splitHostPort_bracketed hhost hport hcolon
  · exact splitHostPort_plain hhost hport hcolon h

end RoundTrip

/-! ## The text of an IP address -/

/-- The text of an IP address: not empty, no brackets, and no colon (IPv4) or at
least two (IPv6). -/
structure IPText where
  text : Bytes
  nonempty : text ≠ []
  bracketless : Bracketless text
  colons : text.count colon ≠ 1
  deriving DecidableEq

/-- A TCP peer: its address and the decimal text of its port. -/
structure Peer where
  ip : IPText
  port : Bytes
  digits : ∀ b ∈ port, 48 ≤ b ∧ b ≤ 57
  deriving DecidableEq

namespace Peer

/-- `TCPAddr.String`. -/
def addr (p : Peer) : Bytes := joinHostPort p.ip.text p.port

theorem not_mem_port (p : Peer) {b : UInt8} (hb : ¬ b ≤ 57) : b ∉ p.port :=
  fun h => hb (p.digits b h).2

theorem splitHostPort_addr (p : Peer) : splitHostPort p.addr = .ok (p.ip.text, p.port) :=
  splitHostPort_joinHostPort p.ip.bracketless
    ⟨p.not_mem_port (by decide), p.not_mem_port (by decide)⟩ (p.not_mem_port (by decide))

/-- **An address with a port is not the text of an IP address**: it starts with a
bracket, or it has exactly one colon. -/
theorem addr_ne_text (p : Peer) (ip : IPText) : p.addr ≠ ip.text := by
  intro h
  unfold addr joinHostPort at h
  split_ifs at h with hc
  · apply ip.bracketless.1
    rw [← h]
    exact List.mem_cons_self
  · apply ip.colons
    have hport : p.port.count colon = 0 := List.count_eq_zero.mpr (p.not_mem_port (by decide))
    rw [← h, List.count_append, List.count_cons_self, List.count_eq_zero.mpr hc, hport]

end Peer

end HostPort
