/-
# Probe resistance

Model of `internal/antidpi/probe_resist.go`.  `HandleConnection` reads four bytes of a connection
within a deadline to see whether the peer can be a client.  If it gets them, the caller goes on
with the connection; if not, the peer is shown a page, relayed to a fallback server or dropped.  An
address that has failed three times is relayed without being read.

`intact_iff` says when the stream of the peer reaches the caller or the fallback server whole: the
bytes that were read are not handed on.
-/
import IPShadowT.HostPort
import IPShadowT.RealityProxy

open Bytes HostPort
open Reality (Incoming)

namespace ProbeResist

/-! ## Addresses that are blocked -/

/-- `blockInfo`, with a time in nanoseconds. -/
structure BlockInfo where
  failures : ℕ
  lastFailure : ℤ
  deriving DecidableEq, Repr

/-- `ProbeResistance`. -/
structure ProbeResistance where
  fallbackAddr : String
  blockedIPs : Bytes → Option BlockInfo

/-- `NewProbeResistance`. -/
def newProbeResistance (fallbackAddr : String) : ProbeResistance := ⟨fallbackAddr, fun _ => none⟩

/-- The host of an address, or the whole address if it has none. -/
def hostOf (addr : Bytes) : Bytes :=
  match splitHostPort addr with
  | .error _ => addr
  | .ok (host, _) => if host = [] then addr else host

def minute : ℤ := 60000000000

/-- An entry for a host. -/
def ProbeResistance.set (pr : ProbeResistance) (host : Bytes) (info : Option BlockInfo) :
    ProbeResistance :=
  { pr with blockedIPs := fun h => if h = host then info else pr.blockedIPs h }

/-- `isBlocked`. -/
def isBlocked (pr : ProbeResistance) (addr : Bytes) (now : ℤ) : Bool × ProbeResistance :=
  match pr.blockedIPs (hostOf addr) with
  | none => (false, pr)
  | some info =>
    if 3 ≤ info.failures ∧ now - info.lastFailure < 5 * minute then (true, pr)
    else if now - info.lastFailure > 10 * minute then (false, pr.set (hostOf addr) none)
    else (false, pr)

/-- `recordFailure`. -/
def recordFailure (pr : ProbeResistance) (addr : Bytes) (now : ℤ) : ProbeResistance :=
  match pr.blockedIPs (hostOf addr) with
  | none => pr.set (hostOf addr) (some ⟨1, now⟩)
  | some info => pr.set (hostOf addr) (some ⟨info.failures + 1, now⟩)

/-! ## Connections -/

/-- What becomes of a connection: `HandleConnection` returns true, and the caller reads on; it is
relayed to the fallback server; it gets the default page; or it is closed. -/
inductive Outcome where
  | accepted (unread : Source)
  | relayed (fallback : Sink)
  | page
  | closed
  deriving DecidableEq, Repr

/-- `serveFallback`, with the connection to the fallback server if it can be reached.  The relay
ends with the stream of the peer. -/
def serveFallback (pr : ProbeResistance) (fallback : Option Sink) (conn : Source) : Outcome :=
  if pr.fallbackAddr = "" then .page
  else
    match fallback with
    | none => .page
    | some out => .relayed (conn.copyAll out)

/-- `serveFallbackWithData`. -/
def serveFallbackWithData (pr : ProbeResistance) (fallback : Option Sink) (conn : Source)
    (initialData : Bytes) : Outcome :=
  match initialData.head? with
  | none => .closed
  | some b =>
    -- `'G'`, `'P'` and `'H'`
    if b = 71 ∨ b = 80 ∨ b = 72 then .page
    else if b = 0x16 then serveFallback pr fallback conn
    else .closed

/-- What can still be read when `io.ReadFull` has failed: the stream has ended, or the deadline has
passed, and it stays set. -/
def afterFailure : Source := []

/-- `HandleConnection`. -/
def handleConnection (pr : ProbeResistance) (addr : Bytes) (now : ℤ) (fallback : Option Sink)
    (conn : Incoming) : Outcome × ProbeResistance :=
  match isBlocked pr addr now with
  | (true, pr) => (serveFallback pr fallback (conn.inTime ++ conn.remaining), pr)
  | (false, pr) =>
    match conn.inTime.readFull 4 with
    | (.error _, _) =>
      let pr := recordFailure pr addr now
      (serveFallbackWithData pr fallback afterFailure (conn.inTime.flatten.take 4), pr)
    | (.ok _, rest) => (.accepted (rest ++ conn.remaining), pr)

/-- The caller reads, or the fallback server has received, all that the peer sends. -/
def Outcome.Intact (o : Outcome) (conn : Incoming) : Prop :=
  match o with
  | .accepted unread => unread.flatten = conn.bytes
  | .relayed fallback => fallback.written = conn.bytes
  | .page | .closed => True

/-- The address has failed three times, and the last time was less than five minutes ago. -/
def ProbeResistance.Blocks (pr : ProbeResistance) (addr : Bytes) (now : ℤ) : Prop :=
  ∃ info, pr.blockedIPs (hostOf addr) = some info ∧ 3 ≤ info.failures ∧
    now - info.lastFailure < 5 * minute

/-- The connection to a fallback server that takes everything, or to one that cannot be reached. -/
def dial (reachable : Bool) : Option Sink := if reachable then some ⟨[], []⟩ else none

/-! ## Where the stream stays whole -/

section Handle

variable {pr : ProbeResistance} {addr : Bytes} {now : ℤ} {reachable : Bool} {conn : Incoming}

theorem isBlocked_of_blocks (h : pr.Blocks addr now) : isBlocked pr addr now = (true, pr) := by
  obtain ⟨info, hinfo, hfailed⟩ := h
  rw [isBlocked, hinfo]
  exact if_pos hfailed

/-- An address that is not blocked leaves the fallback server as it is. -/
theorem isBlocked_of_not_blocks (h : ¬ pr.Blocks addr now) :
    ∃ pr', isBlocked pr addr now = (false, pr') ∧ pr'.fallbackAddr = pr.fallbackAddr := by
  unfold isBlocked
  cases hinfo : pr.blockedIPs (hostOf addr) with
  | none => exact ⟨pr, rfl, rfl⟩
  | some info =>
    dsimp only
    rw [if_neg fun hfailed => h ⟨info, hinfo, hfailed⟩]
    split_ifs
    · exact ⟨_, rfl, rfl⟩
    · exact ⟨_, rfl, rfl⟩

@[simp] theorem recordFailure_fallbackAddr :
    (recordFailure pr addr now).fallbackAddr = pr.fallbackAddr := by
  unfold recordFailure
  cases pr.blockedIPs (hostOf addr) <;> rfl

/-- The relay hands on the stream that it is given. -/
theorem serveFallback_intact_iff (src : Source) (conn : Incoming) :
    (serveFallback pr (dial reachable) src).Intact conn ↔
      (pr.fallbackAddr ≠ "" → reachable = true → src.flatten = conn.bytes) := by
  unfold serveFallback
  by_cases haddr : pr.fallbackAddr = ""
  · rw [if_pos haddr]
    exact iff_of_true trivial fun h => absurd haddr h
  · rw [if_neg haddr]
    cases reachable with
    | false =>
      refine iff_of_true trivial fun _ h => ?_
      cases h
    | true =>
      have hreliable : Sink.Reliable ⟨[], []⟩ := rfl
      show (src.copyAll ⟨[], []⟩).written = conn.bytes ↔ _
      rw [Source.copyAll_written src hreliable, List.nil_append]
      exact ⟨fun h _ _ => h, fun h => h haddr rfl⟩

theorem bytes_eq_of_short {initialData : Bytes} (h : conn.inTime.flatten = initialData) :
    ([] : Bytes) = conn.bytes → initialData = [] := by
  intro hnil
  rw [← h]
  exact (List.append_eq_nil_iff.1 hnil.symm).1

/-- A handshake that was cut short is relayed without the bytes that were read. -/
theorem withData_intact_iff {initialData : Bytes} {fallbackAddr : String}
    (h : conn.inTime.flatten = initialData) (haddr : pr.fallbackAddr = fallbackAddr) :
    (serveFallbackWithData pr (dial reachable) afterFailure initialData).Intact conn ↔
      ¬ (initialData.head? = some 0x16 ∧ fallbackAddr ≠ "" ∧ reachable = true) := by
  unfold serveFallbackWithData
  cases hdata : initialData with
  | nil =>
    refine iff_of_true trivial fun hsome => ?_
    cases hsome.1
  | cons b rest =>
    dsimp only [List.head?_cons]
    by_cases hhttp : b = 71 ∨ b = 80 ∨ b = 72
    · rw [if_pos hhttp]
      refine iff_of_true trivial fun htls => ?_
      obtain rfl := Option.some.inj htls.1
      exact absurd hhttp (by decide)
    rw [if_neg hhttp]
    by_cases htls : b = 0x16
    · rw [if_pos htls, serveFallback_intact_iff, haddr, htls]
      constructor
      · rintro hintact ⟨-, haddr', hreachable⟩
        have hnil := bytes_eq_of_short h (hintact haddr' hreachable)
        rw [hdata] at hnil
        cases hnil
      · intro hnot haddr' hreachable
        exact absurd ⟨rfl, haddr', hreachable⟩ hnot
    · rw [if_neg htls]
      exact iff_of_true trivial fun hsome => htls (Option.some.inj hsome.1)

end Handle

/-- **When the stream stays whole.**  For every state, address and time, and every peer: exactly if
the address is blocked, or fewer than four bytes come in time and they are not relayed. -/
theorem intact_iff (pr : ProbeResistance) (addr : Bytes) (now : ℤ) (reachable : Bool)
    (conn : Incoming) :
    (handleConnection pr addr now (dial reachable) conn).1.Intact conn ↔
      pr.Blocks addr now ∨ (conn.inTime.flatten.length < 4 ∧
        ¬ (conn.inTime.flatten.head? = some 0x16 ∧ pr.fallbackAddr ≠ "" ∧ reachable = true)) := by
  by_cases hblocks : pr.Blocks addr now
  · rw [handleConnection, isBlocked_of_blocks hblocks]
    refine iff_of_true ((serveFallback_intact_iff _ conn).2 fun _ _ => ?_) (.inl hblocks)
    rw [List.flatten_append]
    rfl
  obtain ⟨pr', hpass, haddr⟩ := isBlocked_of_not_blocks hblocks
  rw [handleConnection, hpass, or_iff_right hblocks]
  dsimp only
  rcases hread : conn.inTime.readFull 4 with ⟨e | b, rest⟩
  · -- too few bytes: what was read is only looked at
    have hshort := (Source.readLoop_eq_error hread).1
    rw [and_iff_right hshort, List.take_of_length_le (by omega)]
    exact withData_intact_iff rfl (by rw [recordFailure_fallbackAddr, haddr])
  · obtain ⟨hlong, -, hrest⟩ := Source.readFull_eq_ok hread
    refine iff_of_false (fun hintact => ?_) fun h => absurd h.1 (by omega)
    have hlen := congrArg List.length hintact
    rw [List.flatten_append, hrest, Incoming.bytes, List.length_append, List.length_append,
      List.length_drop] at hlen
    omega

/-- **Bytes that are lost**: a client sends a length prefix and one byte more, and the caller reads
the last byte only; a peer begins a TLS handshake with three bytes, and the fallback server gets
nothing. -/
theorem stream_not_intact :
    (handleConnection (newProbeResistance "e:443") [] 0 (dial true)
        ⟨[[0, 0, 0], [32, 7]], none⟩).1 = .accepted [[7]] ∧
      (handleConnection (newProbeResistance "e:443") [] 0 (dial true)
        ⟨[[0x16, 3, 1]], none⟩).1 = .relayed ⟨[], []⟩ := by
  decide +kernel

end ProbeResist
