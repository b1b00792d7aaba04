/-
# The handshake relay of ShadowTLS

Model of `relayHandshake` and `readTLSRecord` in `internal/antidpi/shadowtls.go` over streams that
the network has cut into pieces.  Where the relay stops reading is where the authentication of the
client begins.

A record is read if there is a whole one at the front (`readTLSRecord_whole`,
`whole_of_readTLSRecord`), by the reader of the session model, too (`readTLSRecord_session`).
`relay_exact` says which records each side gets.
-/
import IPShadowT.ShadowTLS
import IPShadowT.Stream

open Bytes

namespace ShadowTLSRelay

/-! ## The functions -/

/-- The errors of `readTLSRecord`. -/
inductive RecordError where
  | read (e : ReadError)
  | tooLarge (recordLen : ℕ)
  deriving DecidableEq, Repr

/-- The message of an error that `readTLSRecord` makes itself. -/
def RecordError.message : RecordError → Option String
  | .read _ => none
  | .tooLarge n => some ("TLS record too large: " ++ toString n)

/-- `readTLSRecord`: the record, and what is left of the stream. -/
def readTLSRecord (conn : Source) : Except RecordError Bytes × Source :=
  match conn.readFull 5 with
  | (.error e, conn) => (.error (.read e), conn)
  | (.ok header, conn) =>
    let recordLen := beNat (header.drop 3)
    if recordLen > 16384 + 256 then (.error (.tooLarge recordLen), conn)
    else
      match conn.readFull recordLen with
      | (.error e, conn) => (.error (.read e), conn)
      | (.ok body, conn) => (.ok (header ++ body), conn)

/-- The errors of `relayHandshake`; those of writes come from the connections. -/
inductive RelayError where
  | clientHello (e : RecordError)
  | forwardHello
  | serverRecord (e : RecordError)
  | forwardRecord
  deriving DecidableEq, Repr

/-- What `relayHandshake` writes before the message of the error that it passes on. -/
def RelayError.message : RelayError → String
  | clientHello _ => "failed to read ClientHello: "
  | forwardHello => "failed to forward ClientHello: "
  | serverRecord _ => "failed to read server record: "
  | forwardRecord => "failed to forward server record: "

/-- The two connections: what is still to be read from each, and what has been written to it. -/
structure Relay where
  client : Source
  server : Source
  toServer : Sink
  toClient : Sink
  deriving DecidableEq, Repr

/-- The loop of `relayHandshake`; `none` if it has not ended within `fuel` rounds. -/
def relayLoop : (fuel : ℕ) → Relay → Option (Except RelayError Unit × Relay)
  | 0, _ => none
  | fuel + 1, s =>
    match readTLSRecord s.server with
    | (.error e, server) => some (.error (.serverRecord e), { s with server := server })
    | (.ok record, server) =>
      match s.toClient.write record with
      | (false, toClient) =>
        some (.error .forwardRecord, { s with server := server, toClient := toClient })
      | (true, toClient) =>
        let s := { s with server := server, toClient := toClient }
        -- ChangeCipherSpec
        if 0 < record.length ∧ record.head? = some 0x14 then some (.ok (), s)
        -- Application Data
        else if 0 < record.length ∧ record.head? = some 0x17 then some (.ok (), s)
        else relayLoop fuel s

/-- `relayHandshake`. -/
def relayHandshake (s : Relay) : Option (Except RelayError Unit × Relay) :=
  match readTLSRecord s.client with
  | (.error e, client) => some (.error (.clientHello e), { s with client := client })
  | (.ok clientHello, client) =>
    match s.toServer.write clientHello with
    | (false, toServer) =>
      some (.error .forwardHello, { s with client := client, toServer := toServer })
    | (true, toServer) =>
      relayLoop (s.server.flatten.length + 1) { s with client := client, toServer := toServer }

/-! ## Records -/

/-- A whole record: a header of five bytes, and a body of the length in the header, which is not
too large. -/
def Whole (r : Bytes) : Prop :=
  5 ≤ r.length ∧ beNat ((r.drop 3).take 2) ≤ 16384 + 256 ∧ r.length = 5 + beNat ((r.drop 3).take 2)

/-- A stream that does not begin with a whole record. -/
def NoRecord (b : Bytes) : Prop := ∀ r rest, Whole r → b ≠ r ++ rest

/-- A ChangeCipherSpec or application data. -/
def Last (r : Bytes) : Prop := r.head? = some 0x14 ∨ r.head? = some 0x17

instance (r : Bytes) : Decidable (Whole r) := inferInstanceAs (Decidable (_ ∧ _))

instance (r : Bytes) : Decidable (Last r) := inferInstanceAs (Decidable (_ ∨ _))

section Records

variable {r rest : Bytes} {conn conn' : Source}

/-- The header of a record has its length. -/
theorem beNat_header (r : Bytes) : beNat ((r.take 5).drop 3) = beNat ((r.drop 3).take 2) := by
  rw [List.drop_take]

/-- **A whole record at the front is read**, however the stream is cut, and no more. -/
theorem readTLSRecord_whole (hr : Whole r) (h : conn.flatten = r ++ rest) :
    ∃ conn', readTLSRecord conn = (.ok r, conn') ∧ conn'.flatten = rest := by
  obtain ⟨hfive, hmax, hlen⟩ := hr
  have hheader : (r.take 5).length = 5 := by
    rw [List.length_take]
    omega
  have hsplit : conn.flatten = r.take 5 ++ (r.drop 5 ++ rest) := by
    rw [← List.append_assoc, List.take_append_drop, h]
  obtain ⟨conn₁, hread, hrest⟩ := Source.readFull_append hsplit
  obtain ⟨conn₂, hread', hrest'⟩ := Source.readFull_append hrest
  have hbody : (r.drop 5).length = beNat ((r.drop 3).take 2) := by
    rw [List.length_drop]
    omega
  rw [hheader] at hread
  rw [hbody] at hread'
  refine ⟨conn₂, ?_, hrest'⟩
  rw [readTLSRecord, hread]
  dsimp only
  rw [beNat_header, if_neg (by omega), hread']
  dsimp only
  rw [List.take_append_drop]

/-- **What is read is a whole record at the front**, and the rest is left. -/
theorem whole_of_readTLSRecord (h : readTLSRecord conn = (.ok r, conn')) :
    Whole r ∧ conn.flatten = r ++ conn'.flatten := by
  unfold readTLSRecord at h
  rcases hread : conn.readFull 5 with ⟨_ | header, conn₁⟩
  · rw [hread] at h
    cases h
  · rw [hread] at h
    obtain ⟨hle, hheader, hrest⟩ := Source.readFull_eq_ok hread
    dsimp only at h
    by_cases hmax : beNat (header.drop 3) > 16384 + 256
    · rw [if_pos hmax] at h
      cases h
    rw [if_neg hmax] at h
    rcases hread' : conn₁.readFull (beNat (header.drop 3)) with ⟨_ | body, conn₂⟩
    · rw [hread'] at h
      cases h
    · rw [hread'] at h
      obtain ⟨hle', hbody, hrest'⟩ := Source.readFull_eq_ok hread'
      obtain ⟨rfl, rfl⟩ : header ++ body = r ∧ conn₂ = conn' := by
        obtain ⟨hr, hconn⟩ := Prod.mk.inj h
        exact ⟨Except.ok.inj hr, hconn⟩
      have hfive : header.length = 5 := by
        rw [hheader, List.length_take]
        omega
      have hlen : body.length = beNat (header.drop 3) := by
        rw [hbody, List.length_take]
        omega
      have hfield : ((header ++ body).drop 3).take 2 = header.drop 3 := by
        have htwo : (header.drop 3).length = 2 := by
          rw [List.length_drop]
          omega
        rw [List.drop_append_of_le_length (by omega), List.take_left' htwo]
      refine ⟨⟨?_, ?_, ?_⟩, ?_⟩
      · rw [List.length_append]
        omega
      · rw [hfield]
        omega
      · rw [hfield, List.length_append]
        omega
      · rw [hrest', List.append_assoc, hbody, List.take_append_drop, hrest, hheader,
          List.take_append_drop]

/-- Where no record is read there is none. -/
theorem noRecord_of_readTLSRecord {e : RecordError} (h : readTLSRecord conn = (.error e, conn')) :
    NoRecord conn.flatten := by
  intro r rest hr hconn
  obtain ⟨conn₁, hread, -⟩ := readTLSRecord_whole hr hconn
  rw [h] at hread
  cases hread

/-- The reader of the session model finds the same records. -/
theorem readTLSRecord_session (h : readTLSRecord conn = (.ok r, conn')) :
    ShadowTLS.readTLSRecord conn.flatten = .record r conn'.flatten := by
  obtain ⟨⟨hfive, hmax, hlen⟩, hconn⟩ := whole_of_readTLSRecord h
  have hfield : ((r ++ conn'.flatten).drop 3).take 2 = (r.drop 3).take 2 := by
    rw [List.drop_append_of_le_length (by omega),
      List.take_append_of_le_length (by rw [List.length_drop]; omega)]
  rw [hconn, ShadowTLS.readTLSRecord, List.length_append, if_neg (by omega), hfield]
  dsimp only
  rw [if_neg (by omega), if_neg (by omega), ← hlen, List.take_left, List.drop_left]

end Records

/-! ## The relay -/

/-- What the loop has forwarded: whole records of which only the last, if the loop has succeeded,
is one to stop at, and which are what has been read; if the loop has failed, no record comes
next. -/
structure Forwarded (s s' : Relay) (result : Except RelayError Unit) (before : List Bytes)
    (last : Option Bytes) : Prop where
  whole : ∀ r ∈ before, Whole r ∧ ¬ Last r
  stop : ∀ r ∈ last, Whole r ∧ Last r
  toClient : s'.toClient.written = s.toClient.written ++ (before ++ last.toList).flatten
  client : s'.client = s.client
  toServer : s'.toServer = s.toServer
  ok : result = .ok () → last.isSome ∧
    s.server.flatten = (before ++ last.toList).flatten ++ s'.server.flatten
  error : ∀ e, result = .error e → last = none ∧
    ∃ rest, s.server.flatten = before.flatten ++ rest ∧ NoRecord rest

/-- One more record in front. -/
theorem Forwarded.cons {s s₁ s' : Relay} {result : Except RelayError Unit} {before : List Bytes}
    {last : Option Bytes} {r : Bytes} (h : Forwarded s₁ s' result before last)
    (hr : Whole r ∧ ¬ Last r) (hread : s.server.flatten = r ++ s₁.server.flatten)
    (hwritten : s₁.toClient.written = s.toClient.written ++ r) (hclient : s₁.client = s.client)
    (htoServer : s₁.toServer = s.toServer) : Forwarded s s' result (r :: before) last where
  whole := List.forall_mem_cons.2 ⟨hr, h.whole⟩
  stop := h.stop
  toClient := by
    rw [h.toClient, hwritten, List.cons_append, List.flatten_cons, List.append_assoc]
  client := h.client.trans hclient
  toServer := h.toServer.trans htoServer
  ok := by
    intro hok
    obtain ⟨hsome, hserver⟩ := h.ok hok
    refine ⟨hsome, ?_⟩
    rw [hread, hserver, List.cons_append, List.flatten_cons, List.append_assoc]
  error := by
    intro e he
    obtain ⟨hnone, rest, hserver, hrest⟩ := h.error e he
    refine ⟨hnone, rest, ?_, hrest⟩
    rw [hread, hserver, List.flatten_cons, List.append_assoc]

/-- **The loop**: it comes to an end, and forwards records up to the first to stop at. -/
theorem relayLoop_forwarded {fuel : ℕ} {s : Relay} (hclient : s.toClient.Reliable)
    (hfuel : s.server.flatten.length < fuel) :
    ∃ result s' before last, relayLoop fuel s = some (result, s') ∧
      Forwarded s s' result before last := by
  induction fuel generalizing s with
  | zero => exact absurd hfuel (Nat.not_lt_zero _)
  | succ fuel ih =>
    rw [relayLoop]
    rcases hread : readTLSRecord s.server with ⟨e | r, server⟩
    · refine ⟨_, _, [], none, rfl, List.forall_mem_nil _, fun r hr => ?_,
        (List.append_nil _).symm, rfl, rfl, fun hok => ?_, fun _ _ => ?_⟩
      · cases hr
      · cases hok
      · exact ⟨rfl, _, rfl, noRecord_of_readTLSRecord hread⟩
    · obtain ⟨hwhole, hserver⟩ := whole_of_readTLSRecord hread
      have hpos : 0 < r.length := by
        have := hwhole.1
        omega
      dsimp only
      rw [Sink.write_of_reliable hclient]
      dsimp only
      by_cases hlast : Last r
      · have hstops : Forwarded s
            { s with server := server, toClient := ⟨s.toClient.written ++ r, []⟩ } (.ok ()) []
            (some r) := by
          refine ⟨List.forall_mem_nil _, fun r' hr' => ?_, ?_, rfl, rfl, fun _ => ⟨rfl, ?_⟩,
            fun e he => ?_⟩
          · obtain rfl := Option.some.inj hr'
            exact ⟨hwhole, hlast⟩
          · simp
          · simpa using hserver
          · cases he
        refine ⟨_, _, [], some r, ?_, hstops⟩
        rcases hlast with h14 | h17
        · rw [if_pos ⟨hpos, h14⟩]
        · have h14 : ¬ (0 < r.length ∧ r.head? = some 0x14) := by
            rw [h17]
            exact fun h => absurd h.2 (by decide)
          rw [if_neg h14, if_pos ⟨hpos, h17⟩]
      · rw [if_neg fun h => hlast (.inl h.2), if_neg fun h => hlast (.inr h.2)]
        have hless : server.flatten.length < fuel := by
          rw [hserver, List.length_append] at hfuel
          omega
        obtain ⟨result, s', before, last, hrun, hforwarded⟩ :=
          @ih { s with server := server, toClient := ⟨s.toClient.written ++ r, []⟩ } rfl hless
        exact ⟨result, s', r :: before, last, hrun,
          hforwarded.cons ⟨hwhole, hlast⟩ hserver rfl rfl rfl⟩

/-- **The relay is exact.**  For all streams, cut in any way, and writes that succeed, the relay
ends.  It fails and has forwarded nothing, and then there is no record at the front of the client's
stream; or the server has got the client's first record, and no more has been read from the client.
Then it succeeds, and the client has got the records of the server up to and including the first to
stop at, behind which nothing has been read; or it fails, and the client has got the records of the
server up to where there is none. -/
theorem relay_exact (s : Relay) (hclient : s.toClient.Reliable) (hserver : s.toServer.Reliable) :
    ∃ result s', relayHandshake s = some (result, s') ∧
      ((∃ e, result = .error e ∧ NoRecord s.client.flatten ∧ s'.toServer = s.toServer ∧
          s'.toClient = s.toClient) ∨
        ∃ (hello : Bytes) (before : List Bytes), Whole hello ∧
          s.client.flatten = hello ++ s'.client.flatten ∧
          s'.toServer.written = s.toServer.written ++ hello ∧ (∀ r ∈ before, Whole r ∧ ¬ Last r) ∧
          ((result = .ok () ∧ ∃ last, Whole last ∧ Last last ∧
              s.server.flatten = before.flatten ++ last ++ s'.server.flatten ∧
              s'.toClient.written = s.toClient.written ++ (before.flatten ++ last)) ∨
            ∃ e rest, result = .error e ∧ s.server.flatten = before.flatten ++ rest ∧
              NoRecord rest ∧ s'.toClient.written = s.toClient.written ++ before.flatten)) := by
  rw [relayHandshake]
  rcases hread : readTLSRecord s.client with ⟨e | hello, client⟩
  · exact ⟨_, _, rfl, .inl ⟨_, rfl, noRecord_of_readTLSRecord hread, rfl, rfl⟩⟩
  · obtain ⟨hwhole, hfront⟩ := whole_of_readTLSRecord hread
    dsimp only
    rw [Sink.write_of_reliable hserver]
    dsimp only
    obtain ⟨result, s', before, last, hrun, h⟩ :=
      @relayLoop_forwarded (s.server.flatten.length + 1)
        { s with client := client, toServer := ⟨s.toServer.written ++ hello, []⟩ } hclient
        (Nat.lt_succ_self _)
    refine ⟨result, s', hrun, .inr ⟨hello, before, hwhole, ?_, ?_, h.whole, ?_⟩⟩
    · rw [h.client]
      exact hfront
    · rw [h.toServer]
    · cases result with
      | error e =>
        obtain ⟨rfl, rest, hrest, hnone⟩ := h.error e rfl
        have hwritten := h.toClient
        rw [Option.toList_none, List.append_nil] at hwritten
        exact .inr ⟨e, rest, rfl, hrest, hnone, hwritten⟩
      | ok =>
        obtain ⟨hsome, hstream⟩ := h.ok rfl
        obtain ⟨last, rfl⟩ := Option.isSome_iff_exists.1 hsome
        obtain ⟨hlast, hstop⟩ := h.stop last rfl
        have hwritten := h.toClient
        rw [Option.toList_some, List.flatten_append, List.flatten_singleton] at hwritten hstream
        exact .inl ⟨rfl, last, hlast, hstop, hstream, hwritten⟩

/-- A ClientHello, an empty handshake record and a ChangeCipherSpec, in pieces, and more behind
them. -/
def sampleRelay : Relay where
  client := [[0x16, 3], [3, 0, 1, 9, 77]]
  server := [[0x16, 3, 3, 0, 0, 0x14, 3], [3, 0, 1, 1, 88]]
  toServer := ⟨[], []⟩
  toClient := ⟨[], []⟩

theorem relay_exact_sample :
    relayHandshake sampleRelay = some (.ok (), ⟨[[77]], [[88]], ⟨[0x16, 3, 3, 0, 1, 9], []⟩,
        ⟨[0x16, 3, 3, 0, 0, 0x14, 3, 3, 0, 1, 1], []⟩⟩) ∧
      ∃ result s', relayHandshake sampleRelay = some (result, s') ∧
        ∃ hello, Whole hello ∧ sampleRelay.client.flatten = hello ++ s'.client.flatten ∧
          s'.toServer.written = hello := by
  obtain ⟨result, s', hrun, ⟨e, -, hnone, -⟩ | ⟨hello, before, hwhole, hclient, hhello, -⟩⟩ :=
    relay_exact sampleRelay rfl rfl
  · exact absurd rfl (hnone [0x16, 3, 3, 0, 1, 9] [77] (by decide))
  · exact ⟨by decide +kernel, result, s', hrun, hello, hwhole, hclient, hhello⟩

end ShadowTLSRelay
