/-
# ShadowTLS

Model of `internal/antidpi/shadowtls.go`.  The server relays a TLS handshake of a real server to
the client: it takes the first record of the client for the ClientHello, forwards the records of
the real server until a ChangeCipherSpec or application data, and then expects a MAC, which it
confirms with one byte.  The client sends the MAC, and nothing before it, and reads one byte.

The two run against each other over reliable channels: a session has the bytes that were sent and
not read yet, and a schedule says whose turn it is.  A read waits until all its bytes are there,
so how the network cuts the streams does not matter.

`not_bothReturned` says that in no schedule both ends return the connection, whatever the password
and the records of the real server: the client reads the first byte of a record.
-/
import IPShadowT.Bytes
import IPShadowT.Runs

open Bytes Runs

namespace ShadowTLS

/-! ## Records and MACs -/

/-- The cryptography from outside the repository: `sha256.Sum256`, and HMAC-SHA256 of a message
under a key. -/
structure Crypto where
  sha256 : Bytes → Bytes
  hmac : Bytes → Bytes → Bytes

/-- The bytes of `-shadowtls-hmac`. -/
def keySuffix : Bytes := [45, 115, 104, 97, 100, 111, 119, 116, 108, 115, 45, 104, 109, 97, 99]

/-- The bytes of `shadowtls-auth-v3`. -/
def authLabel : Bytes :=
  [115, 104, 97, 100, 111, 119, 116, 108, 115, 45, 97, 117, 116, 104, 45, 118, 51]

/-- The key of `NewShadowTLSServer` and `NewShadowTLSClient`. -/
def hmacKey (x : Crypto) (password : Bytes) : Bytes := x.sha256 (password ++ keySuffix)

/-- The MAC that the client sends and the server expects. -/
def authMAC (x : Crypto) (password : Bytes) : Bytes := x.hmac (hmacKey x password) authLabel

/-- What `readTLSRecord` comes to with the bytes that are there. -/
inductive Reading where
  | waits
  | tooLarge (recordLen : ℕ)
  | record (record rest : Bytes)
  deriving DecidableEq, Repr

/-- `readTLSRecord`. -/
def readTLSRecord (avail : Bytes) : Reading :=
  if avail.length < 5 then .waits
  else
    let recordLen := beNat ((avail.drop 3).take 2)
    if recordLen > 16384 + 256 then .tooLarge recordLen
    else if avail.length < 5 + recordLen then .waits
    else .record (avail.take (5 + recordLen)) (avail.drop (5 + recordLen))

/-! ## The two ends -/

/-- Where `ShadowTLSClient.Connect` is: before its write, at its read, and returned with the
connection or with an error. -/
inductive ClientAt where
  | sending
  | awaiting
  | returned
  | rejected
  deriving DecidableEq, Repr

/-- The message of the error. -/
def ClientAt.message : ClientAt → Option String
  | rejected => some "server rejected authentication"
  | _ => none

/-- The errors of `HandleConnection` over reliable channels. -/
inductive ServerError where
  | clientHello (recordLen : ℕ)
  | serverRecord (recordLen : ℕ)
  | mac
  deriving DecidableEq, Repr

/-- Their messages. -/
def ServerError.message : ServerError → String
  | clientHello n => "handshake relay failed: failed to read ClientHello: " ++
      "TLS record too large: " ++ toString n
  | serverRecord n => "handshake relay failed: failed to read server record: " ++
      "TLS record too large: " ++ toString n
  | mac => "client auth failed: HMAC mismatch"

/-- Where `ShadowTLSServer.HandleConnection` is: at the ClientHello, in the loop of
`relayHandshake`, in `verifyClient`, and returned. -/
inductive ServerAt where
  | hello
  | relay
  | verify
  | returned
  | failed (err : ServerError)
  deriving DecidableEq, Repr

/-- The two ends, the bytes on the way between them, and those on the way from and to the real
server. -/
structure Session where
  client : ClientAt
  server : ServerAt
  toServer : Bytes
  toClient : Bytes
  fromReal : Bytes
  toReal : Bytes
  deriving DecidableEq, Repr

section Steps

variable (x : Crypto) (password : Bytes)

/-- A step of `Connect`. -/
def clientStep (s : Session) : Session :=
  match s.client with
  | .sending => { s with client := .awaiting, toServer := s.toServer ++ authMAC x password }
  | .awaiting =>
    match s.toClient with
    | [] => s
    | confirm :: rest =>
      { s with
        client := if confirm ≠ 0x01 then .rejected else .returned
        toClient := rest }
  | .returned | .rejected => s

/-- A round of the loop of `relayHandshake`. -/
def relayRecord (s : Session) : Session :=
  match readTLSRecord s.fromReal with
  | .waits => s
  | .tooLarge n => { s with server := .failed (.serverRecord n), fromReal := s.fromReal.drop 5 }
  | .record record rest =>
    { s with
      fromReal := rest
      toClient := s.toClient ++ record
      server := if record.head? = some 0x14 ∨ record.head? = some 0x17 then .verify
        else .relay }

/-- `verifyClient`. -/
def verifyClient (s : Session) : Session :=
  if s.toServer.length < 32 then s
  else if s.toServer.take 32 ≠ authMAC x password then
    { s with server := .failed .mac, toServer := s.toServer.drop 32 }
  else
    { s with
      server := .returned
      toServer := s.toServer.drop 32
      toClient := s.toClient ++ [0x01] }

/-- A step of `HandleConnection`. -/
def serverStep (s : Session) : Session :=
  match s.server with
  | .hello =>
    match readTLSRecord s.toServer with
    | .waits => s
    | .tooLarge n =>
      { s with server := .failed (.clientHello n), toServer := s.toServer.drop 5 }
    | .record clientHello rest =>
      { s with server := .relay, toServer := rest, toReal := s.toReal ++ clientHello }
  | .relay => relayRecord s
  | .verify => verifyClient x password s
  | .returned | .failed _ => s

/-- Whose turn it is. -/
inductive Turn where
  | client
  | server
  deriving DecidableEq, Repr

def step (s : Session) : Turn → Session
  | .client => clientStep x password s
  | .server => serverStep x password s

end Steps

/-- A new connection, and the records that the real server will send. -/
def start (records : List Bytes) : Session :=
  ⟨.sending, .hello, [], [], records.flatten, []⟩

/-- Both ends have returned the connection. -/
def Session.BothReturned (s : Session) : Prop := s.client = .returned ∧ s.server = .returned

/-- Both ends wait, or have returned. -/
def Session.Stuck (x : Crypto) (password : Bytes) (s : Session) : Prop :=
  clientStep x password s = s ∧ serverStep x password s = s

/-- A TLS record: one of the content types, a version, and a body behind its length. -/
def IsRecord (record : Bytes) : Prop :=
  ∃ contentType ∈ [0x14, 0x15, 0x16, 0x17, 0x18], ∃ major minor : UInt8, ∃ body : Bytes,
    body.length ≤ 16384 + 256 ∧
      record = contentType :: major :: minor :: (beBytes 2 body.length ++ body)

/-! ## The first byte -/

/-- `readTLSRecord` reads a record, and no more. -/
theorem readTLSRecord_record {record : Bytes} (h : IsRecord record) (rest : Bytes) :
    readTLSRecord (record ++ rest) = .record record rest := by
  obtain ⟨contentType, -, major, minor, body, hlen, rfl⟩ := h
  have hsize : (contentType :: major :: minor :: (beBytes 2 body.length ++ body)).length =
      5 + body.length := by
    simp only [List.length_cons, List.length_append, length_beBytes]
    omega
  have hfield : beNat (((contentType :: major :: minor :: (beBytes 2 body.length ++ body) ++
      rest).drop 3).take 2) = body.length := by
    simp only [List.cons_append, List.append_assoc, List.drop_succ_cons, List.drop_zero]
    rw [List.take_left' (length_beBytes ..), beNat_beBytes]
    exact Nat.mod_eq_of_lt (by omega)
  unfold readTLSRecord
  rw [hfield, List.length_append, hsize, if_neg (by omega)]
  dsimp only
  rw [if_neg (by omega), if_neg (by omega), List.take_left' hsize, List.drop_left' hsize]

/-- The confirmation is no content type. -/
theorem head_of_isRecord {record : Bytes} (h : IsRecord record) :
    ∃ contentType rest, record = contentType :: rest ∧ contentType ≠ 0x01 := by
  obtain ⟨contentType, hmem, major, minor, body, -, rfl⟩ := h
  refine ⟨contentType, _, rfl, ?_⟩
  rintro rfl
  exact absurd hmem (by decide)

/-- The real server sends records, the client has not returned the connection, and as long as it
has read nothing, nothing is there to read and the server has not come to `verifyClient`, or the
first byte is not the confirmation. -/
structure Session.Unconfirmed (s : Session) : Prop where
  records : ∃ records : List Bytes, (∀ r ∈ records, IsRecord r) ∧ s.fromReal = records.flatten
  client : s.client ≠ .returned
  first : s.client = .sending ∨ s.client = .awaiting →
    (s.toClient = [] ∧ s.server ≠ .verify ∧ s.server ≠ .returned) ∨
      ∃ b rest, s.toClient = b :: rest ∧ b ≠ 0x01

section Unconfirmed

variable {x : Crypto} {password : Bytes} {s : Session}

theorem Session.Unconfirmed.clientStep (h : s.Unconfirmed) :
    (clientStep x password s).Unconfirmed := by
  unfold ShadowTLS.clientStep
  split
  · next hclient =>
      refine ⟨h.records, fun hreturned => ?_, fun _ => h.first (.inl hclient)⟩
      cases hreturned
  · next hclient =>
      split
      · exact h
      · next confirm rest hbytes =>
          -- the byte the client reads is the first one
          have hne : confirm ≠ 0x01 := by
            rcases h.first (.inr hclient) with ⟨hnil, -⟩ | ⟨b, rest', hcons, hb⟩
            · rw [hnil] at hbytes
              cases hbytes
            · rw [hcons] at hbytes
              cases hbytes
              exact hb
          rw [if_pos hne]
          refine ⟨h.records, fun hreturned => ?_, fun hat => ?_⟩
          · cases hreturned
          · rcases hat with hat | hat <;> cases hat
  · exact h
  · exact h

/-- What the server appends comes behind what is there. -/
theorem Session.Unconfirmed.relayRecord (h : s.Unconfirmed) : (relayRecord s).Unconfirmed := by
  obtain ⟨records, hrecords, hreal⟩ := h.records
  unfold ShadowTLS.relayRecord
  cases records with
  | nil =>
    rw [hreal]
    exact h
  | cons record records =>
    have hrecord : IsRecord record := hrecords record List.mem_cons_self
    rw [hreal, List.flatten_cons, readTLSRecord_record hrecord]
    refine ⟨⟨records, fun r hr => hrecords r (List.mem_cons_of_mem record hr), rfl⟩, h.client,
      fun hat => .inr ?_⟩
    rcases h.first hat with ⟨hnil, -⟩ | ⟨b, rest, hcons, hb⟩
    · obtain ⟨contentType, rest, rfl, hne⟩ := head_of_isRecord hrecord
      exact ⟨contentType, rest, by rw [hnil]; rfl, hne⟩
    · exact ⟨b, rest ++ record, by rw [hcons]; rfl, hb⟩

theorem Session.Unconfirmed.verifyClient (h : s.Unconfirmed) (hserver : s.server = .verify) :
    (verifyClient x password s).Unconfirmed := by
  have hfirst : s.client = .sending ∨ s.client = .awaiting →
      ∃ b rest, s.toClient = b :: rest ∧ b ≠ 0x01 := fun hat =>
    (h.first hat).resolve_left fun hnone => hnone.2.1 hserver
  unfold ShadowTLS.verifyClient
  split_ifs
  · exact h
  · exact ⟨h.records, h.client, fun hat => .inr (hfirst hat)⟩
  · refine ⟨h.records, h.client, fun hat => .inr ?_⟩
    obtain ⟨b, rest, hcons, hb⟩ := hfirst hat
    exact ⟨b, rest ++ [0x01], by rw [hcons]; rfl, hb⟩

theorem Session.Unconfirmed.serverStep (h : s.Unconfirmed) :
    (serverStep x password s).Unconfirmed := by
  unfold ShadowTLS.serverStep
  split
  · -- nothing is sent to the client yet
    split
    · exact h
    · refine ⟨h.records, h.client, fun hat => (h.first hat).imp ?_ id⟩
      exact fun hnone => ⟨hnone.1, nofun, nofun⟩
    · refine ⟨h.records, h.client, fun hat => (h.first hat).imp ?_ id⟩
      exact fun hnone => ⟨hnone.1, nofun, nofun⟩
  · exact h.relayRecord
  · next hserver => exact h.verifyClient hserver
  · exact h
  · exact h

/-- **The two ends never both return the connection**, with any password, any records of the real
server and any schedule. -/
theorem not_bothReturned (x : Crypto) (password : Bytes) {records : List Bytes}
    (hrecords : ∀ r ∈ records, IsRecord r) (sched : List Turn) :
    ¬ (run (step x password) (start records) sched).BothReturned := by
  have hstart : (start records).Unconfirmed :=
    ⟨⟨records, hrecords, rfl⟩, nofun, fun _ => .inl ⟨rfl, nofun, nofun⟩⟩
  have hend : (run (step x password) (start records) sched).Unconfirmed := by
    refine run_invariant (fun s turn h => ?_) hstart sched
    cases turn with
    | client => exact h.clientStep
    | server => exact h.serverStep
  exact fun hboth => hend.client hboth.1

end Unconfirmed

/-! ## A session -/

section Sample

/-- The bytes of `pass6775`. -/
def samplePassword : Bytes := [112, 97, 115, 115, 54, 55, 55, 53]

/-- The key that belongs to the password. -/
def sampleKey : Bytes :=
  [22, 229, 26, 223, 37, 214, 224, 87, 172, 52, 249, 202, 59, 72, 176, 2, 64, 193, 71, 121, 234,
    41, 196, 154, 6, 233, 166, 226, 248, 21, 109, 230]

/-- Its MAC, which begins like a record of 24 bytes. -/
def sampleMAC : Bytes :=
  [157, 147, 167, 0, 24, 183, 2, 76, 168, 231, 33, 232, 230, 33, 204, 66, 54, 89, 129, 248, 228,
    39, 19, 135, 80, 88, 35, 6, 174, 6, 23, 114]

/-- SHA-256 and HMAC-SHA256 where the password needs them. -/
def tableCrypto : Crypto where
  sha256 := fun b =>
    if b = samplePassword ++ keySuffix then sampleKey else List.replicate 32 0
  hmac := fun key message =>
    if key = sampleKey ∧ message = authLabel then sampleMAC else List.replicate 32 0

/-- A handshake record and a ChangeCipherSpec. -/
def sampleRecords : List Bytes := [[0x16, 3, 3, 0, 4, 2, 0, 0, 0], [0x14, 3, 3, 0, 1, 1]]

theorem sampleRecords_isRecord : ∀ r ∈ sampleRecords, IsRecord r := by
  intro r hr
  rcases List.mem_cons.1 hr with rfl | hr
  · exact ⟨0x16, by decide, 3, 3, [2, 0, 0, 0], by decide, by decide⟩
  · obtain rfl := List.mem_singleton.1 hr
    exact ⟨0x14, by decide, 3, 3, [1], by decide, by decide⟩

/-- The client has sent its MAC, and it is the server's turn. -/
theorem not_bothReturned_sample :
    (∀ r ∈ sampleRecords, IsRecord r) ∧
      ¬ (run (step tableCrypto samplePassword) (start sampleRecords)
        [.client, .server]).BothReturned :=
  ⟨sampleRecords_isRecord, not_bothReturned _ _ sampleRecords_isRecord _⟩

/-- The server takes most of the MAC for the ClientHello, the client takes the first byte of a
handshake record for the confirmation and gives up, and the server waits for the rest of a MAC. -/
theorem mac_taken_for_hello :
    let s := run (step tableCrypto samplePassword) (start sampleRecords)
      [.client, .server, .server, .server, .client]
    authMAC tableCrypto samplePassword = sampleMAC ∧ (∀ r ∈ sampleRecords, IsRecord r) ∧
      s.Stuck tableCrypto samplePassword ∧ s.client = .rejected ∧ s.server = .verify ∧
      s.toReal = sampleMAC.take 29 ∧ s.toServer = sampleMAC.drop 29 ∧ ¬ s.BothReturned := by
  intro s
  refine ⟨by decide, sampleRecords_isRecord, ⟨by decide, by decide⟩, by decide, by decide,
    by decide, by decide, fun h => ?_⟩
  exact absurd h.1 (by decide)

end Sample

end ShadowTLS
