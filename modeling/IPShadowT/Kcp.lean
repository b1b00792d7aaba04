/-
# Packets of the KCP transport and the two loops that receive them

Model of `internal/transport/kcp.go`.  A packet is

    magic (2) | cmd (1) | frg (1) | wnd (2) | ts (4) | sn (4) | una (4) | len (2) | data

and travels in one datagram, sealed with AES-GCM under a key derived from the password.
A client takes datagrams off its own socket in `KCPConn.readLoop` (`receive` is one round of
it); on the server all sessions share the socket of the listener, and
`KCPListener.acceptLoop` (`acceptRound`) hands the datagrams to them.

`received` states what a datagram is meant to bring.  `receive_recvBuf` says that `readLoop`
queues exactly that; `deliver_recvBuf` says what `acceptLoop` queues, which is every byte
behind the place of the header, whatever the header is.
-/
import IPShadowT.Aead

open Bytes

namespace Kcp

/-! ## Keys and packets -/

/-- `kcpMagic`. -/
def kcpMagic : ℕ := 0x4B50

/-- `kcpHdrSize`. -/
def kcpHdrSize : ℕ := 20

/-- `kcpCmdPush`. -/
def kcpCmdPush : UInt8 := 81

/-- `kcpCmdAck`. -/
def kcpCmdAck : UInt8 := 82

/-- `kcpCmdPing`. -/
def kcpCmdPing : UInt8 := 83

/-- The size of the buffer that both loops receive into. -/
def bufSize : ℕ := 65535

/-- The capacity of `recvBuf`. -/
def recvCap : ℕ := 1024

/-- The values of the field `encrypt`. -/
inductive Encryption where
  | aes128gcm
  | aes256gcm
  | none
  deriving DecidableEq, Repr

/-- What the transport, its listener and its connections have in common. -/
structure Settings where
  mtu : ℕ
  encrypt : Encryption
  key : Bytes
  deriving DecidableEq, Repr

/-- The cryptography from outside the repository: `sha256.Sum256`, and AES-GCM under a key. -/
structure Crypto where
  sha256 : Bytes → Bytes
  aesGcm : Bytes → Aead

/-- What the packets rely on. -/
structure Crypto.Correct (x : Crypto) : Prop where
  sha256_length : ∀ b, (x.sha256 b).length = 32
  aesGcm_correct : ∀ key, (x.aesGcm key).Correct

/-- `NewKCP`. -/
def newKCP (x : Crypto) (password : Bytes) : Settings :=
  ⟨1350, .aes128gcm, (x.sha256 password).take 16⟩

/-- `aes.NewCipher` and `cipher.NewGCM`, which accept keys of three lengths. -/
def newGCM (x : Crypto) (key : Bytes) : Option Aead :=
  if key.length = 16 ∨ key.length = 24 ∨ key.length = 32 then some (x.aesGcm key) else none

/-- The nonce of a packet: the time, in the first eight of twelve bytes. -/
def packetNonce (nano : ℕ) : Bytes := beBytes 8 nano ++ List.replicate 4 0

/-- `encryptPacket`, at the time `nano`. -/
def encryptPacket (x : Crypto) (s : Settings) (nano : ℕ) (data : Bytes) : Bytes :=
  if s.encrypt = .none ∨ s.key.length = 0 then data
  else
    match newGCM x s.key with
    | none => data
    | some gcm => packetNonce nano ++ gcm.sealWith (packetNonce nano) data

/-- `decryptPacket`; `none` is the result `nil`. -/
def decryptPacket (x : Crypto) (s : Settings) (data : Bytes) : Option Bytes :=
  if s.encrypt = .none ∨ s.key.length = 0 then some data
  else
    match newGCM x s.key with
    | none => none
    | some gcm =>
      if data.length < 12 then none else gcm.openWith (data.take 12) (data.drop 12)

/-- `KCPConn`: the settings, the channel `recvBuf`, and the sequence numbers. -/
structure Conn where
  settings : Settings
  recvBuf : List Bytes
  closed : Bool
  sndUna : UInt32
  sndNxt : UInt32
  rcvNxt : UInt32
  deriving DecidableEq, Repr

/-- A connection as `Dial` and `acceptLoop` make it. -/
def newConn (s : Settings) : Conn := ⟨s, [], false, 0, 0, 0⟩

/-- The readings of the clock for one packet: `UnixMilli` for its header and `UnixNano` for
its nonce. -/
structure Stamp where
  milli : ℕ
  nano : ℕ
  deriving DecidableEq, Repr

/-- `buildPacket`. -/
def buildPacket (c : Conn) (cmd : UInt8) (payload : Bytes) (milli : ℕ) : Bytes :=
  beBytes 2 kcpMagic ++ ([cmd, 0] ++ (beBytes 2 65535 ++ (beBytes 4 milli ++
    (beBytes 4 c.sndNxt.toNat ++ (beBytes 4 c.rcvNxt.toNat ++ (beBytes 2 payload.length ++
      payload))))))

/-- The datagram of a packet. -/
def datagram (x : Crypto) (c : Conn) (cmd : UInt8) (payload : Bytes) (t : Stamp) : Bytes :=
  encryptPacket x c.settings t.nano (buildPacket c cmd payload t.milli)

/-! ## `Write` -/

/-- The errors of `Write`; `udp` stands for an error of the socket. -/
inductive WriteError where
  | closed
  | udp
  deriving DecidableEq, Repr

/-- The message of an error that `kcp.go` makes itself. -/
def WriteError.message : WriteError → Option String
  | closed => some "connection closed"
  | udp => none

/-- How a call of `Write` stands: it has returned, a slice expression was out of range, or it
is still in its loop. -/
inductive Outcome where
  | returned (n : ℕ) (err : Option WriteError)
  | panic
  | running
  deriving DecidableEq, Repr

/-- At most `fuel` rounds of the loop of `Write`, from `offset` on, and the datagrams sent.
For each packet, `env` has the readings of the clock and whether the socket takes it. -/
def writePackets (x : Crypto) (p : Bytes) :
    (fuel : ℕ) → (env : ℕ → Stamp × Bool) → Conn → (offset : ℕ) → Outcome × Conn × List Bytes
  | 0, _, c, _ => (.running, c, [])
  | fuel + 1, env, c, offset =>
    if offset < p.length then
      let maxPayload : ℤ := c.settings.mtu - kcpHdrSize - 16
      let stop : ℤ := min (offset + maxPayload) p.length
      if stop < offset then (.panic, c, [])
      else
        let packet := datagram x c kcpCmdPush ((p.take stop.toNat).drop offset) (env 0).1
        if (env 0).2 then
          let (outcome, c, sent) := writePackets x p fuel (fun i => env (i + 1))
            { c with sndNxt := c.sndNxt + 1 } stop.toNat
          (outcome, c, packet :: sent)
        else (.returned offset (some .udp), c, [])
    else (.returned p.length none, c, [])

/-- `Write`. -/
def write (x : Crypto) (c : Conn) (p : Bytes) (env : ℕ → Stamp × Bool) :
    Outcome × Conn × List Bytes :=
  if c.closed then (.returned 0 (some .closed), c, [])
  else writePackets x p (p.length + 1) env c 0

/-! ## `readLoop` and `Read` -/

/-- `select` with the sending of a payload to `recvBuf` and a `default`. -/
def Conn.enqueue (c : Conn) (payload : Bytes) : Conn :=
  if c.recvBuf.length < recvCap then { c with recvBuf := c.recvBuf ++ [payload] } else c

/-- `sendAck`. -/
def sendAck (x : Crypto) (c : Conn) (t : Stamp) : Conn × List Bytes :=
  ({ c with rcvNxt := c.rcvNxt + 1 }, [datagram x c kcpCmdAck (beBytes 4 c.rcvNxt.toNat) t])

/-- The `switch` of `readLoop`, with the datagrams it answers with. -/
def handle (x : Crypto) (c : Conn) (cmd : UInt8) (payload : Bytes) (t : Stamp) :
    Conn × List Bytes :=
  if cmd = kcpCmdPush then
    sendAck x (if payload.length > 0 then c.enqueue payload else c) t
  else if cmd = kcpCmdAck then
    (if payload.length ≥ 4 then { c with sndUna := UInt32.ofNat (beNat (payload.take 4)) } else c,
      [])
  else if cmd = kcpCmdPing then (c, [datagram x c kcpCmdPing [] t])
  else (c, [])

/-- A round of `readLoop` with a datagram.  The header is there when it is looked at. -/
def receive (x : Crypto) (c : Conn) (d : Bytes) (t : Stamp) : Conn × List Bytes :=
  match decryptPacket x c.settings (d.take bufSize) with
  | none => (c, [])
  | some data =>
    if data.length < kcpHdrSize then (c, [])
    else if beNat (data.take 2) ≠ kcpMagic then (c, [])
    else handle x c (data.getD 2 0) (data.drop kcpHdrSize) t

/-- `Read` with a buffer of `n` bytes; it blocks while `recvBuf` is empty. -/
def read (c : Conn) (n : ℕ) : Option (Bytes × Conn) :=
  match c.recvBuf with
  | [] => none
  | data :: rest => some (data.take n, { c with recvBuf := rest })

/-! ## `acceptLoop` -/

/-- `KCPListener`: the session of each address, and the sessions in the channel `connCh`,
which has room for 256. -/
structure Listener (α : Type) where
  settings : Settings
  sessions : α → Option Conn
  connCh : List α

section Accept

variable {α : Type} [DecidableEq α]

/-- The session of an address, made now if there is none. -/
def Listener.session (l : Listener α) (addr : α) : Conn :=
  (l.sessions addr).getD (newConn l.settings)

/-- What a round of `acceptLoop` does with the session: decrypt and queue. -/
def deliver (x : Crypto) (c : Conn) (d : Bytes) : Conn :=
  match decryptPacket x c.settings (d.take bufSize) with
  | none => c
  | some data =>
    if data.length > kcpHdrSize then
      let payload := data.drop kcpHdrSize
      if payload.length > 0 then c.enqueue payload else c
    else c

/-- A round of `acceptLoop` with a datagram from `addr`. -/
def acceptRound (x : Crypto) (l : Listener α) (addr : α) (d : Bytes) : Listener α :=
  { l with
    sessions := Function.update l.sessions addr (some (deliver x (l.session addr) d))
    connCh :=
      if (l.sessions addr).isNone ∧ l.connCh.length < 256 then l.connCh ++ [addr] else l.connCh }

end Accept

/-! ## What the loops queue -/

/-- A packet with the right magic and the command PUSH. -/
def IsPush (data : Bytes) : Prop :=
  kcpHdrSize ≤ data.length ∧ beNat (data.take 2) = kcpMagic ∧ data.getD 2 0 = kcpCmdPush

instance (data : Bytes) : Decidable (IsPush data) := inferInstanceAs (Decidable (_ ∧ _ ∧ _))

/-- What a datagram is meant to bring: the payload of an authentic PUSH packet, if there is
one. -/
def received (x : Crypto) (s : Settings) (d : Bytes) : Option Bytes :=
  match decryptPacket x s (d.take bufSize) with
  | none => none
  | some data =>
    if IsPush data ∧ kcpHdrSize < data.length then some (data.drop kcpHdrSize) else none

/-- The queue after something, or nothing, has been sent to the channel. -/
def queued (queue : List Bytes) (payload : Option Bytes) : List Bytes :=
  if queue.length < recvCap then queue ++ payload.toList else queue

@[simp] theorem queued_none (queue : List Bytes) : queued queue none = queue := by
  simp [queued]

theorem enqueue_recvBuf (c : Conn) (payload : Bytes) :
    (c.enqueue payload).recvBuf = queued c.recvBuf (some payload) := by
  unfold Conn.enqueue queued
  split_ifs <;> rfl

/-- Only a PUSH packet puts something into the queue. -/
theorem handle_recvBuf (x : Crypto) (c : Conn) (cmd : UInt8) (payload : Bytes) (t : Stamp) :
    (handle x c cmd payload t).1.recvBuf =
      queued c.recvBuf (if cmd = kcpCmdPush ∧ 0 < payload.length then some payload else none) := by
  unfold handle
  by_cases hpush : cmd = kcpCmdPush
  · rw [if_pos hpush]
    by_cases hlen : 0 < payload.length
    · rw [if_pos hlen, if_pos ⟨hpush, hlen⟩]
      exact enqueue_recvBuf c payload
    · rw [if_neg hlen, if_neg fun h => hlen h.2, queued_none]
      rfl
  · have hnone : ¬ (cmd = kcpCmdPush ∧ 0 < payload.length) := fun h => hpush h.1
    rw [if_neg hpush, if_neg hnone, queued_none]
    split_ifs <;> rfl

/-- **`readLoop` queues what the datagram is meant to bring.** -/
theorem receive_recvBuf (x : Crypto) (c : Conn) (d : Bytes) (t : Stamp) :
    (receive x c d t).1.recvBuf = queued c.recvBuf (received x c.settings d) := by
  unfold receive received
  cases decryptPacket x c.settings (d.take bufSize) with
  | none => rw [queued_none]
  | some data =>
    dsimp only
    by_cases hshort : data.length < kcpHdrSize
    · rw [if_pos hshort, if_neg fun h => absurd h.1.1 (Nat.not_le.2 hshort), queued_none]
    rw [if_neg hshort]
    by_cases hmagic : beNat (data.take 2) = kcpMagic
    · rw [if_neg (not_not.2 hmagic), handle_recvBuf, List.length_drop]
      congr 1
      refine if_congr ?_ rfl rfl
      unfold IsPush
      constructor
      · rintro ⟨hcmd, hlen⟩
        exact ⟨⟨by omega, hmagic, hcmd⟩, by omega⟩
      · rintro ⟨⟨-, -, hcmd⟩, hlen⟩
        exact ⟨hcmd, by omega⟩
    · rw [if_pos hmagic, if_neg fun h => hmagic h.1.2.1, queued_none]

/-- `acceptLoop` queues whatever stands behind the place of the header. -/
theorem deliver_recvBuf (x : Crypto) (c : Conn) (d : Bytes) :
    (deliver x c d).recvBuf = queued c.recvBuf
      (((decryptPacket x c.settings (d.take bufSize)).filter
        (fun data => kcpHdrSize < data.length)).map (·.drop kcpHdrSize)) := by
  unfold deliver
  cases decryptPacket x c.settings (d.take bufSize) with
  | none => simp
  | some data =>
    by_cases hlen : kcpHdrSize < data.length
    · have hdrop : 0 < (data.drop kcpHdrSize).length := by
        rw [List.length_drop]
        omega
      simp only [gt_iff_lt, hlen, hdrop, if_true, Option.filter_some, decide_true,
        Option.map_some, enqueue_recvBuf]
    · simp [Option.filter_some, hlen]

/-- In a queue with room, sending shows. -/
theorem queued_inj {queue : List Bytes} (hroom : queue.length < recvCap) {a b : Option Bytes} :
    queued queue a = queued queue b ↔ a = b := by
  rw [queued, queued, if_pos hroom, if_pos hroom, List.append_cancel_left_eq]
  cases a <;> cases b <;> simp

section Agreement

variable {α : Type} [DecidableEq α] (x : Crypto) (l : Listener α) (addr : α) (d : Bytes)

@[simp] theorem acceptRound_session :
    (acceptRound x l addr d).session addr = deliver x (l.session addr) d := by
  simp [acceptRound, Listener.session]

/-- **Where the two loops agree.**  For the session of the address a datagram comes from,
`readLoop` would queue what the datagram is meant to bring.  `acceptLoop` queues the same
exactly if the queue is full, or a packet with anything behind its header is a PUSH packet. -/
theorem acceptRound_recvBuf_iff (t : Stamp) :
    (receive x (l.session addr) d t).1.recvBuf
        = queued (l.session addr).recvBuf (received x (l.session addr).settings d) ∧
      (((acceptRound x l addr d).session addr).recvBuf
          = (receive x (l.session addr) d t).1.recvBuf ↔
        ((l.session addr).recvBuf.length < recvCap →
          ∀ data, decryptPacket x (l.session addr).settings (d.take bufSize) = some data →
            kcpHdrSize < data.length → IsPush data)) := by
  refine ⟨receive_recvBuf .., ?_⟩
  rw [acceptRound_session, receive_recvBuf, deliver_recvBuf]
  by_cases hroom : (l.session addr).recvBuf.length < recvCap
  · rw [queued_inj hroom, received]
    cases decryptPacket x (l.session addr).settings (d.take bufSize) with
    | none => simp
    | some data =>
      by_cases hlen : kcpHdrSize < data.length
      · by_cases hpush : IsPush data
        · simp [Option.filter_some, hlen, hpush]
        · simp [Option.filter_some, hlen, hpush, hroom]
      · simp [Option.filter_some, hlen]
  · simp [queued, hroom]

end Agreement

/-- A cipher and a hash to compute with. -/
def sampleCrypto : Crypto := ⟨fun _ => List.replicate 32 0, fun _ => Encryptor.tagCipher⟩

theorem sampleCrypto_correct : sampleCrypto.Correct :=
  ⟨fun _ => List.length_replicate .., fun _ => Encryptor.tagCipher_correct⟩

/-- The acknowledgement of a peer becomes data: `acceptLoop` queues its four bytes, and
`readLoop` does not. -/
theorem acceptRound_queues_ack :
    let s := newKCP sampleCrypto [112, 119]
    let l : Listener ℕ := ⟨s, fun _ => none, []⟩
    let ack := (sendAck sampleCrypto (newConn s) ⟨0, 0⟩).2.flatten
    ((acceptRound sampleCrypto l 7 ack).session 7).recvBuf = [[0, 0, 0, 0]] ∧
      (receive sampleCrypto (l.session 7) ack ⟨0, 0⟩).1.recvBuf = [] := by
  decide

/-! ## What is sent arrives -/

/-- The settings are those of two ends that understand each other: packets are not encrypted,
or AES accepts the key. -/
def Settings.Usable (s : Settings) : Prop :=
  s.encrypt = .none ∨ s.key.length = 0 ∨ s.key.length = 16 ∨ s.key.length = 24 ∨ s.key.length = 32

theorem length_newKCP_key {x : Crypto} (hx : x.Correct) (password : Bytes) :
    (newKCP x password).key.length = 16 := by
  show ((x.sha256 password).take 16).length = 16
  rw [List.length_take, hx.sha256_length]
  rfl

theorem newKCP_usable {x : Crypto} (hx : x.Correct) (password : Bytes) :
    (newKCP x password).Usable :=
  .inr (.inr (.inl (length_newKCP_key hx password)))

theorem length_packetNonce (nano : ℕ) : (packetNonce nano).length = 12 := by
  simp [packetNonce]

section RoundTrip

variable {x : Crypto} (hx : x.Correct) {s : Settings}
include hx

/-- `decryptPacket` undoes `encryptPacket`. -/
theorem decryptPacket_encryptPacket (hs : s.Usable) (nano : ℕ) (data : Bytes) :
    decryptPacket x s (encryptPacket x s nano data) = some data := by
  unfold decryptPacket encryptPacket
  by_cases hplain : s.encrypt = .none ∨ s.key.length = 0
  · rw [if_pos hplain, if_pos hplain]
  · obtain ⟨hnone, hzero⟩ := not_or.1 hplain
    have hkey : s.key.length = 16 ∨ s.key.length = 24 ∨ s.key.length = 32 :=
      (hs.resolve_left hnone).resolve_left hzero
    rw [if_neg hplain, if_neg hplain, newGCM, if_pos hkey]
    dsimp only
    rw [if_neg, List.take_left' (length_packetNonce nano),
      List.drop_left' (length_packetNonce nano), (hx.aesGcm_correct s.key).open_seal]
    rw [List.length_append, length_packetNonce]
    omega

/-- A datagram is longer than its packet by a nonce and a tag at most. -/
theorem length_encryptPacket_le (s : Settings) (nano : ℕ) (data : Bytes) :
    (encryptPacket x s nano data).length ≤ data.length + 28 := by
  unfold encryptPacket
  split_ifs
  · omega
  · rw [newGCM]
    split_ifs
    · dsimp only
      rw [List.length_append, length_packetNonce, (hx.aesGcm_correct s.key).addsTag, tagSize]
      omega
    · dsimp only
      omega

end RoundTrip

section Fields

variable (c : Conn) (cmd : UInt8) (payload : Bytes) (milli : ℕ)

theorem length_buildPacket : (buildPacket c cmd payload milli).length = 20 + payload.length := by
  simp only [buildPacket, List.length_append, length_beBytes, List.length_cons, List.length_nil]
  omega

theorem buildPacket_magic : beNat ((buildPacket c cmd payload milli).take 2) = kcpMagic := by
  rw [buildPacket, List.take_left' (length_beBytes ..)]
  decide

theorem buildPacket_cmd : (buildPacket c cmd payload milli).getD 2 0 = cmd := by
  simp [buildPacket, List.getD_eq_getElem?_getD]

theorem buildPacket_payload : (buildPacket c cmd payload milli).drop kcpHdrSize = payload := by
  simp only [buildPacket, kcpHdrSize, ← List.append_assoc]
  exact List.drop_left' (by simp)

end Fields

/-- A datagram brings the payload it was made from if it is a PUSH, and otherwise nothing. -/
theorem received_datagram {x : Crypto} (hx : x.Correct) {c : Conn} (hs : c.settings.Usable)
    (cmd : UInt8) {payload : Bytes} (hlen : payload.length ≤ 65000) (t : Stamp) :
    received x c.settings (datagram x c cmd payload t)
      = if cmd = kcpCmdPush ∧ payload ≠ [] then some payload else none := by
  have hfits : (datagram x c cmd payload t).length ≤ bufSize := by
    refine (length_encryptPacket_le hx ..).trans ?_
    rw [length_buildPacket, bufSize]
    omega
  rw [received, List.take_of_length_le hfits, datagram, decryptPacket_encryptPacket hx hs]
  dsimp only
  rw [buildPacket_payload]
  refine if_congr ?_ rfl rfl
  rw [IsPush, buildPacket_magic, buildPacket_cmd, length_buildPacket, kcpHdrSize,
    ← List.length_pos_iff]
  constructor
  · rintro ⟨⟨-, -, hcmd⟩, hpos⟩
    exact ⟨hcmd, by omega⟩
  · rintro ⟨hcmd, hpos⟩
    exact ⟨⟨by omega, rfl, hcmd⟩, by omega⟩

end Kcp
