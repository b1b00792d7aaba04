/-
# Nonces of the KCP transport

`encryptPacket` takes its nonce from the clock: eight bytes of `UnixNano`, and four zeros.  All
connections with one password, at clients and at servers, encrypt under one key.

A run of such connections keeps the readings of the clocks that went into nonces, and the nonces.
`always_noncesOnce_iff` says when no nonce is used twice.
-/
import IPShadowT.KcpStream

open Bytes Runs

namespace Kcp

/-! ## The calls of `encryptPacket` -/

/-- The nonce of `encryptPacket` at the time `nano`, if it encrypts. -/
def sealNonce (x : Crypto) (s : Settings) (nano : ℕ) : Option Bytes :=
  if s.encrypt = .none ∨ s.key.length = 0 then none
  else (newGCM x s.key).map fun _ => packetNonce nano

/-- The packet that the socket refused has been encrypted too. -/
def Outcome.refused : Outcome → ℕ
  | returned _ (some .udp) => 1
  | _ => 0

/-- The readings of the clock for the nonces of a call of `Write`. -/
def writeReadings (x : Crypto) (c : Conn) (p : Bytes) (env : ℕ → Stamp × Bool) : List ℕ :=
  let r := write x c p env
  (List.range (r.2.2.length + r.1.refused)).map fun k => (env k).1.nano

/-- The readings for the nonces of a round of `readLoop`: one if it replies. -/
def receiveReadings (x : Crypto) (c : Conn) (d : Bytes) (t : Stamp) : List ℕ :=
  (receive x c d t).2.map fun _ => t.nano

section Nonce

variable {x : Crypto} {s : Settings}

/-- With the key of a transport every packet is encrypted. -/
theorem sealNonce_newKCP (hx : x.Correct) (password : Bytes) (nano : ℕ) :
    sealNonce x (newKCP x password) nano = some (packetNonce nano) := by
  have hlen := length_newKCP_key hx password
  have hplain : ¬ ((newKCP x password).encrypt = .none ∨ (newKCP x password).key.length = 0) := by
    rintro (hnone | hzero)
    · cases hnone
    · omega
  rw [sealNonce, if_neg hplain, newGCM, if_pos (.inl hlen)]
  rfl

/-- Two readings give one nonce if they are equal modulo `2^64`. -/
theorem packetNonce_inj {a b : ℕ} : packetNonce a = packetNonce b ↔ a % 2 ^ 64 = b % 2 ^ 64 := by
  unfold packetNonce
  rw [List.append_cancel_right_eq]
  constructor
  · intro h
    have := congrArg beNat h
    rwa [beNat_beBytes, beNat_beBytes] at this
  · intro h
    refine eq_of_beNat_eq (by simp) ?_
    rw [beNat_beBytes, beNat_beBytes]
    exact h

/-- A round of the loop of `Write` sends nothing and is the last, or sends a packet with the next
reading and goes on. -/
theorem writePackets_succ_cases (x : Crypto) (p : Bytes) (fuel : ℕ) (env : ℕ → Stamp × Bool)
    (c : Conn) (offset : ℕ) :
    (writePackets x p (fuel + 1) env c offset).2 = (c, []) ∨ ∃ payload stop,
      (writePackets x p (fuel + 1) env c offset).2 =
        let r := writePackets x p fuel (fun i => env (i + 1)) { c with sndNxt := c.sndNxt + 1 } stop
        (r.2.1, datagram x c kcpCmdPush payload (env 0).1 :: r.2.2) := by
  rw [writePackets]
  split
  · dsimp only
    split
    · exact .inl rfl
    · split
      · exact .inr ⟨_, _, rfl⟩
      · exact .inl rfl
  · exact .inl rfl

end Nonce

/-! ## The settings of a connection stay -/

section Settings

variable {x : Crypto}

theorem writePackets_settings (p : Bytes) (fuel : ℕ) (env : ℕ → Stamp × Bool) (c : Conn)
    (offset : ℕ) : (writePackets x p fuel env c offset).2.1.settings = c.settings := by
  induction fuel generalizing env c offset with
  | zero => rfl
  | succ fuel ih =>
    rcases writePackets_succ_cases x p fuel env c offset with hnone | ⟨payload, stop, hcons⟩
    · rw [hnone]
    · rw [hcons]
      exact ih ..

theorem write_settings (c : Conn) (p : Bytes) (env : ℕ → Stamp × Bool) :
    (write x c p env).2.1.settings = c.settings := by
  unfold write
  split_ifs
  · rfl
  · exact writePackets_settings ..

theorem deliver_settings (c : Conn) (d : Bytes) : (deliver x c d).settings = c.settings := by
  unfold deliver
  split
  · rfl
  · dsimp only
    split_ifs
    · exact (c.sameAs_enqueue _).1
    · rfl
    · rfl

end Settings

/-! ## Connections with one password -/

/-- A connection that `Dial` made has a `readLoop`; a session of a listener is served by
`acceptLoop`, which sends nothing.  The socket of a listener has no peer and refuses what `Write`
gives it, but the packet has been encrypted by then. -/
inductive Role where
  | client
  | server
  deriving DecidableEq, Repr

/-- What can happen at a connection.  A round of `readLoop` that has begun goes on after
`Close`. -/
inductive Activity where
  | write (p : Bytes) (env : ℕ → Stamp × Bool)
  | readLoop (d : Bytes) (t : Stamp)
  | acceptLoop (d : Bytes)
  | read (n : ℕ)
  | close

section Activity

variable (x : Crypto) (role : Role) (c : Conn)

/-- The connection afterwards. -/
def Activity.next : Activity → Conn
  | .write p env => (Kcp.write x c p env).2.1
  | .readLoop d t => if role = .client then (receive x c d t).1 else c
  | .acceptLoop d => if role = .server then deliver x c d else c
  | .read n => ((Kcp.read c n).map (·.2)).getD c
  | .close => { c with closed := true }

/-- The readings of the clock for the calls of `encryptPacket`. -/
def Activity.readings : Activity → List ℕ
  | .write p env => writeReadings x c p env
  -- a reply, be it an acknowledgement or an answer to a ping, is encrypted in the same round
  | .readLoop d t => if role = .client then receiveReadings x c d t else []
  | .acceptLoop _ | .read _ | .close => []

end Activity

/-- Any number of connections, the readings that went into nonces with the connection each was
made at, and the nonces, the first one first. -/
structure Net (ι : Type) where
  ends : ι → Conn
  readings : List (ι × ℕ)
  nonces : List Bytes

variable {ι : Type} [DecidableEq ι]

/-- Something happens at the connection `e.1`. -/
def Net.step (x : Crypto) (role : ι → Role) (s : Net ι) (e : ι × Activity) : Net ι :=
  let c := s.ends e.1
  let new := e.2.readings x (role e.1) c
  { ends := Function.update s.ends e.1 (e.2.next x (role e.1) c)
    readings := s.readings ++ new.map fun t => (e.1, t)
    nonces := s.nonces ++ new.filterMap (sealNonce x c.settings) }

/-- New connections of transports with the same password. -/
def Net.start (x : Crypto) (password : Bytes) : Net ι :=
  ⟨fun _ => newConn (newKCP x password), [], []⟩

/-- No two calls of `encryptPacket` have used the same nonce. -/
def Net.NoncesOnce (s : Net ι) : Prop := s.nonces.Nodup

instance (s : Net ι) : Decidable s.NoncesOnce := inferInstanceAs (Decidable (List.Nodup _))

/-- The readings of each clock do not go back. -/
def Net.ClocksForward (s : Net ι) : Prop :=
  s.readings.Pairwise fun r r' => r.1 = r'.1 → r.2 ≤ r'.2

instance (s : Net ι) : Decidable s.ClocksForward :=
  inferInstanceAs (Decidable (List.Pairwise _ _))

/-- The readings, as unsigned numbers of 64 bits, differ from each other and from all readings
before, at whatever connection. -/
def Net.FreshReadings (x : Crypto) (role : ι → Role) (s : Net ι) (e : ι × Activity) : Prop :=
  let new := e.2.readings x (role e.1) (s.ends e.1)
  (new.map (· % 2 ^ 64)).Nodup ∧ ∀ t ∈ new, ∀ r ∈ s.readings, r.2 % 2 ^ 64 ≠ t % 2 ^ 64

instance (x : Crypto) (role : ι → Role) (s : Net ι) (e : ι × Activity) :
    Decidable (s.FreshReadings x role e) :=
  inferInstanceAs (Decidable (_ ∧ _))

/-- All connections have the settings of the transport, and the nonces are those of the
readings. -/
def Net.Settled (x : Crypto) (password : Bytes) (s : Net ι) : Prop :=
  (∀ i, (s.ends i).settings = newKCP x password) ∧
    s.nonces = s.readings.map fun r => packetNonce r.2

section Steps

variable {x : Crypto} {password : Bytes} {role : ι → Role} {s : Net ι}

theorem Activity.next_settings (x : Crypto) (role : Role) (c : Conn) (a : Activity) :
    (a.next x role c).settings = c.settings := by
  cases a with
  | write p env => exact write_settings c p env
  | readLoop d t =>
    show (if role = .client then (receive x c d t).1 else c).settings = c.settings
    split_ifs
    · exact (receive_sameAs c d t).1
    · rfl
  | acceptLoop d =>
    show (if role = .server then deliver x c d else c).settings = c.settings
    split_ifs
    · exact deliver_settings c d
    · rfl
  | read n =>
    unfold Activity.next Kcp.read
    cases c.recvBuf <;> rfl
  | close => rfl

/-- The nonces of a step are those of its readings. -/
theorem Net.step_nonces (hx : x.Correct) (hs : s.Settled x password) (e : ι × Activity) :
    (s.step x role e).nonces =
      s.nonces ++ (e.2.readings x (role e.1) (s.ends e.1)).map packetNonce := by
  have hseal : sealNonce x (s.ends e.1).settings = fun nano => some (packetNonce nano) := by
    rw [hs.1]
    exact funext (sealNonce_newKCP hx password)
  rw [Net.step, hseal]
  exact congrArg (s.nonces ++ ·) (List.filterMap_eq_map' ▸ rfl)

theorem Net.settled_step (hx : x.Correct) (hs : s.Settled x password) (e : ι × Activity) :
    (s.step x role e).Settled x password := by
  refine ⟨fun i => ?_, ?_⟩
  · show (Function.update s.ends e.1 _ i).settings = _
    by_cases hi : i = e.1
    · rw [hi, Function.update_self, Activity.next_settings]
      exact hs.1 e.1
    · rw [Function.update_of_ne hi]
      exact hs.1 i
  · rw [Net.step_nonces hx hs, hs.2]
    simp [Net.step]

/-- Distinct nonces are distinct readings. -/
theorem nodup_map_packetNonce {ts : List ℕ} :
    (ts.map packetNonce).Nodup ↔ (ts.map (· % 2 ^ 64)).Nodup := by
  simp only [List.Nodup, List.pairwise_map, ne_eq, packetNonce_inj]

theorem Net.noncesOnce_step_iff (hx : x.Correct) (hs : s.Settled x password) (h : s.NoncesOnce)
    (e : ι × Activity) : (s.step x role e).NoncesOnce ↔ s.FreshReadings x role e := by
  rw [Net.NoncesOnce, Net.step_nonces hx hs, List.nodup_append, nodup_map_packetNonce,
    Net.FreshReadings]
  constructor
  · rintro ⟨-, hnew, hdisj⟩
    refine ⟨hnew, fun t ht r hr heq => ?_⟩
    refine hdisj (packetNonce r.2) ?_ (packetNonce t) (List.mem_map_of_mem ht)
      (packetNonce_inj.2 heq)
    rw [hs.2]
    exact List.mem_map_of_mem hr
  · rintro ⟨hnew, hdisj⟩
    refine ⟨h, hnew, ?_⟩
    rw [hs.2]
    simp only [List.forall_mem_map]
    exact fun r hr t ht heq => hdisj t ht r hr (packetNonce_inj.1 heq)

/-- **No nonce is used twice** in a run of connections with one password exactly if each reading
of a clock for a nonce is new. -/
theorem always_noncesOnce_iff (hx : x.Correct) (password : Bytes) (role : ι → Role)
    (es : List (ι × Activity)) :
    Always (Net.step x role) Net.NoncesOnce (Net.start x password) es ↔
      EachStep (Net.step x role) (Net.FreshReadings x role) (Net.start x password) es := by
  refine always_iff_eachStep_of_invariant (J := Net.Settled x password)
    (fun s e hs => Net.settled_step hx hs e) (fun s e hs h => Net.noncesOnce_step_iff hx hs h e)
    ?_ ?_ es
  · exact ⟨fun _ => rfl, rfl⟩
  · exact List.nodup_nil

end Steps

/-- Two clients. -/
def twoClients (_ : Bool) : Role := .client

/-- A connection writes a byte at the time `nano`. -/
def writeAt (nano : ℕ) : Activity := .write [7] fun _ => (⟨0, nano⟩, true)

/-- Two clients that write at different times. -/
theorem noncesOnce_apart :
    sampleCrypto.Correct ∧
      Always (Net.step sampleCrypto twoClients) Net.NoncesOnce
        (Net.start sampleCrypto [112, 119]) [(false, writeAt 1), (true, writeAt 2)] :=
  ⟨sampleCrypto_correct, (always_noncesOnce_iff sampleCrypto_correct ..).2 (by decide)⟩

/-- Two clients that write at the same nanosecond of their clocks use one nonce. -/
theorem noncesOnce_fails :
    let step := Net.step sampleCrypto twoClients
    let es := [(false, writeAt 1), (true, writeAt 1)]
    (run step (Net.start sampleCrypto [112, 119]) es).ClocksForward ∧
      ¬ Always step Net.NoncesOnce (Net.start sampleCrypto [112, 119]) es := by
  intro step es
  refine ⟨by decide, fun h => ?_⟩
  exact absurd h.last (by decide)

end Kcp
