/-
# Fragmentation of the KCP transport

`Write` cuts its buffer into payloads of `mtu-kcpHdrSize-16` bytes, so that the packet has room
for the tag of AES-GCM.  `encryptPacket` puts the nonce in front of the sealed packet as well,
which are twelve bytes more.

`write_payloads` says what `Write` sends, whichever packet the socket refuses, and
`write_within_mtu_iff` when all of it fits.
-/
import IPShadowT.KcpStream

open Bytes

namespace Kcp

/-! ## The length of a datagram -/

/-- `encryptPacket` encrypts: encryption is on, and AES accepts the key. -/
def Settings.Encrypts (s : Settings) : Prop :=
  s.encrypt ≠ .none ∧ (s.key.length = 16 ∨ s.key.length = 24 ∨ s.key.length = 32)

instance (s : Settings) : Decidable s.Encrypts := inferInstanceAs (Decidable (_ ∧ _))

/-- What `encryptPacket` adds to a packet: nonce and tag. -/
def Settings.overhead (s : Settings) : ℕ := if s.Encrypts then 28 else 0

variable {c : Conn} {x : Crypto}

theorem newKCP_encrypts (hx : x.Correct) (password : Bytes) : (newKCP x password).Encrypts :=
  ⟨Encryption.noConfusion, .inl (length_newKCP_key hx password)⟩

section Length

variable {x : Crypto} (hx : x.Correct)
include hx

theorem length_encryptPacket (s : Settings) (nano : ℕ) (data : Bytes) :
    (encryptPacket x s nano data).length = data.length + s.overhead := by
  unfold encryptPacket Settings.overhead
  by_cases hplain : s.encrypt = .none ∨ s.key.length = 0
  · have hoff : ¬ s.Encrypts := by
      rintro ⟨hon, hkey⟩
      rcases hplain with hnone | hzero
      · exact hon hnone
      · omega
    rw [if_pos hplain, if_neg hoff]
    rfl
  · obtain ⟨hon, -⟩ := not_or.1 hplain
    rw [if_neg hplain, newGCM]
    by_cases hkey : s.key.length = 16 ∨ s.key.length = 24 ∨ s.key.length = 32
    · rw [if_pos hkey, if_pos ⟨hon, hkey⟩]
      dsimp only
      rw [List.length_append, length_packetNonce, (hx.aesGcm_correct s.key).addsTag, tagSize]
      omega
    · rw [if_neg hkey, if_neg fun h => hkey h.2]
      rfl

theorem length_datagram (c : Conn) (cmd : UInt8) (payload : Bytes) (t : Stamp) :
    (datagram x c cmd payload t).length = 20 + payload.length + c.settings.overhead := by
  rw [datagram, length_encryptPacket hx, length_buildPacket]

end Length

/-! ## What `Write` sends -/

/-- The datagrams of PUSH packets with these payloads, sent one after the other. -/
def pushes (x : Crypto) : Conn → (ℕ → Stamp) → List Bytes → List Bytes
  | _, _, [] => []
  | c, stamps, payload :: rest =>
    datagram x c kcpCmdPush payload (stamps 0) ::
      pushes x { c with sndNxt := c.sndNxt + 1 } (fun k => stamps (k + 1)) rest

theorem mem_pushes {stamps : ℕ → Stamp} {payloads : List Bytes} {d : Bytes}
    (h : d ∈ pushes x c stamps payloads) :
    ∃ c' payload t, c'.settings = c.settings ∧ payload ∈ payloads ∧
      d = datagram x c' kcpCmdPush payload t := by
  induction payloads generalizing c stamps with
  | nil => cases h
  | cons payload rest ih =>
    rcases List.mem_cons.1 h with rfl | hrest
    · exact ⟨c, payload, stamps 0, rfl, List.mem_cons_self, rfl⟩
    · obtain ⟨c', payload', t, hsettings, hmem, rfl⟩ := ih hrest
      exact ⟨c', payload', t, hsettings, List.mem_cons_of_mem _ hmem, rfl⟩

theorem length_le_of_mem_pushes (hx : x.Correct) {stamps : ℕ → Stamp} {payloads : List Bytes}
    {m : ℕ} (hfits : ∀ payload ∈ payloads, payload.length ≤ m) {d : Bytes}
    (hd : d ∈ pushes x c stamps payloads) : d.length ≤ 20 + m + c.settings.overhead := by
  obtain ⟨c', payload, t, hsettings, hmem, rfl⟩ := mem_pushes hd
  have := hfits payload hmem
  rw [length_datagram hx, hsettings]
  omega

section Write

variable {x : Crypto} {p : Bytes}

/-- A round of the loop with something left to send. -/
theorem writePackets_round (hmtu : 36 < c.settings.mtu) (fuel : ℕ) (env : ℕ → Stamp × Bool)
    {offset : ℕ} (hoff : offset < p.length) :
    writePackets x p (fuel + 1) env c offset =
      let stop := min (offset + (c.settings.mtu - 36)) p.length
      let r := writePackets x p fuel (fun i => env (i + 1)) { c with sndNxt := c.sndNxt + 1 } stop
      if (env 0).2 then
        (r.1, r.2.1, datagram x c kcpCmdPush ((p.take stop).drop offset) (env 0).1 :: r.2.2)
      else (.returned offset (some .udp), c, []) := by
  have hstop : min ((offset : ℤ) + (c.settings.mtu - kcpHdrSize - 16)) p.length
      = (min (offset + (c.settings.mtu - 36)) p.length : ℕ) := by
    rw [kcpHdrSize]
    omega
  rw [writePackets, if_pos hoff]
  dsimp only
  rw [hstop, if_neg (by omega), Int.toNat_natCast]

theorem sndNxt_succ (sndNxt : UInt32) (k : ℕ) :
    sndNxt + 1 + UInt32.ofNat k = sndNxt + UInt32.ofNat (k + 1) := by
  rw [UInt32.ofNat_add, UInt32.add_assoc, UInt32.add_comm 1]
  rfl

/-- **What the loop sends**: the packets of pieces of the buffer, from `offset` to the place it
reports.  It gets to the end of the buffer unless the socket refuses a packet. -/
theorem writePackets_payloads (fuel : ℕ) (env : ℕ → Stamp × Bool) (hmtu : 36 < c.settings.mtu)
    {offset : ℕ} (hoff : offset ≤ p.length) (hfuel : p.length < offset + fuel) :
    ∃ n err payloads,
      writePackets x p fuel env c offset =
        (.returned n err, { c with sndNxt := c.sndNxt + UInt32.ofNat payloads.length },
          pushes x c (fun k => (env k).1) payloads) ∧
      (err = none → n = p.length) ∧ offset ≤ n ∧ n ≤ p.length ∧
      payloads.flatten = (p.take n).drop offset ∧
      ∀ payload ∈ payloads, payload.length ≤ c.settings.mtu - 36 := by
  induction fuel generalizing env c offset with
  | zero => omega
  | succ fuel ih =>
    by_cases hlt : offset < p.length
    · rw [writePackets_round hmtu fuel env hlt]
      dsimp only
      by_cases htaken : (env 0).2 = true
      · have hle : min (offset + (c.settings.mtu - 36)) p.length ≤ p.length := by omega
        have hfuel' : p.length < min (offset + (c.settings.mtu - 36)) p.length + fuel := by omega
        obtain ⟨n, err, payloads, hr, hall, hstop', hn, hflatten, hfits⟩ :=
          ih (fun i => env (i + 1)) (c := { c with sndNxt := c.sndNxt + 1 }) hmtu hle hfuel'
        generalize hstop : min (offset + (c.settings.mtu - 36)) p.length = stop at *
        have hcut : (p.take stop).drop offset = (p.drop offset).take (stop - offset) :=
          List.drop_take
        refine ⟨n, err, (p.take stop).drop offset :: payloads, ?_, hall, by omega, hn, ?_, ?_⟩
        · rw [if_pos htaken, hr, List.length_cons, ← sndNxt_succ]
          rfl
        · rw [List.flatten_cons, hflatten, hcut, List.drop_take, List.drop_take,
            show n - offset = (stop - offset) + (n - stop) by omega, List.take_add,
            List.drop_drop, show offset + (stop - offset) = stop by omega]
        · refine List.forall_mem_cons.2 ⟨?_, hfits⟩
          rw [hcut]
          exact (List.length_take_le ..).trans (by omega)
      · rw [if_neg htaken]
        refine ⟨offset, some .udp, [], ?_, fun h => absurd h (Option.some_ne_none _), le_rfl,
          hoff, ?_, List.forall_mem_nil _⟩
        · simp [pushes]
        · rw [List.drop_of_length_le (List.length_take_le ..)]
          rfl
    · rw [writePackets, if_neg hlt]
      refine ⟨p.length, none, [], ?_, fun _ => rfl, hoff, le_rfl, ?_, List.forall_mem_nil _⟩
      · simp [pushes]
      · rw [List.take_length, List.drop_of_length_le (by omega)]
        rfl

/-- **What `Write` sends**: the packets of pieces of the buffer, to the place it reports. -/
theorem write_payloads (hopen : c.closed = false) (hmtu : 36 < c.settings.mtu) (p : Bytes)
    (env : ℕ → Stamp × Bool) :
    ∃ n err payloads,
      write x c p env =
        (.returned n err, { c with sndNxt := c.sndNxt + UInt32.ofNat payloads.length },
          pushes x c (fun k => (env k).1) payloads) ∧
      (err = none → n = p.length) ∧ payloads.flatten = p.take n ∧
      ∀ payload ∈ payloads, payload.length ≤ min (c.settings.mtu - 36) p.length := by
  obtain ⟨n, err, payloads, hr, hall, -, hn, hflatten, hfits⟩ :=
    writePackets_payloads (x := x) (p.length + 1) env hmtu (Nat.zero_le p.length) (by omega)
  rw [List.drop_zero] at hflatten
  refine ⟨n, err, payloads, ?_, hall, hflatten, fun payload hmem => le_min (hfits _ hmem) ?_⟩
  · rw [write, if_neg (Bool.eq_false_iff.1 hopen), hr]
  · have hpart := (List.sublist_flatten_of_mem hmem).length_le
    rw [hflatten] at hpart
    exact hpart.trans (List.length_take_le' ..)

/-- The first packet of a `Write`. -/
theorem write_head (hopen : c.closed = false) (hmtu : 36 < c.settings.mtu) (hp : 0 < p.length)
    {env : ℕ → Stamp × Bool} (htaken : (env 0).2 = true) :
    datagram x c kcpCmdPush (p.take (min (c.settings.mtu - 36) p.length)) (env 0).1
      ∈ (write x c p env).2.2 := by
  rw [write, hopen, if_neg Bool.false_ne_true, writePackets_round hmtu _ env hp]
  dsimp only
  rw [if_pos htaken, Nat.zero_add, List.drop_zero]
  exact List.mem_cons_self

/-- A socket that refuses the first packet gets nothing. -/
theorem write_refused (hmtu : 36 < c.settings.mtu) {env : ℕ → Stamp × Bool}
    (hrefused : (env 0).2 = false) : (write x c p env).2.2 = [] := by
  rw [write]
  split_ifs
  · rfl
  · by_cases hp : 0 < p.length
    · rw [writePackets_round hmtu _ env hp, hrefused]
      rfl
    · rw [writePackets, if_neg hp]

/-- **What `Write` sends, and when it fits.**  The payloads of the packets make up the buffer as
far as `Write` reports it sent, which is to its end unless there is an error.  Every datagram
fits the MTU unless the first packet goes out encrypted and has more than `mtu-48` bytes. -/
theorem write_within_mtu_iff (hx : x.Correct) (c : Conn) (hmtu : 48 < c.settings.mtu) (p : Bytes)
    (env : ℕ → Stamp × Bool) :
    ∃ n err payloads,
      (write x c p env).1 = .returned n err ∧ (err = none → n = p.length) ∧
      (write x c p env).2.2 = pushes x c (fun k => (env k).1) payloads ∧
      payloads.flatten = p.take n ∧
      ((∀ d ∈ (write x c p env).2.2, d.length ≤ c.settings.mtu) ↔
        ¬ (c.closed = false ∧ c.settings.Encrypts ∧ c.settings.mtu - 48 < p.length ∧
          (env 0).2 = true)) := by
  by_cases hclosed : c.closed = true
  · refine ⟨0, some .closed, [], ?_⟩
    rw [write, if_pos hclosed]
    simp [pushes, hclosed]
  have hopen : c.closed = false := Bool.eq_false_of_not_eq_true hclosed
  obtain ⟨n, err, payloads, hwrite, hall, hflatten, hfits⟩ :=
    write_payloads (x := x) hopen (show 36 < c.settings.mtu by omega) p env
  refine ⟨n, err, payloads, congrArg (·.1) hwrite, hall, congrArg (·.2.2) hwrite, hflatten, ?_⟩
  constructor
  · rintro hwithin ⟨-, henc, hlong, htaken⟩
    have hfirst := hwithin _ (write_head hopen (by omega) (by omega) htaken)
    rw [length_datagram hx, Settings.overhead, if_pos henc, List.length_take] at hfirst
    omega
  · intro hcond d hd
    by_cases htaken : (env 0).2 = true
    · rw [hwrite] at hd
      have hlen := length_le_of_mem_pushes hx hfits hd
      rw [Settings.overhead] at hlen
      split_ifs at hlen with henc
      · have hshort : ¬ c.settings.mtu - 48 < p.length :=
          fun hlong => hcond ⟨hopen, henc, hlong, htaken⟩
        omega
      · omega
    · rw [write_refused (by omega) (Bool.eq_false_of_not_eq_true htaken)] at hd
      cases hd

end Write

/-- A buffer of 1302 bytes fits the transport's MTU of 1350. -/
theorem write_within_mtu_1302 :
    48 < (newConn (newKCP sampleCrypto [112, 119])).settings.mtu ∧
      ∀ d ∈ (write sampleCrypto (newConn (newKCP sampleCrypto [112, 119]))
        (List.replicate 1302 0) fun _ => (⟨0, 0⟩, true)).2.2, d.length ≤ 1350 := by
  have hmtu : 48 < (newConn (newKCP sampleCrypto [112, 119])).settings.mtu := by decide
  obtain ⟨-, -, -, -, -, -, -, hiff⟩ := write_within_mtu_iff sampleCrypto_correct
    (newConn (newKCP sampleCrypto [112, 119])) hmtu (List.replicate 1302 0)
    fun _ => (⟨0, 0⟩, true)
  refine ⟨hmtu, hiff.2 ?_⟩
  rintro ⟨-, -, hlong, -⟩
  rw [List.length_replicate] at hlong
  exact absurd hlong (by decide)

/-- **A full packet does not fit**: of a buffer of 1303 bytes, `Write` makes a datagram of 1351
where the MTU is 1350. -/
theorem write_exceeds_mtu :
    let c := newConn (newKCP sampleCrypto [112, 119])
    c.settings.mtu = 1350 ∧
      ∃ d ∈ (write sampleCrypto c (List.replicate 1303 0) fun _ => (⟨0, 0⟩, true)).2.2,
        d.length = 1351 := by
  intro c
  have hmtu : c.settings.mtu = 1350 := rfl
  have hover : c.settings.overhead = 28 := if_pos (newKCP_encrypts sampleCrypto_correct _)
  have hlen : (List.replicate 1303 (0 : UInt8)).length = 1303 := List.length_replicate ..
  refine ⟨hmtu, _, write_head rfl (by decide) (by omega) rfl, ?_⟩
  rw [length_datagram sampleCrypto_correct, hover, hmtu, List.length_take, hlen]
  rfl

end Kcp
