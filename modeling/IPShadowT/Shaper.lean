/-
# Traffic shaping

`ShapedConn` of `internal/antidpi/shaper.go`, a connection that pads what is written to it
to a multiple of a block size and hands it on in packets of random sizes, with pauses.

The packets together are the padded buffer, whatever the random choices: `write_written`.
Nothing takes the padding off again, so that the other side reads the data that was
written exactly if no buffer needed any: `shaped_transparent_iff`.  The count returned
includes the padding that was sent, and `shaped_count_iff` says for which sizes of packets and
which failures of the connection it keeps to the length of the buffer.
-/
import IPShadowT.Runs
import IPShadowT.Stream

open Runs

namespace Shaper

/-! ## Profiles -/

/-- `ShapingProfile`; durations are in nanoseconds. -/
structure ShapingProfile where
  minPacketSize : Int
  maxPacketSize : Int
  minDelay : Int
  maxDelay : Int
  burstSize : Int
  interBurst : Int
  padToMultiple : Int
  deriving DecidableEq, Repr

/-- `DefaultBrowsingProfile`. -/
def defaultBrowsingProfile : ShapingProfile where
  minPacketSize := 64
  maxPacketSize := 1460
  minDelay := 0
  maxDelay := 5000000
  burstSize := 10
  interBurst := 50000000
  padToMultiple := 64

/-! ## Random choices -/

/-- A number from `min` up to `max`, for what the random source gives: any number, or
`none` where it fails. -/
def randomBetween (draw : Option ℕ) (min max : Int) : Int :=
  if max ≤ min then min
  else
    match draw with
    | none => min
    | some n => min + n % (max - min)

/-- `randomInt`. -/
def randomInt (draw : Option ℕ) (min max : Int) : Int := randomBetween draw min max

/-- `randomDelay`. -/
def randomDelay (draw : Option ℕ) (min max : Int) : Int := randomBetween draw min max

/-- A call of `Write`, with what the random source gives while it runs. -/
structure WriteCall where
  p : Bytes
  /-- the bytes that `padData` takes -/
  padding : ℕ → UInt8
  /-- the draws for the sizes of the packets -/
  sizes : ℕ → Option ℕ
  /-- the draws for the pauses -/
  delays : ℕ → Option ℕ

/-! ## The connection -/

/-- `ShapedConn`, and how long it has slept. -/
structure ShapedConn where
  conn : Sink
  packets : ℕ
  slept : Int
  deriving DecidableEq, Repr

/-- How a call of `Write` ends: with the count it returns and whether there was no error,
by a panic, or not within the given number of rounds. -/
inductive WriteResult where
  | returned (n : ℕ) (ok : Bool)
  | panic
  | running
  deriving DecidableEq, Repr

namespace ShapedConn

/-- `WrapConn`, for a shaper that is enabled. -/
def wrapConn (conn : Sink) : ShapedConn := ⟨conn, 0, 0⟩

/-- `time.Sleep`. -/
def sleep (sc : ShapedConn) (d : Int) : ShapedConn := { sc with slept := sc.slept + max d 0 }

/-- One packet: how many bytes were taken, and whether all were. -/
def send (sc : ShapedConn) (data : Bytes) : ℕ × Bool × ShapedConn :=
  let (ok, conn) := sc.conn.write data
  (conn.written.length - sc.conn.written.length, ok, { sc with conn := conn })

end ShapedConn

section

variable (profile : ShapingProfile)

/-- `padData`. -/
def padData (padding : ℕ → UInt8) (data : Bytes) : Bytes :=
  if profile.padToMultiple ≤ 0 then data
  else
    let remainder := (data.length : Int) % profile.padToMultiple
    if remainder = 0 then data
    else data ++ (List.range (profile.padToMultiple - remainder).toNat).map padding

/-- The pauses of `Write` before a packet. -/
def beforePacket (draw : Option ℕ) (sc : ShapedConn) : ShapedConn :=
  let sc :=
    if 0 < sc.packets ∧ 0 < profile.maxDelay then
      sc.sleep (randomDelay draw profile.minDelay profile.maxDelay)
    else sc
  if 0 < profile.burstSize ∧ 0 < sc.packets ∧ (sc.packets : Int) % profile.burstSize = 0 then
    sc.sleep profile.interBurst
  else sc

/-- The pauses of `writeChunked` after a packet that is not the last. -/
def betweenChunks (draw : Option ℕ) (sc : ShapedConn) : ShapedConn :=
  let sc := sc.sleep (randomDelay draw profile.minDelay profile.maxDelay)
  if 0 < profile.burstSize ∧ (sc.packets : Int) % profile.burstSize = 0 then
    sc.sleep profile.interBurst
  else sc

/-- The loop of `writeChunked`: round `i`, with `data` still to be written.  A chunk of
negative size is a slice out of range. -/
def chunkLoop (w : WriteCall) : ℕ → ℕ → Bytes → ℕ → ShapedConn → WriteResult × ShapedConn
  | 0, _, _, _, sc => (.running, sc)
  | fuel + 1, i, data, totalWritten, sc =>
    if data = [] then (.returned totalWritten true, sc)
    else
      let chunkSize := randomInt (w.sizes i) profile.minPacketSize profile.maxPacketSize
      let chunkSize := if chunkSize > data.length then (data.length : Int) else chunkSize
      if chunkSize < 0 then (.panic, sc)
      else
        let (n, ok, sc) := sc.send (data.take chunkSize.toNat)
        let rest := data.drop chunkSize.toNat
        if ¬ ok then (.returned (totalWritten + n) false, sc)
        else
          let sc := { sc with packets := sc.packets + 1 }
          let sc := if rest ≠ [] then betweenChunks profile (w.delays i) sc else sc
          chunkLoop w fuel (i + 1) rest (totalWritten + n) sc

/-- The size of packet `i`, with `left` bytes to be written. -/
def packetSize (w : WriteCall) (i left : ℕ) : ℕ :=
  (min (randomInt (w.sizes i) profile.minPacketSize profile.maxPacketSize) left).toNat

/-- The sizes of the packets from packet `i` on. -/
def packetSizes (w : WriteCall) : ℕ → ℕ → ℕ → List ℕ
  | 0, _, _ => []
  | fuel + 1, i, left =>
    if left = 0 then []
    else packetSize profile w i left ::
      packetSizes w fuel (i + 1) (left - packetSize profile w i left)

/-- `Write`. -/
def write (sc : ShapedConn) (w : WriteCall) : WriteResult × ShapedConn :=
  let data := padData profile w.padding w.p
  if data.length > profile.maxPacketSize then
    chunkLoop profile w (data.length + 1) 0 data 0 sc
  else
    let sc := beforePacket profile (w.delays 0) sc
    let (n, ok, sc) := sc.send data
    let sc := { sc with packets := sc.packets + 1 }
    (.returned (if n ≥ w.p.length then w.p.length else n) ok, sc)

/-- The connection after a call. -/
def step (sc : ShapedConn) (w : WriteCall) : ShapedConn := (write profile sc w).2

end

/-! ## What is written -/

theorem randomInt_pos {draw : Option ℕ} {min max : Int} (h : 0 < min) :
    0 < randomInt draw min max := by
  unfold randomInt randomBetween
  split_ifs with hle
  · exact h
  · cases draw with
    | none => exact h
    | some n =>
      have hmod : 0 ≤ (n : Int) % (max - min) := Int.emod_nonneg _ (by omega)
      show 0 < min + (n : Int) % (max - min)
      omega

@[simp] theorem beforePacket_conn (profile : ShapingProfile) (draw : Option ℕ)
    (sc : ShapedConn) : (beforePacket profile draw sc).conn = sc.conn := by
  unfold beforePacket ShapedConn.sleep
  dsimp only
  split_ifs <;> rfl

@[simp] theorem betweenChunks_conn (profile : ShapingProfile) (draw : Option ℕ)
    (sc : ShapedConn) : (betweenChunks profile draw sc).conn = sc.conn := by
  unfold betweenChunks ShapedConn.sleep
  dsimp only
  split_ifs <;> rfl

variable {sc : ShapedConn} {profile : ShapingProfile} {data : Bytes}

theorem send_of_reliable (h : sc.conn.Reliable) (data : Bytes) :
    sc.send data = (data.length, true, { sc with conn := ⟨sc.conn.written ++ data, []⟩ }) := by
  unfold ShapedConn.send
  rw [Sink.write_of_reliable h]
  simp

section Written

variable {profile : ShapingProfile} (hmin : 0 < profile.minPacketSize)
include hmin

/-- A round of the loop sends at least one byte; it goes on with the rest, unless the packet
fails. -/
theorem chunkLoop_succ (w : WriteCall) (fuel i : ℕ) (hdata : data ≠ []) (total : ℕ)
    (sc : ShapedConn) :
    ∃ (k : ℕ) (sc' : ShapedConn), k = packetSize profile w i data.length ∧ 0 < k ∧
      k ≤ data.length ∧ sc'.conn = (sc.send (data.take k)).2.2.conn ∧
      chunkLoop profile w (fuel + 1) i data total sc =
        if (sc.send (data.take k)).2.1 then
          chunkLoop profile w fuel (i + 1) (data.drop k) (total + (sc.send (data.take k)).1) sc'
        else (.returned (total + (sc.send (data.take k)).1) false,
          (sc.send (data.take k)).2.2) := by
  have hpos : 0 < data.length := List.length_pos_iff.2 hdata
  rw [chunkLoop, if_neg hdata]
  dsimp only
  set size := randomInt (w.sizes i) profile.minPacketSize profile.maxPacketSize with hsize
  have hsize_pos : 0 < size := randomInt_pos hmin
  have hk : (if size > data.length then (data.length : Int) else size) =
      (packetSize profile w i data.length : ℕ) := by
    rw [packetSize, ← hsize]
    split_ifs <;> omega
  have hbounds : 0 < packetSize profile w i data.length ∧
      packetSize profile w i data.length ≤ data.length := by
    rw [packetSize, ← hsize]
    omega
  rw [hk, if_neg (by omega), Int.toNat_natCast, ite_not]
  refine ⟨_, _, rfl, hbounds.1, hbounds.2, ?_, rfl⟩
  split_ifs <;> simp

/-- A round on a connection that takes everything. -/
theorem chunkLoop_round (w : WriteCall) (fuel i : ℕ) (hdata : data ≠ []) (total : ℕ)
    (h : sc.conn.Reliable) :
    ∃ (k : ℕ) (sc' : ShapedConn), 0 < k ∧ k ≤ data.length ∧
      sc'.conn = ⟨sc.conn.written ++ data.take k, []⟩ ∧
      chunkLoop profile w (fuel + 1) i data total sc =
        chunkLoop profile w fuel (i + 1) (data.drop k) (total + k) sc' := by
  obtain ⟨k, sc', -, hk_pos, hk_le, hconn, hround⟩ := chunkLoop_succ hmin w fuel i hdata total sc
  rw [send_of_reliable h] at hconn hround
  rw [if_pos rfl, List.length_take_of_le hk_le] at hround
  exact ⟨k, sc', hk_pos, hk_le, hconn, hround⟩

/-- The chunks make up the data, and the loop ends. -/
theorem chunkLoop_written (w : WriteCall) {fuel : ℕ} (i : ℕ) (total : ℕ)
    (hfuel : data.length < fuel) (h : sc.conn.Reliable) :
    (chunkLoop profile w fuel i data total sc).1 = .returned (total + data.length) true ∧
      (chunkLoop profile w fuel i data total sc).2.conn = ⟨sc.conn.written ++ data, []⟩ := by
  induction fuel generalizing i data total sc with
  | zero => exact absurd hfuel (Nat.not_lt_zero _)
  | succ fuel ih =>
    by_cases hdata : data = []
    · subst hdata
      obtain ⟨⟨written, script⟩, packets, slept⟩ := sc
      obtain rfl : script = [] := h
      rw [chunkLoop, if_pos rfl]
      exact ⟨rfl, by rw [List.append_nil]⟩
    · obtain ⟨k, sc', hk_pos, hk_le, hconn, hround⟩ :=
        chunkLoop_round hmin w fuel i hdata total h
      have hreliable : sc'.conn.Reliable := by
        rw [hconn]
        rfl
      have hdrop : (data.drop k).length = data.length - k := List.length_drop
      have hless : (data.drop k).length < fuel := by omega
      obtain ⟨hresult, hwritten⟩ := ih (i + 1) (total + k) hless hreliable
      rw [hround]
      refine ⟨hresult.trans ?_, hwritten.trans ?_⟩
      · rw [hdrop, Nat.add_assoc, Nat.add_sub_cancel' hk_le]
      · rw [hconn, List.append_assoc, List.take_append_drop]

/-- **A call of `Write` hands on the padded buffer**, whatever the random choices. -/
theorem write_written (w : WriteCall) (h : sc.conn.Reliable) :
    (step profile sc w).conn = ⟨sc.conn.written ++ padData profile w.padding w.p, []⟩ := by
  unfold step write
  dsimp only
  by_cases hlong : ((padData profile w.padding w.p).length : Int) > profile.maxPacketSize
  · rw [if_pos hlong]
    exact (chunkLoop_written hmin w 0 0 (Nat.lt_succ_self _) h).2
  · rw [if_neg hlong]
    have hbefore : (beforePacket profile (w.delays 0) sc).conn.Reliable := by
      rw [beforePacket_conn]
      exact h
    rw [send_of_reliable hbefore, beforePacket_conn]

/-- Calls one after the other hand on their padded buffers. -/
theorem run_written (ws : List WriteCall) (h : sc.conn.Reliable) :
    (run (step profile) sc ws).conn.written
      = sc.conn.written ++ ws.flatMap fun w => padData profile w.padding w.p := by
  induction ws generalizing sc with
  | nil =>
    show sc.conn.written = sc.conn.written ++ []
    rw [List.append_nil]
  | cons w ws ih =>
    have hstep := write_written hmin w h
    have hreliable : (step profile sc w).conn.Reliable := by
      rw [hstep]
      rfl
    rw [run_cons, ih hreliable, hstep, List.flatMap_cons, List.append_assoc]

end Written

/-! ## When nothing is added -/

/-- A buffer that needs no padding. -/
def ShapingProfile.Aligned (profile : ShapingProfile) (w : WriteCall) : Prop :=
  profile.padToMultiple ≤ 0 ∨ (w.p.length : Int) % profile.padToMultiple = 0

instance (profile : ShapingProfile) (w : WriteCall) : Decidable (profile.Aligned w) :=
  inferInstanceAs (Decidable (_ ∨ _))

theorem padData_of_aligned {w : WriteCall} (h : profile.Aligned w) :
    padData profile w.padding w.p = w.p := by
  unfold padData
  split_ifs with hnone
  · rfl
  · exact if_pos (h.resolve_left hnone)

/-- A buffer that is padded becomes longer. -/
theorem length_lt_padData {w : WriteCall} (h : ¬ profile.Aligned w) :
    w.p.length < (padData profile w.padding w.p).length := by
  obtain ⟨hnone, hrem⟩ := not_or.1 h
  have hlt := Int.emod_lt_of_pos (w.p.length : Int) (not_le.1 hnone)
  unfold padData
  rw [if_neg hnone]
  dsimp only
  rw [if_neg hrem, List.length_append, List.length_map, List.length_range]
  omega

theorem length_le_padData (profile : ShapingProfile) (w : WriteCall) :
    w.p.length ≤ (padData profile w.padding w.p).length := by
  by_cases h : profile.Aligned w
  · rw [padData_of_aligned h]
  · exact (length_lt_padData h).le

/-- Padded buffers add up to the buffers exactly if none is padded. -/
theorem flatMap_padData_eq_iff (profile : ShapingProfile) (ws : List WriteCall) :
    (ws.flatMap fun w => padData profile w.padding w.p) = ws.flatMap WriteCall.p ↔
      ∀ w ∈ ws, profile.Aligned w := by
  have hle : ∀ ws : List WriteCall, (ws.flatMap WriteCall.p).length
      ≤ (ws.flatMap fun w => padData profile w.padding w.p).length := by
    intro ws
    induction ws with
    | nil => exact le_refl _
    | cons w ws ih =>
      have hw := length_le_padData profile w
      simp only [List.flatMap_cons, List.length_append]
      omega
  constructor
  · intro heq
    induction ws with
    | nil => exact nofun
    | cons w ws ih =>
      rw [List.flatMap_cons, List.flatMap_cons] at heq
      have hlen := congrArg List.length heq
      rw [List.length_append, List.length_append] at hlen
      have hrest := hle ws
      have hw : profile.Aligned w := by
        by_contra hpad
        have hlt := length_lt_padData hpad
        omega
      rw [padData_of_aligned hw, List.append_cancel_left_eq] at heq
      intro v hv
      rcases List.mem_cons.1 hv with rfl | hold
      · exact hw
      · exact ih heq v hold
  · intro hall
    apply List.flatMap_congr
    intro w hw
    exact padData_of_aligned (hall w hw)

/-- **When shaping is transparent.**  Where packets have at least one byte, the bytes handed
to the connection are the bytes written, for all calls of `Write` and all random choices,
exactly if every buffer has a length to which nothing is added. -/
theorem shaped_transparent_iff {profile : ShapingProfile} (hmin : 0 < profile.minPacketSize)
    (ws : List WriteCall) :
    (run (step profile) (.wrapConn ⟨[], []⟩) ws).conn.written = ws.flatMap WriteCall.p ↔
      ∀ w ∈ ws, profile.Aligned w := by
  have hreliable : (ShapedConn.wrapConn ⟨[], []⟩).conn.Reliable := rfl
  rw [run_written hmin ws hreliable]
  exact flatMap_padData_eq_iff profile ws

/-- A call whose random numbers are all the same. -/
def plainCall (p : Bytes) : WriteCall := ⟨p, fun _ => 170, fun _ => some 7, fun _ => none⟩

/-- Blocks of 64 bytes, the second call in two packets. -/
theorem aligned_transparent :
    (run (step defaultBrowsingProfile) (.wrapConn ⟨[], []⟩)
        [plainCall (List.replicate 64 1), plainCall (List.replicate 1472 2)]).conn.written
      = [plainCall (List.replicate 64 1), plainCall (List.replicate 1472 2)].flatMap
          WriteCall.p :=
  (shaped_transparent_iff (by decide) _).2 (by decide +kernel)

/-- **One byte becomes 64**: the peer reads 63 bytes that were not sent. -/
theorem padding_is_read :
    ¬ ∀ (profile : ShapingProfile) (ws : List WriteCall), 0 < profile.minPacketSize →
        0 < profile.maxPacketSize →
        (run (step profile) (.wrapConn ⟨[], []⟩) ws).conn.written = ws.flatMap WriteCall.p := by
  intro hall
  have heq := hall defaultBrowsingProfile [plainCall [1]] (by decide) (by decide)
  revert heq
  decide +kernel

/-! ## The count that is returned

Here the connection may fail at any point. -/

/-- What a connection takes of packets of these sizes, up to the first that fails. -/
def takes : List (Option ℕ) → List ℕ → ℕ
  | _, [] => 0
  | some k :: _, n :: _ => min k n
  | none :: script, n :: sizes => n + takes script sizes
  | [], n :: sizes => n + takes [] sizes

/-- The first packet that fails is the `j`-th, and with the part of it that is taken the packets
make up at most `limit` bytes. -/
def FailsWithin (script : List (Option ℕ)) (sizes : List ℕ) (limit : ℕ) : Prop :=
  ∃ j k n, script[j]? = some (some k) ∧ (∀ r ∈ script.take j, r = none) ∧ sizes[j]? = some n ∧
    (sizes.take j).sum + min k n ≤ limit

/-- A packet that does not fail, before the others. -/
theorem failsWithin_none_cons {script : List (Option ℕ)} {n : ℕ} {sizes : List ℕ} {limit : ℕ} :
    FailsWithin (none :: script) (n :: sizes) limit ↔
      n ≤ limit ∧ FailsWithin script sizes (limit - n) := by
  constructor
  · rintro ⟨_ | j, k, m, hk, hnone, hm, hsum⟩
    · cases hk
    · rw [List.take_succ_cons, List.sum_cons] at hsum
      refine ⟨by omega, j, k, m, hk, fun r hr => hnone r ?_, hm, by omega⟩
      exact List.mem_cons_of_mem _ hr
  · rintro ⟨hle, j, k, m, hk, hnone, hm, hsum⟩
    refine ⟨j + 1, k, m, hk, fun r hr => ?_, hm, ?_⟩
    · rcases List.mem_cons.1 hr with rfl | hr
      · rfl
      · exact hnone r hr
    · rw [List.take_succ_cons, List.sum_cons]
      omega

theorem not_failsWithin_nil (sizes : List ℕ) (limit : ℕ) : ¬ FailsWithin [] sizes limit := by
  rintro ⟨j, k, n, hk, -⟩
  cases hk

/-- A connection takes at most `limit` bytes exactly if there are no more or it fails in time. -/
theorem takes_le_iff (script : List (Option ℕ)) (sizes : List ℕ) (limit : ℕ) :
    takes script sizes ≤ limit ↔ sizes.sum ≤ limit ∨ FailsWithin script sizes limit := by
  induction sizes generalizing script limit with
  | nil => exact iff_of_true (Nat.zero_le _) (.inl (Nat.zero_le _))
  | cons n sizes ih =>
    rcases script with _ | ⟨_ | k, script⟩
    · have hrest := ih [] (limit - n)
      simp only [not_failsWithin_nil, or_false] at hrest ⊢
      rw [takes, List.sum_cons]
      omega
    · rw [takes, List.sum_cons, failsWithin_none_cons]
      by_cases hle : n ≤ limit
      · have htakes : n + takes script sizes ≤ limit ↔ takes script sizes ≤ limit - n := by omega
        have hsum : n + sizes.sum ≤ limit ↔ sizes.sum ≤ limit - n := by omega
        rw [htakes, hsum, ih, and_iff_right hle]
      · refine iff_of_false (by omega) ?_
        rintro (hsum | ⟨hle', -⟩) <;> omega
    · rw [takes]
      constructor
      · intro hle
        exact .inr ⟨0, k, n, rfl, fun r hr => by simp at hr, rfl, by simpa using hle⟩
      · rintro (hsum | ⟨_ | j, k', m, hk, hnone, hm, hle⟩)
        · rw [List.sum_cons] at hsum
          omega
        · cases hk
          cases hm
          simpa using hle
        · exact absurd (hnone (some k) List.mem_cons_self) nofun

/-- A packet on its way through a connection that may fail. -/
theorem takes_send (sc : ShapedConn) (data : Bytes) (sizes : List ℕ) :
    takes sc.conn.script (data.length :: sizes) =
      if (sc.send data).2.1 then (sc.send data).1 + takes (sc.send data).2.2.conn.script sizes
      else (sc.send data).1 := by
  obtain ⟨⟨written, script⟩, packets, slept⟩ := sc
  rcases script with _ | ⟨_ | k, script⟩ <;> simp [ShapedConn.send, Sink.write, takes]

/-- A call has sent what is at the front of `data`, which is what the connection takes of packets
of these sizes, and returned its length, on top of `total`; without an error it has sent all. -/
def Counted (sc : ShapedConn) (data : Bytes) (sizes : List ℕ) (total : ℕ)
    (r : WriteResult × ShapedConn) : Prop :=
  ∃ sent ok, sent <+: data ∧ sent.length = takes sc.conn.script sizes ∧
    r.1 = .returned (total + sent.length) ok ∧ (ok = true → sent = data)

theorem send_sent (sc : ShapedConn) (data : Bytes) :
    ∃ sent, sent <+: data ∧ (sc.send data).2.2.conn.written = sc.conn.written ++ sent ∧
      (sc.send data).1 = sent.length ∧ ((sc.send data).2.1 = true → sent = data) := by
  obtain ⟨sent, hsent, hwritten, hall⟩ := sc.conn.write_sent data
  refine ⟨sent, hsent, hwritten, ?_, hall⟩
  show (sc.conn.write data).2.written.length - sc.conn.written.length = sent.length
  rw [hwritten, List.length_append, Nat.add_sub_cancel_left]

/-- The loop comes to an end, and counts what it sends of the padded buffer. -/
theorem chunkLoop_counted (hmin : 0 < profile.minPacketSize) (w : WriteCall) {fuel : ℕ} (i : ℕ)
    (total : ℕ) (sc : ShapedConn) (hfuel : data.length < fuel) :
    Counted sc data (packetSizes profile w fuel i data.length) total
      (chunkLoop profile w fuel i data total sc) := by
  induction fuel generalizing i data total sc with
  | zero => exact absurd hfuel (Nat.not_lt_zero _)
  | succ fuel ih =>
    by_cases hdata : data = []
    · rw [chunkLoop, if_pos hdata]
      refine ⟨[], true, List.nil_prefix, ?_, rfl, fun _ => hdata.symm⟩
      rw [packetSizes, if_pos (List.length_eq_zero_iff.2 hdata)]
      rfl
    obtain ⟨k, sc', hk, hk_pos, hk_le, hconn, hround⟩ :=
      chunkLoop_succ hmin w fuel i hdata total sc
    obtain ⟨packet, hpacket, -, htaken, hall⟩ := send_sent sc (data.take k)
    have hsizes : packetSizes profile w (fuel + 1) i data.length =
        (data.take k).length :: packetSizes profile w fuel (i + 1) (data.drop k).length := by
      rw [packetSizes, if_neg (List.length_pos_iff.2 hdata).ne', ← hk,
        List.length_take_of_le hk_le, List.length_drop]
    rw [hround, hsizes, Counted, takes_send]
    split_ifs with hok
    · obtain rfl := hall hok
      have hless : (data.drop k).length < fuel := by
        rw [List.length_drop]
        omega
      obtain ⟨sent, ok, hsent, hsentTaken, hresult, hsentAll⟩ :=
        ih (i + 1) (total + (sc.send (data.take k)).1) sc' hless
      refine ⟨data.take k ++ sent, ok, ?_, ?_, ?_, fun h => ?_⟩
      · have hfront := (List.prefix_append_right_inj (data.take k)).2 hsent
        rwa [List.take_append_drop] at hfront
      · rw [List.length_append, htaken, hsentTaken, hconn]
      · rw [hresult, htaken, List.length_append, Nat.add_assoc]
      · rw [hsentAll h, List.take_append_drop]
    · exact ⟨packet, false, hpacket.trans (List.take_prefix k data), htaken.symm,
        by rw [htaken], fun h => absurd h Bool.false_ne_true⟩

/-- The contract of `io.Writer` for the count that a call returns. -/
def CountOk (p : Bytes) : WriteResult → Prop
  | .returned n ok => n ≤ p.length ∧ (ok = true → n = p.length)
  | .panic | .running => False

/-- A padded buffer that fits in one packet: the count is cut to the length of the buffer. -/
theorem countOk_of_one_packet (sc : ShapedConn) (w : WriteCall)
    (hfits : ¬ ((padData profile w.padding w.p).length : Int) > profile.maxPacketSize) :
    CountOk w.p (write profile sc w).1 := by
  obtain ⟨sent, -, -, htaken, hall⟩ :=
    send_sent (beforePacket profile (w.delays 0) sc) (padData profile w.padding w.p)
  have hle := length_le_padData profile w
  rw [write]
  dsimp only
  rw [if_neg hfits]
  dsimp only
  rw [htaken]
  split_ifs with hmore
  · exact ⟨le_rfl, fun _ => rfl⟩
  · refine ⟨(Nat.not_le.1 hmore).le, fun hok => ?_⟩
    rw [hall hok] at hmore
    exact absurd hle hmore

/-- The packets make up the buffer. -/
theorem sum_packetSizes (hmin : 0 < profile.minPacketSize) (w : WriteCall) {fuel left : ℕ} (i : ℕ)
    (hfuel : left < fuel) :
    (packetSizes profile w fuel i left).sum = left := by
  induction fuel generalizing i left with
  | zero => exact absurd hfuel (Nat.not_lt_zero _)
  | succ fuel ih =>
    rw [packetSizes]
    split_ifs with hleft
    · exact hleft.symm
    · have hpos : 0 < randomInt (w.sizes i) profile.minPacketSize profile.maxPacketSize :=
        randomInt_pos hmin
      have hsize : 0 < packetSize profile w i left ∧ packetSize profile w i left ≤ left := by
        rw [packetSize]
        omega
      rw [List.sum_cons, ih (i + 1) (by omega)]
      omega

/-- The sizes of the packets of a call, if no packet fails. -/
def WriteCall.packets (profile : ShapingProfile) (w : WriteCall) : List ℕ :=
  let len := (padData profile w.padding w.p).length
  packetSizes profile w (len + 1) 0 len

/-- **When the count keeps the contract.**  Where packets have at least one byte, a call returns;
its count is at most the length of the buffer, and equal to it without an error, exactly if the
buffer is not padded, or the padded buffer fits in one packet, or the connection fails before the
packets, with what it takes of the last one, are longer than the buffer. -/
theorem shaped_count_iff {profile : ShapingProfile} (hmin : 0 < profile.minPacketSize)
    (sc : ShapedConn) (w : WriteCall) :
    CountOk w.p (write profile sc w).1 ↔
      profile.Aligned w ∨
        ((padData profile w.padding w.p).length : Int) ≤ profile.maxPacketSize ∨
        FailsWithin sc.conn.script (w.packets profile) w.p.length := by
  by_cases hlong : ((padData profile w.padding w.p).length : Int) > profile.maxPacketSize
  · have hwrite : write profile sc w = chunkLoop profile w
        ((padData profile w.padding w.p).length + 1) 0 (padData profile w.padding w.p) 0 sc :=
      if_pos hlong
    obtain ⟨sent, ok, hsent, htaken, hresult, hall⟩ :=
      chunkLoop_counted hmin w 0 0 sc (Nat.lt_succ_self (padData profile w.padding w.p).length)
    rw [← hwrite] at hresult
    rw [hresult, Nat.zero_add]
    by_cases haligned : profile.Aligned w
    · rw [padData_of_aligned haligned] at hsent hall
      refine iff_of_true ⟨hsent.length_le, fun hok => ?_⟩ (.inl haligned)
      rw [hall hok]
    · have hpadded := length_lt_padData haligned
      have hsum : (w.packets profile).sum = (padData profile w.padding w.p).length :=
        sum_packetSizes hmin w 0 (Nat.lt_succ_self _)
      have hcount : CountOk w.p (.returned sent.length ok) ↔ sent.length ≤ w.p.length := by
        refine ⟨fun h => h.1, fun h => ⟨h, fun hok => ?_⟩⟩
        rw [hall hok] at h
        exact absurd hpadded (Nat.not_lt.2 h)
      have htakes : takes sc.conn.script (w.packets profile) ≤ w.p.length ↔
          FailsWithin sc.conn.script (w.packets profile) w.p.length := by
        rw [takes_le_iff, hsum]
        exact or_iff_right (Nat.not_le.2 hpadded)
      rw [hcount, htaken, ← or_assoc]
      refine htakes.trans (or_iff_right ?_).symm
      exact not_or.2 ⟨haligned, Int.not_le.2 hlong⟩
  · exact iff_of_true (countOk_of_one_packet sc w hlong) (.inr (.inl (Int.not_lt.1 hlong)))

/-- Blocks and packets of at most four bytes. -/
def smallProfile : ShapingProfile := ⟨1, 4, 0, 0, 0, 0, 4⟩

/-- Five bytes in packets of two, of which the second fails after one byte. -/
theorem shaped_count_small :
    CountOk [1, 2, 3, 4, 5]
      (write smallProfile (.wrapConn ⟨[], [none, some 1]⟩) (plainCall [1, 2, 3, 4, 5])).1 :=
  (shaped_count_iff (by decide) (.wrapConn ⟨[], [none, some 1]⟩) (plainCall [1, 2, 3, 4, 5])).2
    (.inr (.inr ⟨1, 1, 2, rfl, by decide, rfl, by decide⟩))

/-- A buffer of one byte more than a packet holds. -/
def longCall : WriteCall := plainCall (List.replicate 1461 1)

/-- **A buffer of 1461 bytes is reported as 1472**: it is padded to 23 blocks of 64, which is
more than one packet holds. -/
theorem padding_is_counted :
    longCall.p.length = 1461 ∧
      (write defaultBrowsingProfile (.wrapConn ⟨[], []⟩) longCall).1 = .returned 1472 true := by
  have hp : longCall.p.length = 1461 := List.length_replicate
  have hreliable : (ShapedConn.wrapConn ⟨[], []⟩).conn.Reliable := rfl
  have hdata : (padData defaultBrowsingProfile longCall.padding longCall.p).length = 1472 := by
    rw [padData, hp, if_neg (by decide)]
    dsimp only
    rw [if_neg (by decide), List.length_append, hp, List.length_map, List.length_range]
    rfl
  refine ⟨hp, ?_⟩
  rw [write]
  dsimp only
  rw [if_pos (by rw [hdata]; decide),
    (chunkLoop_written (by decide) longCall 0 0 (Nat.lt_succ_self _) hreliable).1, hdata]

end Shaper
