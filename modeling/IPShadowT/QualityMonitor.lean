/-
# The quality of sessions

Model of `QualityMonitor` in `internal/stability/quality.go`: the metrics of each session, what
`RecordRTT` and its companions write into them, and the round of `evaluateAll` that scores every
session, sets and clears its flag and starts the callback.  The clock is an input.  An operation on
`float64` is the exact one followed by a rounding `fl`, and a conversion to `int64` is a function
`trunc`; both may be any function.

A high latency takes 30 points and sets the flag, and 70 points clear it in the same round, so a
session whose only fault is its latency is reported in every round.  `edgeTriggered_iff` says which
runs mark such sessions and report them once.  The score is kept between 10 and 100
(`score_bounds`), which makes `GetBestSession` find a best session (`getBestSession_best`).
-/
import Mathlib.Data.Rat.Defs
import Mathlib.Algebra.Order.Ring.Rat
import IPShadowT.Bytes
import IPShadowT.KeepBest
import IPShadowT.Runs

open Go (int64)
open KeepBest Runs

namespace Quality

/-! ## Metrics -/

/-- A `float64` of the configuration, which need not be a number. -/
inductive Float64 where
  | finite (q : ℚ)
  | inf (negative : Bool)
  | nan

/-- `x < q`, for a number `q`. -/
def Float64.lt : Float64 → ℚ → Bool
  | .finite x, q => decide (x < q)
  | .inf negative, _ => negative
  | .nan, _ => false

/-- `QualityConfig`, without what no function here reads; times are in nanoseconds. -/
structure QualityConfig where
  maxLatency : ℤ
  maxJitter : ℤ
  maxPacketLoss : Float64
  /-- whether there is a `DegradeCallback` -/
  onDegrade : Bool

/-- `DefaultQualityConfig`. -/
def defaultQualityConfig : QualityConfig where
  maxLatency := 500000000
  maxJitter := 200000000
  maxPacketLoss := .finite (1 / 10)
  onDegrade := false

/-- `QualityMetrics`. -/
structure QualityMetrics where
  lastRTT : ℤ
  avgRTT : ℤ
  minRTT : ℤ
  maxRTT : ℤ
  jitter : ℤ
  bytesSent : ℤ
  bytesRecv : ℤ
  lastCheck : ℤ
  lastSent : ℤ
  lastRecv : ℤ
  sendRate : ℤ
  recvRate : ℤ
  pingsSent : ℤ
  pongsRecv : ℤ
  score : ℤ
  degraded : Bool
  deriving DecidableEq, Repr

/-- The metrics that `Register` makes. -/
def registered (now : ℤ) : QualityMetrics where
  lastRTT := 0
  avgRTT := 0
  minRTT := 3600000000000
  maxRTT := 0
  jitter := 0
  bytesSent := 0
  bytesRecv := 0
  lastCheck := now
  lastSent := 0
  lastRecv := 0
  sendRate := 0
  recvRate := 0
  pingsSent := 0
  pongsRecv := 0
  score := 100
  degraded := false

section Round

variable (fl : ℚ → ℚ) (trunc : ℚ → ℤ) (cfg : QualityConfig)

/-- `RecordRTT`. -/
def QualityMetrics.recordRTT (m : QualityMetrics) (rtt : ℤ) : QualityMetrics :=
  let m := { m with
    lastRTT := rtt
    minRTT := if rtt < m.minRTT then rtt else m.minRTT
    maxRTT := if m.maxRTT < rtt then rtt else m.maxRTT }
  if m.avgRTT = 0 then { m with avgRTT := rtt }
  else
    let newAvg := trunc (fl (fl (fl m.avgRTT * fl (7 / 10)) + fl (fl rtt * fl (3 / 10))))
    let jitter := int64 (rtt - newAvg)
    { m with avgRTT := newAvg, jitter := if jitter < 0 then int64 (-jitter) else jitter }

/-- `RecordBytes`. -/
def QualityMetrics.recordBytes (m : QualityMetrics) (sent recv : ℤ) : QualityMetrics :=
  { m with bytesSent := int64 (m.bytesSent + sent), bytesRecv := int64 (m.bytesRecv + recv) }

/-- `RecordPing`. -/
def QualityMetrics.recordPing (m : QualityMetrics) : QualityMetrics :=
  { m with pingsSent := int64 (m.pingsSent + 1) }

/-- `RecordPong`. -/
def QualityMetrics.recordPong (m : QualityMetrics) : QualityMetrics :=
  { m with pongsRecv := int64 (m.pongsRecv + 1) }

/-! ## A round -/

def QualityMetrics.highLatency (m : QualityMetrics) : Bool := decide (cfg.maxLatency < m.avgRTT)

def QualityMetrics.highJitter (m : QualityMetrics) : Bool := decide (cfg.maxJitter < m.jitter)

def QualityMetrics.packetLoss (m : QualityMetrics) : Bool :=
  decide (5 < m.pingsSent) &&
    cfg.maxPacketLoss.lt (fl (1 - fl (fl m.pongsRecv / fl m.pingsSent)))

/-- A check that fails sets the flag; if it was not set, the callback is started. -/
def QualityMetrics.degrade (m : QualityMetrics) (reason : String) : QualityMetrics × List String :=
  if m.degraded then (m, [])
  else ({ m with degraded := true }, if cfg.onDegrade then [reason] else [])

/-- The throughput check, which only measures. -/
def QualityMetrics.measureRates (m : QualityMetrics) (now : ℤ) : QualityMetrics :=
  let elapsed := fl (fl (int64 (now - m.lastCheck)) / 1000000000)
  if 0 < elapsed then
    { m with
      sendRate := trunc (fl (fl (int64 (m.bytesSent - m.lastSent)) / elapsed))
      recvRate := trunc (fl (fl (int64 (m.bytesRecv - m.lastRecv)) / elapsed))
      lastSent := m.bytesSent
      lastRecv := m.bytesRecv
      lastCheck := now }
  else m

/-- The score before it is clamped. -/
def QualityMetrics.points (m : QualityMetrics) : ℤ :=
  100 - (if m.highLatency cfg then 30 else 0) - (if m.highJitter cfg then 20 else 0) -
    (if m.packetLoss fl cfg then 40 else 0)

/-- What `evaluateAll` does with a session, and the reasons for which it starts the callback. -/
def QualityMetrics.evaluate (m : QualityMetrics) (now : ℤ) : QualityMetrics × List String :=
  let latency := if m.highLatency cfg then m.degrade cfg "high_latency" else (m, [])
  let measured := latency.1.measureRates fl trunc now
  let loss := if m.packetLoss fl cfg then measured.degrade cfg "packet_loss" else (measured, [])
  let score := m.points fl cfg
  let score := if score < 0 then 0 else score
  let m := { loss.1 with score := score }
  (if 70 ≤ score ∧ m.degraded = true then { m with degraded := false } else m, latency.2 ++ loss.2)

end Round

section Evaluate

variable {fl : ℚ → ℚ} {trunc : ℚ → ℤ} {cfg : QualityConfig} (m : QualityMetrics) (now : ℤ)

/-- The score is never clamped. -/
theorem points_bounds : 10 ≤ m.points fl cfg ∧ m.points fl cfg ≤ 100 := by
  unfold QualityMetrics.points
  split_ifs <;> omega

/-- Next to a high latency, either of the other faults takes the score below 70. -/
theorem points_lt_iff (hhigh : m.highLatency cfg = true) :
    m.points fl cfg < 70 ↔ m.highJitter cfg = true ∨ m.packetLoss fl cfg = true := by
  unfold QualityMetrics.points
  rw [if_pos hhigh]
  cases m.highJitter cfg <;> cases m.packetLoss fl cfg <;> decide

/-- The reasons for which a session that is not marked is reported. -/
def QualityMetrics.reasons (fl : ℚ → ℚ) (cfg : QualityConfig) (m : QualityMetrics) : List String :=
  if m.highLatency cfg then ["high_latency"]
  else if m.packetLoss fl cfg then ["packet_loss"]
  else []

theorem measureRates_degraded (b : Bool) :
    { m with degraded := b }.measureRates fl trunc now =
      { m.measureRates fl trunc now with degraded := b } := by
  unfold QualityMetrics.measureRates
  dsimp only
  split_ifs <;> rfl

/-- The flag is not measured. -/
@[simp] theorem degraded_measureRates : (m.measureRates fl trunc now).degraded = m.degraded := by
  unfold QualityMetrics.measureRates
  dsimp only
  split_ifs <;> rfl

theorem degrade_eq (reason : String) :
    m.degrade cfg reason =
      ({ m with degraded := true },
        if m.degraded = false ∧ cfg.onDegrade = true then [reason] else []) := by
  unfold QualityMetrics.degrade
  by_cases h : m.degraded = true
  · have hsame : { m with degraded := true } = m := by rw [← h]
    simp [h, hsame]
  · simp [h]

/-- **A round for a session**: the flag is that a check fails or has failed, unless there are 70
points, and the callback is started once at most. -/
theorem evaluate_eq :
    m.evaluate fl trunc cfg now =
      ({ m.measureRates fl trunc now with
          score := m.points fl cfg
          degraded := decide (m.points fl cfg < 70) &&
            (m.degraded || m.highLatency cfg || m.packetLoss fl cfg) },
        if m.degraded = false ∧ cfg.onDegrade = true then m.reasons fl cfg else []) := by
  have hpos : ¬ m.points fl cfg < 0 := by
    have hbounds : 10 ≤ m.points fl cfg := (points_bounds m).1
    omega
  unfold QualityMetrics.evaluate QualityMetrics.reasons
  dsimp only
  rw [if_neg hpos]
  -- before the recovery the flag is that a check fails or has failed
  rcases Int.lt_or_le (m.points fl cfg) 70 with hbad | hgood
  · have hnot : ¬ 70 ≤ m.points fl cfg := Int.not_le.2 hbad
    cases m.highLatency cfg <;> cases m.packetLoss fl cfg <;>
      simp [degrade_eq, measureRates_degraded, hbad, hnot]
  · have hnot : ¬ m.points fl cfg < 70 := Int.not_lt.2 hgood
    cases hd : m.degraded <;> cases m.highLatency cfg <;> cases m.packetLoss fl cfg <;>
      simp [degrade_eq, measureRates_degraded, hgood, hnot, hd]

variable (fl trunc cfg) in
/-- A round changes nothing that has been recorded. -/
theorem evaluate_readings :
    (m.evaluate fl trunc cfg now).1.avgRTT = m.avgRTT ∧
      (m.evaluate fl trunc cfg now).1.jitter = m.jitter ∧
      (m.evaluate fl trunc cfg now).1.pingsSent = m.pingsSent ∧
      (m.evaluate fl trunc cfg now).1.pongsRecv = m.pongsRecv := by
  rw [evaluate_eq]
  unfold QualityMetrics.measureRates
  dsimp only
  split_ifs <;> exact ⟨rfl, rfl, rfl, rfl⟩

theorem evaluate_degraded_iff (hhigh : m.highLatency cfg = true) :
    (m.evaluate fl trunc cfg now).1.degraded = true ↔
      m.highJitter cfg = true ∨ m.packetLoss fl cfg = true := by
  rw [evaluate_eq, ← points_lt_iff m hhigh]
  simp [hhigh]

variable (fl trunc cfg) in
theorem evaluate_started_le : (m.evaluate fl trunc cfg now).2.length ≤ 1 := by
  rw [evaluate_eq]
  unfold QualityMetrics.reasons
  split_ifs <;> simp

/-- A session that is marked is not reported. -/
theorem evaluate_started_of_degraded (h : m.degraded = true) :
    (m.evaluate fl trunc cfg now).2 = [] := by
  rw [evaluate_eq]
  simp [h]

end Evaluate

/-! ## Runs -/

/-- The sessions, and for each the callbacks that the rounds have started in which its latency was
high, since the last round in which it was not. -/
structure Trace where
  sessions : ℤ → Option QualityMetrics
  alarms : ℤ → ℕ

/-- `NewQualityMonitor`. -/
def newQualityMonitor : Trace := ⟨fun _ => none, fun _ => 0⟩

/-- Another session has the id. -/
def Trace.replace (t : Trace) (id : ℤ) (m : Option QualityMetrics) : Trace :=
  ⟨Function.update t.sessions id m, Function.update t.alarms id 0⟩

/-- The metrics of a session are written to. -/
def Trace.modify (t : Trace) (id : ℤ) (f : QualityMetrics → QualityMetrics) : Trace :=
  { t with sessions := Function.update t.sessions id ((t.sessions id).map f) }

/-- The calls.  The fields of the metrics that `Register` returns are exported: `store` is for all
that can be written to them, apart from the flag and the score. -/
inductive Event where
  | register (id now : ℤ)
  | unregister (id : ℤ)
  | recordRTT (id rtt : ℤ)
  | recordBytes (id sent recv : ℤ)
  | recordPing (id : ℤ)
  | recordPong (id : ℤ)
  | store (id : ℤ) (values : QualityMetrics)
  | evaluateAll (now : ℤ)

section Runs

variable (fl : ℚ → ℚ) (trunc : ℚ → ℤ) (cfg : QualityConfig)

/-- `evaluateAll`; the sessions do not depend on each other. -/
def Trace.evaluateAll (t : Trace) (now : ℤ) : Trace where
  sessions id := (t.sessions id).map fun m => (m.evaluate fl trunc cfg now).1
  alarms id := (t.sessions id).elim 0 fun m =>
    if m.highLatency cfg then t.alarms id + (m.evaluate fl trunc cfg now).2.length else 0

def Trace.step (t : Trace) : Event → Trace
  | .register id now => t.replace id (some (registered now))
  | .unregister id => t.replace id none
  | .recordRTT id rtt => t.modify id (·.recordRTT fl trunc rtt)
  | .recordBytes id sent recv => t.modify id (·.recordBytes sent recv)
  | .recordPing id => t.modify id (·.recordPing)
  | .recordPong id => t.modify id (·.recordPong)
  | .store id values =>
    t.modify id fun m => { values with score := m.score, degraded := m.degraded }
  | .evaluateAll now => t.evaluateAll fl trunc cfg now

/-- A write that leaves the flag and the score alone. -/
def KeepsFlag (f : QualityMetrics → QualityMetrics) : Prop :=
  ∀ m, (f m).degraded = m.degraded ∧ (f m).score = m.score

theorem recordRTT_keepsFlag (rtt : ℤ) : KeepsFlag (·.recordRTT fl trunc rtt) := by
  intro m
  unfold QualityMetrics.recordRTT
  dsimp only
  split_ifs <;> exact ⟨rfl, rfl⟩

/-- Everything but a round puts a new session in the place of another, or writes to one. -/
theorem step_cases (t : Trace) (e : Event) :
    (∃ now, e = .evaluateAll now) ∨
      (∃ id now, t.step fl trunc cfg e = t.replace id (some (registered now))) ∨
      (∃ id, t.step fl trunc cfg e = t.replace id none) ∨
      ∃ id f, t.step fl trunc cfg e = t.modify id f ∧ KeepsFlag f := by
  cases e with
  | register id now => exact .inr (.inl ⟨id, now, rfl⟩)
  | unregister id => exact .inr (.inr (.inl ⟨id, rfl⟩))
  | recordRTT id rtt => exact .inr (.inr (.inr ⟨id, _, rfl, recordRTT_keepsFlag fl trunc rtt⟩))
  | recordBytes id sent recv => exact .inr (.inr (.inr ⟨id, _, rfl, fun m => ⟨rfl, rfl⟩⟩))
  | recordPing id => exact .inr (.inr (.inr ⟨id, _, rfl, fun m => ⟨rfl, rfl⟩⟩))
  | recordPong id => exact .inr (.inr (.inr ⟨id, _, rfl, fun m => ⟨rfl, rfl⟩⟩))
  | store id values => exact .inr (.inr (.inr ⟨id, _, rfl, fun m => ⟨rfl, rfl⟩⟩))
  | evaluateAll now => exact .inl ⟨now, rfl⟩

variable {fl trunc cfg}

/-- **The step rule.**  What holds of a new session and of no session, is kept by all writes and
holds after a round, holds after every step. -/
theorem step_forall {R : Option QualityMetrics → ℕ → Prop} (hnone : R none 0)
    (hnew : ∀ now, R (some (registered now)) 0)
    (hkeep : ∀ f m n, KeepsFlag f → R (some m) n → R (some (f m)) n) {t : Trace} {e : Event}
    (hround : ∀ now, e = .evaluateAll now → ∀ id,
      R ((t.evaluateAll fl trunc cfg now).sessions id) ((t.evaluateAll fl trunc cfg now).alarms id))
    (h : ∀ id, R (t.sessions id) (t.alarms id)) (id : ℤ) :
    R ((t.step fl trunc cfg e).sessions id) ((t.step fl trunc cfg e).alarms id) := by
  have hreplace : ∀ id' m, R m 0 →
      R ((t.replace id' m).sessions id) ((t.replace id' m).alarms id) := by
    intro id' m hm
    unfold Trace.replace
    by_cases hid : id = id'
    · subst hid
      simpa using hm
    · simpa [Function.update_of_ne hid] using h id
  rcases step_cases fl trunc cfg t e with
    ⟨now, rfl⟩ | ⟨id', now, hstep⟩ | ⟨id', hstep⟩ | ⟨id', f, hstep, hf⟩
  · exact hround now rfl id
  · rw [hstep]
    exact hreplace id' _ (hnew now)
  · rw [hstep]
    exact hreplace id' _ hnone
  · rw [hstep]
    unfold Trace.modify
    by_cases hid : id = id'
    · subst hid
      have hnow := h id
      cases hm : t.sessions id with
      | none => simpa [hm] using hnow
      | some m =>
        rw [hm] at hnow
        simpa [hm] using hkeep f m _ hf hnow
    · simpa [Function.update_of_ne hid] using h id

/-! ### Edges -/

/-- A session that has been reported in the current run of rounds is marked, and has been reported
once. -/
def ReportedOnce (m : Option QualityMetrics) (alarms : ℕ) : Prop :=
  alarms = 0 ∨ (alarms = 1 ∧ ∃ x, m = some x ∧ x.degraded = true)

theorem ReportedOnce.le {m : Option QualityMetrics} {alarms : ℕ} (h : ReportedOnce m alarms) :
    alarms ≤ 1 := by
  rcases h with h | ⟨h, -⟩
  · omega
  · omega

/-- A high latency is not the only fault of any session when a round begins. -/
def OtherFault (fl : ℚ → ℚ) (cfg : QualityConfig) (t : Trace) (e : Event) : Prop :=
  ∀ now, e = .evaluateAll now → ∀ id m, t.sessions id = some m → cfg.maxLatency < m.avgRTT →
    cfg.maxJitter < m.jitter ∨ m.packetLoss fl cfg = true

/-- After a round, every session with a high latency is marked; and no session has been reported
twice in the rounds since its latency has been high. -/
def EdgeTriggered (fl : ℚ → ℚ) (trunc : ℚ → ℤ) (cfg : QualityConfig) (t : Trace) (e : Event) :
    Prop :=
  (∀ now, e = .evaluateAll now → ∀ id m, (t.step fl trunc cfg e).sessions id = some m →
      cfg.maxLatency < m.avgRTT → m.degraded = true) ∧
    ∀ id, (t.step fl trunc cfg e).alarms id ≤ 1

variable (fl trunc) in
/-- A round marks a session with a high latency exactly if it has another fault. -/
theorem evaluate_marks_iff {m : QualityMetrics} (hhigh : cfg.maxLatency < m.avgRTT) (now : ℤ) :
    (m.evaluate fl trunc cfg now).1.degraded = true ↔
      cfg.maxJitter < m.jitter ∨ m.packetLoss fl cfg = true := by
  rw [evaluate_degraded_iff m now (decide_eq_true hhigh)]
  exact or_congr decide_eq_true_iff Iff.rfl

theorem reportedOnce_evaluateAll {t : Trace} {now : ℤ}
    (hok : OtherFault fl cfg t (.evaluateAll now))
    (h : ∀ id, ReportedOnce (t.sessions id) (t.alarms id)) (id : ℤ) :
    ReportedOnce ((t.evaluateAll fl trunc cfg now).sessions id)
      ((t.evaluateAll fl trunc cfg now).alarms id) := by
  have hnow := h id
  unfold Trace.evaluateAll
  dsimp only
  cases hm : t.sessions id with
  | none => exact .inl rfl
  | some m =>
    rw [hm] at hnow
    show ReportedOnce (some (m.evaluate fl trunc cfg now).1)
      (if m.highLatency cfg then t.alarms id + (m.evaluate fl trunc cfg now).2.length else 0)
    by_cases hhigh : m.highLatency cfg = true
    · have hlatency : cfg.maxLatency < m.avgRTT := of_decide_eq_true hhigh
      have hmarked := (evaluate_marks_iff fl trunc hlatency now).2 (hok now rfl id m hm hlatency)
      rw [if_pos hhigh]
      rcases hnow with hzero | ⟨hone, x, hx, hdegraded⟩
      · have hle := evaluate_started_le fl trunc cfg m now
        rcases Nat.le_one_iff_eq_zero_or_eq_one.1 hle with hlen | hlen
        · exact .inl (by omega)
        · exact .inr ⟨by omega, _, rfl, hmarked⟩
      · obtain rfl : m = x := Option.some.inj hx
        rw [evaluate_started_of_degraded m now hdegraded]
        exact .inr ⟨hone, _, rfl, hmarked⟩
    · rw [if_neg hhigh]
      exact .inl rfl

theorem reportedOnce_step (t : Trace) (e : Event)
    (h : ∀ id, ReportedOnce (t.sessions id) (t.alarms id)) (hok : OtherFault fl cfg t e) (id : ℤ) :
    ReportedOnce ((t.step fl trunc cfg e).sessions id) ((t.step fl trunc cfg e).alarms id) := by
  refine step_forall (.inl rfl) (fun now => .inl rfl) ?_ ?_ h id
  · rintro f m n hf (hzero | ⟨hone, x, hx, hdegraded⟩)
    · exact .inl hzero
    · obtain rfl : m = x := Option.some.inj hx
      exact .inr ⟨hone, f m, rfl, (hf m).1.trans hdegraded⟩
  · rintro now rfl
    exact reportedOnce_evaluateAll hok h

theorem edgeTriggered_step_iff (t : Trace) (e : Event)
    (h : ∀ id, ReportedOnce (t.sessions id) (t.alarms id)) :
    EdgeTriggered fl trunc cfg t e ↔ OtherFault fl cfg t e := by
  constructor
  · rintro ⟨hmarked, -⟩ now rfl id m hm hhigh
    have hafter : (t.step fl trunc cfg (.evaluateAll now)).sessions id =
        some (m.evaluate fl trunc cfg now).1 := congrArg (Option.map _) hm
    rw [← evaluate_marks_iff fl trunc hhigh now]
    apply hmarked now rfl id _ hafter
    rwa [(evaluate_readings fl trunc cfg m now).1]
  · intro hok
    refine ⟨?_, fun id => (reportedOnce_step t e h hok id).le⟩
    rintro now rfl id m' hm' hhigh
    obtain ⟨m, hm, rfl⟩ := Option.map_eq_some_iff.1 hm'
    rw [(evaluate_readings fl trunc cfg m now).1] at hhigh
    exact (evaluate_marks_iff fl trunc hhigh now).2 (hok now rfl id m hm hhigh)

/-- **Marking and reporting at the edge.**  Along a run, every round marks the sessions with a high
latency, and each of them is reported at most once while it lasts, exactly if in every round each of
them also has a high jitter or a high packet loss. -/
theorem edgeTriggered_iff (fl : ℚ → ℚ) (trunc : ℚ → ℤ) (cfg : QualityConfig) (es : List Event) :
    EachStep (Trace.step fl trunc cfg) (EdgeTriggered fl trunc cfg) newQualityMonitor es ↔
      EachStep (Trace.step fl trunc cfg) (OtherFault fl cfg) newQualityMonitor es :=
  eachStep_iff_of_invariant reportedOnce_step edgeTriggered_step_iff (fun _ => .inl rfl) es

/-- The client's thresholds; a session is registered, a round trip of 600 milliseconds is recorded,
and two rounds follow.  The session is not marked, and has been reported twice. -/
theorem reported_twice :
    let cfg := { defaultQualityConfig with onDegrade := true }
    let es := [Event.register 1 0, .recordRTT 1 600000000, .evaluateAll 5000000000,
      .evaluateAll 10000000000]
    let t := run (Trace.step id Rat.floor cfg) newQualityMonitor es
    (t.sessions 1).map (fun m => (m.avgRTT, m.degraded)) = some (600000000, false) ∧
      t.alarms 1 = 2 ∧
      ¬ EachStep (Trace.step id Rat.floor cfg) (EdgeTriggered id Rat.floor cfg) newQualityMonitor
        es := by
  refine ⟨by decide +kernel, by decide +kernel, ?_⟩
  rintro ⟨-, -, -, ⟨-, hle⟩, -⟩
  exact absurd (hle 1) (by decide +kernel)

/-! ## Scores -/

/-- The score of the session, if there is one, is between 10 and 100. -/
def InBounds (m : Option QualityMetrics) : Prop := ∀ x, m = some x → 10 ≤ x.score ∧ x.score ≤ 100

theorem inBounds_step (t : Trace) (e : Event) (h : ∀ id, InBounds (t.sessions id)) (id : ℤ) :
    InBounds ((t.step fl trunc cfg e).sessions id) := by
  refine step_forall (R := fun m _ => InBounds m) ?_ ?_ ?_ ?_ h id
  · intro x hx
    cases hx
  · intro now x hx
    cases hx
    show (10 : ℤ) ≤ 100 ∧ (100 : ℤ) ≤ 100
    decide
  · intro f m n hf hm x hx
    cases hx
    rw [(hf m).2]
    exact hm m rfl
  · rintro now rfl id x hx
    obtain ⟨m, -, rfl⟩ := Option.map_eq_some_iff.1 hx
    rw [evaluate_eq]
    exact points_bounds m

/-- **The scores** are kept between 10 and 100, whatever is recorded. -/
theorem score_bounds (es : List Event) {id : ℤ} {m : QualityMetrics}
    (hm : (run (Trace.step fl trunc cfg) newQualityMonitor es).sessions id = some m) :
    10 ≤ m.score ∧ m.score ≤ 100 := by
  have hstart : ∀ id, InBounds (newQualityMonitor.sessions id) := fun id x hx => by cases hx
  exact run_invariant (I := fun t : Trace => ∀ id, InBounds (t.sessions id)) inBounds_step hstart es
    id m hm

/-- `GetBestSession`, where the sessions are visited in the order of the list. -/
def getBestSession (visits : List (ℤ × QualityMetrics)) : ℤ :=
  (visits.foldl (fun best v => if best.2 < v.2.score then (v.1, v.2.score) else best) (-1, -1)).1

theorem getBestSession_eq (visits : List (ℤ × QualityMetrics)) :
    getBestSession visits =
      ((visits.foldl (keepFirst fun v => v.2.score) (-1, none)).2.map Prod.fst).getD (-1) := by
  have hfold : ∀ (acc : ℤ × Option (ℤ × QualityMetrics)),
      visits.foldl (fun best v => if best.2 < v.2.score then (v.1, v.2.score) else best)
          ((acc.2.map Prod.fst).getD (-1), acc.1) =
        (((visits.foldl (keepFirst fun v => v.2.score) acc).2.map Prod.fst).getD (-1),
          (visits.foldl (keepFirst fun v => v.2.score) acc).1) := by
    induction visits with
    | nil => exact fun acc => rfl
    | cons v visits ih =>
      intro acc
      rw [List.foldl_cons, List.foldl_cons, ← ih]
      unfold keepFirst
      split_ifs <;> rfl
  exact congrArg Prod.fst (hfold (-1, none))

/-- **The best session.**  After any run with a session, and in whatever order the sessions are
visited, the id is that of one whose score no other exceeds. -/
theorem getBestSession_best (es : List Event) {visits : List (ℤ × QualityMetrics)}
    (hvisits : ∀ id m, (id, m) ∈ visits ↔
      (run (Trace.step fl trunc cfg) newQualityMonitor es).sessions id = some m)
    (hne : visits ≠ []) :
    ∃ m, (getBestSession visits, m) ∈ visits ∧ ∀ v ∈ visits, v.2.score ≤ m.score := by
  obtain ⟨⟨id, m⟩, hv⟩ := List.exists_mem_of_ne_nil visits hne
  have hbounds := score_bounds es ((hvisits id m).1 hv)
  have hlt : -1 < m.score := by omega
  have hsome : ∃ best, (visits.foldl (keepFirst fun v => v.2.score) (-1, none)).2 = some best :=
    exists_keepFirst hv hlt
  obtain ⟨best, hbest⟩ := hsome
  have hfirst := (keepFirst_eq_some_iff.1 hbest).2
  refine ⟨best.2, ?_, fun v hv => hfirst.le hv⟩
  rw [getBestSession_eq, hbest]
  exact hfirst.mem

/-- A session with a round trip of 600 milliseconds, after a round. -/
def slowSession : QualityMetrics :=
  { registered 0 with
    lastRTT := 600000000
    avgRTT := 600000000
    minRTT := 600000000
    maxRTT := 600000000
    score := 70 }

/-- It has 70 points and another one 100; the slow one is visited first. -/
def twoSessions : List (ℤ × QualityMetrics) := [(7, slowSession), (8, registered 0)]

theorem getBestSession_best_two :
    ∃ m, (getBestSession twoSessions, m) ∈ twoSessions
      ∧ ∀ v ∈ twoSessions, v.2.score ≤ m.score := by
  let es := [Event.register 7 0, .register 8 0, .recordRTT 7 600000000, .evaluateAll 0]
  have hslow : (run (Trace.step id (fun _ => 0) defaultQualityConfig) newQualityMonitor
      es).sessions 7 = some slowSession := by decide +kernel
  have hfast : (run (Trace.step id (fun _ => 0) defaultQualityConfig) newQualityMonitor
      es).sessions 8 = some (registered 0) := by decide +kernel
  have hvisits : ∀ (i : ℤ) m, (i, m) ∈ twoSessions ↔
      (run (Trace.step id (fun _ => 0) defaultQualityConfig) newQualityMonitor
        es).sessions i = some m := by
    intro i m
    unfold twoSessions
    by_cases h7 : i = 7
    · subst h7
      rw [hslow]
      simp [eq_comm]
    by_cases h8 : i = 8
    · subst h8
      rw [hfast]
      simp [eq_comm]
    have hnone : (run (Trace.step id (fun _ => 0) defaultQualityConfig) newQualityMonitor
        es).sessions i = none := by
      simp [es, run, Trace.step, Trace.replace, Trace.modify, Trace.evaluateAll, newQualityMonitor,
        h7, h8]
    rw [hnone]
    simp [h7, h8]
  exact getBestSession_best _ hvisits (List.cons_ne_nil _ _)

end Runs

end Quality
