/-
# The heartbeat monitor

Model of `Heartbeat` in `internal/stability/heartbeat.go`, with the sessions that `Client`
registers.  On every tick `pingAll` pings each session and then looks at the time of its last
pong, which only `RecordPong` updates.  A ping of the client opens a stream and closes it again;
it reports the round trip to the quality monitor, and nothing calls `RecordPong`.

A run keeps the history of the pings of each session, and what was known of a session when it
was declared dead.  `noFalseDeath_iff` says when that is never without a reason.
-/
import Mathlib.Logic.Function.Basic
import IPShadowT.Bytes
import IPShadowT.Runs

open Runs

namespace Heartbeat

/-! ## The monitor -/

/-- `HeartbeatConfig` without the interval, which is that of the ticks; durations are in
nanoseconds.  Nothing keeps a value from being negative. -/
structure HeartbeatConfig where
  timeout : Int
  maxMissed : Int
  deriving DecidableEq, Repr

/-- `Heartbeat`, of which neither limit is zero. -/
structure Limits where
  timeout : Int
  maxMissed : Int
  timeout_ne_zero : timeout ≠ 0
  maxMissed_ne_zero : maxMissed ≠ 0

/-- `NewHeartbeat`. -/
def newHeartbeat (cfg : HeartbeatConfig) : Limits where
  timeout := if cfg.timeout = 0 then 10 * 1000000000 else cfg.timeout
  maxMissed := if cfg.maxMissed = 0 then 3 else cfg.maxMissed
  timeout_ne_zero := by split_ifs <;> omega
  maxMissed_ne_zero := by split_ifs <;> omega

/-- `h.timeout*time.Duration(h.maxMissed)`, which wraps around. -/
def Limits.limit (hb : Limits) : Int := Go.int64 (hb.timeout * hb.maxMissed)

/-- `sessionHealth`, without the round trip times. -/
structure Health where
  lastPong : Int
  lastPing : Int
  missed : ℕ
  alive : Bool
  deriving DecidableEq, Repr

/-- `Register` at the time `now`. -/
def register (now : Int) : Health := ⟨now, 0, 0, true⟩

section

variable (hb : Limits)

/-- The ping of `pingAll`, sent at `pingAt`; `ok` says whether `pingFunc` returned no error.
The number is that of the calls of `onDead`. -/
def ping (h : Health) (pingAt : Int) (ok : Bool) : Health × ℕ :=
  let h := { h with lastPing := pingAt }
  if ok then (h, 0)
  else
    let h := { h with missed := h.missed + 1 }
    if h.missed ≥ hb.maxMissed then ({ h with alive := false }, 1) else (h, 0)

/-- The check of `pingAll` that follows it, at the time `now`. -/
def checkTimeout (h : Health) (now : Int) : Health × ℕ :=
  if now - h.lastPong > hb.limit then ({ h with alive := false }, 1) else (h, 0)

/-- What `pingAll` does with one session. -/
def visit (h : Health) (pingAt now : Int) (ok : Bool) : Health × ℕ :=
  let (h, pingDeaths) := ping hb h pingAt ok
  let (h, timeoutDeaths) := checkTimeout hb h now
  (h, pingDeaths + timeoutDeaths)

end

/-! ## Runs -/

/-- A session and its history: when it was registered, and its pings with their results, the
last one first. -/
structure Tracked where
  health : Health
  registeredAt : Int
  pings : List (Int × Bool)
  deriving DecidableEq, Repr

/-- What there was when a session was declared dead. -/
structure Death where
  registeredAt : Int
  pings : List (Int × Bool)
  now : Int
  deriving DecidableEq, Repr

/-- The sessions by their id, and all deaths. -/
structure Monitor where
  sessions : ℕ → Option Tracked
  deaths : List Death

def start : Monitor := ⟨fun _ => none, []⟩

/-- A registration, which replaces an earlier one of the same id, and the visit of a session by
`pingAll`. -/
inductive Event where
  | register (id : ℕ) (now : Int)
  | visit (id : ℕ) (pingAt now : Int) (ok : Bool)
  deriving DecidableEq, Repr

def step (hb : Limits) (s : Monitor) : Event → Monitor
  | .register id now =>
    { s with sessions := Function.update s.sessions id (some ⟨Heartbeat.register now, now, []⟩) }
  | .visit id pingAt now ok =>
    match s.sessions id with
    | none => s
    | some t =>
      let (health, deaths) := visit hb t.health pingAt now ok
      let pings := (now, ok) :: t.pings
      { s with
        sessions := Function.update s.sessions id (some ⟨health, t.registeredAt, pings⟩)
        deaths := List.replicate deaths ⟨t.registeredAt, pings, now⟩ ++ s.deaths }

/-- The time of the last ping that succeeded, or of the registration if there is none. -/
def lastSuccess (registeredAt : Int) (pings : List (Int × Bool)) : Int :=
  match pings.find? (·.2) with
  | some p => p.1
  | none => registeredAt

/-- At least `n` pings were made, and the last `n` failed. -/
def LastFailed (n : ℕ) (pings : List (Int × Bool)) : Prop :=
  n ≤ pings.length ∧ ∀ p ∈ pings.take n, p.2 = false

/-- There was a reason: the last `MaxMissed` pings failed, or none had succeeded for longer than
`Timeout` times `MaxMissed`. -/
def Death.Justified (hb : Limits) (d : Death) : Prop :=
  LastFailed hb.maxMissed.toNat d.pings ∨
    hb.timeout * hb.maxMissed < d.now - lastSuccess d.registeredAt d.pings

def NoFalseDeath (hb : Limits) (s : Monitor) : Prop := ∀ d ∈ s.deaths, d.Justified hb

/-- A visit gives no false death.  After a ping that succeeds, the registration is not longer
ago than the limit, if the configured values are positive.  If a ping fails that is the
`MaxMissed`-th failure since the registration or a later one, or if the registration is longer ago
than the limit, then the `MaxMissed - 1` pings before it failed too, or none has succeeded for
longer than the limit. -/
def Sound (hb : Limits) (s : Monitor) : Event → Prop
  | .register .. => True
  | .visit id _ now ok =>
    ∀ t ∈ s.sessions id,
      if ok then 0 < hb.timeout ∧ 0 < hb.maxMissed → now - t.registeredAt ≤ hb.limit
      else
        (hb.maxMissed ≤ t.pings.countP (!·.2) + 1 ∨ hb.limit < now - t.registeredAt) →
          LastFailed (hb.maxMissed.toNat - 1) t.pings ∨
            hb.timeout * hb.maxMissed < now - lastSuccess t.registeredAt t.pings

/-! ## What the monitor goes by -/

section Visit

variable (hb : Limits) (h : Health) (pingAt now : Int) (ok : Bool)

/-- A visit does not touch the time of the last pong, and counts a failure for good. -/
theorem visit_health :
    (visit hb h pingAt now ok).1.lastPong = h.lastPong ∧
      (visit hb h pingAt now ok).1.missed = h.missed + if ok then 0 else 1 := by
  unfold visit ping checkTimeout
  cases ok
  · dsimp only [Bool.false_eq_true, if_false]
    split_ifs <;> exact ⟨rfl, rfl⟩
  · dsimp only [if_true]
    split_ifs <;> exact ⟨rfl, rfl⟩

theorem visit_deaths_pos_iff :
    0 < (visit hb h pingAt now ok).2 ↔
      (ok = false ∧ hb.maxMissed ≤ h.missed + 1) ∨ hb.limit < now - h.lastPong := by
  unfold visit ping checkTimeout
  cases ok
  · by_cases hmissed : (h.missed : Int) + 1 ≥ hb.maxMissed <;>
      by_cases hlate : now - h.lastPong > hb.limit <;> simp [hmissed, hlate]
  · by_cases hlate : now - h.lastPong > hb.limit <;> simp [hlate]

end Visit

/-- The monitor goes by the time since the registration and by all failures since then. -/
def Accurate (s : Monitor) : Prop :=
  ∀ id t, s.sessions id = some t →
    t.health.lastPong = t.registeredAt ∧ t.health.missed = t.pings.countP (!·.2)

/-- At the start nothing is registered. -/
theorem accurate_start : Accurate start := nofun

theorem accurate_step (hb : Limits) (s : Monitor) (e : Event) (h : Accurate s) :
    Accurate (step hb s e) := by
  intro j u hu
  cases e with
  | register id now =>
    by_cases hj : j = id
    · subst hj
      simp only [step, Function.update_self, Option.some.injEq] at hu
      subst hu
      exact ⟨rfl, rfl⟩
    · simp only [step, Function.update_of_ne hj] at hu
      exact h j u hu
  | visit id pingAt now ok =>
    cases ht : s.sessions id with
    | none =>
      simp only [step, ht] at hu
      exact h j u hu
    | some t =>
      by_cases hj : j = id
      · subst hj
        simp only [step, ht, Function.update_self, Option.some.injEq] at hu
        subst hu
        obtain ⟨hpong, hmissed⟩ := h j t ht
        obtain ⟨hpong', hmissed'⟩ := visit_health hb t.health pingAt now ok
        refine ⟨hpong'.trans hpong, ?_⟩
        rw [hmissed', hmissed, List.countP_cons]
        cases ok <;> rfl
      · simp only [step, ht, Function.update_of_ne hj] at hu
        exact h j u hu

/-! ## When a death has a reason -/

section Reasons

variable {hb : Limits} {registeredAt now : Int} {pings : List (Int × Bool)}

/-- Right after a ping that succeeded there is a reason for a death only if one of the
configured values is negative. -/
theorem justified_success_iff :
    Death.Justified hb ⟨registeredAt, (now, true) :: pings, now⟩ ↔
      ¬ (0 < hb.timeout ∧ 0 < hb.maxMissed) := by
  have hfailed : LastFailed hb.maxMissed.toNat ((now, true) :: pings) ↔ hb.maxMissed ≤ 0 := by
    unfold LastFailed
    rw [← Int.toNat_eq_zero]
    cases hb.maxMissed.toNat with
    | zero => simp
    | succ n => simp
  have hnow : now - lastSuccess registeredAt ((now, true) :: pings) = 0 := Int.sub_self now
  unfold Death.Justified
  dsimp only
  rw [hfailed, hnow, not_and_or, Int.not_lt, Int.not_lt]
  by_cases hmissed : hb.maxMissed ≤ 0
  · exact iff_of_true (.inl hmissed) (.inr hmissed)
  · have hpos : 0 < hb.maxMissed := Int.not_le.1 hmissed
    have hneg : hb.timeout * hb.maxMissed < 0 ↔ hb.timeout < 0 := by
      constructor
      · exact fun h => neg_of_mul_neg_left h hpos.le
      · exact fun h => Int.mul_neg_of_neg_of_pos h hpos
    rw [or_iff_right hmissed, or_iff_left hmissed, hneg]
    exact ⟨Int.le_of_lt, fun h => lt_of_le_of_ne h hb.timeout_ne_zero⟩

/-- After a ping that failed there is one if the pings before it failed too, or none of them
has succeeded for long enough. -/
theorem justified_failure_iff :
    Death.Justified hb ⟨registeredAt, (now, false) :: pings, now⟩ ↔
      LastFailed (hb.maxMissed.toNat - 1) pings ∨
        hb.timeout * hb.maxMissed < now - lastSuccess registeredAt pings := by
  have hfailed : LastFailed hb.maxMissed.toNat ((now, false) :: pings) ↔
      LastFailed (hb.maxMissed.toNat - 1) pings := by
    unfold LastFailed
    cases hb.maxMissed.toNat with
    | zero => simp
    | succ n => simp
  exact or_congr hfailed Iff.rfl

end Reasons

/-- What was declared at a visit has a reason exactly if the visit is sound. -/
theorem sound_visit_iff {hb : Limits} {s : Monitor} (hacc : Accurate s) {id : ℕ} {t : Tracked}
    (ht : s.sessions id = some t) (pingAt now : Int) (ok : Bool) :
    (0 < (visit hb t.health pingAt now ok).2 →
        Death.Justified hb ⟨t.registeredAt, (now, ok) :: t.pings, now⟩) ↔
      Sound hb s (.visit id pingAt now ok) := by
  obtain ⟨hpong, hmissed⟩ := hacc id t ht
  have hsound : Sound hb s (.visit id pingAt now ok) ↔
      if ok then 0 < hb.timeout ∧ 0 < hb.maxMissed → now - t.registeredAt ≤ hb.limit
      else
        (hb.maxMissed ≤ t.pings.countP (!·.2) + 1 ∨ hb.limit < now - t.registeredAt) →
          LastFailed (hb.maxMissed.toNat - 1) t.pings ∨
            hb.timeout * hb.maxMissed < now - lastSuccess t.registeredAt t.pings := by
    simp only [Sound, ht, Option.mem_some_iff, forall_eq']
  rw [visit_deaths_pos_iff, hpong, hmissed, hsound]
  cases ok with
  | true =>
    simp only [justified_success_iff, if_true, Bool.true_eq_false, false_and, false_or]
    rw [imp_not_comm, Int.not_lt]
  | false =>
    simp only [justified_failure_iff, Bool.false_eq_true, if_false, true_and]

/-- **One step** keeps deaths from being false exactly if it is sound. -/
theorem noFalseDeath_step_iff (hb : Limits) (s : Monitor) (e : Event) (hacc : Accurate s)
    (h : NoFalseDeath hb s) : NoFalseDeath hb (step hb s e) ↔ Sound hb s e := by
  cases e with
  | register id now => exact iff_of_true h trivial
  | visit id pingAt now ok =>
    cases ht : s.sessions id with
    | none =>
      refine iff_of_true (by simpa [NoFalseDeath, step, ht] using h) ?_
      intro t hmem
      rw [ht] at hmem
      cases hmem
    | some t =>
      rw [← sound_visit_iff hacc ht]
      have hdeaths : (step hb s (.visit id pingAt now ok)).deaths
          = List.replicate (visit hb t.health pingAt now ok).2
              ⟨t.registeredAt, (now, ok) :: t.pings, now⟩ ++ s.deaths := by
        simp only [step, ht]
      unfold NoFalseDeath
      rw [hdeaths]
      constructor
      · intro hall hpos
        apply hall
        exact List.mem_append_left _ (List.mem_replicate.2 ⟨Nat.ne_of_gt hpos, rfl⟩)
      · intro hnew d hd
        rcases List.mem_append.1 hd with hd | hd
        · obtain ⟨hpos, rfl⟩ := List.mem_replicate.1 hd
          exact hnew (Nat.pos_of_ne_zero hpos)
        · exact h d hd

/-- **When no death is false.**  In a run of registrations and visits, every session that is
declared dead has missed its last `MaxMissed` pings, or has had no successful ping for longer
than `Timeout` times `MaxMissed`, exactly if all visits are sound. -/
theorem noFalseDeath_iff (cfg : HeartbeatConfig) (es : List Event) :
    Always (step (newHeartbeat cfg)) (NoFalseDeath (newHeartbeat cfg)) start es ↔
      EachStep (step (newHeartbeat cfg)) (Sound (newHeartbeat cfg)) start es :=
  always_iff_eachStep_of_invariant (accurate_step (newHeartbeat cfg))
    (noFalseDeath_step_iff (newHeartbeat cfg)) accurate_start nofun es

/-- The limits that `client.New` sets. -/
def clientConfig : HeartbeatConfig := ⟨10 * 1000000000, 3⟩

/-- A session that is registered at time zero and answers a ping every five seconds, `n` times. -/
def answering (n : ℕ) : List Event :=
  .register 1 0 :: (List.range n).map fun i =>
    .visit 1 (5000000000 * (i + 1)) (5000000000 * (i + 1)) true

/-- **A session that answers every ping dies after half a minute.** -/
theorem dead_though_answering :
    let s := run (step (newHeartbeat clientConfig)) start (answering 7)
    (s.sessions 1).map (·.health.alive) = some false ∧ s.deaths.map (·.now) = [35000000000] ∧
      ∀ d ∈ s.deaths, d.pings.length = 7 ∧ ∀ p ∈ d.pings, p.2 = true := by
  decide

end Heartbeat
