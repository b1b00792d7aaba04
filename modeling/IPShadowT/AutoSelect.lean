/-
# Automatic transport selection

Model of `AutoSelector` in `internal/smart/auto_select.go`: the records of the transports, the
probes that make them, the selection at the start, the check that may switch, and the reports of
failures, successes and blocks.  The results of the probes are inputs.  An operation on `float64`
is the exact one followed by a rounding `fl`, which may be any function.

Every probe makes a new record, and every selection replaces all records first.  So a block is
forgotten before the next selection (`blocked_stayOut_iff`), and a check looks at a record without
failures (`failures_switch_iff`).
-/
import Mathlib.Data.Rat.Defs
import Mathlib.Algebra.Order.Ring.Rat
import IPShadowT.KeepBest
import IPShadowT.Runs

open KeepBest Runs

namespace AutoSelect

/-! ## Records -/

/-- The names of transports. -/
inductive Name where
  | reality
  | shadowtls
  | wsmux
  | h2mux
  | grpc
  | tcpmux
  | quic
  | other (name : String)
  deriving DecidableEq, Repr

/-- `TransportProbe`, without the fields that nothing reads. -/
structure TransportProbe where
  name : Name
  available : Bool
  /-- in milliseconds -/
  latency : ℤ
  failures : ℤ
  score : ℚ
  blocked : Bool
  deriving DecidableEq

/-- What a connection attempt gives: whether it succeeds, and the time in milliseconds. -/
abbrev Attempt := Bool × ℤ

def dpiBonus : Name → ℚ
  | .reality => 50
  | .shadowtls => 40
  | .wsmux => 35
  | .h2mux => 30
  | .grpc => 30
  | .tcpmux => 10
  | .quic => 20
  | .other _ => 0

/-- `AutoSelector`. -/
structure AutoSelector where
  transports : List TransportProbe
  /-- none is the empty name -/
  currentBest : Option Name
  /-- the switches, from and to -/
  history : List (Name × Name)
  failThreshold : ℤ
  deriving DecidableEq

/-- A record before the first probe. -/
def untested (name : Name) : TransportProbe := ⟨name, false, 0, 0, 0, false⟩

/-- `NewAutoSelector`, for the `FailThreshold` of the configuration. -/
def newAutoSelector (failThreshold : ℤ) : AutoSelector where
  transports :=
    [.reality, .shadowtls, .wsmux, .h2mux, .grpc, .tcpmux, .quic].map untested
  currentBest := none
  history := []
  failThreshold := if failThreshold = 0 then 3 else failThreshold

/-! ## Probes -/

section Probes

variable (fl : ℚ → ℚ)

def calculateScore (p : TransportProbe) : ℚ :=
  if p.available = false then 0
  else
    let latencyMs := fl p.latency
    let score := if 0 < latencyMs then fl (100 - fl (latencyMs / 10)) else 100
    let score := fl (score + dpiBonus p.name)
    let score := fl (score - fl (fl p.failures * 20))
    if p.blocked then 0 else score

/-- `testTransport`; the attempt is that of `testTCP` or `testUDP`. -/
def testTransport (name : Name) (attempt : Attempt) : TransportProbe :=
  let probe :=
    match name with
    | .other _ => untested name
    | _ => { untested name with available := attempt.1, latency := attempt.2 }
  { probe with score := calculateScore fl probe }

/-- The records that `testAllTransports` makes. -/
def AutoSelector.probes (s : AutoSelector) (net : Name → Attempt) : List TransportProbe :=
  s.transports.map fun t => testTransport fl t.name (net t.name)

/-- `testAllTransports`. -/
def AutoSelector.testAllTransports (s : AutoSelector) (net : Name → Attempt) : AutoSelector :=
  { s with transports := s.probes fl net }

end Probes

/-! ## Selection -/

section Selection

variable (fl : ℚ → ℚ)

/-- `sort.Slice` may leave equal scores in any order. -/
def Sorts (order l : List TransportProbe) : Prop :=
  order.Perm l ∧ order.Pairwise fun t u => u.score ≤ t.score

instance Sorts.decidable (order l : List TransportProbe) : Decidable (Sorts order l) :=
  inferInstanceAs (Decidable (_ ∧ _))

/-- The first record in the order that is available and not blocked. -/
def bestAvailable (order : List TransportProbe) : Option Name :=
  (order.find? fun t => t.available && !t.blocked).map (·.name)

/-- `InitialSelect`, where `order` is what the sort makes of the new records. -/
def AutoSelector.initialSelect (s : AutoSelector) (order : List TransportProbe) :
    Except String Name × AutoSelector :=
  let best := bestAvailable order
  (best.elim (.error "no working transport found") .ok,
    { s with transports := order, currentBest := best })

/-- The records that `findAlternative` does not skip. -/
def eligible (exclude : Name) (t : TransportProbe) : Bool :=
  !(t.name = exclude || !t.available || t.blocked)

/-- The body of the loop of `findAlternative`. -/
def alternativeLoop (exclude : Name) (acc : ℚ × Option TransportProbe) (t : TransportProbe) :
    ℚ × Option TransportProbe :=
  if eligible exclude t = false then acc
  else if t.score > acc.1 then (t.score, some t)
  else acc

/-- `findAlternative`: the record that is chosen. -/
def AutoSelector.findAlternative (s : AutoSelector) (exclude : Name) (net : Name → Attempt) :
    Option TransportProbe :=
  ((s.probes fl net).foldl (alternativeLoop exclude) (0, none)).2

def AutoSelector.switchTransport (s : AutoSelector) (old new : Name) : AutoSelector :=
  { s with currentBest := some new, history := s.history ++ [(old, new)] }

/-- The test of `checkAndSwitch` on the record that it has made. -/
def AutoSelector.degraded (s : AutoSelector) (probe : TransportProbe) : Bool :=
  !probe.available || probe.failures ≥ s.failThreshold

/-- The transport that `checkAndSwitch` switches to, if it does; `attempt` is for the current
transport, and `net` is for all transports if there is a second round. -/
def AutoSelector.switchesTo (s : AutoSelector) (attempt : Attempt) (net : Name → Attempt) :
    Option Name :=
  match s.currentBest with
  | none => none
  | some current =>
    if s.degraded (testTransport fl current attempt) then
      match s.findAlternative fl current net with
      | some t => if t.name ≠ current then some t.name else none
      | none => none
    else none

def AutoSelector.checkAndSwitch (s : AutoSelector) (attempt : Attempt) (net : Name → Attempt) :
    AutoSelector :=
  match s.currentBest with
  | none => s
  | some current =>
    if s.degraded (testTransport fl current attempt) then
      match s.switchesTo fl attempt net with
      | some new => (s.testAllTransports fl net).switchTransport current new
      | none => s.testAllTransports fl net
    else s

/-- The first record with the name is changed. -/
def AutoSelector.updateFirst (s : AutoSelector) (name : Name)
    (f : TransportProbe → TransportProbe) : AutoSelector :=
  { s with
    transports := s.transports.modify (s.transports.findIdx fun t => t.name = name) f }

def AutoSelector.recordFailure (s : AutoSelector) : AutoSelector :=
  match s.currentBest with
  | some current => s.updateFirst current fun t => { t with failures := t.failures + 1 }
  | none => s

def AutoSelector.recordSuccess (s : AutoSelector) : AutoSelector :=
  match s.currentBest with
  | some current => s.updateFirst current fun t => { t with failures := 0 }
  | none => s

def AutoSelector.markBlocked (s : AutoSelector) (name : Name) : AutoSelector :=
  s.updateFirst name fun t => { t with blocked := true, score := 0 }

end Selection

/-! ## Sequences of calls -/

/-- The selector and what has been reported to it. -/
structure Trace where
  sel : AutoSelector
  /-- the transports that `MarkBlocked` was called for -/
  marked : List Name
  /-- the calls of `RecordFailure` for the current transport since it became the current one and
  since the last call of `RecordSuccess` -/
  reports : ℕ

/-- Before the first call. -/
def start (failThreshold : ℤ) : Trace := ⟨newAutoSelector failThreshold, [], 0⟩

inductive Event where
  | initialSelect (net : Name → Attempt) (order : List TransportProbe)
  | checkAndSwitch (attempt : Attempt) (net : Name → Attempt)
  | recordFailure
  | recordSuccess
  | markBlocked (name : Name)

section Runs

variable (fl : ℚ → ℚ)

/-- The transport that a call selects, or switches to. -/
def selects (t : Trace) : Event → Option Name
  | .initialSelect net order =>
    if Sorts order (t.sel.probes fl net) then (t.sel.initialSelect order).1.toOption
    else none
  | .checkAndSwitch attempt net => t.sel.switchesTo fl attempt net
  | .recordFailure | .recordSuccess | .markBlocked _ => none

def step (t : Trace) (ev : Event) : Trace :=
  match ev with
  | .initialSelect net order =>
    if Sorts order (t.sel.probes fl net) then
      let sel := (t.sel.initialSelect order).2
      { t with
        sel := sel
        reports := if sel.currentBest = t.sel.currentBest then t.reports else 0 }
    else t
  | .checkAndSwitch attempt net =>
    { t with
      sel := t.sel.checkAndSwitch fl attempt net
      reports := if t.sel.switchesTo fl attempt net = none then t.reports else 0 }
  | .recordFailure =>
    { t with
      sel := t.sel.recordFailure
      reports := if t.sel.currentBest = none then t.reports else t.reports + 1 }
  | .recordSuccess => { t with sel := t.sel.recordSuccess, reports := 0 }
  | .markBlocked name =>
    { t with sel := t.sel.markBlocked name, marked := t.marked ++ [name] }

end Runs

/-! ## What is selected -/

variable {net : Name → Attempt}

section Choice

variable {fl : ℚ → ℚ} {s : AutoSelector}

/-- **A probe starts from nothing**: it has neither the failures nor the block of the record
before. -/
theorem testTransport_fresh (name : Name) (attempt : Attempt) :
    (testTransport fl name attempt).failures = 0 ∧
      (testTransport fl name attempt).blocked = false := by
  cases name <;> exact ⟨rfl, rfl⟩

theorem blocked_of_mem_probes {t : TransportProbe} (h : t ∈ s.probes fl net) :
    t.blocked = false := by
  obtain ⟨old, -, rfl⟩ := List.mem_map.1 h
  exact (testTransport_fresh old.name _).2

/-- The new records that `findAlternative` looks at. -/
def AutoSelector.candidates (fl : ℚ → ℚ) (s : AutoSelector) (current : Name)
    (net : Name → Attempt) : List TransportProbe :=
  (s.probes fl net).filter (eligible current)

theorem mem_candidates {current : Name} {t : TransportProbe} :
    t ∈ s.candidates fl current net ↔
      t ∈ s.probes fl net ∧ t.name ≠ current ∧ t.available = true := by
  rw [AutoSelector.candidates, List.mem_filter]
  refine and_congr_right fun hmem => ?_
  simp [eligible, blocked_of_mem_probes hmem]

/-- The loop keeps the first of the best candidates. -/
theorem findAlternative_eq (current : Name) (net : Name → Attempt) :
    s.findAlternative fl current net =
      ((s.candidates fl current net).foldl (keepFirst TransportProbe.score) (0, none)).2 := by
  have hloop : alternativeLoop current = fun acc t =>
      if eligible current t = true then keepFirst TransportProbe.score acc t else acc := by
    funext acc t
    unfold alternativeLoop
    cases eligible current t <;> rfl
  rw [AutoSelector.candidates, List.foldl_filter, AutoSelector.findAlternative, hloop]

/-- **A switch** is to the first of the best candidates with a positive score. -/
theorem switchesTo_eq_some_iff {attempt : Attempt} {n : Name} :
    s.switchesTo fl attempt net = some n ↔
      ∃ current, s.currentBest = some current ∧
        s.degraded (testTransport fl current attempt) = true ∧
          ∃ t, t.name = n ∧ 0 < t.score ∧
            FirstBest TransportProbe.score (s.candidates fl current net) t := by
  unfold AutoSelector.switchesTo
  cases hcurrent : s.currentBest with
  | none => exact iff_of_false nofun fun ⟨_, h, _⟩ => nomatch h
  | some current =>
    constructor
    · intro h
      by_cases hdegraded : s.degraded (testTransport fl current attempt) = true
      · simp only [if_pos hdegraded] at h
        cases halt : s.findAlternative fl current net with
        | none =>
          rw [halt] at h
          cases h
        | some t =>
          rw [halt] at h
          rw [findAlternative_eq, keepFirst_eq_some_iff] at halt
          have hne : t.name ≠ current := (mem_candidates.1 halt.2.mem).2.1
          simp only [if_pos hne] at h
          exact ⟨current, rfl, hdegraded, t, Option.some.inj h, halt⟩
      · simp only [if_neg hdegraded] at h
        cases h
    · rintro ⟨_, heq, hdegraded, t, rfl, hscore, hfirst⟩
      obtain rfl := Option.some.inj heq
      have halt : s.findAlternative fl current net = some t := by
        rw [findAlternative_eq, keepFirst_eq_some_iff]
        exact ⟨hscore, hfirst⟩
      simp only [if_pos hdegraded, halt, if_pos (mem_candidates.1 hfirst.mem).2.1]

/-- **The selection at the start** is of the first available transport in the order of the sort. -/
theorem initialSelect_eq_some_iff {order : List TransportProbe} (h : Sorts order (s.probes fl net))
    {n : Name} :
    (s.initialSelect order).1.toOption = some n ↔
      ∃ before t after, order = before ++ t :: after ∧ t.name = n ∧ t.available = true ∧
        ∀ u ∈ before, u.available = false := by
  have hfresh : ∀ t ∈ order, (t.available && !t.blocked) = t.available := by
    intro t ht
    rw [blocked_of_mem_probes (h.1.mem_iff.1 ht)]
    exact Bool.and_true _
  have hresult : (s.initialSelect order).1.toOption = bestAvailable order := by
    unfold AutoSelector.initialSelect
    cases bestAvailable order with
    | none => rfl
    | some n => rfl
  rw [hresult, bestAvailable, Option.map_eq_some_iff]
  constructor
  · rintro ⟨t, hfind, rfl⟩
    obtain ⟨havail, before, after, rfl, hbefore⟩ := List.find?_eq_some_iff_append.1 hfind
    rw [hfresh t (List.mem_append_right _ List.mem_cons_self)] at havail
    refine ⟨before, t, after, rfl, rfl, havail, ?_⟩
    intro u hu
    have hnot := hbefore u hu
    rw [hfresh u (List.mem_append_left _ hu)] at hnot
    exact Bool.not_eq_true' _ ▸ hnot
  · rintro ⟨before, t, after, rfl, rfl, havail, hbefore⟩
    refine ⟨t, List.find?_eq_some_iff_append.2 ⟨?_, before, after, rfl, ?_⟩, rfl⟩
    · rw [hfresh t (List.mem_append_right _ List.mem_cons_self)]
      exact havail
    · intro u hu
      rw [hfresh u (List.mem_append_left _ hu), hbefore u hu]
      rfl

end Choice

/-! ## Blocked transports -/

section Blocked

variable (fl : ℚ → ℚ)

/-- The call does not select a transport that has been marked as blocked. -/
def StaysOut (t : Trace) (ev : Event) : Prop := ∀ n, selects fl t ev = some n → n ∉ t.marked

/-- The new probes of the call leave no marked transport in front.  At the start: it is not
available, or one that is available stands before it.  In a check that looks for an alternative to
the current transport: its score is not positive, or another one has a higher score, or has the same
score and stands before it. -/
def Outranked (t : Trace) : Event → Prop
  | .initialSelect net order =>
    Sorts order (t.sel.probes fl net) →
      ∀ before u after, order = before ++ u :: after → u.name ∈ t.marked →
        u.available = false ∨ ∃ v ∈ before, v.available = true
  | .checkAndSwitch attempt net =>
    ∀ current, t.sel.currentBest = some current →
      t.sel.degraded (testTransport fl current attempt) = true →
        ∀ before u after, t.sel.candidates fl current net = before ++ u :: after →
          u.name ∈ t.marked →
            u.score ≤ 0 ∨ (∃ v ∈ before, u.score ≤ v.score) ∨ ∃ v ∈ after, u.score < v.score
  | .recordFailure | .recordSuccess | .markBlocked _ => True

theorem staysOut_iff (t : Trace) (ev : Event) : StaysOut fl t ev ↔ Outranked fl t ev := by
  cases ev with
  | recordFailure => exact iff_of_true nofun trivial
  | recordSuccess => exact iff_of_true nofun trivial
  | markBlocked name => exact iff_of_true nofun trivial
  | initialSelect net order =>
    simp only [StaysOut, Outranked, selects]
    by_cases hsorts : Sorts order (t.sel.probes fl net)
    · rw [if_pos hsorts]
      simp only [initialSelect_eq_some_iff hsorts]
      constructor
      · intro h _ before u after hlist hmarked
        by_contra hfront
        obtain ⟨havail, hbefore⟩ := not_or.1 hfront
        refine h u.name ⟨before, u, after, hlist, rfl, by simpa using havail, ?_⟩ hmarked
        intro v hv
        simpa using fun hv' => hbefore ⟨v, hv, hv'⟩
      · rintro h n ⟨before, u, after, hlist, rfl, havail, hbefore⟩ hmarked
        rcases h hsorts before u after hlist hmarked with hnot | ⟨v, hv, hv'⟩
        · rw [havail] at hnot
          cases hnot
        · rw [hbefore v hv] at hv'
          cases hv'
    · rw [if_neg hsorts]
      exact iff_of_true nofun fun h => absurd h hsorts
  | checkAndSwitch attempt net =>
    simp only [StaysOut, Outranked, selects, switchesTo_eq_some_iff]
    constructor
    · intro h current hcurrent hdegraded before u after hlist hmarked
      by_contra hfront
      obtain ⟨hscore, hrest⟩ := not_or.1 hfront
      obtain ⟨hbefore, hafter⟩ := not_or.1 hrest
      have hfirst : FirstBest TransportProbe.score (t.sel.candidates fl current net) u :=
        ⟨before, after, hlist, fun v hv => not_le.1 fun hle => hbefore ⟨v, hv, hle⟩,
          fun v hv => not_lt.1 fun hlt => hafter ⟨v, hv, hlt⟩⟩
      exact h u.name ⟨current, hcurrent, hdegraded, u, rfl, not_le.1 hscore, hfirst⟩ hmarked
    · rintro h n ⟨current, hcurrent, hdegraded, u, rfl, hscore, before, after, hlist, hbefore,
        hafter⟩ hmarked
      rcases h current hcurrent hdegraded before u after hlist hmarked with
        hle | ⟨v, hv, hle⟩ | ⟨v, hv, hlt⟩
      · exact absurd hscore (not_lt.2 hle)
      · exact absurd (hbefore v hv) (not_lt.2 hle)
      · exact absurd (hafter v hv) (not_le.2 hlt)

/-- **Blocked transports.**  In a run no call selects a transport after it has been marked as
blocked, if and only if the new probes of each call leave no marked transport in front: the marks
have no part in it. -/
theorem blocked_stayOut_iff (failThreshold : ℤ) (es : List Event) :
    EachStep (step fl) (StaysOut fl) (start failThreshold) es ↔
      EachStep (step fl) (Outranked fl) (start failThreshold) es :=
  eachStep_congr (staysOut_iff fl) (start failThreshold) es

/-- Only these transports can be reached, in 10 ms. -/
def only (names : List Name) : Name → Attempt := fun n => (n ∈ names, 10)

/-- Only `reality` works, and is selected. -/
def firstSelect : Event :=
  .initialSelect (only [.reality]) ((newAutoSelector 0).probes id (only [.reality]))

/-- `reality` is selected although it is marked as blocked; and where it is marked after a switch
away from it, it is switched to again. -/
theorem blocked_selected :
    selects id (run (step id) (start 0) [.markBlocked .reality]) firstSelect = some .reality ∧
      selects id
          (run (step id) (start 0)
            [firstSelect, .checkAndSwitch (false, 0) (only [.shadowtls]), .markBlocked .reality])
          (.checkAndSwitch (false, 0) (only [.reality])) = some .reality := by
  decide +kernel

end Blocked

/-! ## Reported failures -/

section Failures

variable (fl : ℚ → ℚ)

/-- Another transport, which has not been marked as blocked, is found available with a positive
score. -/
def Alternative (t : Trace) (current : Name) (net : Name → Attempt) : Prop :=
  ∃ u ∈ t.sel.probes fl net, u.name ≠ current ∧ u.name ∉ t.marked ∧ u.available = true ∧ 0 < u.score

/-- A check switches if as many failures as the threshold have been reported for the current
transport and there is an alternative. -/
def SwitchesWhenDue (t : Trace) : Event → Prop
  | .checkAndSwitch attempt net =>
    ∀ current, t.sel.currentBest = some current → t.sel.failThreshold ≤ t.reports →
      Alternative fl t current net →
        ∃ n, selects fl t (.checkAndSwitch attempt net) = some n ∧ n ≠ current
  | _ => True

/-- A check that is due finds by its own attempt that the current transport is not available; or the
threshold is not positive. -/
def FailsItself (t : Trace) : Event → Prop
  | .checkAndSwitch attempt net =>
    ∀ current, t.sel.currentBest = some current → t.sel.failThreshold ≤ t.reports →
      Alternative fl t current net →
        (testTransport fl current attempt).available = false ∨ t.sel.failThreshold ≤ 0
  | _ => True

theorem degraded_iff (s : AutoSelector) (current : Name) (attempt : Attempt) :
    s.degraded (testTransport fl current attempt) = true ↔
      (testTransport fl current attempt).available = false ∨ s.failThreshold ≤ 0 := by
  rw [AutoSelector.degraded, (testTransport_fresh current attempt).1]
  simp

theorem switchesWhenDue_iff (t : Trace) (ev : Event) :
    SwitchesWhenDue fl t ev ↔ FailsItself fl t ev := by
  cases ev with
  | checkAndSwitch attempt net =>
    refine forall₄_congr fun current hcurrent hdue halt => ?_
    rw [← degraded_iff]
    constructor
    · rintro ⟨n, hn, -⟩
      obtain ⟨_, heq, hdegraded, -⟩ := switchesTo_eq_some_iff.1 hn
      obtain rfl := Option.some.inj (hcurrent.symm.trans heq)
      exact hdegraded
    · intro hdegraded
      obtain ⟨u, hu, hne, -, havail, hscore⟩ := halt
      have hmem : u ∈ t.sel.candidates fl current net := mem_candidates.2 ⟨hu, hne, havail⟩
      obtain ⟨x, hx⟩ := exists_keepFirst hmem hscore
      have hbest := keepFirst_eq_some_iff.1 hx
      refine ⟨x.name, ?_, (mem_candidates.1 hbest.2.mem).2.1⟩
      exact switchesTo_eq_some_iff.2 ⟨current, hcurrent, hdegraded, x, rfl, hbest⟩
  | _ => exact Iff.rfl

/-- **Reported failures.**  In a run every check that is due switches to another transport, if and
only if every check that is due fails to reach the current transport, or the threshold is not
positive: the reports have no part in it. -/
theorem failures_switch_iff (failThreshold : ℤ) (es : List Event) :
    EachStep (step fl) (SwitchesWhenDue fl) (start failThreshold) es ↔
      EachStep (step fl) (FailsItself fl) (start failThreshold) es :=
  eachStep_congr (switchesWhenDue_iff fl) (start failThreshold) es

/-- Three failures are reported for the current transport, which can still be reached. -/
def threeFailures : Trace :=
  run (step id) (start 3)
    [.initialSelect (only [.reality, .shadowtls])
      ((newAutoSelector 3).probes id (only [.reality, .shadowtls])),
      .recordFailure, .recordFailure, .recordFailure]

/-- The check that follows does not switch. -/
theorem three_failures_ignored :
    ¬ SwitchesWhenDue id threeFailures
      (.checkAndSwitch (true, 10) (only [.reality, .shadowtls])) := by
  intro h
  obtain ⟨n, hn, -⟩ := h .reality (by decide +kernel) (by decide +kernel)
    ⟨testTransport id .shadowtls (true, 10), by decide +kernel, by decide +kernel,
      by decide +kernel, by decide +kernel, by decide +kernel⟩
  have hnone : selects id threeFailures
      (.checkAndSwitch (true, 10) (only [.reality, .shadowtls])) = none := by decide +kernel
  rw [hnone] at hn
  cases hn

end Failures

end AutoSelect
