/-
# Concurrent round-robin dials

Model of `dialRoundRobin` in `internal/multipath/multipath.go`, lines 150 to 175.  A call makes as
many attempts as there are paths, and for each it takes the next index from a counter that all
calls share.  A call that runs alone goes round all paths once.  A call that runs beside others
gets what they leave: with two paths and two calls that take turns, each call gets the same path
twice.

One step is an increment of the counter or a dial.  The counter is an `atomic.Int64`, here a
natural number.  `always_exhaustive_iff` says in which runs a call fails only after it has tried
every path.
-/
import IPShadowT.Multipath
import IPShadowT.Runs
import Mathlib.Data.Finset.Card

open Runs

namespace Multipath.RoundRobin

/-! ## The system -/

/-- Where a call of `dialRoundRobin` is. -/
inductive Phase where
  /-- before `m.current.Add(1)` -/
  | drawing
  /-- in `path.Transport.Dial()` -/
  | dialing (idx : ℕ)
  /-- with a connection, or with an error -/
  | returned (ok : Bool)
  deriving DecidableEq, Repr

/-- The call is in a dial. -/
def Phase.isDialing : Phase → Bool
  | .dialing _ => true
  | _ => false

/-- A call of `dialRoundRobin`. -/
structure Call where
  phase : Phase
  /-- the values of the counter that it has taken, the last one first -/
  draws : List ℕ
  /-- the paths that it has dialed in vain, the last one first -/
  failed : List ℕ
  deriving DecidableEq, Repr

/-- `Manager` and the calls that have been made of it. -/
structure Manager where
  paths : List Path
  current : ℕ
  calls : List Call
  deriving DecidableEq, Repr

/-- The head of the `for` loop, which makes one round for each path. -/
def Call.nextRound (attempts : ℕ) (c : Call) : Call :=
  { c with phase := if c.draws.length < attempts then .drawing else .returned false }

/-- What can happen next. -/
inductive Event where
  /-- `dialRoundRobin` is called -/
  | call
  /-- call `k` takes an index -/
  | draw (k : ℕ)
  /-- the dial of call `k` returns -/
  | dial (k : ℕ) (ok : Bool)
  deriving DecidableEq, Repr

/-- The manager before any call, with the counter anywhere. -/
def start (paths : List Path) (current : ℕ) : Manager := ⟨paths, current, []⟩

/-- Call `k` becomes `c`. -/
def Manager.become (m : Manager) (k : ℕ) (c : Call) : Manager :=
  { m with calls := m.calls.set k c }

/-- Call `k` takes the next index, and goes on with its path or, if that is not available, with the
next round. -/
def Manager.draw (m : Manager) (k : ℕ) (c : Call) : Manager :=
  let idx := m.current % m.paths.length
  let c' : Call := { c with draws := m.current :: c.draws }
  { m with current := m.current + 1 }.become k
    (if m.paths[idx]?.any Path.available then { c' with phase := .dialing idx }
    else c'.nextRound m.paths.length)

/-- The dial of call `k` on path `idx` returns. -/
def Manager.dialed (m : Manager) (k : ℕ) (c : Call) (idx : ℕ) (ok : Bool) : Manager :=
  if ok then
    { m with paths := m.paths.modify idx fun p => { p with failures := 0 } }.become k
      { c with phase := .returned true }
  else
    { m with paths := m.paths.modify idx fun p => { p with failures := p.failures + 1 } }.become k
      ({ c with failed := idx :: c.failed }.nextRound m.paths.length)

/-- An event that no call is ready for does nothing. -/
def step (m : Manager) : Event → Manager
  | .call => { m with calls := m.calls ++ [Call.nextRound m.paths.length ⟨.drawing, [], []⟩] }
  | .draw k =>
    match m.calls[k]? with
    | some c => if c.phase = .drawing then m.draw k c else m
    | none => m
  | .dial k ok =>
    match m.calls[k]? with
    | some c =>
      match c.phase with
      | .dialing idx => m.dialed k c idx ok
      | _ => m
    | none => m

/-! ## The property and its condition -/

/-- A call that fails has dialed every path, in vain. -/
def Call.Exhaustive (n : ℕ) (c : Call) : Prop := c.phase = .returned false → ∀ i < n, i ∈ c.failed

/-- Every call that has failed has dialed every path. -/
def Exhaustive (m : Manager) : Prop := ∀ c ∈ m.calls, c.Exhaustive m.paths.length

/-- A call has taken no two values of the counter that stand for the same path. -/
def Call.Spread (n : ℕ) (c : Call) : Prop := (c.draws.map (· % n)).Nodup

/-- A step that ends a call with an error ends one whose indices were all different: never was the
number of indices taken from one of its own to another a multiple of the number of paths. -/
def FailsSpread (m : Manager) : Event → Prop
  | .dial k false => ∀ c ∈ m.calls[k]?, c.phase.isDialing →
      c.draws.length = m.paths.length → c.Spread m.paths.length
  | _ => True

instance (n : ℕ) (c : Call) : Decidable (c.Spread n) := List.nodupDecidable _

instance (m : Manager) (e : Event) : Decidable (FailsSpread m e) :=
  match e with
  | .dial k false => inferInstanceAs (Decidable (∀ c ∈ m.calls[k]?, c.phase.isDialing →
      c.draws.length = m.paths.length → c.Spread m.paths.length))
  | .dial _ true | .call | .draw _ => inferInstanceAs (Decidable True)

/-! ## What a call has done so far -/

/-- The paths of a call are those of the indices it has taken; the last one may still be dialed. -/
def Call.Sound (n : ℕ) (c : Call) : Prop :=
  match c.phase with
  | .drawing => c.failed = c.draws.map (· % n) ∧ c.draws.length < n
  | .dialing idx => idx :: c.failed = c.draws.map (· % n) ∧ c.draws.length ≤ n
  | .returned false => c.failed = c.draws.map (· % n) ∧ c.draws.length = n
  | .returned true => True

/-- All paths are available, and every call is sound. -/
structure Inv (m : Manager) : Prop where
  available : ∀ p ∈ m.paths, p.available = true
  sound : ∀ c ∈ m.calls, c.Sound m.paths.length

variable {c : Call} {m : Manager} {n : ℕ} {k : ℕ}

theorem Call.sound_nextRound (hfailed : c.failed = c.draws.map (· % n)) (hlen : c.draws.length ≤ n)
    : (c.nextRound n).Sound n := by
  unfold Call.nextRound Call.Sound
  dsimp only
  by_cases hlt : c.draws.length < n
  · rw [if_pos hlt]
    exact ⟨hfailed, hlt⟩
  · rw [if_neg hlt]
    exact ⟨hfailed, by omega⟩

theorem Inv.become (h : Inv m) (k : ℕ) (hc : c.Sound m.paths.length) : Inv (m.become k c) := by
  refine ⟨h.available, ?_⟩
  intro c' hc'
  obtain hmem | rfl := List.mem_or_eq_of_mem_set hc'
  · exact h.sound c' hmem
  · exact hc

/-- Only the count of the failures of a path changes. -/
theorem Inv.modify (h : Inv m) (idx : ℕ) (failures : Path → ℕ) :
    Inv { m with paths := m.paths.modify idx fun p => { p with failures := failures p } } := by
  refine ⟨?_, ?_⟩
  · intro p hp
    obtain ⟨i, hi⟩ := List.mem_iff_getElem?.1 hp
    rw [List.getElem?_modify] at hi
    obtain ⟨q, hq, rfl⟩ := Option.map_eq_some_iff.1 hi
    have hq := h.available q (List.mem_of_getElem? hq)
    split_ifs
    · exact hq
    · exact hq
  · intro c hc
    rw [List.length_modify]
    exact h.sound c hc

theorem Inv.of_drawing (h : Inv m) (hc : m.calls[k]? = some c) (hphase : c.phase = .drawing) :
    c.failed = c.draws.map (· % m.paths.length) ∧ c.draws.length < m.paths.length := by
  have hsound := h.sound c (List.mem_of_getElem? hc)
  unfold Call.Sound at hsound
  rwa [hphase] at hsound

theorem Inv.of_dialing (h : Inv m) {k idx : ℕ} (hc : m.calls[k]? = some c)
    (hphase : c.phase = .dialing idx) :
    idx :: c.failed = c.draws.map (· % m.paths.length) ∧ c.draws.length ≤ m.paths.length := by
  have hsound := h.sound c (List.mem_of_getElem? hc)
  unfold Call.Sound at hsound
  rwa [hphase] at hsound

/-- A call in its loop finds the path of the index it takes available. -/
theorem Inv.draw_eq (h : Inv m) (k : ℕ) (hlen : c.draws.length < m.paths.length) :
    m.draw k c = { m with current := m.current + 1 }.become k
      ⟨.dialing (m.current % m.paths.length), m.current :: c.draws, c.failed⟩ := by
  have hidx : m.current % m.paths.length < m.paths.length := Nat.mod_lt _ (by omega)
  have hany : m.paths[m.current % m.paths.length]?.any Path.available = true := by
    rw [List.getElem?_eq_getElem hidx]
    exact h.available _ (List.getElem_mem hidx)
  unfold Manager.draw
  dsimp only
  rw [if_pos hany]

theorem failsSpread_of_not_dialing (h : ∀ c ∈ m.calls[k]?, ¬ c.phase.isDialing) (ok : Bool) :
    FailsSpread m (.dial k ok) := by
  cases ok with
  | true => trivial
  | false => exact fun c hc hdialing => absurd hdialing (h c hc)

theorem failsSpread_dial_iff {k idx : ℕ} (hc : m.calls[k]? = some c)
    (hphase : c.phase = .dialing idx) :
    FailsSpread m (.dial k false)
      ↔ (c.draws.length = m.paths.length → c.Spread m.paths.length) := by
  constructor
  · intro hspread
    exact hspread c hc (by rw [hphase]; rfl)
  · intro hspread c' hc' _
    obtain rfl : c = c' := Option.some.inj (hc.symm.trans hc')
    exact hspread

/-- What a step does. -/
theorem step_cases (m : Manager) (e : Event) :
    (step m e = m ∧ FailsSpread m e)
      ∨ (e = .call ∧ step m e
          = { m with calls := m.calls ++ [Call.nextRound m.paths.length ⟨.drawing, [], []⟩] })
      ∨ (∃ k c, e = .draw k ∧ m.calls[k]? = some c ∧ c.phase = .drawing ∧ step m e = m.draw k c)
      ∨ ∃ k c idx ok, e = .dial k ok ∧ m.calls[k]? = some c ∧ c.phase = .dialing idx
        ∧ step m e = m.dialed k c idx ok := by
  cases e with
  | call => exact Or.inr (Or.inl ⟨rfl, rfl⟩)
  | draw k =>
    cases hc : m.calls[k]? with
    | none => exact Or.inl ⟨by simp only [step, hc], trivial⟩
    | some c =>
      by_cases hphase : c.phase = .drawing
      · exact Or.inr (Or.inr (Or.inl
          ⟨k, c, rfl, hc, hphase, by simp only [step, hc, if_pos hphase]⟩))
      · exact Or.inl ⟨by simp only [step, hc, if_neg hphase], trivial⟩
  | dial k ok =>
    cases hc : m.calls[k]? with
    | none =>
      refine Or.inl ⟨by simp only [step, hc], failsSpread_of_not_dialing ?_ ok⟩
      rw [hc]
      exact nofun
    | some c =>
      cases hphase : c.phase with
      | dialing idx =>
        exact Or.inr (Or.inr (Or.inr
          ⟨k, c, idx, ok, rfl, hc, hphase, by simp only [step, hc, hphase]⟩))
      | _ =>
        refine Or.inl
          ⟨by simp only [step, hc, hphase], failsSpread_of_not_dialing ?_ ok⟩
        intro c' hc'
        obtain rfl : c = c' := Option.some.inj (hc.symm.trans hc')
        rw [hphase]
        exact Bool.false_ne_true

/-- **One step keeps the calls sound.** -/
theorem inv_step (m : Manager) (e : Event) (h : Inv m) : Inv (step m e) := by
  obtain ⟨hstay, -⟩ | ⟨-, hcall⟩ | ⟨k, c, -, hc, hphase, hdraw⟩
    | ⟨k, c, idx, ok, -, hc, hphase, hdial⟩ := step_cases m e
  · rwa [hstay]
  · rw [hcall]
    refine ⟨h.available, ?_⟩
    intro c hc
    obtain hmem | hnew := List.mem_append.1 hc
    · exact h.sound c hmem
    · rw [List.mem_singleton.1 hnew]
      exact Call.sound_nextRound rfl (Nat.zero_le _)
  · obtain ⟨hfailed, hlen⟩ := h.of_drawing hc hphase
    rw [hdraw, h.draw_eq k hlen]
    have hinv : Inv { m with current := m.current + 1 } := ⟨h.available, h.sound⟩
    exact hinv.become k ⟨by rw [List.map_cons, hfailed], hlen⟩
  · obtain ⟨hfailed, hlen⟩ := h.of_dialing hc hphase
    rw [hdial]
    cases ok with
    | true => exact (h.modify idx fun _ => 0).become k trivial
    | false =>
      refine (h.modify idx fun p => p.failures + 1).become k ?_
      rw [List.length_modify]
      exact Call.sound_nextRound hfailed hlen

/-! ## When the last attempt fails -/

/-- As many indices as there are paths are all of them exactly if no two are the same. -/
theorem forall_mem_iff_nodup {l : List ℕ} (hlen : l.length = n) (hlt : ∀ i ∈ l, i < n) :
    (∀ i < n, i ∈ l) ↔ l.Nodup := by
  have hsub : l.toFinset ⊆ Finset.range n := fun i hi =>
    Finset.mem_range.2 (hlt i (List.mem_toFinset.1 hi))
  constructor
  · intro hall
    have heq : l.toFinset = Finset.range n := by
      refine Finset.Subset.antisymm hsub ?_
      intro i hi
      exact List.mem_toFinset.2 (hall i (Finset.mem_range.1 hi))
    have hcard : (l : Multiset ℕ).toFinset.card = (l : Multiset ℕ).card := by
      show l.toFinset.card = l.length
      rw [heq, Finset.card_range, hlen]
    exact Multiset.coe_nodup.1 (Multiset.toFinset_card_eq_card_iff_nodup.1 hcard)
  · intro hnodup i hi
    have heq : l.toFinset = Finset.range n := by
      apply Finset.eq_of_subset_of_card_le hsub
      rw [List.toFinset_card_of_nodup hnodup, Finset.card_range, hlen]
    rw [← List.mem_toFinset, heq]
    exact Finset.mem_range.2 hi

/-- A call that goes on leaves the others as they are. -/
theorem exhaustive_become_iff (h : Exhaustive m) (hc : m.calls[k]? = some c) (c' : Call) :
    Exhaustive (m.become k c') ↔ c'.Exhaustive m.paths.length := by
  constructor
  · intro hall
    exact hall c' (List.mem_set (List.getElem?_eq_some_iff.1 hc).1 c')
  · intro hc' d hd
    obtain hmem | rfl := List.mem_or_eq_of_mem_set hd
    · exact h d hmem
    · exact hc'

/-- The end of a round in vain: the call goes on, or it has tried what it was to try. -/
theorem exhaustive_nextRound_iff (hfailed : c.failed = c.draws.map (· % n))
    (hlen : c.draws.length ≤ n) :
    (c.nextRound n).Exhaustive n ↔ (c.draws.length = n → c.Spread n) := by
  unfold Call.nextRound Call.Exhaustive
  dsimp only
  by_cases hlt : c.draws.length < n
  · rw [if_pos hlt]
    exact iff_of_true nofun fun heq => absurd heq (by omega)
  · have heq : c.draws.length = n := by omega
    have hmod : ∀ i ∈ c.draws.map (· % n), i < n := by
      intro i hi
      obtain ⟨d, hd, rfl⟩ := List.mem_map.1 hi
      exact Nat.mod_lt d (heq ▸ List.length_pos_of_mem hd)
    rw [if_neg hlt, hfailed, forall_mem_iff_nodup (by rw [List.length_map, heq]) hmod]
    exact ⟨fun h _ => h rfl, fun h _ => h heq⟩

/-- **One step**: the calls that have failed have tried every path, exactly if the step does not end
one with an index that it has had before. -/
theorem exhaustive_step_iff (m : Manager) (e : Event) (hinv : Inv m) (h : Exhaustive m) :
    Exhaustive (step m e) ↔ FailsSpread m e := by
  obtain ⟨hstay, hok⟩ | ⟨rfl, hcall⟩ | ⟨k, c, rfl, hc, hphase, hdraw⟩
    | ⟨k, c, idx, ok, rfl, hc, hphase, hdial⟩ := step_cases m e
  · rw [hstay]
    exact iff_of_true h hok
  · refine iff_of_true ?_ trivial
    rw [hcall]
    intro c hc
    obtain hmem | hnew := List.mem_append.1 hc
    · exact h c hmem
    · rw [List.mem_singleton.1 hnew]
      exact (exhaustive_nextRound_iff rfl (Nat.zero_le _)).2 fun _ => List.nodup_nil
  · refine iff_of_true ?_ trivial
    rw [hdraw, hinv.draw_eq k (hinv.of_drawing hc hphase).2]
    have hmoved : Exhaustive { m with current := m.current + 1 } := h
    exact (exhaustive_become_iff hmoved hc _).2 nofun
  · obtain ⟨hfailed, hlen⟩ := hinv.of_dialing hc hphase
    have hmodified : ∀ g : Path → Path, Exhaustive { m with paths := m.paths.modify idx g } := by
      intro g d hd
      show d.Exhaustive (m.paths.modify idx g).length
      rw [List.length_modify]
      exact h d hd
    rw [hdial]
    unfold Manager.dialed
    cases ok with
    | true =>
      refine iff_of_true ?_ trivial
      exact (exhaustive_become_iff (hmodified _) hc _).2 nofun
    | false =>
      have hone := exhaustive_become_iff
        (hmodified fun p => { p with failures := p.failures + 1 }) hc
        ({ c with failed := idx :: c.failed }.nextRound m.paths.length)
      rw [List.length_modify] at hone
      have hnext :=
        exhaustive_nextRound_iff (c := { c with failed := idx :: c.failed }) hfailed hlen
      exact hone.trans (hnext.trans (failsSpread_dial_iff hc hphase).symm)

/-- **When a failed call has tried every path.**  With all paths available, in any interleaving of
any number of calls: exactly if no call ends with an error that has had a path twice. -/
theorem always_exhaustive_iff {paths : List Path} (havailable : ∀ p ∈ paths, p.available = true)
    (current : ℕ) (es : List Event) :
    Always step Exhaustive (start paths current) es
      ↔ EachStep step FailsSpread (start paths current) es := by
  have hstart : Inv (start paths current) := ⟨havailable, nofun⟩
  exact always_iff_eachStep_of_invariant inv_step exhaustive_step_iff hstart nofun es

/-- Two paths, both available. -/
def twoPaths : List Path :=
  [⟨⟨"first", "10.0.0.1:443", "tcpmux", 1, 1⟩, true, 0⟩,
    ⟨⟨"second", "10.0.0.2:443", "tcpmux", 2, 1⟩, true, 0⟩]

/-- A call alone, with both paths down, tries both. -/
theorem alone_exhaustive :
    (∀ p ∈ twoPaths, p.available = true)
      ∧ Always step Exhaustive (start twoPaths 0)
        [.call, .draw 0, .dial 0 false, .draw 0, .dial 0 false] := by
  have havailable : ∀ p ∈ twoPaths, p.available = true := by decide
  exact ⟨havailable, (always_exhaustive_iff havailable 0 _).2 (by decide)⟩

/-- Two calls that take turns, with the first path down: the first call fails without having dialed
the second path, over which the other call connects. -/
theorem turns_not_exhaustive :
    let m := run step (start twoPaths 0)
      [.call, .call, .draw 0, .draw 1, .dial 0 false, .dial 1 true, .draw 0, .dial 0 false]
    m.calls = [⟨.returned false, [2, 0], [0, 0]⟩, ⟨.returned true, [1], []⟩] ∧ ¬ Exhaustive m := by
  refine ⟨by decide, ?_⟩
  intro h
  exact absurd (h ⟨.returned false, [2, 0], [0, 0]⟩ (by decide) rfl 1 (by decide)) (by decide)

end Multipath.RoundRobin
