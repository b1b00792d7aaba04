/-
# Runs of a step function

A system whose nondeterminism has been moved into its events is a function
`step : σ → ε → σ`, and a run is a list of events.  This module has the
vocabulary the safety arguments are written in:

* `run step s es`, the state a run ends in;
* `EachStep step Ok s es`, "every step of the run meets `Ok`", where `Ok` may
  look at the state before the step and at the event;
* `Always step P s es`, "every state the run goes through satisfies `P`";
* `run_simulation`, for two systems that take their steps together.

An event that is not enabled leaves the state as it is.
-/
import Mathlib.Data.List.Basic

namespace Runs

variable {σ ε : Type*}

section Total

variable (step : σ → ε → σ)

/-- The state that the run over the events `es` from `s` ends in. -/
def run (s : σ) (es : List ε) : σ := es.foldl step s

/-- Every step of the run meets `Ok`. -/
def EachStep (Ok : σ → ε → Prop) : σ → List ε → Prop
  | _, [] => True
  | s, e :: es => Ok s e ∧ EachStep Ok (step s e) es

instance EachStep.decidable (Ok : σ → ε → Prop) [∀ s e, Decidable (Ok s e)] :
    (s : σ) → (es : List ε) → Decidable (EachStep step Ok s es)
  | _, [] => inferInstanceAs (Decidable True)
  | s, e :: es =>
    have := EachStep.decidable Ok (step s e) es
    inferInstanceAs (Decidable (Ok s e ∧ EachStep step Ok (step s e) es))

/-- Every state of the run, the first and the last included, satisfies `P`. -/
def Always (P : σ → Prop) : σ → List ε → Prop
  | s, [] => P s
  | s, e :: es => P s ∧ Always P (step s e) es

@[simp] theorem run_nil (s : σ) : run step s [] = s := rfl

@[simp] theorem run_cons (s : σ) (e : ε) (es : List ε) :
    run step s (e :: es) = run step (step s e) es := rfl

variable {step}

/-- The first state. -/
theorem Always.head {P : σ → Prop} {s : σ} {es : List ε} (h : Always step P s es) : P s := by
  cases es with
  | nil => exact h
  | cons e es => exact h.1

/-- The last state. -/
theorem Always.last {P : σ → Prop} {s : σ} {es : List ε} (h : Always step P s es) :
    P (run step s es) := by
  induction es generalizing s with
  | nil => exact h
  | cons e es ih => exact ih h.2

theorem Always.mono {P Q : σ → Prop} (hPQ : ∀ s, P s → Q s) {s : σ} {es : List ε}
    (h : Always step P s es) : Always step Q s es := by
  induction es generalizing s with
  | nil => exact hPQ s h
  | cons e es ih => exact ⟨hPQ s h.1, ih h.2⟩

/-- Two runs in a row. -/
theorem run_append (s : σ) (es es' : List ε) :
    run step s (es ++ es') = run step (run step s es) es' :=
  List.foldl_append

theorem Always.append {P : σ → Prop} {s : σ} {es es' : List ε} (h : Always step P s es)
    (h' : Always step P (run step s es) es') : Always step P s (es ++ es') := by
  induction es generalizing s with
  | nil => exact h'
  | cons e es ih => exact ⟨h.1, ih h.2 h'⟩

/-- **The invariant rule.**  What every step preserves, every run preserves. -/
theorem run_invariant {I : σ → Prop} (hstep : ∀ s e, I s → I (step s e)) {s : σ} (hI : I s)
    (es : List ε) : I (run step s es) := by
  induction es generalizing s with
  | nil => exact hI
  | cons e es ih => exact ih (hstep s e hI)

/-- **The simulation rule.**  Two step functions whose steps keep a relation between their
states keep it over whole runs. -/
theorem run_simulation {τ : Type*} {step' : τ → ε → τ} {R : σ → τ → Prop}
    (hstep : ∀ s t e, R s t → R (step s e) (step' t e)) {s : σ} {t : τ} (hR : R s t)
    (es : List ε) : R (run step s es) (run step' t es) := by
  induction es generalizing s t with
  | nil => exact hR
  | cons e es ih => exact ih (hstep s t e hR)

/-- No step can fail. -/
theorem EachStep.of_forall {Ok : σ → ε → Prop} (h : ∀ s e, Ok s e) (s : σ) (es : List ε) :
    EachStep step Ok s es := by
  induction es generalizing s with
  | nil => trivial
  | cons e es ih => exact ⟨h s e, ih (step s e)⟩

/-- The invariant rule for guarded runs, in both directions: if a step that the environment
`G` allows, from a state that satisfies `I`, leads to one that does exactly when it meets
`Ok`, then a run that the environment allows stays in `I` exactly when all its steps meet
`Ok`.  An invariant `J` that every step preserves may be relied on. -/
theorem always_iff_eachStep_of_guard {G Ok : σ → ε → Prop} {I J : σ → Prop}
    (hJ : ∀ s e, J s → J (step s e))
    (hstep : ∀ s e, J s → G s e → I s → (I (step s e) ↔ Ok s e)) {s : σ} (hs : J s) (hI : I s)
    {es : List ε} (hG : EachStep step G s es) :
    Always step I s es ↔ EachStep step Ok s es := by
  induction es generalizing s with
  | nil => exact iff_of_true hI trivial
  | cons e es ih =>
    have hnext : I (step s e) ↔ Ok s e := hstep s e hs hG.1 hI
    constructor
    · rintro ⟨-, hes⟩
      exact ⟨hnext.1 hes.head, (ih (hJ s e hs) hes.head hG.2).1 hes⟩
    · rintro ⟨he, hes⟩
      exact ⟨hI, (ih (hJ s e hs) (hnext.2 he) hG.2).2 hes⟩

/-- What the steps that the environment allows preserve, the runs that it allows preserve. -/
theorem Always.of_eachStep {G : σ → ε → Prop} {I : σ → Prop}
    (hstep : ∀ s e, I s → G s e → I (step s e)) {s : σ} (hI : I s) {es : List ε}
    (hG : EachStep step G s es) : Always step I s es := by
  induction es generalizing s with
  | nil => exact hI
  | cons e es ih => exact ⟨hI, ih (hstep s e hI hG.1) hG.2⟩

/-- The same for an environment that allows everything. -/
theorem always_iff_eachStep_of_invariant {Ok : σ → ε → Prop} {I J : σ → Prop}
    (hJ : ∀ s e, J s → J (step s e)) (hstep : ∀ s e, J s → I s → (I (step s e) ↔ Ok s e))
    {s : σ} (hs : J s) (hI : I s) (es : List ε) :
    Always step I s es ↔ EachStep step Ok s es := by
  have hG : EachStep step (fun _ _ => True) s es := .of_forall (fun _ _ => trivial) s es
  exact always_iff_eachStep_of_guard hJ (fun t e ht _ => hstep t e ht) hs hI hG

/-- The same without an invariant. -/
theorem always_iff_eachStep {Ok : σ → ε → Prop} {I : σ → Prop}
    (hstep : ∀ s e, I s → (I (step s e) ↔ Ok s e)) {s : σ} (hI : I s) (es : List ε) :
    Always step I s es ↔ EachStep step Ok s es :=
  have hJ : ∀ (_ : σ) (_ : ε), True → True := fun _ _ => id
  always_iff_eachStep_of_invariant hJ (fun t e _ => hstep t e) trivial hI es

/-- What follows from `I` before a step and from `Ok` of the step holds at every step of a
run that stays in `I` and meets `Ok`. -/
theorem EachStep.of_always {I : σ → Prop} {Ok Q : σ → ε → Prop}
    (hQ : ∀ s e, I s → Ok s e → Q s e) {s : σ} {es : List ε}
    (hI : Always step I s es) (hok : EachStep step Ok s es) : EachStep step Q s es := by
  induction es generalizing s with
  | nil => trivial
  | cons e es ih => exact ⟨hQ s e hI.1 hok.1, ih hI.2 hok.2⟩

/-- Two demands on the steps that come to the same from the states of an invariant, which the
second keeps, come to the same over a run. -/
theorem eachStep_iff_of_invariant {P Q : σ → ε → Prop} {I : σ → Prop}
    (hI : ∀ s e, I s → Q s e → I (step s e)) (hPQ : ∀ s e, I s → (P s e ↔ Q s e)) {s : σ}
    (hs : I s) (es : List ε) : EachStep step P s es ↔ EachStep step Q s es := by
  induction es generalizing s with
  | nil => exact Iff.rfl
  | cons e es ih =>
    have hnow : P s e ↔ Q s e := hPQ s e hs
    constructor
    · rintro ⟨he, hes⟩
      have he' := hnow.1 he
      exact ⟨he', (ih (hI s e hs he')).1 hes⟩
    · rintro ⟨he, hes⟩
      exact ⟨hnow.2 he, (ih (hI s e hs he)).2 hes⟩

/-- Two demands that come to the same for every step come to the same over a run. -/
theorem eachStep_congr {P Q : σ → ε → Prop} (hPQ : ∀ s e, P s e ↔ Q s e) (s : σ) (es : List ε) :
    EachStep step P s es ↔ EachStep step Q s es := by
  apply eachStep_iff_of_invariant (I := fun _ => True)
  · exact fun _ _ _ _ => trivial
  · exact fun t e _ => hPQ t e
  · trivial

/-- Two systems that take their steps together, where the environment `G` of the first allows it:
a demand on the steps of the one comes to a demand on the steps of the other. -/
theorem eachStep_iff_of_simulation {τ ε' : Type*} {step' : τ → ε' → τ} {f : ε → ε'}
    {R : σ → τ → Prop} {G P : σ → ε → Prop} {Q : τ → ε' → Prop}
    (hstep : ∀ s t e, R s t → R (step s e) (step' t (f e)))
    (hPQ : ∀ s t e, R s t → G s e → (P s e ↔ Q t (f e))) {s : σ} {t : τ} (hR : R s t)
    {es : List ε} (hG : EachStep step G s es) :
    EachStep step P s es ↔ EachStep step' Q t (es.map f) := by
  induction es generalizing s t with
  | nil => exact Iff.rfl
  | cons e es ih => exact and_congr (hPQ s t e hR hG.1) (ih (hstep s t e hR) hG.2)

/-- What only grows is bounded in every step of a run by its bound at the end. -/
theorem EachStep.of_run_lt {f : σ → ℕ} (hmono : ∀ s e, f s ≤ f (step s e)) {n : ℕ} {s : σ}
    {es : List ε} (h : f (run step s es) < n) :
    EachStep step (fun s e => f (step s e) < n) s es := by
  induction es generalizing s with
  | nil => trivial
  | cons e es ih =>
    have hle : f (step s e) ≤ f (run step (step s e) es) :=
      run_invariant (I := fun t => f (step s e) ≤ f t)
        (fun t e' ht => Nat.le_trans ht (hmono t e')) (Nat.le_refl _) es
    exact ⟨Nat.lt_of_le_of_lt hle h, ih h⟩

/-- **The point of no return.**  Steps that meet `Ok` stay among the good states, the first
step that does not leads to a doomed one, and doomed states stay doomed: so a run ends
good if all its steps meet `Ok`, and doomed otherwise. -/
theorem good_or_doomed {Ok : σ → ε → Prop} (Good Doomed : σ → Prop)
    (hgood : ∀ s e, Good s → Ok s e → Good (step s e))
    (hbad : ∀ s e, Good s → ¬ Ok s e → Doomed (step s e))
    (hdoomed : ∀ s e, Doomed s → Doomed (step s e)) {s : σ} (hs : Good s) (es : List ε) :
    (EachStep step Ok s es ∧ Good (run step s es)) ∨
      (¬ EachStep step Ok s es ∧ Doomed (run step s es)) := by
  induction es generalizing s with
  | nil => exact .inl ⟨trivial, hs⟩
  | cons e es ih =>
    by_cases he : Ok s e
    · rcases ih (hgood s e hs he) with ⟨hes, hend⟩ | ⟨hes, hend⟩
      · exact .inl ⟨⟨he, hes⟩, hend⟩
      · exact .inr ⟨fun h => hes h.2, hend⟩
    · have hend := run_invariant hdoomed (hbad s e hs he) es
      exact .inr ⟨fun h => he h.1, hend⟩

end Total

/-! ## Two ends

The ends of a connection are a function of a boolean. -/

section Ends

variable {α : Type*}

/-- A pair, from its entry at `i` and the other. -/
def pair (i : Bool) (self other : α) : Bool → α := fun j => if j = i then self else other

/-- This end. -/
@[simp] theorem pair_self (i : Bool) (a b : α) : pair i a b i = a := if_pos rfl

/-- The other end. -/
@[simp] theorem pair_not (i : Bool) (a b : α) : pair i a b (!i) = b :=
  if_neg (by cases i <;> decide)

theorem pair_eq (f : Bool → α) (i : Bool) : pair i (f i) (f !i) = f := by
  funext j
  unfold pair
  split_ifs with hj
  · rw [hj]
  · rw [Bool.eq_not_of_ne hj]

theorem pair_forall {P : α → Prop} {a b : α} (ha : P a) (hb : P b) (i j : Bool) :
    P (pair i a b j) := by
  unfold pair
  split_ifs
  · exact ha
  · exact hb

/-- What holds at an end and at the other holds at both. -/
theorem forall_pair {P : Bool → Prop} (i : Bool) (hself : P i) (hother : P (!i)) (j : Bool) :
    P j := by
  by_cases hj : j = i
  · rwa [hj]
  · rwa [Bool.eq_not_of_ne hj]

end Ends

/-! ## Goroutines

The goroutines of a system are a list of what each has yet to do, and a step of
goroutine `k` replaces the `k`-th entry. -/

section Goroutines

variable {τ : Type*}

/-- How many goroutines satisfy `p`, when one of them goes on. -/
theorem countP_set_add (p : τ → Bool) {l : List τ} {k : ℕ} {t : τ} (h : l[k]? = some t)
    (t' : τ) : (l.set k t').countP p + (p t).toNat = l.countP p + (p t').toNat := by
  induction l generalizing k with
  | nil => cases h
  | cons a l ih =>
    cases k with
    | zero =>
      obtain rfl : a = t := Option.some.inj h
      simp only [List.set_cons_zero, List.countP_cons]
      cases p a <;> cases p t' <;> simp
    | succ k =>
      have hk := ih (k := k) h
      simp only [List.set_cons_succ, List.countP_cons]
      omega

/-- The same, when one is started. -/
theorem countP_append_singleton (p : τ → Bool) (l : List τ) (t : τ) :
    (l ++ [t]).countP p = l.countP p + (p t).toNat := by
  rw [List.countP_append, List.countP_singleton]
  cases p t <;> rfl

/-- A goroutine that stays where it is. -/
theorem set_eq_self {l : List τ} {k : ℕ} {t : τ} (h : l[k]? = some t) : l.set k t = l := by
  obtain ⟨hlt, rfl⟩ := List.getElem?_eq_some_iff.1 h
  exact List.set_getElem_self hlt

/-- The goroutines after one more has been started. -/
theorem getElem?_append_singleton_iff {l : List τ} {t u : τ} {i : ℕ} :
    (l ++ [t])[i]? = some u ↔ l[i]? = some u ∨ (i = l.length ∧ t = u) := by
  rcases Nat.lt_trichotomy i l.length with hlt | rfl | hgt
  · simp [List.getElem?_append_left hlt, Nat.ne_of_lt hlt]
  · simp
  · have hnone : l[i]? = none := List.getElem?_eq_none (Nat.le_of_lt hgt)
    have hnone' : (l ++ [t])[i]? = none :=
      List.getElem?_eq_none (by rw [List.length_append, List.length_singleton]; omega)
    simp [hnone, hnone', Nat.ne_of_gt hgt]

/-- What goroutine `i` has to do after goroutine `k` went on. -/
theorem getElem?_set_cases {l : List τ} {k i : ℕ} {t' u : τ} (h : (l.set k t')[i]? = some u) :
    (i = k ∧ u = t') ∨ l[i]? = some u := by
  by_cases hki : k = i
  · subst hki
    have hlt : k < (l.set k t').length := (List.getElem?_eq_some_iff.1 h).1
    rw [List.length_set] at hlt
    rw [List.getElem?_set_self hlt] at h
    exact .inl ⟨rfl, (Option.some.inj h).symm⟩
  · rw [List.getElem?_set_ne hki] at h
    exact .inr h

/-- A goroutine that is not the one that goes on stays where it is. -/
theorem mem_set_of_ne {l : List τ} {k : ℕ} {t x : τ} (h : l[k]? = some t) (hx : x ∈ l)
    (hne : x ≠ t) (t' : τ) : x ∈ l.set k t' := by
  obtain ⟨i, hi⟩ := List.mem_iff_getElem?.1 hx
  have hki : k ≠ i := by
    rintro rfl
    exact hne (Option.some.inj (hi.symm.trans h))
  exact List.mem_iff_getElem?.2 ⟨i, by rw [List.getElem?_set_ne hki, hi]⟩

end Goroutines

/-! ## Accounting

Things that are made one after the other are numbered in that order.  In a system that
neither loses nor copies them, each thing that has been made is in one place. -/

section Accounting

/-- Each of the first `n` things is in exactly one place, and no other thing is in any;
`places c` is the number of places where the `c`-th is. -/
def OnePlace (places : ℕ → ℕ) (n : ℕ) : Prop := ∀ c, places c = if c < n then 1 else 0

variable {places places' : ℕ → ℕ} {n : ℕ}

/-- A thing that moves is still in one place. -/
theorem OnePlace.move (h : OnePlace places n) (hmove : ∀ c, places' c = places c) :
    OnePlace places' n :=
  fun c => (hmove c).trans (h c)

/-- A new thing, and the one place where it is. -/
theorem OnePlace.make (h : OnePlace places n)
    (hmake : ∀ c, places' c = places c + (decide (n = c)).toNat) : OnePlace places' (n + 1) := by
  intro c
  rw [hmake, h c]
  rcases Nat.lt_trichotomy c n with hlt | rfl | hgt
  · rw [if_pos hlt, if_pos (Nat.lt_succ_of_lt hlt), decide_eq_false (Nat.ne_of_gt hlt)]
    rfl
  · rw [if_neg (Nat.lt_irrefl c), if_pos (Nat.lt_succ_self c), decide_eq_true rfl]
    rfl
  · rw [if_neg (Nat.lt_asymm hgt), if_neg (by omega), decide_eq_false (Nat.ne_of_lt hgt)]
    rfl

theorem count_cons_toNat {α : Type*} [BEq α] [LawfulBEq α] [DecidableEq α] (c x : α)
    (l : List α) : (x :: l).count c = l.count c + (decide (x = c)).toNat := by
  by_cases h : x = c
  · simp [h]
  · simp [h]

end Accounting

end Runs
