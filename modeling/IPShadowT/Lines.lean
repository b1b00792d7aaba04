/-
# Lines of goroutines that copy

What is sent through a row of goroutines, each of which reads what comes to it, holds it, and
writes it for the next, is in many places at once.  A line numbers the stages from the sender on;
the receiver is a stage like the others, which reads and never writes.

`flow l n` is all that is in the stages up to `n`, the oldest first.  Reading and passing on do not
change it: `flow_read`, `flow_pass`.  So what has reached the last stage is always the beginning of
what has been sent: `incoming_prefix_flow`.
-/
import Mathlib.Data.List.Basic
import Mathlib.Logic.Function.Basic

namespace Lines

variable {α : Type*}

/-- A goroutine that copies, with what is on the way to it. -/
structure Stage (α : Type*) where
  /-- written for it and not yet read -/
  incoming : List α
  /-- whether the end of what is written for it has been set -/
  fin : Bool
  /-- read and not yet written -/
  held : List α
  /-- how much it has written -/
  passed : ℕ
  /-- whether it has returned -/
  ended : Bool

/-- A stage to which nothing has come. -/
def Stage.fresh : Stage α := ⟨[], false, [], 0, false⟩

/-- What a stage has, the oldest first. -/
def Stage.content (s : Stage α) : List α := s.held ++ s.incoming

/-- The stages, from the one next to the sender on. -/
abbrev Line (α : Type*) := ℕ → Stage α

namespace Line

/-- A line before anything has been sent. -/
def fresh : Line α := fun _ => .fresh

/-- A change at stage `i`. -/
def modify (l : Line α) (i : ℕ) (f : Stage α → Stage α) : Line α := Function.update l i (f (l i))

@[simp] theorem modify_self (l : Line α) (i : ℕ) (f : Stage α → Stage α) :
    l.modify i f i = f (l i) :=
  Function.update_self ..

@[simp] theorem modify_of_ne (l : Line α) {i j : ℕ} (h : j ≠ i) (f : Stage α → Stage α) :
    l.modify i f j = l j :=
  Function.update_of_ne h ..

/-- Something is written for stage `i`. -/
def give (l : Line α) (i : ℕ) (b : List α) : Line α :=
  l.modify i fun s => { s with incoming := s.incoming ++ b }

/-- No more will be written for stage `i`. -/
def close (l : Line α) (i : ℕ) : Line α := l.modify i fun s => { s with fin := true }

/-- The goroutine of stage `i` returns. -/
def finish (l : Line α) (i : ℕ) : Line α := l.modify i fun s => { s with ended := true }

/-- The goroutine of stage `i` reads at most `k`. -/
def read (l : Line α) (i k : ℕ) : Line α :=
  l.modify i fun s =>
    { s with held := s.held ++ s.incoming.take k, incoming := s.incoming.drop k }

/-- The goroutine of stage `i` writes the first `k` of what it holds. -/
def pass (l : Line α) (i k : ℕ) : Line α :=
  (l.modify i fun s =>
    { s with held := s.held.drop k, passed := s.passed + (s.held.take k).length }).give (i + 1)
      ((l i).held.take k)

section Stages

variable (l : Line α) {i j : ℕ} (k : ℕ) (b : List α)

@[simp] theorem give_self :
    l.give i b i = { l i with incoming := (l i).incoming ++ b } := modify_self ..

@[simp] theorem give_of_ne (h : j ≠ i) : l.give i b j = l j := modify_of_ne l h _

/-- Giving nothing. -/
theorem give_nil : l.give i [] = l := by
  funext j
  by_cases hj : j = i <;> simp [hj]

@[simp] theorem read_self : l.read i k i =
    { l i with
      held := (l i).held ++ (l i).incoming.take k, incoming := (l i).incoming.drop k } :=
  modify_self ..

@[simp] theorem pass_self : l.pass i k i =
    { l i with
      held := (l i).held.drop k, passed := (l i).passed + ((l i).held.take k).length } := by
  rw [pass, give_of_ne _ _ (Nat.ne_of_lt (Nat.lt_succ_self i)), modify_self]

/-- What the next stage gets. -/
@[simp] theorem pass_succ : l.pass i k (i + 1) =
    { l (i + 1) with incoming := (l (i + 1)).incoming ++ (l i).held.take k } := by
  rw [pass, give_self, modify_of_ne _ (Nat.succ_ne_self i)]

theorem pass_of_ne (h : j ≠ i) (h' : j ≠ i + 1) : l.pass i k j = l j := by
  rw [pass, give_of_ne _ _ h', modify_of_ne _ h]

end Stages

/-- All that is in the stages up to `n`, the oldest first. -/
def flow (l : Line α) : ℕ → List α
  | 0 => (l 0).content
  | n + 1 => (l (n + 1)).content ++ flow l n

/-! ## What does not change -/

/-- What a line holds decides its flow. -/
theorem flow_congr {l l' : Line α} {n : ℕ} (h : ∀ j ≤ n, (l j).content = (l' j).content) :
    l.flow n = l'.flow n := by
  induction n with
  | zero => exact h 0 (Nat.le_refl 0)
  | succ n ih =>
    have hbelow : l.flow n = l'.flow n := ih fun j hj => h j (Nat.le_succ_of_le hj)
    rw [flow, flow, h (n + 1) (Nat.le_refl _), hbelow]

/-- A change that a stage does not show in what it has. -/
theorem flow_modify (l : Line α) (i n : ℕ) {f : Stage α → Stage α}
    (hf : (f (l i)).content = (l i).content) : (l.modify i f).flow n = l.flow n := by
  apply flow_congr
  intro j _
  by_cases hj : j = i
  · rw [hj, modify_self, hf]
  · rw [modify_of_ne l hj]

/-- Two lines with the same things in the same places. -/
def Same (l l' : Line α) : Prop :=
  ∀ j, (l j).held = (l' j).held ∧ (l j).incoming = (l' j).incoming

theorem same_modify (l : Line α) (i : ℕ) {f : Stage α → Stage α}
    (hheld : (f (l i)).held = (l i).held) (hin : (f (l i)).incoming = (l i).incoming) :
    Same (l.modify i f) l := by
  intro j
  by_cases hj : j = i
  · rw [hj, modify_self]
    exact ⟨hheld, hin⟩
  · rw [modify_of_ne l hj]
    exact ⟨rfl, rfl⟩

/-- Closing moves nothing. -/
theorem same_close (l : Line α) (i : ℕ) : Same (l.close i) l := same_modify l i rfl rfl

/-- Nor does ending. -/
theorem same_finish (l : Line α) (i : ℕ) : Same (l.finish i) l := same_modify l i rfl rfl

theorem Same.trans {l l' l'' : Line α} (h : Same l l') (h' : Same l' l'') : Same l l'' :=
  fun j => ⟨(h j).1.trans (h' j).1, (h j).2.trans (h' j).2⟩

/-- Then the flow is the same. -/
theorem Same.flow {l l' : Line α} (h : Same l l') (n : ℕ) : l.flow n = l'.flow n := by
  apply flow_congr
  intro j _
  rw [Stage.content, (h j).1, (h j).2, Stage.content]

/-- **Reading keeps the flow.** -/
@[simp] theorem flow_read (l : Line α) (i k n : ℕ) : (l.read i k).flow n = l.flow n := by
  apply flow_modify
  simp [Stage.content]

/-- What is sent comes behind everything else. -/
theorem flow_give_zero (l : Line α) (b : List α) (n : ℕ) : (l.give 0 b).flow n = l.flow n ++ b := by
  induction n with
  | zero => simp [flow, give, Stage.content]
  | succ n ih =>
    have hstage : l.give 0 b (n + 1) = l (n + 1) := give_of_ne l b (Nat.succ_ne_zero n)
    rw [flow, flow, ih, hstage, List.append_assoc]

/-- What is written at the last stage comes between what is there and what is on the way. -/
theorem flow_give_succ (l : Line α) (b : List α) (n : ℕ) :
    (l.give (n + 1) b).flow (n + 1) = (l (n + 1)).content ++ (b ++ l.flow n) := by
  have hbelow : (l.give (n + 1) b).flow n = l.flow n := by
    apply flow_congr
    intro j hj
    rw [give_of_ne l b (by omega)]
  rw [flow, hbelow]
  simp [give, Stage.content]

/-- What is taken from the front of a stage is taken from the front of what is up to it. -/
theorem flow_drop_held (l : Line α) (n k : ℕ) {f : Stage α → Stage α}
    (hheld : (f (l n)).held = (l n).held.drop k) (hin : (f (l n)).incoming = (l n).incoming) :
    (l n).held.take k ++ (l.modify n f).flow n = l.flow n := by
  have hcontent : (l n).held.take k ++ (f (l n)).content = (l n).content := by
    rw [Stage.content, hheld, hin, ← List.append_assoc, List.take_append_drop, Stage.content]
  cases n with
  | zero => rw [flow, modify_self, hcontent, flow]
  | succ n =>
    have hbelow : (l.modify (n + 1) f).flow n = l.flow n := by
      apply flow_congr
      intro j hj
      rw [modify_of_ne l (by omega)]
    rw [flow, modify_self, hbelow, ← List.append_assoc, hcontent, flow]

/-- **A write moves things along the line.** -/
theorem flow_pass (l : Line α) {i n : ℕ} (hi : i < n) (k : ℕ) : (l.pass i k).flow n = l.flow n := by
  induction n with
  | zero => cases hi
  | succ n ih =>
    rcases Nat.lt_succ_iff_lt_or_eq.1 hi with hlt | rfl
    · -- below the last stage
      have hstage : l.pass i k (n + 1) = l (n + 1) := pass_of_ne l k (by omega) (by omega)
      rw [flow, flow, ih hlt, hstage]
    · rw [pass, flow_give_succ, modify_of_ne _ (Nat.succ_ne_self i), flow_drop_held l i k rfl rfl,
        flow]

/-! ## The last stage -/

/-- **What has come out is the beginning of what has been sent.** -/
theorem incoming_prefix_flow {l : Line α} {n : ℕ} (h : (l n).held = []) :
    (l n).incoming <+: l.flow n := by
  have hcontent : (l n).content = (l n).incoming := by rw [Stage.content, h, List.nil_append]
  cases n with
  | zero => exact hcontent ▸ List.prefix_refl _
  | succ n =>
    rw [flow, hcontent]
    exact List.prefix_append ..

end Line

end Lines
