/-
# Turns by weight

Elements take turns by a counter: the counter is reduced modulo the sum of the weights, and every
element owns as many consecutive residues as its weight, in the order of the list.

`count_owner` counts the residues of each element in one round, and `countP_window` says that every
window of one round is fair.
-/
import Mathlib.Data.Nat.Periodic

namespace WeightedTurns

variable {α : Type*} (w : α → ℕ)

/-- Who owns the residue. -/
def owner : List α → ℕ → Option α
  | [], _ => none
  | x :: rest, r => if r < w x then some x else owner rest (r - w x)

variable {w}

theorem owner_cons_lt {x : α} {r : ℕ} (h : r < w x) (rest : List α) :
    owner w (x :: rest) r = some x := if_pos h

theorem owner_cons_add (x : α) (rest : List α) (r : ℕ) :
    owner w (x :: rest) (w x + r) = owner w rest r := by
  rw [owner, if_neg (Nat.not_lt.2 (Nat.le_add_right _ _)), Nat.add_sub_cancel_left]

/-- The owner is in the list. -/
theorem owner_mem {l : List α} {r : ℕ} {x : α} (h : owner w l r = some x) : x ∈ l := by
  induction l generalizing r with
  | nil => cases h
  | cons y rest ih =>
    rw [owner] at h
    split_ifs at h with hr
    · exact Option.some.inj h ▸ List.mem_cons_self
    · exact List.mem_cons_of_mem y (ih h)

/-- Every residue has an owner. -/
theorem exists_owner {l : List α} {r : ℕ} (h : r < (l.map w).sum) : ∃ x, owner w l r = some x := by
  induction l generalizing r with
  | nil => exact absurd h (Nat.not_lt_zero r)
  | cons y rest ih =>
    rw [owner]
    split_ifs with hr
    · exact ⟨y, rfl⟩
    · rw [List.map_cons, List.sum_cons] at h
      exact ih (by omega)

theorem owner_map {β : Type*} (f : β → α) (l : List β) (r : ℕ) :
    owner w (l.map f) r = (owner (fun y => w (f y)) l r).map f := by
  induction l generalizing r with
  | nil => rfl
  | cons y rest ih =>
    rw [List.map_cons, owner, owner]
    split_ifs
    · rfl
    · exact ih _

/-- With weight 1 it is the place. -/
theorem owner_one (l : List α) (r : ℕ) : owner (fun _ => 1) l r = l[r]? := by
  induction l generalizing r with
  | nil => rfl
  | cons x rest ih =>
    cases r with
    | zero => rfl
    | succ r => exact ih r

variable [DecidableEq α]

/-- **One round.** -/
theorem count_owner {l : List α} (hl : l.Nodup) {x : α} (hx : x ∈ l) :
    (l.map w).sum.count (fun r => owner w l r = some x) = w x := by
  induction l with
  | nil => cases hx
  | cons y rest ih =>
    obtain ⟨hy, hrest⟩ := List.nodup_cons.1 hl
    -- first the residues of the head, then those of the rest, moved up by its weight
    rw [List.map_cons, List.sum_cons, Nat.count_add]
    simp only [owner_cons_add]
    by_cases hyx : y = x
    · subst hyx
      have hhead : (w y).count (fun r => owner w (y :: rest) r = some y) = w y :=
        Nat.count_of_forall fun r hr => owner_cons_lt hr rest
      have htail : (rest.map w).sum.count (fun r => owner w rest r = some y) = 0 :=
        Nat.count_iff_forall_not.2 fun r _ h => hy (owner_mem h)
      rw [hhead, htail, Nat.add_zero]
    · have hhead : (w y).count (fun r => owner w (y :: rest) r = some x) = 0 := by
        apply Nat.count_iff_forall_not.2
        intro r hr h
        rw [owner_cons_lt hr] at h
        exact hyx (Option.some.inj h)
      rw [hhead, Nat.zero_add]
      exact ih hrest ((List.mem_cons.1 hx).resolve_left (Ne.symm hyx))

/-- **A window.** -/
theorem countP_window (w : α → ℕ) {l : List α} (hl : l.Nodup) {x : α} (hx : x ∈ l) (n : ℕ) :
    (List.range' n (l.map w).sum).countP (fun k => owner w l (k % (l.map w).sum) = some x) =
      w x := by
  generalize hW : (l.map w).sum = W
  have hperiodic : Function.Periodic (fun k => owner w l (k % W) = some x) W := by
    intro k
    show (owner w l ((k + W) % W) = some x) = (owner w l (k % W) = some x)
    rw [Nat.add_mod_right]
  have hwindow := Nat.filter_Ico_card_eq_of_periodic n W _ hperiodic
  have hround : W.count (fun k => owner w l (k % W) = some x) = w x := by
    have hbase : (l.map w).sum.count (fun k => owner w l k = some x) = w x := count_owner hl hx
    rw [hW, Nat.count_eq_card_filter_range] at hbase
    rw [← hbase, Nat.count_eq_card_filter_range]
    congr 1
    apply Finset.filter_congr
    intro k hk
    rw [Nat.mod_eq_of_lt (Finset.mem_range.1 hk)]
  rw [← hround, ← hwindow, List.countP_eq_length_filter]
  show _ = ((List.range' n (n + W - n)).filter _).length
  rw [Nat.add_sub_cancel_left]

end WeightedTurns
