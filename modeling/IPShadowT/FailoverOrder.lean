/-
# The order of the failover paths

`NewFailover` sorts the paths by priority (`sortPathsByPriority` in `core/failover.go`, an exchange
sort).

* `sortPathsByPriority_sorted`: the two nested loops leave a sorted list, and
  `sortPathsByPriority_perm`: it has the same paths;
* `newFailover_ordered`: the path that is active first has the best priority.
-/
import IPShadowT.FailoverRuns

open Runs

namespace Failover

/-! ## Sorting -/

/-- Before position `i`, every path is at least as good as all that follow it. -/
def SortedUpTo (i : ℕ) (ps : List PathInfo) : Prop :=
  ∀ a b p q, a < i → a < b → ps[a]? = some p → ps[b]? = some q →
    p.config.priority ≤ q.config.priority

/-- The path at position `i` is at least as good as those after it and before `m`. -/
def LeastUpTo (i m : ℕ) (ps : List PathInfo) : Prop :=
  ∀ b p q, i < b → b < m → ps[i]? = some p → ps[b]? = some q → p.config.priority ≤ q.config.priority

theorem leastUpTo_succ (i : ℕ) (ps : List PathInfo) : LeastUpTo i (i + 1) ps :=
  fun _ _ _ hib hb => absurd hb (Nat.not_lt.2 hib)

theorem getElem?_swap {ps : List PathInfo} {i j : ℕ} {p q : PathInfo} (hi : ps[i]? = some p)
    (hj : ps[j]? = some q) (k : ℕ) :
    (swap ps i j)[k]? = if k = j then some p else if k = i then some q else ps[k]? := by
  obtain ⟨hilt, -⟩ := List.getElem?_eq_some_iff.1 hi
  obtain ⟨hjlt, -⟩ := List.getElem?_eq_some_iff.1 hj
  unfold swap
  rw [hi, hj]
  by_cases hkj : k = j
  · subst hkj
    rw [if_pos rfl, List.getElem?_set_self (by rwa [List.length_set])]
  · rw [if_neg hkj, List.getElem?_set_ne (Ne.symm hkj)]
    by_cases hki : k = i
    · subst hki
      rw [if_pos rfl, List.getElem?_set_self hilt]
    · rw [if_neg hki, List.getElem?_set_ne (Ne.symm hki)]

theorem length_sortStep (i j : ℕ) (ps : List PathInfo) : (sortStep i ps j).length = ps.length := by
  unfold sortStep
  split
  · split
    · unfold swap
      split <;> simp
    · rfl
  · rfl

/-- The body of the inner loop: position `i` gets the better of two paths. -/
theorem sortStep_cases (i j : ℕ) (ps : List PathInfo) :
    (sortStep i ps j = ps ∧ ∀ p q, ps[i]? = some p → ps[j]? = some q →
        p.config.priority ≤ q.config.priority)
      ∨ ∃ p q, ps[i]? = some p ∧ ps[j]? = some q ∧ q.config.priority < p.config.priority
        ∧ ∀ k, (sortStep i ps j)[k]?
          = if k = j then some p else if k = i then some q else ps[k]? := by
  unfold sortStep
  split
  · rename_i q p hj hi
    split_ifs with hlt
    · exact Or.inr ⟨p, q, hi, hj, hlt, getElem?_swap hi hj⟩
    · refine Or.inl ⟨rfl, fun p' q' hp' hq' => ?_⟩
      obtain rfl : p = p' := Option.some.inj (hi.symm.trans hp')
      obtain rfl : q = q' := Option.some.inj (hj.symm.trans hq')
      omega
  · rename_i hnone
    exact Or.inl ⟨rfl, fun p q hp hq => absurd hp (hnone q p hq)⟩

theorem sortStep_sorted {i m : ℕ} {ps : List PathInfo} (him : i < m) (hs : SortedUpTo i ps)
    (hl : LeastUpTo i m ps) :
    SortedUpTo i (sortStep i ps m) ∧ LeastUpTo i (m + 1) (sortStep i ps m) := by
  obtain ⟨hsame, hle⟩ | ⟨x, y, hx, hy, hlt, hget⟩ := sortStep_cases i m ps
  · rw [hsame]
    refine ⟨hs, ?_⟩
    intro b p q hib hbm hp hq
    obtain hbm | rfl : b < m ∨ b = m := by omega
    · exact hl b p q hib hbm hp hq
    · exact hle p q hp hq
  · refine ⟨?_, ?_⟩
    · intro a b p q hai hab hp hq
      rw [hget, if_neg (by omega), if_neg (by omega)] at hp
      rw [hget] at hq
      split_ifs at hq with hbm hbi
      · obtain rfl := Option.some.inj hq
        exact hs a i p x hai hai hp hx
      · obtain rfl := Option.some.inj hq
        exact hs a m p y hai (by omega) hp hy
      · exact hs a b p q hai hab hp hq
    · intro b p q hib hbm hp hq
      rw [hget, if_neg (by omega), if_pos rfl] at hp
      obtain rfl := Option.some.inj hp
      rw [hget] at hq
      split_ifs at hq with hbm' hbi
      · obtain rfl := Option.some.inj hq
        exact Int.le_of_lt hlt
      · omega
      · have := hl b x q hib (by omega) hx hq
        omega

/-- The inner loop. -/
theorem foldl_sortStep {i m : ℕ} (c : ℕ) {ps : List PathInfo} (him : i < m)
    (hs : SortedUpTo i ps) (hl : LeastUpTo i m ps) :
    SortedUpTo i ((List.range' m c).foldl (sortStep i) ps)
      ∧ LeastUpTo i (m + c) ((List.range' m c).foldl (sortStep i) ps) := by
  induction c generalizing m ps with
  | zero => exact ⟨hs, hl⟩
  | succ c ih =>
    obtain ⟨hs', hl'⟩ := sortStep_sorted him hs hl
    rw [List.range'_succ, List.foldl_cons, show m + (c + 1) = m + 1 + c by omega]
    exact ih (by omega) hs' hl'

theorem length_foldl_sortStep (i : ℕ) (js : List ℕ) (ps : List PathInfo) :
    (js.foldl (sortStep i) ps).length = ps.length := by
  induction js generalizing ps with
  | nil => rfl
  | cons j js ih => rw [List.foldl_cons, ih, length_sortStep]

/-- The outer loop, after `k` rounds. -/
theorem foldl_sortRounds (paths : List PathInfo) (k : ℕ) :
    let ps := (List.range k).foldl (fun ps i =>
      (List.range' (i + 1) (paths.length - (i + 1))).foldl (sortStep i) ps) paths
    ps.length = paths.length ∧ SortedUpTo k ps := by
  induction k with
  | zero => exact ⟨rfl, fun a b p q ha => absurd ha (Nat.not_lt_zero a)⟩
  | succ k ih =>
    obtain ⟨hlen, hs⟩ := ih
    rw [List.range_succ, List.foldl_append]
    dsimp only [List.foldl_cons, List.foldl_nil]
    obtain ⟨hs', hl'⟩ := foldl_sortStep (paths.length - (k + 1)) (Nat.lt_succ_self k) hs
      (leastUpTo_succ k _)
    have hlen' := (length_foldl_sortStep k (List.range' (k + 1) (paths.length - (k + 1))) _).trans
      hlen
    refine ⟨hlen', ?_⟩
    intro a b p q ha hab hp hq
    obtain hak | rfl : a < k ∨ a = k := by omega
    · exact hs' a b p q hak hab hp hq
    · obtain ⟨hb, -⟩ := List.getElem?_eq_some_iff.1 hq
      exact hl' b p q hab (by omega) hp hq

/-- **`sortPathsByPriority` sorts.** -/
theorem sortPathsByPriority_sorted (paths : List PathInfo) :
    (sortPathsByPriority paths).Pairwise fun p q => p.config.priority ≤ q.config.priority := by
  obtain ⟨hlen, hs⟩ := foldl_sortRounds paths (paths.length - 1)
  rw [List.pairwise_iff_getElem]
  intro a b ha hb hab
  have hb' : b < paths.length := hlen ▸ hb
  exact hs a b _ _ (by omega) hab (List.getElem?_eq_getElem ha) (List.getElem?_eq_getElem hb)

/-! ## Exchanging -/

theorem swap_perm (ps : List PathInfo) (i j : ℕ) : (swap ps i j).Perm ps := by
  unfold swap
  split
  · rename_i p q hi hj
    obtain ⟨hilt, rfl⟩ := List.getElem?_eq_some_iff.1 hi
    obtain ⟨hjlt, rfl⟩ := List.getElem?_eq_some_iff.1 hj
    exact List.set_set_perm hilt hjlt
  · exact List.Perm.refl ps

theorem sortStep_perm (i : ℕ) (ps : List PathInfo) (j : ℕ) : (sortStep i ps j).Perm ps := by
  unfold sortStep
  split
  · split
    · exact swap_perm ps i j
    · exact List.Perm.refl ps
  · exact List.Perm.refl ps

/-- **`sortPathsByPriority` only exchanges paths.** -/
theorem sortPathsByPriority_perm (paths : List PathInfo) :
    (sortPathsByPriority paths).Perm paths := by
  -- both loops are runs, and what a round of them keeps is a permutation
  have hinner : ∀ (ps : List PathInfo) (i : ℕ) (js : List ℕ), ps.Perm paths →
      (run (sortStep i) ps js).Perm paths := by
    intro ps i js hps
    exact run_invariant (fun ps j h => (sortStep_perm i ps j).trans h) hps js
  exact run_invariant (fun ps i h => hinner ps i _ h) (List.Perm.refl paths)
    (List.range (paths.length - 1))

/-- **The order of the paths.**  Sorting gives a permutation in the order of the priorities, and the
path that `NewFailover` makes active is one of those it was given, with the smallest priority. -/
theorem newFailover_ordered :
    (∀ infos : List PathInfo, (sortPathsByPriority infos).Perm infos ∧
      (sortPathsByPriority infos).Pairwise fun p q => p.config.priority ≤ q.config.priority) ∧
    ∀ (paths : List PathConfig) (cfg : FailoverConfig) (clock : ℕ → Int), paths ≠ [] →
      ∃ p, (newFailover paths cfg clock).paths[(newFailover paths cfg clock).activePath]? = some p ∧
        p.config ∈ paths ∧ ∀ q ∈ paths, p.config.priority ≤ q.priority := by
  refine ⟨fun infos => ⟨sortPathsByPriority_perm infos, sortPathsByPriority_sorted infos⟩, ?_⟩
  intro paths cfg clock hne
  have hperm : ((newFailover paths cfg clock).paths.map (·.config)).Perm paths := by
    refine ((sortPathsByPriority_perm _).map _).trans (List.Perm.of_eq ?_)
    apply List.ext_getElem?
    intro k
    simp [Function.comp_def]
  have hsorted : (newFailover paths cfg clock).paths.Pairwise
      fun p q => p.config.priority ≤ q.config.priority := sortPathsByPriority_sorted _
  cases hlist : (newFailover paths cfg clock).paths with
  | nil =>
    rw [hlist] at hperm
    exact absurd hperm.nil_eq.symm hne
  | cons p rest =>
    rw [hlist] at hperm hsorted
    refine ⟨p, rfl, hperm.mem_iff.1 List.mem_cons_self, fun q hq => ?_⟩
    obtain ⟨info, hinfo, rfl⟩ := List.mem_map.1 (hperm.mem_iff.2 hq)
    rcases List.mem_cons.1 hinfo with rfl | hrest
    · exact Int.le_refl _
    · exact List.rel_of_pairwise_cons hsorted hrest

end Failover
