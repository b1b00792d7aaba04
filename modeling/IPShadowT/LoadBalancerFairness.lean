/-
# Fairness of the load balancer

Model of the sequence of backends that `GetBackend` of `internal/loadbalancer/balancer.go` returns.
Between two calls anything may happen that leaves the healthy backends and their weights as they
are (`KeepsShares`).

Both counting strategies hand out turns by weight: weighted by the weights of the backends
(`place_weighted`), round robin by weight 1 for all (`place_roundRobin`).  So every window of one
round is fair, from any counter on that stays an `int` (`getBackend_fair`).
-/
import IPShadowT.LoadBalancer
import IPShadowT.WeightedTurns

open Go (Arch item)
open Runs WeightedTurns

namespace LoadBalancer

/-! ## What the calls return -/

/-- The weights and the places of the healthy backends. -/
def Balancer.shares (b : Balancer) : List (ℤ × ℕ) := b.getHealthy.map fun x => (x.1.weight, x.2)

/-- The place of the backend that a call returns. -/
def place : Go GetError (Option Ref) → Option ℕ
  | .ok (some x) => some x.2
  | _ => none

/-- What the calls of `GetBackend` return, one after the other. -/
def places (a : Arch) : Balancer → List Event → List (Option ℕ)
  | _, [] => []
  | b, ev :: es =>
    match ev with
    | .getBackend clientIP => place (b.getBackend a clientIP) :: places a (step b ev) es
    | _ => places a (step b ev) es

/-- The step changes neither the healthy backends nor their weights. -/
def KeepsShares (b : Balancer) (ev : Event) : Prop := (step b ev).shares = b.shares

instance KeepsShares.decidable (b : Balancer) (ev : Event) : Decidable (KeepsShares b ev) :=
  inferInstanceAs (Decidable (_ = _))

/-- The place whose turn it is at a value of the counter. -/
def turn (w : ℤ × ℕ → ℕ) (shares : List (ℤ × ℕ)) (k : ℕ) : Option ℕ :=
  (owner w shares (k % (shares.map w).sum)).map Prod.snd

theorem nodup_shares (b : Balancer) : (b.shares.map Prod.snd).Nodup := by
  have hsub : (b.getHealthy.map Prod.snd).Sublist (b.backends.zipIdx.map Prod.snd) :=
    List.filter_sublist.map Prod.snd
  rw [List.zipIdx_map_snd] at hsub
  rw [Balancer.shares, List.map_map]
  exact hsub.nodup List.nodup_range'

/-- **A window of turns is fair.** -/
theorem count_turn {w : ℤ × ℕ → ℕ} {shares : List (ℤ × ℕ)} (h : (shares.map Prod.snd).Nodup)
    {x : ℤ × ℕ} (hx : x ∈ shares) (m : ℕ) :
    ((List.range' m (shares.map w).sum).map (turn w shares)).count (some x.2) = w x := by
  rw [← countP_window w h.of_map hx m, List.count, List.countP_map]
  apply List.countP_congr
  intro k _
  -- the place determines the backend
  show (turn w shares k == some x.2) = true ↔ decide (_ = some x) = true
  rw [beq_iff_eq, decide_eq_true_iff, turn, Option.map_eq_some_iff]
  constructor
  · rintro ⟨y, hy, hyx⟩
    rw [hy, List.inj_on_of_nodup_map h (owner_mem hy) hx hyx]
  · intro hk
    exact ⟨x, hk, rfl⟩

/-! ## One call -/

variable {b : Balancer} {l : List Ref} {m : ℕ}

section Call

variable {a : Arch}

/-- Where nothing wraps around, the walk of `weighted` finds the owner of the index. -/
theorem walk_eq_owner (hpos : ∀ x ∈ l, 0 < x.1.weight) (hmax : (l.map (·.1.weight)).sum ≤ a.maxInt)
    {r : ℕ} (hr : (r : ℤ) ≤ a.maxInt) :
    walk a r l = owner (fun x => x.1.weight.toNat) l r := by
  induction l generalizing r with
  | nil => rfl
  | cons x rest ih =>
    have hx := hpos x List.mem_cons_self
    have hrest : ∀ y ∈ rest, 0 < y.1.weight := fun y hy => hpos y (List.mem_cons_of_mem x hy)
    have hsum : 0 ≤ (rest.map (·.1.weight)).sum := by
      apply List.sum_nonneg
      exact List.forall_mem_map.2 fun y hy => Int.le_of_lt (hrest y hy)
    rw [List.map_cons, List.sum_cons] at hmax
    have hint : a.int (r - x.1.weight) = r - x.1.weight := Arch.int_of_le (by omega) (by omega)
    rw [walk, owner, hint]
    by_cases hlt : r < x.1.weight.toNat
    · rw [if_pos hlt]
      exact if_pos (by omega)
    · rw [if_neg hlt]
      have hcast : (r : ℤ) - x.1.weight = ((r - x.1.weight.toNat : ℕ) : ℤ) := by omega
      show (if (r : ℤ) - x.1.weight < 0 then some x else walk a (r - x.1.weight) rest) = _
      rw [if_neg (by omega), hcast]
      exact ih hrest (by omega) (by omega)

theorem map_shares {β : Type} (b : Balancer) (f : ℤ × ℕ → β) :
    b.shares.map f = b.getHealthy.map fun x => f (x.1.weight, x.2) := List.map_map

theorem getHealthy_ne_nil (h : b.shares ≠ []) : b.getHealthy ≠ [] :=
  fun hnil => h (List.map_eq_nil_iff.2 hnil)

theorem turn_shares (w : ℤ × ℕ → ℕ) (b : Balancer) (k : ℕ) :
    turn w b.shares k = (owner (fun x => w (x.1.weight, x.2)) b.getHealthy
      (k % (b.getHealthy.map fun x => w (x.1.weight, x.2)).sum)).map Prod.snd := by
  rw [turn, map_shares, Balancer.shares, owner_map, Option.map_map]
  rfl

/-- The counter, while it is an `int`. -/
theorem count_eq (hm : b.current = Int64.ofNat m) (hmax : (m : ℤ) ≤ a.maxInt) : b.count a = m := by
  have hbound := a.maxInt_bounds
  rw [Balancer.count, Int64.add_sub_cancel, hm, Int64.toInt_ofNat_of_lt (by omega)]
  exact Arch.int_of_le (by omega) hmax

variable {b : Balancer} {m : ℕ}

/-- Positive weights as natural numbers. -/
theorem natCast_sum_weights (hpos : ∀ x ∈ l, 0 < x.1.weight) :
    (((l.map fun x => x.1.weight.toNat).sum : ℕ) : ℤ) = (l.map (·.1.weight)).sum := by
  induction l with
  | nil => rfl
  | cons x rest ih =>
    have hx := hpos x List.mem_cons_self
    have hrest := ih fun y hy => hpos y (List.mem_cons_of_mem x hy)
    rw [List.map_cons, List.map_cons, List.sum_cons, List.sum_cons, Int.natCast_add, hrest,
      Int.toNat_of_nonneg (Int.le_of_lt hx)]

theorem sum_weights_pos (hpos : ∀ x ∈ l, 0 < x.1.weight) (hl : l ≠ []) :
    0 < (l.map (·.1.weight)).sum := by
  apply List.sum_pos
  · exact List.forall_mem_map.2 hpos
  · exact mt List.map_eq_nil_iff.1 hl

/-- **Round robin** hands out turns by weight 1. -/
theorem place_roundRobin (hs : b.strategy = .roundRobin) (hne : b.shares ≠ [])
    (hm : b.current = Int64.ofNat m) (hmax : (m : ℤ) ≤ a.maxInt) (clientIP : String) :
    place (b.getBackend a clientIP) = turn (fun _ => 1) b.shares m := by
  have hpos := List.length_pos_of_ne_nil (getHealthy_ne_nil hne)
  have hlt : m % b.getHealthy.length < b.getHealthy.length := Nat.mod_lt m hpos
  have hlen : (b.getHealthy.map fun _ => 1).sum = b.getHealthy.length := by simp
  rw [turn_shares, owner_one, hlen, Balancer.getBackend, hs]
  simp only [if_neg (Nat.ne_of_gt hpos), count_eq hm hmax]
  rw [roundRobin, rem_eq (by omega), ← Int.ofNat_tmod, Go.ok_bind, item, if_neg (by omega),
    Int.toNat_natCast, List.getElem?_eq_getElem hlt]
  rfl

/-- **Weighted** hands out turns by the weights. -/
theorem place_weighted (hs : b.strategy = .weighted) (hne : b.shares ≠ [])
    (hpos : ∀ x ∈ b.shares, 0 < x.1) (htotal : (b.shares.map Prod.fst).sum ≤ a.maxInt)
    (hm : b.current = Int64.ofNat m) (hmax : (m : ℤ) ≤ a.maxInt) (clientIP : String) :
    place (b.getBackend a clientIP) = turn (fun s => s.1.toNat) b.shares m := by
  have hne := getHealthy_ne_nil hne
  have hpos : ∀ x ∈ b.getHealthy, 0 < x.1.weight :=
    fun x hx => hpos (x.1.weight, x.2) (List.mem_map.2 ⟨x, hx, rfl⟩)
  have htotal : (b.getHealthy.map (·.1.weight)).sum ≤ a.maxInt := map_shares b Prod.fst ▸ htotal
  have hsum := natCast_sum_weights hpos
  have hsumpos := sum_weights_pos hpos hne
  have hint : totalWeight a b.getHealthy = (b.getHealthy.map (·.1.weight)).sum := by
    rw [totalWeight_eq]
    exact Arch.int_of_le (by omega) htotal
  rw [turn_shares, Balancer.getBackend, hs]
  simp only [if_neg (mt List.eq_nil_of_length_eq_zero hne), count_eq hm hmax]
  generalize hW : (b.getHealthy.map fun x => x.1.weight.toNat).sum = W at hsum
  have hlt : m % W < W := Nat.mod_lt m (by omega)
  obtain ⟨x, hx⟩ : ∃ x, owner (fun x : Ref => x.1.weight.toNat) b.getHealthy (m % W) = some x := by
    apply exists_owner
    rw [hW]
    exact hlt
  rw [weighted, hint, ← hsum, rem_eq (by omega), ← Int.ofNat_tmod, Go.ok_bind,
    walk_eq_owner hpos htotal (by omega), hx]
  rfl

end Call

/-! ## A window of calls -/

section Window

variable {a : Arch}

/-- A call counts. -/
theorem current_counted (hs : b.strategy.counts = true) (hne : b.shares ≠ [])
    (hm : b.current = Int64.ofNat m) :
    b.counted.current = Int64.ofNat (m + 1) := by
  have hlen := mt List.eq_nil_of_length_eq_zero (getHealthy_ne_nil hne)
  unfold Balancer.counted
  rw [if_neg (by simp [hlen, hs])]
  show b.current + 1 = _
  rw [hm]
  exact (Int64.ofNat_add m 1).symm

/-- While the healthy backends stay the same and the counter is an `int`, the calls return the
places whose turn it is, one after the other. -/
theorem places_eq {w : ℤ × ℕ → ℕ} {s : Strategy} {shares : List (ℤ × ℕ)} (hcounts : s.counts = true)
    (hne : shares ≠ [])
    (hplace : ∀ (b : Balancer) (m : ℕ) (ip : String), b.strategy = s → b.shares = shares →
      b.current = Int64.ofNat m → (m : ℤ) ≤ a.maxInt →
        place (b.getBackend a ip) = turn w shares m) (hs : b.strategy = s)
    (hshares : b.shares = shares) (hm : b.current = Int64.ofNat m) {es : List Event}
    (hfixed : EachStep step KeepsShares b es)
    (hfit : (m : ℤ) + (places a b es).length ≤ a.maxInt + 1) :
    places a b es = (List.range' m (places a b es).length).map (turn w shares) := by
  induction es generalizing b m with
  | nil => rfl
  | cons ev es ih =>
    have hs' := (strategy_step b ev).trans hs
    have hshares' := hfixed.1.trans hshares
    cases ev with
    | getBackend ip =>
      have hm' : (step b (.getBackend ip)).current = Int64.ofNat (m + 1) :=
        current_counted (hs ▸ hcounts) (hshares ▸ hne) hm
      simp only [places, List.length_cons] at hfit ⊢
      have hrest := ih hs' hshares' hm' hfixed.2 (by omega)
      rw [List.range'_succ, List.map_cons, ← hrest, hplace b m ip hs hshares hm (by omega)]
    | _ => exact ih hs' hshares' hm hfixed.2 hfit

/-- **Fairness.**  The healthy backends stay the same and the values of the counter are `int`s.
Then weighted returns each healthy backend as often as its weight in as many calls as the weights
add up to, and round robin returns each once in as many calls as there are healthy backends. -/
theorem getBackend_fair (a : Arch) {b : Balancer} {m : ℕ} (hm : b.current = Int64.ofNat m)
    {es : List Event} (hfixed : EachStep step KeepsShares b es)
    (hfit : (m : ℤ) + (places a b es).length ≤ a.maxInt + 1) :
    (b.strategy = .weighted → (∀ x ∈ b.getHealthy, 0 < x.1.weight) →
      ((places a b es).length : ℤ) = (b.getHealthy.map (·.1.weight)).sum →
      (b.getHealthy.map (·.1.weight)).sum ≤ a.maxInt →
      ∀ x ∈ b.getHealthy, ((places a b es).count (some x.2) : ℤ) = x.1.weight) ∧
    (b.strategy = .roundRobin → (places a b es).length = b.getHealthy.length →
      ∀ x ∈ b.getHealthy, (places a b es).count (some x.2) = 1) := by
  have hmem : ∀ x ∈ b.getHealthy, (x.1.weight, x.2) ∈ b.shares :=
    fun x hx => List.mem_map.2 ⟨x, hx, rfl⟩
  constructor
  · intro hs hpos hcalls htotal x hx
    have hplaces := places_eq rfl (List.ne_nil_of_mem (hmem x hx))
      (fun c k ip hcs hc hk hmax => by
        have hshares : c.shares.map Prod.fst = b.getHealthy.map (·.1.weight) := by
          rw [hc, map_shares]
        rw [← hc]
        exact place_weighted hcs (hc ▸ List.ne_nil_of_mem (hmem x hx))
          (hc ▸ List.forall_mem_map.2 hpos) (hshares ▸ htotal) hk hmax ip)
      hs rfl hm hfixed hfit
    have hlen : (places a b es).length = (b.shares.map fun s => s.1.toNat).sum := by
      rw [map_shares]
      exact Int.natCast_inj.1 (hcalls.trans (natCast_sum_weights hpos).symm)
    rw [hplaces, hlen, count_turn (nodup_shares b) (hmem x hx) m]
    exact Int.toNat_of_nonneg (Int.le_of_lt (hpos x hx))
  · intro hs hcalls x hx
    have hplaces := places_eq rfl (List.ne_nil_of_mem (hmem x hx))
      (fun c k ip hcs hc hk hmax => by
        rw [← hc]
        exact place_roundRobin hcs (hc ▸ List.ne_nil_of_mem (hmem x hx)) hk hmax ip)
      hs rfl hm hfixed hfit
    have hlen : (places a b es).length = (b.shares.map fun _ => 1).sum := by
      rw [hcalls, map_shares]
      simp
    rw [hplaces, hlen, count_turn (nodup_shares b) (hmem x hx) m]

/-- Three backends, one of them not healthy; the counter is at 7. -/
def threeBackends (s : Strategy) : Balancer :=
  ⟨[⟨"a", 2, true, 0, 0⟩, ⟨"b", 5, false, 0, 0⟩, ⟨"c", 1, true, 0, 0⟩], s, 7⟩

theorem getBackend_fair_threeBackends :
    (∀ x ∈ (threeBackends .weighted).getHealthy,
      ((places .bits32 (threeBackends .weighted) [.getBackend "", .setLatency 0 9, .getBackend "",
        .setHealthy 0 true, .getBackend ""]).count (some x.2) : ℤ) = x.1.weight) ∧
    ∀ x ∈ (threeBackends .roundRobin).getHealthy,
      (places .bits32 (threeBackends .roundRobin) [.getBackend "", .getBackend ""]).count
        (some x.2) = 1 :=
  ⟨(getBackend_fair .bits32 (b := threeBackends .weighted) (m := 7) (by decide) (by decide)
      (by decide)).1 rfl (by decide) (by decide) (by decide),
    (getBackend_fair .bits32 (b := threeBackends .roundRobin) (m := 7) (by decide) (by decide)
      (by decide)).2 rfl (by decide)⟩

end Window

end LoadBalancer
