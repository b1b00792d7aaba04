/-
# The load balancer

Model of `internal/loadbalancer/balancer.go`: the list of backends, the strategies and the counter
that two of them share.  A pointer to a backend is its place in the list.

`balancer_iff` says when every call of `GetBackend` in a sequence of calls returns what it should.
Least connections and fastest always do.  Round robin needs a counter that is not negative as an
`int`, or a multiple of the number of healthy backends; weighted needs weights whose sum, as an
`int`, is not 0, and nothing checks them.
-/
import Mathlib.Data.List.Induction
import IPShadowT.Bytes
import IPShadowT.Runs

open Go (Arch item item_mem)
open Runs

namespace LoadBalancer

/-! ## Backends -/

/-- `Strategy`; any other string is round robin. -/
inductive Strategy where
  | roundRobin
  | leastConn
  | weighted
  | ipHash
  | fastest
  | other (name : String)
  deriving DecidableEq, Repr

/-- `Backend`, as far as the choice goes. -/
structure Backend where
  address : String
  weight : ℤ
  healthy : Bool
  connections : Int64
  latency : Int64
  deriving DecidableEq, Repr

/-- A backend and its place in the list. -/
abbrev Ref := Backend × ℕ

structure Balancer where
  backends : List Backend
  strategy : Strategy
  current : Int64
  deriving DecidableEq, Repr

/-- The error of `GetBackend`. -/
inductive GetError where
  | noHealthy
  deriving DecidableEq, Repr

def GetError.message : GetError → String
  | noHealthy => "no healthy backends available"

def newBalancer (strategy : Strategy) : Balancer := ⟨[], strategy, 0⟩

def Balancer.addBackend (b : Balancer) (address : String) (weight : ℤ) : Balancer :=
  { b with backends := b.backends ++ [⟨address, weight, true, 0, 0⟩] }

def Balancer.getHealthy (b : Balancer) : List Ref := b.backends.zipIdx.filter (·.1.healthy)

/-! ## The strategies -/

section Strategies

variable {α : Type}

/-- `x % y`. -/
def rem (x y : ℤ) : Go GetError ℤ := if y = 0 then .error .panic else .ok (x.tmod y)

variable (a : Arch)

/-- `roundRobin`, where the counter was `n`. -/
def roundRobin (n : ℤ) (l : List α) : Go GetError α := do
  let idx ← rem n l.length
  item l idx

/-- The body of the loop of `leastConn` and `fastest`. -/
def keepLeast (score : Backend → Int64) (acc : Int64 × Option Ref) (x : Ref) : Int64 × Option Ref :=
  if score x.1 < acc.1 then (score x.1, some x) else acc

/-- `leastConn` and `fastest`; nil if nothing is below the largest `int64`. -/
def least (score : Backend → Int64) (l : List Ref) : Option Ref :=
  (l.foldl (keepLeast score) (Int64.maxValue, none)).2

def leastConn : List Ref → Option Ref := least Backend.connections

def fastest : List Ref → Option Ref := least Backend.latency

/-- `totalWeight`. -/
def totalWeight (l : List Ref) : ℤ := l.foldl (fun acc x => a.int (acc + x.1.weight)) 0

/-- The second loop of `weighted`. -/
def walk : ℤ → List Ref → Option Ref
  | _, [] => none
  | idx, x :: rest =>
    let idx := a.int (idx - x.1.weight)
    if idx < 0 then some x else walk idx rest

/-- `weighted`, where the counter was `n`. -/
def weighted (n : ℤ) (l : List Ref) : Go GetError Ref := do
  let idx ← rem n (totalWeight a l)
  match walk a idx l with
  | some x => .ok x
  -- the sum of the weights may be negative, and then no index need get below 0
  | none => item l 0

def ipHash (l : List α) (clientIP : String) : Go GetError α := do
  let hash := clientIP.toList.foldl (fun hash c => a.int (hash * 31 + c.toNat)) 0
  -- the smallest `int` is its own negative
  let hash := if hash < 0 then a.int (-hash) else hash
  let idx ← rem hash l.length
  item l idx

end Strategies

/-- `int(b.current.Add(1)-1)`. -/
def Balancer.count (a : Arch) (b : Balancer) : ℤ := a.int (b.current + 1 - 1).toInt

/-- What `GetBackend` returns. -/
def Balancer.getBackend (a : Arch) (b : Balancer) (clientIP : String) : Go GetError (Option Ref) :=
  let healthy := b.getHealthy
  if healthy.length = 0 then .error (.error .noHealthy)
  else
    match b.strategy with
    | .roundRobin => some <$> roundRobin (b.count a) healthy
    | .leastConn => .ok (leastConn healthy)
    | .weighted => some <$> weighted a (b.count a) healthy
    | .ipHash => some <$> ipHash a healthy clientIP
    | .fastest => .ok (fastest healthy)
    | .other _ => some <$> roundRobin (b.count a) healthy

/-- Whether a strategy counts its calls. -/
def Strategy.counts : Strategy → Bool
  | .roundRobin | .weighted | .other _ => true
  | _ => false

/-- What `GetBackend` leaves behind, also where it panics: the counter moves first. -/
def Balancer.counted (b : Balancer) : Balancer :=
  if b.getHealthy.length = 0 ∨ b.strategy.counts = false then b
  else { b with current := b.current + 1 }

/-! ## Sequences of calls -/

inductive Event where
  | addBackend (address : String) (weight : ℤ)
  /-- a store of `checkHealth` -/
  | setHealthy (i : ℕ) (healthy : Bool)
  | setLatency (i : ℕ) (latency : Int64)
  | setConnections (i : ℕ) (connections : Int64)
  | getBackend (clientIP : String)
  deriving DecidableEq, Repr

/-- Backend `i` is changed. -/
def Balancer.update (b : Balancer) (i : ℕ) (f : Backend → Backend) : Balancer :=
  { b with backends := b.backends.modify i f }

def step (b : Balancer) : Event → Balancer
  | .addBackend address weight => b.addBackend address weight
  | .setHealthy i healthy => b.update i ({ · with healthy := healthy })
  | .setLatency i latency => b.update i ({ · with latency := latency })
  | .setConnections i connections => b.update i ({ · with connections := connections })
  | .getBackend _ => b.counted

/-- `GetBackend` returns its error if no backend is healthy, and a healthy one otherwise. -/
def Proper (b : Balancer) : Go GetError (Option Ref) → Prop
  | .ok (some (x, i)) => b.backends[i]? = some x ∧ x.healthy = true
  | .ok none => False
  | .error (.error .noHealthy) => ∀ x ∈ b.backends, x.healthy = false
  | .error .panic => False

/-! ## One call -/

variable {b : Balancer} {l : List Ref} {a : Arch} {n : ℤ} {x : Ref}

section Choice

variable {α : Type} {a : Arch}

theorem rem_eq {x y : ℤ} (h : y ≠ 0) : rem x y = .ok (x.tmod y) := if_neg h

/-- Round robin is right if the counter is not negative or a multiple of the number. -/
theorem roundRobin_mem {l : List α} (hl : l ≠ []) (hn : 0 ≤ n ∨ (l.length : ℤ) ∣ n) :
    ∃ x ∈ l, roundRobin n l = .ok x := by
  have hpos : 0 < (l.length : ℤ) := by
    have := List.length_pos_of_ne_nil hl
    omega
  have h0 : 0 ≤ n.tmod l.length := Int.not_lt.1 fun h => Go.tmod_neg_iff.1 h hn
  obtain ⟨x, hx, hitem⟩ := item_mem h0 (Int.tmod_lt_of_pos n hpos)
  refine ⟨x, hx, ?_⟩
  rw [roundRobin, rem_eq (Int.ne_of_gt hpos)]
  exact hitem

/-- Otherwise the index is negative. -/
theorem roundRobin_panic {l : List α} (hl : l ≠ []) (hneg : n < 0) (hn : ¬ (l.length : ℤ) ∣ n) :
    roundRobin n l = .error .panic := by
  have hpos : 0 < (l.length : ℤ) := by
    have := List.length_pos_of_ne_nil hl
    omega
  have hidx : n.tmod l.length < 0 := Go.tmod_neg_iff.2 (not_or.2 ⟨Int.not_le.2 hneg, hn⟩)
  rw [roundRobin, rem_eq (Int.ne_of_gt hpos)]
  show item l (n.tmod l.length) = .error .panic
  rw [item, if_pos hidx]

/-- It ends in the list. -/
theorem walk_mem {idx : ℤ} (h : walk a idx l = some x) : x ∈ l := by
  induction l generalizing idx with
  | nil => cases h
  | cons y rest ih =>
    rw [walk] at h
    by_cases hneg : a.int (idx - y.1.weight) < 0
    · simp only [if_pos hneg] at h
      exact Option.some.inj h ▸ List.mem_cons_self
    · simp only [if_neg hneg] at h
      exact List.mem_cons_of_mem y (ih h)

theorem weighted_mem (hl : l ≠ []) (n : ℤ) (htotal : totalWeight a l ≠ 0) :
    ∃ x ∈ l, weighted a n l = .ok x := by
  rw [weighted, rem_eq htotal]
  show ∃ x ∈ l, (match walk a (n.tmod (totalWeight a l)) l with
    | some x => Except.ok x
    | none => (item l 0 : Go GetError Ref)) = .ok x
  cases hwalk : walk a (n.tmod (totalWeight a l)) l with
  | some x => exact ⟨x, walk_mem hwalk, rfl⟩
  | none => exact item_mem (Int.le_refl 0) (Int.natCast_pos.2 (List.length_pos_of_ne_nil hl))

theorem weighted_panic (htotal : totalWeight a l = 0) : weighted a n l = .error .panic := by
  rw [weighted, htotal]
  rfl

/-- The sum that wraps around at every step is the sum that wraps around at the end. -/
theorem totalWeight_eq (l : List Ref) : totalWeight a l = a.int (l.map (·.1.weight)).sum := by
  have hfold : ∀ acc : ℤ, l.foldl (fun acc x => a.int (acc + x.1.weight)) (a.int acc) =
      a.int (acc + (l.map (·.1.weight)).sum) := by
    induction l with
    | nil => simp
    | cons x rest ih =>
      intro acc
      rw [List.foldl_cons, a.int_add, ih, List.map_cons, List.sum_cons, Int.add_assoc]
  have hzero : a.int 0 = 0 := a.int_of_lt (Int.le_refl 0) (by decide)
  have hall := hfold 0
  rw [hzero, Int.zero_add] at hall
  exact hall

/-- What the loop of `leastConn` and `fastest` knows after the elements of `l`: the lowest score,
and who has it. -/
structure Least (score : Backend → Int64) (l : List Ref) (acc : Int64 × Option Ref) : Prop where
  le : ∀ x ∈ l, acc.1.toInt ≤ (score x.1).toInt
  best : acc = (Int64.maxValue, none) ∨ ∃ x ∈ l, acc = (score x.1, some x)

variable {score : Backend → Int64}

theorem Least.keepLeast {acc : Int64 × Option Ref} (h : Least score l acc) (x : Ref) :
    Least score (l ++ [x]) (keepLeast score acc x) := by
  unfold LoadBalancer.keepLeast
  by_cases hlt : score x.1 < acc.1
  · rw [if_pos hlt]
    have hlt' := Int64.lt_iff_toInt_lt.1 hlt
    refine ⟨?_, .inr ⟨x, List.mem_append_right l List.mem_cons_self, rfl⟩⟩
    intro y hy
    rcases List.mem_append.1 hy with hold | hnew
    · exact Int.le_trans (Int.le_of_lt hlt') (h.le y hold)
    · rw [List.mem_singleton.1 hnew]
  · rw [if_neg hlt]
    have hle := Int.not_lt.1 (fun h' => hlt (Int64.lt_iff_toInt_lt.2 h'))
    refine ⟨?_, ?_⟩
    · intro y hy
      rcases List.mem_append.1 hy with hold | hnew
      · exact h.le y hold
      · rw [List.mem_singleton.1 hnew]
        exact hle
    · rcases h.best with hnone | ⟨y, hy, hacc⟩
      · exact .inl hnone
      · exact .inr ⟨y, List.mem_append_left _ hy, hacc⟩

/-- The loop finds the least. -/
theorem least_foldl (l : List Ref) :
    Least score l (l.foldl (LoadBalancer.keepLeast score) (Int64.maxValue, none)) := by
  induction l using List.reverseRecOn with
  | nil => exact ⟨fun _ h => absurd h List.not_mem_nil, .inl rfl⟩
  | append_singleton l x ih =>
    rw [List.foldl_append]
    exact ih.keepLeast x

/-- Where all scores are below the largest `int64`, the choice is one with the lowest. -/
theorem least_mem (hl : l ≠ []) (hlow : ∀ x ∈ l, score x.1 < Int64.maxValue) :
    ∃ x ∈ l, least score l = some x ∧ ∀ y ∈ l, (score x.1).toInt ≤ (score y.1).toInt := by
  have hleast : Least score l _ := least_foldl l
  rcases hleast.best with hnone | ⟨x, hx, hacc⟩
  · obtain ⟨y, rest, rfl⟩ := List.exists_cons_of_ne_nil hl
    have hle := hleast.le y List.mem_cons_self
    have hlt := Int64.lt_iff_toInt_lt.1 (hlow y List.mem_cons_self)
    rw [hnone] at hle
    exact absurd hlt (Int.not_lt.2 hle)
  · refine ⟨x, hx, congrArg Prod.snd hacc, ?_⟩
    intro y hy
    have hle := hleast.le y hy
    rw [hacc] at hle
    exact hle

end Choice

/-! ## Healthy backends -/

section Healthy

variable {b : Balancer}

theorem mem_getHealthy : x ∈ b.getHealthy ↔ b.backends[x.2]? = some x.1 ∧ x.1.healthy = true := by
  rw [Balancer.getHealthy, List.mem_filter, List.mem_zipIdx_iff_getElem?]

theorem map_getHealthy : b.getHealthy.map Prod.fst = b.backends.filter Backend.healthy := by
  have hmap := List.filter_map (f := Prod.fst) (p := Backend.healthy) (l := b.backends.zipIdx)
  rw [List.zipIdx_map_fst] at hmap
  exact hmap.symm

theorem getHealthy_eq_nil_iff : b.getHealthy = [] ↔ ∀ x ∈ b.backends, x.healthy = false := by
  rw [← List.map_eq_nil_iff (f := Prod.fst), map_getHealthy, List.filter_eq_nil_iff]
  exact forall₂_congr fun x _ => Iff.of_eq (Bool.not_eq_true x.healthy)

end Healthy

/-- No count and no latency is the largest `int64`. -/
def Low (b : Balancer) : Prop :=
  ∀ x ∈ b.backends, x.connections < Int64.maxValue ∧ x.latency < Int64.maxValue

/-- For round robin: the counter is not negative as an `int`, or a multiple of the number of healthy
backends. -/
def CounterFits (a : Arch) (b : Balancer) : Prop :=
  0 ≤ a.int b.current.toInt ∨
    ((b.backends.filter Backend.healthy).length : ℤ) ∣ a.int b.current.toInt

instance CounterFits.decidable (a : Arch) (b : Balancer) : Decidable (CounterFits a b) :=
  inferInstanceAs (Decidable (_ ∨ _))

/-- For weighted: the weights of the healthy backends do not add up to 0 as an `int`. -/
def WeightsFit (a : Arch) (b : Balancer) : Prop :=
  a.int ((b.backends.filter Backend.healthy).map Backend.weight).sum ≠ 0

instance WeightsFit.decidable (a : Arch) (b : Balancer) : Decidable (WeightsFit a b) :=
  inferInstanceAs (Decidable (_ ≠ _))

/-- What the strategy of the balancer needs. -/
def Fits (a : Arch) (b : Balancer) : Strategy → Prop
  | .roundRobin | .other _ => CounterFits a b
  | .weighted => WeightsFit a b
  | .leastConn | .fastest | .ipHash => True

instance Fits.decidable (a : Arch) (b : Balancer) : (s : Strategy) → Decidable (Fits a b s)
  | .roundRobin | .other _ => CounterFits.decidable a b
  | .weighted => WeightsFit.decidable a b
  | .leastConn | .fastest | .ipHash => instDecidableTrue

/-- The state in which a call of `GetBackend` is right. -/
def Selectable (a : Arch) (b : Balancer) : Prop :=
  (∀ x ∈ b.backends, x.healthy = false) ∨ Fits a b b.strategy

instance Selectable.decidable (a : Arch) (b : Balancer) : Decidable (Selectable a b) :=
  inferInstanceAs (Decidable (_ ∨ _))

theorem proper_some (h : x ∈ b.getHealthy) : Proper b (.ok (some x)) :=
  mem_getHealthy.1 h

/-- **When round robin is right.** -/
theorem roundRobin_iff (hne : b.getHealthy ≠ []) :
    Proper b (some <$> roundRobin (a.int b.current.toInt) b.getHealthy) ↔ CounterFits a b := by
  rw [CounterFits, ← map_getHealthy, List.length_map]
  generalize a.int b.current.toInt = n
  by_cases hn : 0 ≤ n ∨ (b.getHealthy.length : ℤ) ∣ n
  · obtain ⟨x, hx, hok⟩ := roundRobin_mem hne hn
    rw [hok]
    exact iff_of_true (proper_some hx) hn
  · obtain ⟨hneg, hdvd⟩ := not_or.1 hn
    rw [roundRobin_panic hne (Int.not_le.1 hneg) hdvd]
    exact iff_of_false id hn

/-- **When weighted is right.** -/
theorem weighted_iff (hne : b.getHealthy ≠ []) (n : ℤ) :
    Proper b (some <$> weighted a n b.getHealthy) ↔ WeightsFit a b := by
  have htotal : a.int ((b.backends.filter Backend.healthy).map Backend.weight).sum =
      totalWeight a b.getHealthy := by
    rw [totalWeight_eq, ← map_getHealthy, List.map_map]
    rfl
  rw [WeightsFit, htotal]
  by_cases hzero : totalWeight a b.getHealthy = 0
  · rw [weighted_panic hzero]
    exact iff_of_false id (fun h => h hzero)
  · obtain ⟨x, hx, hok⟩ := weighted_mem hne n hzero
    rw [hok]
    exact iff_of_true (proper_some hx) hzero

/-- **The others are always right.** -/
theorem proper_least (hne : b.getHealthy ≠ []) {score : Backend → Int64}
    (hlow : ∀ x ∈ b.backends, score x < Int64.maxValue) :
    Proper b (.ok (least score b.getHealthy)) := by
  have hall : ∀ x ∈ b.getHealthy, score x.1 < Int64.maxValue := by
    intro x hx
    exact hlow x.1 (List.mem_of_getElem? (mem_getHealthy.1 hx).1)
  obtain ⟨x, hx, hok, -⟩ := least_mem hne hall
  rw [hok]
  exact proper_some hx

/-- **One call.** -/
theorem proper_iff (hhash : b.strategy ≠ .ipHash) (hlow : Low b) (clientIP : String) :
    Proper b (b.getBackend a clientIP) ↔ Selectable a b := by
  unfold Balancer.getBackend Selectable
  have hcount : b.count a = a.int b.current.toInt := by
    rw [Balancer.count, Int64.add_sub_cancel]
  by_cases hnil : b.getHealthy = []
  · rw [hnil]
    have hnone := getHealthy_eq_nil_iff.1 hnil
    exact iff_of_true hnone (.inl hnone)
  · have hlen : ¬ b.getHealthy.length = 0 := fun h => hnil (List.eq_nil_of_length_eq_zero h)
    have hsome : ¬ ∀ x ∈ b.backends, x.healthy = false :=
      fun h => hnil (getHealthy_eq_nil_iff.2 h)
    simp only [if_neg hlen, hcount, or_iff_right hsome]
    cases hs : b.strategy with
    | roundRobin => exact roundRobin_iff hnil
    | other name => exact roundRobin_iff hnil
    | weighted => exact weighted_iff hnil _
    | leastConn => exact iff_of_true (proper_least hnil (fun x hx => (hlow x hx).1)) trivial
    | fastest => exact iff_of_true (proper_least hnil (fun x hx => (hlow x hx).2)) trivial
    | ipHash => exact absurd hs hhash

/-! ## Sequences -/

/-- Counts and latencies that are stored are below the largest `int64`. -/
def Event.Low : Event → Prop
  | .setLatency _ latency => latency < Int64.maxValue
  | .setConnections _ connections => connections < Int64.maxValue
  | _ => True

/-- A call of `GetBackend` is right. -/
def Right (a : Arch) (b : Balancer) : Event → Prop
  | .getBackend clientIP => Proper b (b.getBackend a clientIP)
  | _ => True

/-- A call of `GetBackend` comes in a state in which it is right. -/
def Ready (a : Arch) (b : Balancer) : Event → Prop
  | .getBackend _ => Selectable a b
  | .addBackend _ _ | .setHealthy _ _ | .setLatency _ _ | .setConnections _ _ => True

instance Ready.decidable (a : Arch) (b : Balancer) : (ev : Event) → Decidable (Ready a b ev)
  | .getBackend _ => Selectable.decidable a b
  | .addBackend _ _ | .setHealthy _ _ | .setLatency _ _ | .setConnections _ _ => instDecidableTrue

theorem low_update (h : Low b) (i : ℕ) {f : Backend → Backend} (hf : ∀ x ∈ b.backends,
      (f x).connections < Int64.maxValue ∧ (f x).latency < Int64.maxValue) :
    Low (b.update i f) := by
  intro x hx
  obtain ⟨j, hj⟩ := List.mem_iff_getElem?.1 hx
  rw [Balancer.update, List.getElem?_modify] at hj
  cases hold : b.backends[j]? with
  | none => rw [hold] at hj; cases hj
  | some y =>
    rw [hold] at hj
    have hy := List.mem_of_getElem? hold
    obtain rfl : (if i = j then f y else y) = x := Option.some.inj hj
    by_cases hij : i = j
    · rw [if_pos hij]
      exact hf y hy
    · rw [if_neg hij]
      exact h y hy

theorem low_step (h : Low b) {ev : Event} (hev : ev.Low) : Low (step b ev) := by
  cases ev with
  | addBackend address weight =>
    intro x hx
    rcases List.mem_append.1 hx with hold | hnew
    · exact h x hold
    · have hzero : (0 : Int64) < Int64.maxValue := by decide
      rw [List.mem_singleton.1 hnew]
      exact ⟨hzero, hzero⟩
  | setHealthy i healthy => exact low_update h i (fun x hx => h x hx)
  | setLatency i latency => exact low_update h i (fun x hx => ⟨(h x hx).1, hev⟩)
  | setConnections i connections => exact low_update h i (fun x hx => ⟨hev, (h x hx).2⟩)
  | getBackend clientIP =>
    show Low b.counted
    unfold Balancer.counted
    split_ifs
    · exact h
    · exact h

theorem strategy_step (b : Balancer) (ev : Event) : (step b ev).strategy = b.strategy := by
  cases ev with
  | getBackend clientIP =>
    show b.counted.strategy = b.strategy
    unfold Balancer.counted
    split_ifs
    · rfl
    · rfl
  | _ => rfl

theorem right_iff_ready (hhash : b.strategy ≠ .ipHash) (hlow : Low b) (ev : Event) :
    Right a b ev ↔ Ready a b ev := by
  cases ev with
  | getBackend clientIP => exact proper_iff hhash hlow clientIP
  | _ => exact Iff.rfl

/-- **The load balancer.**  Every call of `GetBackend` in a sequence of calls, health changes and
new backends is right if and only if each finds a counter and weights that its strategy can divide
by. -/
theorem balancer_iff (a : Arch) (strategy : Strategy) (hhash : strategy ≠ .ipHash)
    (es : List Event) (hlow : ∀ ev ∈ es, ev.Low) :
    EachStep step (Right a) (newBalancer strategy) es ↔
      EachStep step (Ready a) (newBalancer strategy) es := by
  have hall : ∀ b : Balancer, b.strategy ≠ .ipHash → Low b →
      (EachStep step (Right a) b es ↔ EachStep step (Ready a) b es) := by
    induction es with
    | nil => exact fun _ _ _ => Iff.rfl
    | cons ev es ih =>
      intro b hb hblow
      have hnext : Low (step b ev) := low_step hblow (hlow ev List.mem_cons_self)
      have hrest := ih (fun ev' hev' => hlow ev' (List.mem_cons_of_mem ev hev')) (step b ev)
        ((strategy_step b ev).symm ▸ hb) hnext
      exact and_congr (right_iff_ready hb hblow ev) hrest
  exact hall _ hhash (fun x hx => absurd hx List.not_mem_nil)

theorem balancer_iff_sample :
    EachStep step (Right .bits64) (newBalancer .weighted)
      [.addBackend "a" 2, .addBackend "b" (-1), .setHealthy 0 false, .getBackend "",
        .getBackend ""] :=
  (balancer_iff .bits64 .weighted (by decide) _ (by simp [Event.Low])).2 (by decide +kernel)

/-! ## Round robin and its counter -/

/-- The counter after `n` calls. -/
theorem run_getBackend (hs : b.strategy.counts = true) (hne : b.getHealthy.length ≠ 0)
    (clientIP : String) (n : ℕ) :
    run step b (List.replicate n (.getBackend clientIP)) =
      { b with current := b.current + Int64.ofNat n } := by
  induction n generalizing b with
  | zero => simp
  | succ n ih =>
    have hcounted : b.counted = { b with current := b.current + 1 } := by
      apply if_neg
      rw [hs]
      simp [hne]
    rw [List.replicate_succ, run_cons]
    show run step b.counted _ = _
    rw [hcounted, ih (b := { b with current := b.current + 1 }) hs hne, Nat.add_comm n 1,
      Int64.ofNat_add, ← Int64.add_assoc]
    rfl

/-- One backend of weight 0, the strategy weighted; and three backends in turn, on a machine with an
`int` of 32 bits, after 2^31 calls. -/
theorem getBackend_panics :
    (run step (newBalancer .weighted) [.addBackend "a" 0]).getBackend .bits64 "" =
        .error .panic ∧
      (run step (newBalancer .roundRobin)
        ([.addBackend "a" 1, .addBackend "b" 1, .addBackend "c" 1] ++
          List.replicate 2147483648 (.getBackend ""))).getBackend .bits32 "" = .error .panic := by
  refine ⟨by decide +kernel, ?_⟩
  rw [run_append, run_getBackend (by decide +kernel) (by decide +kernel)]
  decide +kernel

end LoadBalancer
