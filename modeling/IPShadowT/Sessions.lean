/-
# The ids of a client's sessions

A `Client` keeps its mux sessions in a `SessionPool`, a slice.  Each session is registered with
the heartbeat and the quality monitor under a number: `connectSessions` counts the sessions it
has connected, and `checkAndReconnect` goes on from the number of open sessions, counting
failed attempts too.  `GetStream` looks up the quality of the session at position `idx` under
the number `idx+1`, while `RemoveClosed` moves the sessions behind a closed one.

This module models the pool and the registrations over runs of `connectSessions`, of the steps
of `checkAndReconnect` and of the reconnector, with sessions closing in between.
`identified_iff` says for each kind of step when positions and numbers stay in agreement.
-/
import Mathlib.Data.List.Count
import Mathlib.Logic.Function.Basic
import IPShadowT.Runs

open Runs

namespace Sessions

/-! ## The pool and the registrations -/

/-- A mux session: which one it is, whether it is closed, and the number it was registered
under, if it was. -/
structure Session where
  key : ℕ
  closed : Bool
  id : Option ℕ
  deriving DecidableEq, Repr

/-- How far a round of `checkAndReconnect` is: before it, after `RemoveClosed`, or in its loop,
with `active`, `i` and the number of attempts left. -/
inductive Round where
  | idle
  | removed
  | adding (active i left : ℕ)
  deriving DecidableEq, Repr

/-- The part of `Client` that has to do with its sessions.  `registered` is the session whose
pings are made and recorded under a number. -/
structure Client where
  heartbeatEnabled : Bool
  concurrency : Int
  sessions : List Session
  registered : ℕ → Option ℕ
  created : ℕ
  round : Round

/-- A client before `connectSessions`. -/
def newClient (heartbeatEnabled : Bool) (concurrency : Int) : Client :=
  ⟨heartbeatEnabled, concurrency, [], fun _ => none, 0, .idle⟩

/-- The number of sessions to have. -/
def Client.target (c : Client) : ℕ := if c.concurrency ≤ 0 then 4 else c.concurrency.toNat

/-- `pool.Add` of a new session, and its registration with both monitors if it has a number. -/
def Client.add (c : Client) (closed : Bool) (id : Option ℕ) : Client :=
  { c with
    sessions := c.sessions ++ [⟨c.created, closed, id⟩]
    registered :=
      match id with
      | some n => Function.update c.registered n (some c.created)
      | none => c.registered
    created := c.created + 1 }

/-- The loop of `connectSessions`, with the outcomes of `createSession` and the number of sessions
connected so far. -/
def connectLoop : (outcomes : List Bool) → (connected : ℕ) → Client → Client
  | [], _, c => c
  | false :: outcomes, connected, c => connectLoop outcomes connected c
  | true :: outcomes, connected, c =>
    let id := if c.heartbeatEnabled then some (connected + 1) else none
    connectLoop outcomes (connected + 1) (c.add false id)

/-- `connectSessions`. -/
def connectSessions (c : Client) (outcome : ℕ → Bool) : Client :=
  connectLoop ((List.range c.target).map outcome) 0 c

/-- `pool.RemoveClosed` at the start of `checkAndReconnect`. -/
def removeClosed (c : Client) : Client :=
  { c with sessions := c.sessions.filter (!·.closed), round := .removed }

/-- `pool.Count`, and whether sessions are needed. -/
def count (c : Client) : Client :=
  let active := c.sessions.countP (!·.closed)
  { c with
    round := if active < c.target then .adding active 0 (c.target - active) else .idle }

/-- An attempt of `checkAndReconnect`: it fails, or there is a session, which may have been
closed while it waited in the warm-up pool. -/
def attempt (c : Client) (active i left : ℕ) (outcome : Option Bool) : Client :=
  let c :=
    match outcome with
    | none => c
    | some closed => c.add closed (some (active + i + 1))
  { c with round := if left = 1 then .idle else .adding active (i + 1) (left - 1) }

/-- The connect function of the reconnector. -/
def reconnect (c : Client) (ok : Bool) : Client := if ok then c.add false none else c

/-- The session at a position closes. -/
def close (c : Client) (idx : ℕ) : Client :=
  { c with sessions := c.sessions.modify idx fun x => { x with closed := true } }

/-- A step: `removeClosed`, `count` and `attempt` are those of `checkAndReconnect`, in that
order. -/
inductive Event where
  | connectSessions (outcome : ℕ → Bool)
  | removeClosed
  | count
  | attempt (outcome : Option Bool)
  | reconnect (ok : Bool)
  | close (idx : ℕ)

def step (c : Client) : Event → Client
  | .connectSessions outcome => connectSessions c outcome
  | .removeClosed => if c.round = .idle then removeClosed c else c
  | .count => if c.round = .removed then count c else c
  | .attempt outcome =>
    match c.round with
    | .adding active i left => attempt c active i left outcome
    | _ => c
  | .reconnect ok => reconnect c ok
  | .close idx => close c idx

/-- The session whose pings have made the score that `GetStream` uses for a position:
`qualityFunc(idx+1)`. -/
def Client.scoredBy (c : Client) (idx : ℕ) : Option ℕ := c.registered (idx + 1)

/-! ## What the numbers are for -/

/-- Both sessions are open and registered, under the same number. -/
def Clash (x y : Session) : Prop :=
  x.closed = false ∧ y.closed = false ∧ ∃ n, x.id = some n ∧ y.id = some n

/-- No two open sessions have been registered under the same number. -/
def Distinct (c : Client) : Prop := c.sessions.Pairwise fun x y => ¬ Clash x y

/-- The score used for an open session is that of its own pings. -/
def OwnScores (c : Client) : Prop :=
  ∀ (idx : ℕ) (x : Session), c.sessions[idx]? = some x → x.closed = false →
    c.scoredBy idx = some x.key

/-- Both; scores are only used when the heartbeat is enabled. -/
def Identified (c : Client) : Prop :=
  Distinct c ∧ (c.heartbeatEnabled = true → OwnScores c)

/-- Closed sessions come after all open ones. -/
def ClosedLast (l : List Session) : Prop :=
  ∀ (i j : ℕ) (x y : Session), i < j → l[i]? = some x → l[j]? = some y → x.closed = true →
    y.closed = true

/-- A step keeps the numbers right.  With the heartbeat enabled: `connectSessions` starts from an
empty pool or connects nothing, `RemoveClosed` moves no open session, the session of an attempt
gets the number of its position (or, if it is closed already, not that of an open session), and
the reconnector does not connect.  Otherwise: the session of an attempt does not get the number
of an open session. -/
def KeepsIds (c : Client) : Event → Prop
  | .connectSessions outcome =>
    c.heartbeatEnabled = true → c.sessions = [] ∨ ∀ i < c.target, outcome i = false
  | .removeClosed => c.heartbeatEnabled = true → c.round = .idle → ClosedLast c.sessions
  | .attempt (some closed) =>
    ∀ active i left, c.round = .adding active i left →
      if c.heartbeatEnabled then
        if closed then ∀ x, c.sessions[active + i]? = some x → x.closed = true
        else active + i = c.sessions.length
      else
        closed = false → ∀ y ∈ c.sessions, y.closed = false → y.id ≠ some (active + i + 1)
  | .reconnect ok => c.heartbeatEnabled = true → ok = false
  | .attempt none | .count | .close _ => True

/-! ## Registrations -/

/-- The registrations belong to sessions that exist, each under the number of its session. -/
structure Recorded (c : Client) : Prop where
  created : ∀ x ∈ c.sessions, x.key < c.created
  registered : ∀ n k, c.registered n = some k → k < c.created
  own : ∀ n, ∀ x ∈ c.sessions, c.registered n = some x.key → x.id = some n

/-- A new client. -/
theorem recorded_newClient (heartbeatEnabled : Bool) (concurrency : Int) :
    Recorded (newClient heartbeatEnabled concurrency) :=
  ⟨by simp [newClient], nofun, nofun⟩

section Add

variable {c : Client} (closed : Bool) (id : Option ℕ)

theorem getElem?_add {j : ℕ} {x : Session} :
    (c.add closed id).sessions[j]? = some x ↔
      c.sessions[j]? = some x ∨ (j = c.sessions.length ∧ x = ⟨c.created, closed, id⟩) := by
  show (c.sessions ++ [⟨c.created, closed, id⟩])[j]? = some x ↔ _
  rw [getElem?_append_singleton_iff, eq_comm (b := x)]

theorem registered_add (n : ℕ) :
    (c.add closed id).registered n = if id = some n then some c.created else c.registered n := by
  cases id with
  | none => rfl
  | some m =>
    by_cases h : m = n
    · subst h
      simp [Client.add]
    · simp [Client.add, h, Function.update_of_ne (Ne.symm h)]

theorem recorded_add (h : Recorded c) : Recorded (c.add closed id) where
  created := by
    intro x hx
    rcases List.mem_append.1 hx with hold | hnew
    · exact Nat.lt_succ_of_lt (h.created x hold)
    · obtain rfl := List.mem_singleton.1 hnew
      exact Nat.lt_succ_self _
  registered := by
    intro n k hk
    rw [registered_add] at hk
    split_ifs at hk
    · cases hk
      exact Nat.lt_succ_self _
    · exact Nat.lt_succ_of_lt (h.registered n k hk)
  own := by
    intro n x hx hreg
    rw [registered_add] at hreg
    rcases List.mem_append.1 hx with hold | hnew
    · split_ifs at hreg
      · have hlt := h.created x hold
        rw [← Option.some.inj hreg] at hlt
        exact absurd hlt (Nat.lt_irrefl _)
      · exact h.own n x hold hreg
    · obtain rfl := List.mem_singleton.1 hnew
      split_ifs at hreg with hid
      · exact hid
      · exact absurd (h.registered n _ hreg) (Nat.lt_irrefl _)

theorem scoredBy_add (m idx : ℕ) :
    (c.add closed (some (m + 1))).scoredBy idx
      = if m = idx then some c.created else c.scoredBy idx := by
  rw [Client.scoredBy, registered_add, Client.scoredBy]
  simp

/-- What a new open session with a number needs for the scores to stay right: the number is that
of its position. -/
theorem ownScores_add_open_iff (hrec : Recorded c) (h : OwnScores c) (m : ℕ) :
    OwnScores (c.add false (some (m + 1))) ↔ m = c.sessions.length := by
  constructor
  · intro hnext
    have hsome := hnext c.sessions.length _ ((getElem?_add ..).2 (.inr ⟨rfl, rfl⟩)) rfl
    rw [scoredBy_add] at hsome
    by_contra hne
    rw [if_neg hne] at hsome
    exact Nat.lt_irrefl _ (hrec.registered _ _ hsome)
  · rintro rfl idx x hx hopen
    rw [scoredBy_add]
    rcases (getElem?_add ..).1 hx with hold | ⟨rfl, rfl⟩
    · have hlt : idx < c.sessions.length := (List.getElem?_eq_some_iff.1 hold).1
      rw [if_neg (Nat.ne_of_gt hlt)]
      exact h idx x hold hopen
    · rw [if_pos rfl]

/-- What a new session that is already closed needs: it takes the number of no open one. -/
theorem ownScores_add_closed_iff (hrec : Recorded c) (h : OwnScores c) (m : ℕ) :
    OwnScores (c.add true (some (m + 1))) ↔ ∀ x, c.sessions[m]? = some x → x.closed = true := by
  constructor
  · intro hnext x hx
    by_contra hopen
    have hsome := hnext m x ((getElem?_add ..).2 (.inl hx)) (by simpa using hopen)
    rw [scoredBy_add, if_pos rfl] at hsome
    have hlt := hrec.created x (List.mem_of_getElem? hx)
    rw [Option.some.inj hsome] at hlt
    exact Nat.lt_irrefl _ hlt
  · intro hclosed idx x hx hopen
    rcases (getElem?_add ..).1 hx with hold | ⟨-, rfl⟩
    · have hne : m ≠ idx := by
        rintro rfl
        rw [hclosed x hold] at hopen
        cases hopen
      rw [scoredBy_add, if_neg hne]
      exact h idx x hold hopen
    · cases hopen

/-- A session that is added without a number has no score of its own. -/
theorem not_ownScores_add_none (hrec : Recorded c) : ¬ OwnScores (c.add false none) := by
  intro h
  have hsome := h c.sessions.length _ ((getElem?_add ..).2 (.inr ⟨rfl, rfl⟩)) rfl
  rw [Client.scoredBy, registered_add] at hsome
  exact Nat.lt_irrefl _ (hrec.registered _ _ hsome)

/-- A number that is new. -/
theorem distinct_add_iff (h : Distinct c) :
    Distinct (c.add closed id) ↔
      (closed = false → ∀ n, id = some n → ∀ y ∈ c.sessions, y.closed = false → y.id ≠ some n) := by
  show List.Pairwise (fun x y => ¬ Clash x y) (c.sessions ++ [⟨c.created, closed, id⟩]) ↔ _
  rw [List.pairwise_append]
  constructor
  · rintro ⟨-, -, hcross⟩ hopen n hid y hy hyopen hyid
    exact hcross y hy _ (List.mem_singleton_self _) ⟨hyopen, hopen, n, hyid, hid⟩
  · intro hnew
    refine ⟨h, List.pairwise_singleton .., ?_⟩
    rintro y hy _ hx ⟨hyopen, hopen, n, hyid, hid⟩
    obtain rfl := List.mem_singleton.1 hx
    exact hnew hopen n hid y hy hyopen hyid

end Add

/-- Scores that are right keep the numbers of open sessions apart. -/
theorem distinct_of_ownScores {c : Client} (hrec : Recorded c) (h : OwnScores c) : Distinct c := by
  refine List.pairwise_iff_getElem.2 fun i j hi hj hij => ?_
  rintro ⟨hxopen, hyopen, n, hxid, hyid⟩
  have hx := hrec.own _ _ (List.getElem_mem hi) (h i _ (List.getElem?_eq_getElem hi) hxopen)
  have hy := hrec.own _ _ (List.getElem_mem hj) (h j _ (List.getElem?_eq_getElem hj) hyopen)
  rw [hxid] at hx
  rw [hyid] at hy
  have hn := Option.some.inj hx
  have hn' := Option.some.inj hy
  omega

/-! ## Removing closed sessions -/

/-- Where a session is found after the closed ones have been removed. -/
theorem getElem?_filter_countP {l : List Session} {j : ℕ} {y : Session} (hy : l[j]? = some y)
    (hopen : y.closed = false) :
    (l.filter (!·.closed))[(l.take j).countP (!·.closed)]? = some y := by
  induction l generalizing j with
  | nil => cases hy
  | cons a l ih =>
    cases j with
    | zero =>
      cases hy
      simp [hopen]
    | succ j =>
      have hrest := ih hy
      cases ha : a.closed <;> simpa [ha] using hrest

/-- With the closed sessions last, no open one moves. -/
theorem getElem?_of_filter {l : List Session} (hlast : ClosedLast l) {j : ℕ} {y : Session}
    (hy : (l.filter (!·.closed))[j]? = some y) : l[j]? = some y := by
  induction l generalizing j with
  | nil => cases hy
  | cons a l ih =>
    have htail : ClosedLast l := fun i j x y hij hx hy =>
      hlast (i + 1) (j + 1) x y (Nat.succ_lt_succ hij) hx hy
    cases ha : a.closed with
    | true =>
      have hnone : l.filter (!·.closed) = [] := by
        rw [List.filter_eq_nil_iff]
        intro x hx
        obtain ⟨i, hi⟩ := List.mem_iff_getElem?.1 hx
        simp [hlast 0 (i + 1) a x (Nat.succ_pos i) rfl hi ha]
      simp [ha, hnone] at hy
    | false =>
      cases j with
      | zero => simpa [ha] using hy
      | succ j => exact ih htail (by simpa [ha] using hy)

/-- What `RemoveClosed` may move. -/
theorem ownScores_removeClosed_iff {c : Client} (hrec : Recorded c) (h : OwnScores c) :
    OwnScores (removeClosed c) ↔ ClosedLast c.sessions := by
  constructor
  · intro hnext i j x y hij hx hy hclosed
    by_contra hopen
    have hopen : y.closed = false := by simpa using hopen
    set j' := (c.sessions.take j).countP (!·.closed) with hj'
    -- the closed session before it makes room for it to move
    have hlt : j' < j := by
      have hjlen : (c.sessions.take j).length = j :=
        List.length_take_of_le (Nat.le_of_lt (List.getElem?_eq_some_iff.1 hy).1)
      have hmem : x ∈ c.sessions.take j := by
        refine List.mem_of_getElem? (i := i) ?_
        rw [List.getElem?_take_of_lt hij, hx]
      have hcount : j' < (c.sessions.take j).length :=
        List.countP_lt_length_iff.2 ⟨x, hmem, by simp [hclosed]⟩
      rwa [hjlen] at hcount
    have hold := hrec.own _ y (List.mem_of_getElem? hy) (h j y hy hopen)
    have hnew := hrec.own _ y (List.mem_of_getElem? hy)
      (hnext j' y (getElem?_filter_countP hy hopen) hopen)
    rw [hold] at hnew
    have := Option.some.inj hnew
    omega
  · intro hlast idx x hx hopen
    exact h idx x (getElem?_of_filter hlast hx) hopen

theorem recorded_removeClosed {c : Client} (h : Recorded c) : Recorded (removeClosed c) where
  created := fun x hx => h.created x (List.mem_of_mem_filter hx)
  registered := h.registered
  own := fun n x hx => h.own n x (List.mem_of_mem_filter hx)

/-! ## Closing -/

section Close

variable {c : Client} (idx : ℕ)

/-- What is at a position after a session has been closed. -/
theorem getElem?_close {j : ℕ} {x : Session} (hx : (close c idx).sessions[j]? = some x) :
    ∃ y, c.sessions[j]? = some y ∧ x.key = y.key ∧ x.id = y.id ∧ (x.closed = false → x = y) := by
  have hmodify : (c.sessions.modify idx fun y => { y with closed := true })[j]? = some x := hx
  rw [List.getElem?_modify] at hmodify
  split_ifs at hmodify
  · obtain ⟨y, hy, rfl⟩ := Option.map_eq_some_iff.1 hmodify
    exact ⟨y, hy, rfl, rfl, nofun⟩
  · exact ⟨x, by simpa using hmodify, rfl, rfl, fun _ => rfl⟩

theorem recorded_close (h : Recorded c) : Recorded (close c idx) where
  created := by
    intro x hx
    obtain ⟨j, hj⟩ := List.mem_iff_getElem?.1 hx
    obtain ⟨y, hy, hkey, -, -⟩ := getElem?_close idx hj
    rw [hkey]
    exact h.created y (List.mem_of_getElem? hy)
  registered := h.registered
  own := by
    intro n x hx hreg
    obtain ⟨j, hj⟩ := List.mem_iff_getElem?.1 hx
    obtain ⟨y, hy, hkey, hid, -⟩ := getElem?_close idx hj
    rw [hid]
    exact h.own n y (List.mem_of_getElem? hy) (hkey ▸ hreg)

theorem ownScores_close (h : OwnScores c) : OwnScores (close c idx) := by
  intro j x hx hopen
  obtain ⟨y, hy, -, -, heq⟩ := getElem?_close idx hx
  obtain rfl := heq hopen
  exact h j x hy hopen

theorem distinct_close (h : Distinct c) : Distinct (close c idx) := by
  refine List.pairwise_iff_getElem.2 fun i j hi hj hij => ?_
  intro hclash
  obtain ⟨x, hx, -, -, hxeq⟩ := getElem?_close idx (List.getElem?_eq_getElem hi)
  obtain ⟨y, hy, -, -, hyeq⟩ := getElem?_close idx (List.getElem?_eq_getElem hj)
  rw [hxeq hclash.1, hyeq hclash.2.1] at hclash
  obtain ⟨hi', rfl⟩ := List.getElem?_eq_some_iff.1 hx
  obtain ⟨hj', rfl⟩ := List.getElem?_eq_some_iff.1 hy
  exact List.pairwise_iff_getElem.1 h i j hi' hj' hij hclash

end Close

/-! ## Connecting -/

section Connect

variable {c : Client} {outcomes : List Bool} {connected : ℕ}

theorem recorded_connectLoop (h : Recorded c) : Recorded (connectLoop outcomes connected c) := by
  induction outcomes generalizing connected c with
  | nil => exact h
  | cons ok outcomes ih =>
    cases ok with
    | false => exact ih h
    | true => exact ih (recorded_add _ _ h)

/-- Without the heartbeat, no session gets a number. -/
theorem distinct_connectLoop (hoff : c.heartbeatEnabled = false) (h : Distinct c) :
    Distinct (connectLoop outcomes connected c) := by
  induction outcomes generalizing connected c with
  | nil => exact h
  | cons ok outcomes ih =>
    cases ok with
    | false => exact ih hoff h
    | true =>
      have hadd : Distinct (c.add false none) := (distinct_add_iff false none h).2 nofun
      rw [connectLoop, hoff]
      exact ih hoff hadd

/-- Counting agrees with the positions if it starts with the first position. -/
theorem ownScores_connectLoop (hon : c.heartbeatEnabled = true) (hrec : Recorded c)
    (h : OwnScores c) (hlen : c.sessions.length = connected) :
    OwnScores (connectLoop outcomes connected c) := by
  induction outcomes generalizing connected c with
  | nil => exact h
  | cons ok outcomes ih =>
    cases ok with
    | false => exact ih hon hrec h hlen
    | true =>
      have hadd : OwnScores (c.add false (some (connected + 1))) :=
        (ownScores_add_open_iff hrec h connected).2 hlen.symm
      rw [connectLoop, hon]
      exact ih hon (recorded_add _ _ hrec) hadd (by simp [Client.add, hlen])

theorem prefix_connectLoop (outcomes : List Bool) (connected : ℕ) (c : Client) :
    c.sessions <+: (connectLoop outcomes connected c).sessions := by
  induction outcomes generalizing connected c with
  | nil => exact List.prefix_refl _
  | cons ok outcomes ih =>
    cases ok with
    | false => exact ih connected c
    | true =>
      have hadd : ∀ id, c.sessions <+: (c.add false id).sessions :=
        fun id => List.prefix_append ..
      exact (hadd _).trans (ih (connected + 1) _)

/-- The first session connected comes behind those there are, with the next number. -/
theorem getElem?_connectLoop (connected : ℕ) (hon : c.heartbeatEnabled = true)
    (hsome : true ∈ outcomes) :
    (connectLoop outcomes connected c).sessions[c.sessions.length]?
      = some ⟨c.created, false, some (connected + 1)⟩ := by
  induction outcomes with
  | nil => cases hsome
  | cons ok outcomes ih =>
    cases ok with
    | false => exact ih (by simpa using hsome)
    | true =>
      rw [connectLoop, hon]
      have hnew : (c.add false (some (connected + 1))).sessions[c.sessions.length]?
          = some ⟨c.created, false, some (connected + 1)⟩ :=
        (getElem?_add ..).2 (.inr ⟨rfl, rfl⟩)
      have hlt := (List.getElem?_eq_some_iff.1 hnew).1
      obtain ⟨later, hlater⟩ :=
        prefix_connectLoop outcomes (connected + 1) (c.add false (some (connected + 1)))
      rw [if_pos rfl, ← hlater, List.getElem?_append_left hlt, hnew]

/-- With the heartbeat, the numbers are right if the pool was empty or nothing is connected. -/
theorem ownScores_connectSessions_iff (hon : c.heartbeatEnabled = true) (hrec : Recorded c)
    (h : OwnScores c) (outcome : ℕ → Bool) :
    OwnScores (connectSessions c outcome) ↔
      c.sessions = [] ∨ ∀ i < c.target, outcome i = false := by
  unfold connectSessions
  by_cases hsome : true ∈ (List.range c.target).map outcome
  · have hnot : ¬ ∀ i < c.target, outcome i = false := by
      intro hall
      obtain ⟨i, hi, htrue⟩ := List.mem_map.1 hsome
      rw [hall i (List.mem_range.1 hi)] at htrue
      cases htrue
    rw [or_iff_left hnot]
    constructor
    · intro hnext
      have hfirst := getElem?_connectLoop 0 hon hsome
      have hid := (recorded_connectLoop hrec).own _ _ (List.mem_of_getElem? hfirst)
        (hnext _ _ hfirst rfl)
      have hzero := Option.some.inj hid
      exact List.length_eq_zero_iff.1 (by omega)
    · intro hnil
      exact ownScores_connectLoop hon hrec h (by rw [hnil, List.length_nil])
  · have hall : ∀ i < c.target, outcome i = false := by
      intro i hi
      by_contra htrue
      exact hsome (List.mem_map.2 ⟨i, List.mem_range.2 hi, by simpa using htrue⟩)
    refine iff_of_true ?_ (.inr hall)
    have hskip : ∀ outcomes, true ∉ outcomes → connectLoop outcomes 0 c = c := by
      intro outcomes hout
      induction outcomes with
      | nil => rfl
      | cons ok outcomes ih =>
        cases ok with
        | false => exact ih fun hmem => hout (List.mem_cons_of_mem _ hmem)
        | true => exact absurd (List.mem_cons_self ..) hout
    rwa [hskip _ hsome]

end Connect

/-! ## Runs -/

theorem heartbeatEnabled_connectLoop (outcomes : List Bool) (connected : ℕ) (c : Client) :
    (connectLoop outcomes connected c).heartbeatEnabled = c.heartbeatEnabled := by
  induction outcomes generalizing connected c with
  | nil => rfl
  | cons ok outcomes ih =>
    cases ok with
    | false => exact ih connected c
    | true => exact ih (connected + 1) _

section Step

variable (c : Client)

theorem step_removeClosed :
    step c .removeClosed = if c.round = .idle then removeClosed c else c := rfl

theorem step_count : step c .count = if c.round = .removed then count c else c := rfl

/-- An attempt, which there is only in the loop of `checkAndReconnect`. -/
theorem step_attempt_cases (outcome : Option Bool) :
    (∃ active i left, c.round = .adding active i left ∧
        step c (.attempt outcome) = attempt c active i left outcome) ∨
      ((∀ active i left, c.round ≠ .adding active i left) ∧ step c (.attempt outcome) = c) := by
  cases hround : c.round with
  | adding active i left => exact .inl ⟨active, i, left, rfl, by simp only [step, hround]⟩
  | idle => exact .inr ⟨nofun, by simp only [step, hround]⟩
  | removed => exact .inr ⟨nofun, by simp only [step, hround]⟩

theorem heartbeatEnabled_step (e : Event) : (step c e).heartbeatEnabled = c.heartbeatEnabled := by
  cases e with
  | connectSessions outcome => exact heartbeatEnabled_connectLoop ..
  | removeClosed =>
    rw [step_removeClosed]
    split_ifs <;> rfl
  | count =>
    rw [step_count]
    split_ifs <;> rfl
  | attempt outcome =>
    rcases step_attempt_cases c outcome with ⟨active, i, left, -, hstep⟩ | ⟨-, hstep⟩
    · rw [hstep]
      cases outcome <;> rfl
    · rw [hstep]
  | reconnect ok => cases ok <;> rfl
  | close idx => rfl

/-- **Every step** keeps the records. -/
theorem recorded_step (e : Event) (h : Recorded c) : Recorded (step c e) := by
  cases e with
  | connectSessions outcome => exact recorded_connectLoop h
  | removeClosed =>
    rw [step_removeClosed]
    split_ifs
    · exact recorded_removeClosed h
    · exact h
  | count =>
    rw [step_count]
    split_ifs
    · exact ⟨h.created, h.registered, h.own⟩
    · exact h
  | attempt outcome =>
    rcases step_attempt_cases c outcome with ⟨active, i, left, -, hstep⟩ | ⟨-, hstep⟩
    · rw [hstep]
      cases outcome with
      | none => exact ⟨h.created, h.registered, h.own⟩
      | some closed =>
        have hadd := recorded_add closed (some (active + i + 1)) h
        exact ⟨hadd.created, hadd.registered, hadd.own⟩
    · rwa [hstep]
  | reconnect ok =>
    cases ok with
    | false => exact h
    | true => exact recorded_add false none h
  | close idx => exact recorded_close idx h

variable {c}

theorem keepsIds_attempt_iff {active i left : ℕ} (hround : c.round = .adding active i left)
    (closed : Bool) :
    KeepsIds c (.attempt (some closed)) ↔
      if c.heartbeatEnabled then
        if closed then ∀ x, c.sessions[active + i]? = some x → x.closed = true
        else active + i = c.sessions.length
      else closed = false → ∀ y ∈ c.sessions, y.closed = false → y.id ≠ some (active + i + 1) := by
  constructor
  · intro h
    exact h active i left hround
  · intro h active' i' left' hround'
    rw [hround] at hround'
    cases hround'
    exact h

/-- Outside its loop, `checkAndReconnect` attempts nothing. -/
theorem keepsIds_attempt_of_ne (hno : ∀ active i left, c.round ≠ .adding active i left)
    (outcome : Option Bool) : KeepsIds c (.attempt outcome) := by
  cases outcome with
  | none => trivial
  | some closed => exact fun active i left hround => absurd hround (hno active i left)

/-- **One step with the heartbeat enabled.** -/
theorem ownScores_step_iff (hon : c.heartbeatEnabled = true) (hrec : Recorded c)
    (h : OwnScores c) (e : Event) : OwnScores (step c e) ↔ KeepsIds c e := by
  cases e with
  | connectSessions outcome =>
    simp only [KeepsIds, hon, forall_const]
    exact ownScores_connectSessions_iff hon hrec h outcome
  | removeClosed =>
    simp only [KeepsIds, hon, forall_const, step_removeClosed]
    split_ifs with hidle
    · simp only [hidle, forall_const]
      exact ownScores_removeClosed_iff hrec h
    · exact iff_of_true h fun hround => absurd hround hidle
  | count =>
    refine iff_of_true ?_ trivial
    rw [step_count]
    split_ifs <;> exact h
  | attempt outcome =>
    rcases step_attempt_cases c outcome with ⟨active, i, left, hround, hstep⟩ | ⟨hno, hstep⟩
    · rw [hstep]
      cases outcome with
      | none => exact iff_of_true h trivial
      | some closed =>
        rw [keepsIds_attempt_iff hround, if_pos hon]
        cases closed with
        | false => exact ownScores_add_open_iff hrec h (active + i)
        | true => exact ownScores_add_closed_iff hrec h (active + i)
    · rw [hstep]
      exact iff_of_true h (keepsIds_attempt_of_ne hno outcome)
  | reconnect ok =>
    cases ok with
    | false => exact iff_of_true h fun _ => rfl
    | true => exact iff_of_false (not_ownScores_add_none hrec) fun hno => absurd (hno hon) nofun
  | close idx => exact iff_of_true (ownScores_close idx h) trivial

/-- **One step with the heartbeat disabled.** -/
theorem distinct_step_iff (hoff : c.heartbeatEnabled = false) (h : Distinct c) (e : Event) :
    Distinct (step c e) ↔ KeepsIds c e := by
  -- what asks for the heartbeat to be enabled asks for nothing
  have hnone : ∀ {P : Prop}, c.heartbeatEnabled = true → P := by
    intro P hon
    rw [hoff] at hon
    cases hon
  cases e with
  | connectSessions outcome => exact iff_of_true (distinct_connectLoop hoff h) hnone
  | removeClosed =>
    refine iff_of_true ?_ hnone
    rw [step_removeClosed]
    split_ifs
    · exact h.sublist List.filter_sublist
    · exact h
  | count =>
    refine iff_of_true ?_ trivial
    rw [step_count]
    split_ifs <;> exact h
  | attempt outcome =>
    rcases step_attempt_cases c outcome with ⟨active, i, left, hround, hstep⟩ | ⟨hno, hstep⟩
    · rw [hstep]
      cases outcome with
      | none => exact iff_of_true h trivial
      | some closed =>
        rw [keepsIds_attempt_iff hround, hoff, if_neg Bool.false_ne_true]
        refine (distinct_add_iff closed (some (active + i + 1)) h).trans ?_
        simp only [Option.some.injEq, forall_eq']
    · rw [hstep]
      exact iff_of_true h (keepsIds_attempt_of_ne hno outcome)
  | reconnect ok =>
    refine iff_of_true ?_ hnone
    cases ok with
    | false => exact h
    | true => exact (distinct_add_iff false none h).2 nofun
  | close idx => exact iff_of_true (distinct_close idx h) trivial

end Step

/-- **The step.** -/
theorem identified_step_iff (c : Client) (e : Event) (hrec : Recorded c) (h : Identified c) :
    Identified (step c e) ↔ KeepsIds c e := by
  cases henabled : c.heartbeatEnabled with
  | true =>
    have hiff : Identified (step c e) ↔ OwnScores (step c e) := by
      rw [Identified, heartbeatEnabled_step, henabled]
      constructor
      · rintro ⟨-, hown⟩
        exact hown rfl
      · intro hown
        exact ⟨distinct_of_ownScores (recorded_step c e hrec) hown, fun _ => hown⟩
    rw [hiff, ownScores_step_iff henabled hrec (h.2 henabled)]
  | false =>
    have hiff : Identified (step c e) ↔ Distinct (step c e) := by
      rw [Identified, heartbeatEnabled_step, henabled]
      simp
    rw [hiff, distinct_step_iff henabled h.1]

/-- **Sessions keep their numbers** in every state of a run exactly if each step keeps them. -/
theorem identified_iff (heartbeatEnabled : Bool) (concurrency : Int) (es : List Event) :
    Always step Identified (newClient heartbeatEnabled concurrency) es ↔
      EachStep step KeepsIds (newClient heartbeatEnabled concurrency) es := by
  have hstart : Identified (newClient heartbeatEnabled concurrency) :=
    ⟨List.Pairwise.nil, fun _ => nofun⟩
  exact always_iff_eachStep_of_invariant (fun c e hrec => recorded_step c e hrec)
    identified_step_iff (recorded_newClient heartbeatEnabled concurrency) hstart es

/-- Four sessions are connected and the first one closes.  The next round of `checkAndReconnect`
moves the other three to the front and registers the new session as number 4, which the last of
the three already is; the score used for the session that is now first is that of the closed
one. -/
theorem reconnect_reuses_id :
    let c := run step (newClient true 4)
      [.connectSessions fun _ => true, .close 0, .removeClosed, .count, .attempt (some false)]
    c.sessions = [⟨1, false, some 2⟩, ⟨2, false, some 3⟩, ⟨3, false, some 4⟩, ⟨4, false, some 4⟩] ∧
      c.scoredBy 0 = some 0 ∧ ¬ Identified c := by
  refine ⟨by decide, by decide, ?_⟩
  rintro ⟨hdistinct, -⟩
  have hclash := List.pairwise_iff_getElem.1 hdistinct 2 3 (by decide) (by decide) (by decide)
  exact hclash ⟨by decide, by decide, 4, by decide, by decide⟩

end Sessions
