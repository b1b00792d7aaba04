/-
# The listeners that hand connections over, and the server's `Stop`

Five of the transports have a listener of the same kind (`internal/transport/reality.go`,
`shadowtls.go`, `h2mux.go`, `grpc.go`, `wsmux.go`): a goroutine for each connection looks at it and
puts it on the channel `connCh`, from which `Accept` takes, and `Close` closes the channel `done`.
The server of `internal/server/server.go` calls `Accept` in a loop and closes the listener in
`Stop`, which closes the transport after it.

`run_handsOver` is what the server gets, in every interleaving.  `stop_crashes` says that `Stop`
closes `done` twice if the transport keeps its listener, as all but one do.
-/
import IPShadowT.Runs
import Mathlib.Data.List.Induction
import Mathlib.Data.List.Nodup

open Runs

namespace Listener

/-! ## The listeners -/

inductive Kind where
  | reality
  | shadowTLS
  | h2mux
  | grpc
  | wsmux
  deriving DecidableEq, Repr

/-- The goroutine waits for `connCh` and `done`; that of a websocket only for `connCh`. -/
def Kind.watchesDone : Kind → Bool
  | .wsmux => false
  | _ => true

/-- `Listen` keeps the listener for the transport's `Close`. -/
def Kind.keepsListener : Kind → Bool
  | .wsmux => false
  | _ => true

/-- What the goroutine finds out about a connection. -/
inductive Verdict where
  /-- an error, after which the connection is closed or the request answered with it -/
  | refused
  /-- a probe, that `HandleConnection` of REALITY has dealt with -/
  | fallback
  | client
  deriving DecidableEq, Repr

/-- The goroutine of a connection. -/
inductive Stage where
  | handling
  | refused
  | fallback
  /-- at `connCh <- conn` -/
  | sending
  | sent
  /-- closed because of `done` -/
  | dropped
  deriving DecidableEq, Repr

/-- Where the goroutine goes from `handling`. -/
def Verdict.stage : Verdict → Stage
  | .refused => .refused
  | .fallback => .fallback
  | .client => .sending

/-- The call that `Stop` makes next. -/
inductive Stop where
  | closeDone
  | closeListener
  | closeTransport
  | stopHealth
  | stopPlugins
  | cleanupBlocks
  | returned
  deriving DecidableEq, Repr

structure State where
  /-- of the connections, in the order in which they came -/
  stages : List Stage
  /-- in `connCh` -/
  queue : List ℕ
  /-- returned by `Accept` -/
  accepted : List ℕ
  done : Bool
  stop : Stop
  /-- a panic, which ends the program -/
  crashed : Bool
  deriving DecidableEq, Repr

def State.init : State := ⟨[], [], [], false, .closeDone, false⟩

/-- `make(chan net.Conn, 256)` -/
def capacity : ℕ := 256

inductive Event where
  | arrive
  | handled (k : ℕ)
  | send (k : ℕ)
  | drop (k : ℕ)
  | accept
  | stop
  deriving DecidableEq, Repr

/-- `Close`: closing a closed channel panics. -/
def State.close (s : State) : State :=
  if s.done then { s with crashed := true } else { s with done := true }

/-- A call of `Stop`. -/
def stopStep (kind : Kind) (s : State) : State :=
  match s.stop with
  | .closeDone => { s with stop := .closeListener }
  | .closeListener => { s.close with stop := .closeTransport }
  | .closeTransport =>
    if kind.keepsListener then { s.close with stop := .stopHealth }
    else { s with stop := .stopHealth }
  | .stopHealth => { s with stop := .stopPlugins }
  | .stopPlugins => { s with stop := .cleanupBlocks }
  | .cleanupBlocks => { s with stop := .returned }
  | .returned => s

/-- A step of a goroutine; `verdict k` is what is found out about the `k`-th connection. -/
def act (kind : Kind) (verdict : ℕ → Verdict) (s : State) : Event → State
  | .arrive => { s with stages := s.stages ++ [.handling] }
  | .handled k =>
    if s.stages[k]? = some .handling
    then { s with stages := s.stages.set k (verdict k).stage }
    else s
  | .send k =>
    if s.stages[k]? = some .sending ∧ s.queue.length < capacity
    then { s with stages := s.stages.set k .sent, queue := s.queue ++ [k] }
    else s
  | .drop k =>
    if s.stages[k]? = some .sending ∧ s.done ∧ kind.watchesDone
    then { s with stages := s.stages.set k .dropped }
    else s
  | .accept =>
    match s.queue with
    | [] => s
    | k :: queue => { s with queue := queue, accepted := s.accepted ++ [k] }
  | .stop => stopStep kind s

def step (kind : Kind) (verdict : ℕ → Verdict) (s : State) (e : Event) : State :=
  if s.crashed then s else act kind verdict s e

/-! ## One step -/

/-- What a step can do to the connections. -/
inductive Move (kind : Kind) (verdict : ℕ → Verdict) (s : State) : State → Prop where
  | none {s' : State} (hstages : s'.stages = s.stages) (hqueue : s'.queue = s.queue)
      (haccepted : s'.accepted = s.accepted) (hdone : s.done → s'.done) : Move kind verdict s s'
  | arrive : Move kind verdict s { s with stages := s.stages ++ [.handling] }
  | handled {k : ℕ} (hk : s.stages[k]? = some .handling) :
      Move kind verdict s { s with stages := s.stages.set k (verdict k).stage }
  | send {k : ℕ} (hk : s.stages[k]? = some .sending) (hroom : s.queue.length < capacity) :
      Move kind verdict s { s with stages := s.stages.set k .sent, queue := s.queue ++ [k] }
  | drop {k : ℕ} (hk : s.stages[k]? = some .sending) (hdone : s.done) :
      Move kind verdict s { s with stages := s.stages.set k .dropped }
  | accept {k : ℕ} {queue : List ℕ} (hqueue : s.queue = k :: queue) :
      Move kind verdict s { s with queue := queue, accepted := s.accepted ++ [k] }

variable {kind : Kind} {verdict : ℕ → Verdict} {s s' : State}

/-- Nothing happens. -/
theorem Move.refl : Move kind verdict s s := .none rfl rfl rfl id

/-- `Stop` moves no connection. -/
theorem move_stopStep : Move kind verdict s (stopStep kind s) := by
  rw [stopStep]
  have hclose : ∀ at', Move kind verdict s { s.close with stop := at' } := by
    intro at'
    rw [State.close]
    split_ifs with hdone
    · exact .none rfl rfl rfl id
    · exact .none rfl rfl rfl fun _ => rfl
  cases s.stop with
  | closeListener => exact hclose _
  | closeTransport =>
    show Move kind verdict s (if _ then _ else _)
    split_ifs with hkeeps
    · exact hclose _
    · exact .none rfl rfl rfl id
  | _ => exact .none rfl rfl rfl id

/-- What a goroutine does is a move. -/
theorem move_act (e : Event) : Move kind verdict s (act kind verdict s e) := by
  cases e with
  | arrive => exact .arrive
  | handled k =>
    rw [act]
    split_ifs with hk
    · exact .handled hk
    · exact Move.refl
  | send k =>
    rw [act]
    split_ifs with hk
    · exact .send hk.1 hk.2
    · exact Move.refl
  | drop k =>
    rw [act]
    split_ifs with hk
    · exact .drop hk.1 hk.2.1
    · exact Move.refl
  | accept =>
    cases hqueue : s.queue with
    | nil =>
      rw [act, hqueue]
      exact Move.refl
    | cons k queue =>
      rw [act, hqueue]
      exact .accept hqueue
  | stop => exact move_stopStep

/-- **What a step can do.** -/
theorem move_step (e : Event) : Move kind verdict s (step kind verdict s e) := by
  rw [step]
  split_ifs with hcrashed
  · exact Move.refl
  · exact move_act e

/-! ## What the server gets -/

/-- The stage is one that the verdict leads to. -/
def Stage.Fits (v : Verdict) : Stage → Prop
  | .handling => True
  | .refused => v = .refused
  | .fallback => v = .fallback
  | .sending | .sent | .dropped => v = .client

/-- A verdict leads to a stage before the channel. -/
theorem Verdict.stage_fits (v : Verdict) :
    v.stage.Fits v ∧ v.stage ≠ .sent ∧ v.stage ≠ .dropped := by
  cases v <;> exact ⟨rfl, by decide, by decide⟩

/-- The connections that have gone through the channel, in their order. -/
def State.passed (s : State) : List ℕ := s.accepted ++ s.queue

structure Ok (verdict : ℕ → Verdict) (s : State) : Prop where
  fits : ∀ (k : ℕ) (t : Stage), s.stages[k]? = some t → t.Fits (verdict k)
  passed : ∀ k : ℕ, k ∈ s.passed ↔ s.stages[k]? = some .sent
  nodup : s.passed.Nodup
  room : s.queue.length ≤ capacity
  dropped : ∀ k : ℕ, s.stages[k]? = some .dropped → s.done

/-- A goroutine that does not send goes on. -/
theorem Ok.set (h : Ok verdict s) {k : ℕ} {t t' : Stage} (hk : s.stages[k]? = some t)
    (hsent : t ≠ .sent) (hsent' : t' ≠ .sent) (hfits : t'.Fits (verdict k))
    (hdropped : t' = .dropped → s.done) : Ok verdict { s with stages := s.stages.set k t' } where
  fits i u hi := by
    rcases getElem?_set_cases hi with ⟨rfl, rfl⟩ | hi
    · exact hfits
    · exact h.fits i u hi
  passed i := by
    refine (h.passed i).trans ⟨fun hi => ?_, fun hi => ?_⟩
    · have hne : k ≠ i := by
        rintro rfl
        exact hsent (Option.some.inj (hk.symm.trans hi))
      exact (List.getElem?_set_ne hne).trans hi
    · rcases getElem?_set_cases hi with ⟨-, h'⟩ | hi
      · exact absurd h'.symm hsent'
      · exact hi
  nodup := h.nodup
  room := h.room
  dropped i hi := by
    rcases getElem?_set_cases hi with ⟨-, h'⟩ | hi
    · exact hdropped h'.symm
    · exact h.dropped i hi

/-- A goroutine puts its connection on the channel. -/
theorem Ok.send (h : Ok verdict s) {k : ℕ} (hk : s.stages[k]? = some .sending)
    (hroom : s.queue.length < capacity) :
    Ok verdict { s with stages := s.stages.set k .sent, queue := s.queue ++ [k] } where
  fits i u hi := by
    rcases getElem?_set_cases hi with ⟨rfl, rfl⟩ | hi
    · exact h.fits i .sending hk
    · exact h.fits i u hi
  passed i := by
    have hlt : k < s.stages.length := (List.getElem?_eq_some_iff.1 hk).1
    show i ∈ s.accepted ++ (s.queue ++ [k]) ↔ (s.stages.set k .sent)[i]? = some .sent
    rw [← List.append_assoc, List.mem_append, List.mem_singleton]
    by_cases hne : k = i
    · subst hne
      exact iff_of_true (.inr rfl) (List.getElem?_set_self hlt)
    · rw [List.getElem?_set_ne hne, ← h.passed i]
      exact ⟨fun hi => hi.resolve_right fun h' => hne h'.symm, .inl⟩
  nodup := by
    have hnew : k ∉ s.passed := fun hmem =>
      nomatch hk.symm.trans ((h.passed k).1 hmem)
    show (s.accepted ++ (s.queue ++ [k])).Nodup
    rw [← List.append_assoc]
    exact List.Nodup.append h.nodup (List.nodup_singleton k) (List.disjoint_singleton.2 hnew)
  room := by
    rw [List.length_append, List.length_singleton]
    exact hroom
  dropped i hi := by
    rcases getElem?_set_cases hi with ⟨-, h'⟩ | hi
    · cases h'
    · exact h.dropped i hi

/-- **A move keeps the order.** -/
theorem Ok.move (h : Ok verdict s) (hmove : Move kind verdict s s') : Ok verdict s' := by
  cases hmove with
  | none hstages hqueue haccepted hdone =>
    have hpassed : s'.passed = s.passed := by rw [State.passed, hqueue, haccepted, State.passed]
    constructor
    · rw [hstages]; exact h.fits
    · rw [hstages, hpassed]; exact h.passed
    · rw [hpassed]; exact h.nodup
    · rw [hqueue]; exact h.room
    · rw [hstages]; exact fun k hk => hdone (h.dropped k hk)
  | arrive =>
    constructor
    · intro k t hk
      rcases getElem?_append_singleton_iff.1 hk with hk | ⟨-, rfl⟩
      · exact h.fits k t hk
      · trivial
    · intro k
      refine (h.passed k).trans ⟨fun hk => ?_, fun hk => ?_⟩
      · exact getElem?_append_singleton_iff.2 (.inl hk)
      · rcases getElem?_append_singleton_iff.1 hk with hk | ⟨-, h'⟩
        · exact hk
        · cases h'
    · exact h.nodup
    · exact h.room
    · intro k hk
      rcases getElem?_append_singleton_iff.1 hk with hk | ⟨-, h'⟩
      · exact h.dropped k hk
      · cases h'
  | @handled k hk =>
    obtain ⟨hfits, hsent, hdropped⟩ := (verdict k).stage_fits
    exact h.set hk nofun hsent hfits fun h' => absurd h' hdropped
  | send hk hroom => exact h.send hk hroom
  | @drop k hk hdone => exact h.set hk nofun nofun (h.fits k .sending hk) fun _ => hdone
  | @accept k queue hqueue =>
    have hpassed : s.accepted ++ [k] ++ queue = s.passed := by
      rw [State.passed, hqueue, List.append_assoc, List.singleton_append]
    refine ⟨h.fits, ?_, ?_, ?_, h.dropped⟩
    · show ∀ i, i ∈ s.accepted ++ [k] ++ queue ↔ _
      rw [hpassed]
      exact h.passed
    · show (s.accepted ++ [k] ++ queue).Nodup
      rw [hpassed]
      exact h.nodup
    · have hle := h.room
      rw [hqueue, List.length_cons] at hle
      exact Nat.le_of_succ_le hle

/-- Nothing is taken back. -/
theorem Move.prefix_passed (hmove : Move kind verdict s s') : s.passed <+: s'.passed := by
  cases hmove with
  | none hstages hqueue haccepted hdone =>
    have hpassed : s.passed = s'.passed := by rw [State.passed, ← hqueue, ← haccepted]; rfl
    exact ⟨[], (List.append_nil _).trans hpassed⟩
  | send => exact ⟨[_], List.append_assoc _ _ _⟩
  | @accept k queue hqueue =>
    have hpassed : s.passed = s.accepted ++ [k] ++ queue := by
      rw [State.passed, hqueue, List.append_assoc, List.singleton_append]
    exact ⟨[], (List.append_nil _).trans hpassed⟩
  | _ => exact List.prefix_rfl

/-- Nor in a whole run. -/
theorem prefix_passed_run (s : State) (es : List Event) :
    s.passed <+: (run (step kind verdict) s es).passed :=
  run_invariant (I := fun t : State => s.passed <+: t.passed)
    (fun _ e h => h.trans (move_step e).prefix_passed) List.prefix_rfl es

/-- **The order is kept** in every run. -/
theorem ok_run (es : List Event) : Ok verdict (run (step kind verdict) State.init es) :=
  run_invariant (fun _ e h => h.move (move_step e))
    ⟨nofun, fun _ => ⟨nofun, nofun⟩, List.nodup_nil, Nat.zero_le _, nofun⟩ es

/-- What the server gets, and may still get. -/
structure HandsOver (kind : Kind) (verdict : ℕ → Verdict) (s : State) : Prop where
  clients : ∀ k ∈ s.accepted, verdict k = .client
  once : s.accepted.Nodup
  room : s.queue.length ≤ capacity
  /-- what goes through the channel is never taken back or overtaken -/
  inOrder : ∀ es, s.accepted ++ s.queue <+: (run (step kind verdict) s es).passed
  /-- a client's connection that no goroutine of the listener has any more -/
  placed : ∀ (k : ℕ) (t : Stage), s.stages[k]? = some t → verdict k = .client →
    t ≠ .handling → t ≠ .sending →
      k ∈ s.accepted ∨ k ∈ s.queue ∨ t = .dropped ∧ s.done ∧ k ∉ s.passed

/-- **What the server gets.**  In every interleaving `Accept` returns connections of clients only,
each of them once, in the order in which they were put on the channel, where they stay until
`Accept` takes them.  A client's connection is dropped only after `Close`, and only one that was
never put there. -/
theorem run_handsOver (kind : Kind) (verdict : ℕ → Verdict) (es : List Event) :
    HandsOver kind verdict (run (step kind verdict) State.init es) := by
  have hok : Ok verdict (run (step kind verdict) State.init es) := ok_run es
  refine ⟨fun k hk => ?_, hok.nodup.of_append_left, hok.room, prefix_passed_run _, ?_⟩
  · exact hok.fits k .sent ((hok.passed k).1 (List.mem_append_left _ hk))
  · intro k t hk hclient hhandling hsending
    have hfits := hok.fits k t hk
    cases t with
    | handling => exact absurd rfl hhandling
    | sending => exact absurd rfl hsending
    | refused => exact nomatch hclient.symm.trans hfits
    | fallback => exact nomatch hclient.symm.trans hfits
    | sent =>
      rcases List.mem_append.1 ((hok.passed k).2 hk) with hmem | hmem
      · exact .inl hmem
      · exact .inr (.inl hmem)
    | dropped =>
      exact .inr (.inr ⟨rfl, hok.dropped k hk, fun hmem =>
        nomatch hk.symm.trans ((hok.passed k).1 hmem)⟩)

/-! ## `Stop` -/

/-- Where `Stop` is after `n` steps: a panic leaves it behind the second `Close`. -/
def Stop.after (kind : Kind) : ℕ → Stop
  | 0 => .closeDone
  | 1 => .closeListener
  | 2 => .closeTransport
  | 3 => .stopHealth
  | 4 => if kind.keepsListener then .stopHealth else .stopPlugins
  | 5 => if kind.keepsListener then .stopHealth else .cleanupBlocks
  | _ => if kind.keepsListener then .stopHealth else .returned

structure StopAt (kind : Kind) (n : ℕ) (s : State) : Prop where
  stop : s.stop = Stop.after kind n
  done : s.done = decide (2 ≤ n)
  crashed : s.crashed = (kind.keepsListener && decide (3 ≤ n))

/-- The next call of `Stop`. -/
theorem StopAt.next {n : ℕ} (h : StopAt kind n s) :
    StopAt kind (n + 1) (step kind verdict s .stop) := by
  obtain ⟨stages, queue, accepted, done, stop, crashed⟩ := s
  obtain ⟨hstop, hdone, hcrashed⟩ := h
  dsimp only at hstop hdone hcrashed
  subst hstop hdone hcrashed
  cases hkeeps : kind.keepsListener with
  | false =>
    rcases n with _ | _ | _ | _ | _ | _ | n <;>
      constructor <;> simp [step, act, stopStep, State.close, Stop.after, hkeeps]
  | true =>
    rcases n with _ | _ | _ | _ | _ | _ | n <;>
      constructor <;> simp [step, act, stopStep, State.close, Stop.after, hkeeps]

variable (kind verdict) in
/-- The goroutines of the connections and `Accept` leave alone what `Stop` works on. -/
theorem act_of_ne_stop {e : Event} (he : e ≠ .stop) :
    (act kind verdict s e).stop = s.stop ∧ (act kind verdict s e).done = s.done
      ∧ (act kind verdict s e).crashed = s.crashed := by
  cases e with
  | arrive => exact ⟨rfl, rfl, rfl⟩
  | handled k | send k | drop k => rw [act]; split_ifs <;> exact ⟨rfl, rfl, rfl⟩
  | accept => rw [act]; cases s.queue <;> exact ⟨rfl, rfl, rfl⟩
  | stop => exact absurd rfl he

/-- Nothing else makes one. -/
theorem StopAt.other {n : ℕ} (h : StopAt kind n s) {e : Event} (he : e ≠ .stop) :
    StopAt kind n (step kind verdict s e) := by
  rw [step]
  split_ifs with hcrashed
  · exact h
  · obtain ⟨hstop, hdone, hcrashed⟩ := act_of_ne_stop kind verdict he
    exact ⟨hstop.trans h.stop, hdone.trans h.done, hcrashed.trans h.crashed⟩

variable (kind verdict) in
/-- How far `Stop` has come. -/
theorem stopAt_run (es : List Event) :
    StopAt kind (es.count .stop) (run (step kind verdict) State.init es) := by
  induction es using List.reverseRecOn with
  | nil => exact ⟨rfl, rfl, (Bool.and_false _).symm⟩
  | append_singleton es e ih =>
    rw [run_append, List.count_append]
    by_cases he : e = .stop
    · subst he
      exact ih.next
    · rw [List.count_singleton, beq_false_of_ne he]
      exact ih.other he

/-- **`Stop` closes `done` twice.**  If the transport keeps its listener, the third call of `Stop`,
which closes the transport, panics; the next call, which would stop the health service, is never
made, and neither are those behind it.  Otherwise all six calls are made. -/
theorem stop_crashes (kind : Kind) (verdict : ℕ → Verdict) (es : List Event) :
    ((run (step kind verdict) State.init es).crashed ↔ kind ≠ .wsmux ∧ 3 ≤ es.count .stop)
      ∧ ((run (step kind verdict) State.init es).crashed →
        (run (step kind verdict) State.init es).stop = .stopHealth)
      ∧ ((run (step kind verdict) State.init es).stop = .returned
        ↔ kind = .wsmux ∧ 6 ≤ es.count .stop) := by
  have hat := stopAt_run kind verdict es
  have hkeeps : kind.keepsListener = decide (kind ≠ .wsmux) := by cases kind <;> rfl
  refine ⟨?_, ?_, ?_⟩
  · rw [hat.crashed, hkeeps, Bool.and_eq_true, decide_eq_true_iff, decide_eq_true_iff]
  · rw [hat.crashed, hat.stop, Bool.and_eq_true, decide_eq_true_iff]
    rintro ⟨hkept, hcalls⟩
    generalize es.count .stop = n at hcalls
    rcases n with _ | _ | _ | _ | _ | _ | n <;> simp [Stop.after, hkept] at hcalls ⊢
  · rw [hat.stop]
    generalize es.count .stop = n
    rcases n with _ | _ | _ | _ | _ | _ | n <;> cases kind <;> simp [Stop.after, Kind.keepsListener]

end Listener
