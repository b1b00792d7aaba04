/-
# Interleavings of the direct pool

What holds of `DirectPool` whatever the order in which its calls go on, also while
`closeDirectPool` is on its way.  `Move` says what a step can do, and three invariants are kept by
every move:

* `Once`: every connection is in exactly one place;
* `Closing`: the channel is closed by one call, and drained by the same;
* `Dialers`: a connection that a call holds was dialed by it.

`pool_safe` reads off them what the pool promises.
-/
import Mathlib.Data.List.Nodup
import IPShadowT.DirectPool
import IPShadowT.Runs

open Runs

namespace DirectPool

/-! ## What a step can do -/

/-- The outcomes of a step.  A call that `go`es on does so outside `closeDirectPool`, with what it
holds. -/
inductive Move (s : DirectPool) : DirectPool → Prop where
  | stay : Move s s
  | stop : Move s { s with done := true }
  | spawn {t : Call} (hconn : t.conn = none) (ht : t ≠ .closing ∧ t ≠ .closeReturned) :
      Move s (s.spawn t)
  | go {k : ℕ} {t u : Call} (hk : s.calls[k]? = some t) (hconn : u.conn = t.conn)
      (ht : t ≠ .closing ∧ t ≠ .draining)
      (ht' : u ≠ .closing ∧ (u = .closeReturned → s.unavailable = true)) :
      Move s (s.become k u)
  | receive {k conn : ℕ} {rest : List ℕ} (hk : s.calls[k]? = some .receive)
      (hbuf : s.buf = conn :: rest) :
      Move s { s with
        buf := rest
        handed := conn :: s.handed
        calls := s.calls.set k .returned ++ [.refill 1 false] }
  | dial {k : ℕ} (hk : s.calls[k]? = some .dial) :
      Move s { s with
        dialedBy := s.dialedBy ++ [some k]
        handed := s.dialedBy.length :: s.handed
        calls := s.calls.set k .returned }
  | redial {k count : ℕ} {loop : Bool} (hk : s.calls[k]? = some (.redial count loop)) :
      Move s { s with
        dialedBy := s.dialedBy ++ [some k]
        calls := s.calls.set k (.put s.dialedBy.length count loop) }
  /-- a send to a closed channel panics -/
  | put {k conn count : ℕ} {loop : Bool} (hk : s.calls[k]? = some (.put conn count loop))
      (hopen : s.unavailable = false) :
      Move s
        (if s.chanClosed then { s with panicked := true }.become k (.refused conn loop)
        else { s with buf := s.buf ++ [conn] }.become k (.refill count loop))
  | refused {k conn : ℕ} {loop : Bool} (hk : s.calls[k]? = some (.refused conn loop)) :
      Move s { s with closed := conn :: s.closed, calls := s.calls.set k (afterRefill loop) }
  | close {k : ℕ} (hk : s.calls[k]? = some .close) (hopen : s.unavailable = false) :
      Move s { s with directClosed := true, directPool := false, calls := s.calls.set k .closing }
  | closeChannel {k : ℕ} (hk : s.calls[k]? = some .closing) : Move s (s.closeChannel k)
  | drain {k conn : ℕ} {rest : List ℕ} (hk : s.calls[k]? = some .draining)
      (hbuf : s.buf = conn :: rest) : Move s { s with buf := rest, closed := conn :: s.closed }
  | drained {k : ℕ} (hk : s.calls[k]? = some .draining) (hbuf : s.buf = [])
      (hchan : s.chanClosed = true) : Move s (s.become k .closeReturned)

variable {s s' : DirectPool} {k : ℕ} {loop : Bool} {t u : Call}

/-- A call of `refillPool` that is over. -/
theorem afterRefill_plain (loop : Bool) :
    (afterRefill loop).conn = none ∧ afterRefill loop ≠ .closing ∧
      afterRefill loop ≠ .closeReturned := by
  cases loop <;> exact ⟨rfl, by decide, by decide⟩

/-- A call outside `closeDirectPool` that does not hold a connection goes on. -/
theorem Move.plain (hk : s.calls[k]? = some t) (ht : t.conn = none ∧ t ≠ .closing ∧ t ≠ .draining)
    (ht' : u.conn = none ∧ u ≠ .closing ∧ u ≠ .closeReturned) : Move s (s.become k u) :=
  .go hk (ht'.1.trans ht.1.symm) ht.2 ⟨ht'.2.1, fun heq => absurd heq ht'.2.2⟩

/-- `maintainDirectPool` returns, starts a refill or waits. -/
theorem move_maintain (hk : s.calls[k]? = some .maintain) (tick : Bool) :
    Move s (s.maintain k tick) := by
  have hgo : ∀ t : Call, t.conn = none ∧ t ≠ .closing ∧ t ≠ .closeReturned →
      Move s (s.become k t) := fun _ => .plain hk ⟨rfl, by decide, by decide⟩
  unfold DirectPool.maintain
  split_ifs
  · exact hgo .returned ⟨rfl, by decide, by decide⟩
  · exact hgo _ ⟨rfl, nofun, nofun⟩
  · exact .stay
  · exact hgo .returned ⟨rfl, by decide, by decide⟩
  · exact .stay

/-- `putDirectConn` sends the connection, or gives it back. -/
theorem move_put {conn count : ℕ} (hk : s.calls[k]? = some (.put conn count loop)) :
    Move s (s.put k conn count loop) := by
  have hrefused : Move s (s.become k (.refused conn loop)) :=
    .go hk rfl ⟨nofun, nofun⟩ ⟨nofun, nofun⟩
  unfold DirectPool.put putDirectConn
  by_cases hclosed : s.unavailable = true
  · rw [if_pos hclosed]
    exact hrefused
  · have hput := Move.put hk (Bool.eq_false_iff.2 hclosed)
    rw [if_neg hclosed]
    split_ifs at hput ⊢
    · exact hput
    · exact hput
    · exact hrefused

/-- **What a call can do** when it goes on. -/
theorem move_resume (hk : s.calls[k]? = some t) (ok : Bool) : Move s (s.resume k ok t) := by
  cases t with
  | get =>
    simp only [DirectPool.resume]
    split <;> exact .plain hk ⟨rfl, by decide, by decide⟩ ⟨rfl, by decide, by decide⟩
  | receive =>
    simp only [DirectPool.resume, DirectPool.receive]
    split
    · next hbuf => exact .receive hk hbuf
    · exact .plain hk ⟨rfl, by decide, by decide⟩ ⟨rfl, by decide, by decide⟩
  | dial =>
    cases ok with
    | true => exact .dial hk
    | false => exact .plain hk ⟨rfl, by decide, by decide⟩ ⟨rfl, by decide, by decide⟩
  | refill count loop =>
    have hover : Move s (s.become k (afterRefill loop)) :=
      .plain hk ⟨rfl, nofun, nofun⟩ (afterRefill_plain loop)
    cases count with
    | zero => exact hover
    | succ count =>
      simp only [DirectPool.resume]
      split
      · exact hover
      · exact .plain hk ⟨rfl, nofun, nofun⟩ ⟨rfl, nofun, nofun⟩
  | redial count loop =>
    cases ok with
    | true => exact .redial hk
    | false => exact .plain hk ⟨rfl, nofun, nofun⟩ ⟨rfl, nofun, nofun⟩
  | put conn count loop => exact move_put hk
  | refused conn loop => exact .refused hk
  | maintain => exact move_maintain hk ok
  | close =>
    simp only [DirectPool.resume, DirectPool.close]
    split_ifs with hclosed
    · exact .go hk rfl (by decide) ⟨by decide, fun _ => hclosed⟩
    · exact .close hk (Bool.eq_false_iff.2 hclosed)
  | closing => exact .closeChannel hk
  | draining =>
    simp only [DirectPool.resume, DirectPool.drain]
    split
    · next hbuf => exact .drain hk hbuf
    · next hbuf =>
        split_ifs with hchan
        · exact .drained hk hbuf hchan
        · exact .stay
  | closeReturned => exact .stay
  | returned => exact .stay

/-- **What a step can do.** -/
theorem move_step (s : DirectPool) (e : Event) : Move s (s.step e) := by
  cases e with
  | getDirectConn => exact .spawn rfl (by decide)
  | refillPool count => exact .spawn rfl ⟨nofun, nofun⟩
  | maintainDirectPool => exact .spawn rfl (by decide)
  | closeDirectPool => exact .spawn rfl (by decide)
  | stop => exact .stop
  | resume k ok =>
    simp only [step]
    cases hk : s.calls[k]? with
    | none => exact .stay
    | some t => exact move_resume hk ok

/-! ## Every connection is in one place -/

/-- In how many places a connection is: the channel, with a caller, closed, or held by a
call of `refillPool`. -/
def places (s : DirectPool) (c : ℕ) : ℕ :=
  s.buf.count c + s.handed.count c + s.closed.count c + s.calls.countP (Call.holds c)

/-- Every connection that has been dialed is in exactly one place. -/
def Once (s : DirectPool) : Prop := ∀ c, s.places c = if c < s.dialedBy.length then 1 else 0

/-- A call that holds `conn` holds no other connection. -/
theorem toNat_holds {conn : ℕ} (h : t.conn = some conn) (c : ℕ) :
    (t.holds c).toNat = (decide (conn = c)).toNat := by
  simp [Call.holds, h]

/-- A call that holds nothing. -/
theorem toNat_holds_none (h : t.conn = none) (c : ℕ) : (t.holds c).toNat = 0 := by
  simp [Call.holds, h]

/-- A step that dials nothing. -/
theorem once_congr (h : s.Once) (hlen : s'.dialedBy = s.dialedBy)
    (hplaces : ∀ c, s'.places c = s.places c) : s'.Once := by
  show OnePlace s'.places s'.dialedBy.length
  rw [hlen]
  exact OnePlace.move h hplaces

/-- A new connection, and the one place where it is. -/
theorem Once.dialed (h : s.Once) (hlen : s'.dialedBy = s.dialedBy ++ [some k])
    (hplaces : ∀ c, s'.places c = s.places c + (decide (s.dialedBy.length = c)).toNat) :
    s'.Once := by
  show OnePlace s'.places s'.dialedBy.length
  rw [hlen, List.length_append, List.length_singleton]
  exact OnePlace.make h hplaces

/-- A call that goes on with what it holds moves no connection. -/
theorem Once.become (h : s.Once) (hk : s.calls[k]? = some t) (ht : u.conn = t.conn) :
    (s.become k u).Once := by
  refine once_congr h rfl fun c => ?_
  have hset := countP_set_add (Call.holds c) hk u
  have hholds : u.holds c = t.holds c := by rw [Call.holds, Call.holds, ht]
  rw [hholds] at hset
  simp only [places, DirectPool.become]
  omega

/-- A step moves every connection to at most one other place. -/
theorem Once.move (h : s.Once) (hmove : Move s s') : s'.Once := by
  cases hmove with
  | stay => exact h
  | stop => exact h
  | spawn hconn =>
    refine once_congr h rfl fun c => ?_
    simp only [places, DirectPool.spawn, countP_append_singleton, toNat_holds_none hconn,
      Nat.add_zero]
  | go hk hconn => exact h.become hk hconn
  | receive hk hbuf =>
    refine once_congr h rfl fun c => ?_
    have hset := countP_set_add (Call.holds c) hk .returned
    rw [toNat_holds_none rfl, toNat_holds_none rfl] at hset
    simp only [places, hbuf, count_cons_toNat, countP_append_singleton,
      toNat_holds_none (t := .refill 1 false) rfl]
    omega
  | dial hk =>
    refine h.dialed rfl fun c => ?_
    have hset := countP_set_add (Call.holds c) hk .returned
    rw [toNat_holds_none rfl, toNat_holds_none rfl] at hset
    simp only [places, count_cons_toNat]
    omega
  | @redial k count loop hk =>
    refine h.dialed rfl fun c => ?_
    have hset := countP_set_add (Call.holds c) hk (.put s.dialedBy.length count loop)
    rw [toNat_holds_none rfl, toNat_holds rfl] at hset
    simp only [places]
    omega
  | @put k conn count loop hk =>
    split_ifs
    · exact h.become hk rfl
    · -- from the call into the channel
      refine once_congr h rfl fun c => ?_
      have hset := countP_set_add (Call.holds c) hk (.refill count loop)
      rw [toNat_holds rfl, toNat_holds_none rfl] at hset
      simp only [places, DirectPool.become, List.count_append, count_cons_toNat, List.count_nil]
      omega
  | @refused k conn loop hk =>
    refine once_congr h rfl fun c => ?_
    have hset := countP_set_add (Call.holds c) hk (afterRefill loop)
    rw [toNat_holds rfl, toNat_holds_none (afterRefill_plain loop).1] at hset
    simp only [places, count_cons_toNat]
    omega
  | close hk => exact h.become (u := .closing) hk rfl
  | closeChannel hk =>
    unfold DirectPool.closeChannel
    split_ifs
    · exact h
    · exact h.become (u := .draining) hk rfl
  | drain hk hbuf =>
    refine once_congr h rfl fun c => ?_
    simp only [places, hbuf, count_cons_toNat]
    omega
  | drained hk => exact h.become hk rfl

/-! ## Shutting down -/

/-- `close` of the channel lies ahead of exactly one call, from the moment the pool is
marked closed until it has happened; after it, what is left in the channel has a call that
drains it. -/
structure Closing (s : DirectPool) : Prop where
  pool : s.directPool = !s.directClosed
  chan : s.chanClosed = true → s.directClosed = true
  closers : s.calls.countP (· == .closing) = (s.directClosed && !s.chanClosed).toNat
  drainer : s.chanClosed = true → s.buf ≠ [] → .draining ∈ s.calls
  returned : .closeReturned ∈ s.calls → s.directClosed = true
  panicked : s.panicked = false

/-- The records of dialed, handed out and closed connections play no role in it. -/
theorem Closing.record (h : s.Closing) (dialedBy : List (Option ℕ)) (handed closed : List ℕ) :
    { s with dialedBy := dialedBy, handed := handed, closed := closed }.Closing :=
  ⟨h.pool, h.chan, h.closers, h.drainer, h.returned, h.panicked⟩

/-- The two tests of the mutex sections agree. -/
theorem Closing.unavailable_eq (h : s.Closing) : s.unavailable = s.directClosed := by
  rw [DirectPool.unavailable, h.pool, Bool.not_not, Bool.or_self]

/-- While the pool is not marked closed, the channel is open. -/
theorem Closing.chanClosed_eq_false (h : s.Closing) (hopen : s.directClosed = false) :
    s.chanClosed = false := by
  rw [← Bool.not_eq_true]
  intro hchan
  rw [h.chan hchan] at hopen
  cases hopen

/-- A call that goes on outside `closeDirectPool`, while the channel does not fill up
behind a call that drains it. -/
theorem Closing.set (h : s.Closing) {buf : List ℕ} (hk : s.calls[k]? = some t)
    (ht : t ≠ .closing ∧ t ≠ .draining)
    (ht' : u ≠ .closing ∧ (u = .closeReturned → s.unavailable = true))
    (hbuf : s.chanClosed = true → buf ≠ [] → s.buf ≠ []) :
    { s with buf := buf, calls := s.calls.set k u }.Closing := by
  refine ⟨h.pool, h.chan, ?_, ?_, ?_, h.panicked⟩
  · have hcount := countP_set_add (· == Call.closing) hk u
    rw [beq_eq_false_iff_ne.2 ht.1, beq_eq_false_iff_ne.2 ht'.1] at hcount
    exact hcount.trans h.closers
  · intro hchan hne
    exact mem_set_of_ne hk (h.drainer hchan (hbuf hchan hne)) (Ne.symm ht.2) u
  · intro hmem
    rcases List.mem_or_eq_of_mem_set hmem with hold | hnew
    · exact h.returned hold
    · exact h.unavailable_eq.symm.trans (ht'.2 hnew.symm)

/-- A new call outside `closeDirectPool`, or before its mutex section. -/
theorem Closing.spawn (h : s.Closing) (ht : t ≠ .closing ∧ t ≠ .closeReturned) :
    (s.spawn t).Closing := by
  refine ⟨h.pool, h.chan, ?_, ?_, ?_, h.panicked⟩
  · have hnew : [t].countP (· == Call.closing) = 0 := by simp [ht.1]
    show (s.calls ++ [t]).countP (· == Call.closing) = _
    rw [List.countP_append, hnew]
    exact h.closers
  · intro hchan hne
    exact List.mem_append_left _ (h.drainer hchan hne)
  · intro hmem
    rcases List.mem_append.1 hmem with hold | hnew
    · exact h.returned hold
    · exact absurd (List.mem_singleton.1 hnew).symm ht.2

/-- The call that marks the pool closed is the one that will close the channel. -/
theorem Closing.close (h : s.Closing) (hk : s.calls[k]? = some .close)
    (hopen : s.unavailable = false) : Closing { s with
      directClosed := true, directPool := false, calls := s.calls.set k .closing } := by
  rw [h.unavailable_eq] at hopen
  have hchan : s.chanClosed = false := h.chanClosed_eq_false hopen
  refine ⟨rfl, fun _ => rfl, ?_, ?_, fun _ => rfl, h.panicked⟩
  · have hcount := countP_set_add (· == Call.closing) hk .closing
    rw [h.closers, hopen] at hcount
    show (s.calls.set k .closing).countP (· == Call.closing) = (true && !s.chanClosed).toNat
    rw [hchan]
    exact hcount
  · intro hc
    exact absurd (hchan.symm.trans hc) (by decide)

/-- The call that is to close the channel finds it open. -/
theorem Closing.closeChannel (h : s.Closing) (hk : s.calls[k]? = some .closing) :
    (s.closeChannel k).Closing := by
  have hpos : 0 < s.calls.countP (· == Call.closing) :=
    List.countP_pos_iff.2 ⟨.closing, List.mem_of_getElem? hk, rfl⟩
  have hflags : (s.directClosed && !s.chanClosed) = true := by
    rw [h.closers] at hpos
    cases hb : (s.directClosed && !s.chanClosed) with
    | true => rfl
    | false =>
      rw [hb] at hpos
      cases hpos
  obtain ⟨hclosed, hchan⟩ := Bool.and_eq_true_iff.1 hflags
  have hopen : ¬ s.chanClosed = true := by simpa using hchan
  unfold DirectPool.closeChannel
  rw [if_neg hopen]
  refine ⟨h.pool, fun _ => hclosed, ?_, fun _ _ => ?_, fun _ => hclosed, h.panicked⟩
  · have hcount := countP_set_add (· == Call.closing) hk .draining
    rw [h.closers, hflags] at hcount
    have hnone : (s.calls.set k .draining).countP (· == Call.closing) = 0 :=
      Nat.add_right_cancel hcount
    show (s.calls.set k .draining).countP (· == Call.closing) = (s.directClosed && !true).toNat
    rw [hnone, Bool.not_true, Bool.and_false]
    rfl
  · obtain ⟨hlt, -⟩ := List.getElem?_eq_some_iff.1 hk
    exact List.mem_set hlt _

/-- A step keeps to the order of shutting down. -/
theorem Closing.move (h : s.Closing) (hmove : Move s s') : s'.Closing := by
  cases hmove with
  | stay => exact h
  | stop => exact ⟨h.pool, h.chan, h.closers, h.drainer, h.returned, h.panicked⟩
  | spawn _ ht => exact h.spawn ht
  | go hk _ ht ht' => exact h.set hk ht ht' fun _ hne => hne
  | @receive k conn rest hk hbuf =>
    have hset : { s with buf := rest, calls := s.calls.set k .returned }.Closing :=
      h.set hk (by decide) ⟨by decide, nofun⟩ fun _ _ => by rw [hbuf]; exact List.cons_ne_nil _ _
    exact (hset.spawn (t := .refill 1 false) ⟨nofun, nofun⟩).record _ _ _
  | dial hk =>
    exact (h.set (u := .returned) hk (by decide) ⟨by decide, nofun⟩ fun _ hne => hne).record _ _ _
  | @redial k count loop hk =>
    exact (h.set (u := .put s.dialedBy.length count loop) hk ⟨nofun, nofun⟩ ⟨nofun, nofun⟩
      fun _ hne => hne).record _ _ _
  | put hk hopen =>
    -- the pool is open, so the channel is too
    have hchan : ¬ s.chanClosed = true := by
      rw [h.chanClosed_eq_false (h.unavailable_eq ▸ hopen)]
      exact Bool.false_ne_true
    rw [if_neg hchan]
    exact h.set hk ⟨nofun, nofun⟩ ⟨nofun, nofun⟩ fun hc => absurd hc hchan
  | @refused k conn loop hk =>
    obtain ⟨-, hclosing, hreturned⟩ := afterRefill_plain loop
    exact (h.set hk ⟨nofun, nofun⟩ ⟨hclosing, fun heq => absurd heq hreturned⟩
      fun _ hne => hne).record _ _ _
  | close hk hopen => exact h.close hk hopen
  | closeChannel hk => exact h.closeChannel hk
  | drain hk =>
    exact ⟨h.pool, h.chan, h.closers, fun _ _ => List.mem_of_getElem? hk, h.returned, h.panicked⟩
  | drained hk hbuf hchan =>
    refine ⟨h.pool, h.chan, ?_, fun _ hne => absurd hbuf hne, fun _ => h.chan hchan, h.panicked⟩
    exact (countP_set_add (· == Call.closing) hk .closeReturned).trans h.closers

/-! ## Who holds a connection -/

/-- A connection is held only by the call that dialed it. -/
def Dialers (s : DirectPool) : Prop :=
  ∀ (k : ℕ) (t : Call) (c : ℕ), s.calls[k]? = some t → t.conn = some c →
    s.dialedBy[c]? = some (some k)

/-- A call that goes on and takes nothing up. -/
theorem Dialers.become (h : s.Dialers) (hk : s.calls[k]? = some t)
    (ht : ∀ c, u.conn = some c → t.conn = some c) : (s.become k u).Dialers := by
  intro i x c hi hc
  rcases getElem?_set_cases hi with ⟨rfl, rfl⟩ | hold
  · exact h i t c hk (ht c hc)
  · exact h i x c hold hc

/-- A new call holds nothing. -/
theorem Dialers.spawn (h : s.Dialers) (ht : t.conn = none) : (s.spawn t).Dialers := by
  intro i x c hi hc
  rcases getElem?_append_singleton_iff.1 hi with hold | ⟨-, rfl⟩
  · exact h i x c hold hc
  · rw [ht] at hc
    cases hc

/-- A step leaves every connection with the call that dialed it. -/
theorem Dialers.move (h : s.Dialers) (hmove : Move s s') : s'.Dialers := by
  cases hmove with
  | stay => exact h
  | stop => exact h
  | spawn hconn => exact h.spawn hconn
  | go hk hconn => exact h.become hk fun _ hc => hconn ▸ hc
  | receive hk =>
    exact (h.become (u := .returned) hk nofun).spawn (t := .refill 1 false) rfl
  | dial hk =>
    intro i x c hi hc
    have hc' : s.dialedBy[c]? = some (some i) := h.become (u := .returned) hk nofun i x c hi hc
    exact getElem?_append_singleton_iff.2 (.inl hc')
  | redial hk =>
    intro i x c hi hc
    refine getElem?_append_singleton_iff.2 ?_
    rcases getElem?_set_cases hi with ⟨rfl, rfl⟩ | hold
    · -- the call itself now holds the connection that was dialed last
      exact .inr ⟨(Option.some.inj hc).symm, rfl⟩
    · exact .inl (h i x c hold hc)
  | @put k conn count loop hk =>
    split_ifs
    · exact h.become (u := .refused conn loop) hk fun _ hc => hc
    · exact h.become (u := .refill count loop) hk nofun
  | @refused k conn loop hk =>
    refine h.become hk fun c hc => ?_
    rw [(afterRefill_plain loop).1] at hc
    cases hc
  | close hk => exact h.become (u := .closing) hk nofun
  | closeChannel hk =>
    unfold DirectPool.closeChannel
    split_ifs
    · exact h
    · exact h.become (u := .draining) hk nofun
  | drain => exact h
  | drained hk => exact h.become hk nofun

/-! ## Whole runs -/

/-- What holds between any two steps. -/
structure Inv (s : DirectPool) : Prop where
  once : s.Once
  closing : s.Closing
  dialers : s.Dialers

/-- **Every step keeps the invariants.** -/
theorem inv_step (s : DirectPool) (e : Event) (h : s.Inv) : (s.step e).Inv :=
  ⟨h.once.move (move_step s e), h.closing.move (move_step s e), h.dialers.move (move_step s e)⟩

/-- A full pool. -/
theorem inv_filled (poolSize connected : ℕ) : (filled poolSize connected).Inv := by
  refine ⟨?_, ⟨rfl, nofun, rfl, nofun, nofun, rfl⟩, ?_⟩
  · intro c
    simp only [places, filled, List.count_nil, List.countP_nil, Nat.add_zero, List.length_replicate]
    split_ifs with hlt
    · exact List.count_eq_one_of_mem List.nodup_range (List.mem_range.2 hlt)
    · exact List.count_eq_zero_of_not_mem fun hmem => hlt (List.mem_range.1 hmem)
  · intro k t c hk
    cases hk

theorem inv_initDirectPool {size : Int} {dials : ℕ → Bool} (h : initDirectPool size dials = .ok s) :
    s.Inv := by
  unfold initDirectPool at h
  dsimp only at h
  by_cases hzero : (List.range (if size ≤ 0 then 16 else size.toNat)).countP dials = 0
  · rw [if_pos hzero] at h
    cases h
  · rw [if_neg hzero] at h
    obtain rfl := Except.ok.inj h
    exact inv_filled _ _

/-- What the pool promises in a state. -/
structure Safe (s : DirectPool) : Prop where
  no_send_on_closed : s.panicked = false
  not_handed_and_closed : ∀ c ∈ s.handed, c ∉ s.closed
  handed_once : s.handed.Nodup
  accounted : ∀ c < s.dialedBy.length, c ∈ s.buf ∨ c ∈ s.handed ∨ c ∈ s.closed ∨
    ∃ (k : ℕ) (t : Call), s.calls[k]? = some t ∧ t.conn = some c ∧ s.dialedBy[c]? = some (some k)
  drained : .closeReturned ∈ s.calls → (∀ t ∈ s.calls, t.Finished) →
    s.buf = [] ∧ ∀ c < s.dialedBy.length, c ∈ s.handed ∨ c ∈ s.closed

theorem Once.places_le (h : s.Once) (c : ℕ) : s.places c ≤ 1 := by
  rw [h c]
  split <;> omega

/-- No connection is lost. -/
theorem Inv.accounted (h : s.Inv) {c : ℕ} (hc : c < s.dialedBy.length) :
    c ∈ s.buf ∨ c ∈ s.handed ∨ c ∈ s.closed ∨
      ∃ (k : ℕ) (t : Call), s.calls[k]? = some t ∧ t.conn = some c ∧
        s.dialedBy[c]? = some (some k) := by
  have hone : s.places c = 1 := by rw [h.once c, if_pos hc]
  -- it is in one place, so if it is in none of the first three a call holds it
  by_cases hbuf : c ∈ s.buf
  · exact .inl hbuf
  by_cases hhanded : c ∈ s.handed
  · exact .inr (.inl hhanded)
  by_cases hclosed : c ∈ s.closed
  · exact .inr (.inr (.inl hclosed))
  · have hheld : 0 < s.calls.countP (Call.holds c) := by
      rw [places, List.count_eq_zero_of_not_mem hbuf, List.count_eq_zero_of_not_mem hhanded,
        List.count_eq_zero_of_not_mem hclosed] at hone
      omega
    obtain ⟨t, ht, hholds⟩ := List.countP_pos_iff.1 hheld
    obtain ⟨k, hk⟩ := List.mem_iff_getElem?.1 ht
    have hconn : t.conn = some c := of_decide_eq_true hholds
    exact .inr (.inr (.inr ⟨k, t, hk, hconn, h.dialers k t c hk hconn⟩))

theorem Inv.buf_eq_nil (h : s.Inv) (hret : .closeReturned ∈ s.calls)
    (hfin : ∀ t ∈ s.calls, t.Finished) : s.buf = [] := by
  have hgone : ∀ t : Call, t.Finished → t ≠ .closing ∧ t ≠ .draining := by
    rintro t (rfl | rfl) <;> decide
  -- the pool is marked closed and no call is before `close`, so the channel is closed
  have hnone : s.calls.countP (· == Call.closing) = 0 := by
    refine List.countP_eq_zero.2 fun t ht => ?_
    simpa using (hgone t (hfin t ht)).1
  have hchan : s.chanClosed = true := by
    have hclosers := h.closing.closers
    rw [hnone, h.closing.returned hret] at hclosers
    cases hc : s.chanClosed with
    | true => rfl
    | false =>
      rw [hc] at hclosers
      cases hclosers
  by_contra hne
  exact (hgone _ (hfin _ (h.closing.drainer hchan hne))).2 rfl

/-- **What the pool promises.** -/
theorem Inv.safe (h : s.Inv) : s.Safe := by
  refine ⟨h.closing.panicked, ?_, ?_, fun c hc => h.accounted hc, ?_⟩
  · intro c hhanded hclosed
    have hle := h.once.places_le c
    have h₁ := List.count_pos_iff.2 hhanded
    have h₂ := List.count_pos_iff.2 hclosed
    unfold places at hle
    omega
  · refine List.nodup_iff_count_le_one.2 fun c => ?_
    have hle := h.once.places_le c
    unfold places at hle
    omega
  · intro hret hfin
    have hbuf := h.buf_eq_nil hret hfin
    refine ⟨hbuf, fun c hc => ?_⟩
    rcases h.accounted hc with hmem | hmem | hmem | ⟨k, t, hk, hconn, -⟩
    · rw [hbuf] at hmem
      cases hmem
    · exact .inl hmem
    · exact .inr hmem
    · rcases hfin t (List.mem_of_getElem? hk) with rfl | rfl <;> cases hconn

/-- **The pool is safe in every interleaving**, from the end of `initDirectPool` on. -/
theorem pool_safe {size : Int} {dials : ℕ → Bool} {s : DirectPool}
    (h : initDirectPool size dials = .ok s) (es : List Event) : (run step s es).Safe :=
  (run_invariant inv_step (inv_initDirectPool h) es).safe

/-- A caller that has read the channel receives while the pool is being closed. -/
theorem pool_safe_while_closing :
    (run step (filled 2 2) [.getDirectConn, .closeDirectPool, .resume 0 true, .resume 1 true,
      .resume 1 true, .resume 0 true, .resume 1 true]).Safe := by
  have hinit : initDirectPool 2 (fun _ => true) = .ok (filled 2 2) := rfl
  exact pool_safe hinit _

end DirectPool
