/-
# Writing a buffer in chunks

The loop of a connection wrapper that hands a buffer on in pieces: as long as something is
left, it chooses a size, writes that much, stops at an error, and goes on with the rest.
A `Chunker` has what differs from one such loop to the next: how a size is chosen, what is
handed on for a piece, and how the state changes.

Whatever is chosen, the part of the buffer that has been written is at its front and is
counted (`loop_sent`); where the sizes are positive, which is what `Steady` says, no piece is
empty (`loop_calls`), the loop comes to an end (`loop_returns`), and it has no error exactly if no
choice and no write of its `plan` fails (`loop_ok_iff`).  Where all sizes are zero, which is what
`Idle` says, it goes on until a write fails (`loop_running_of_idle`, `loop_returns_of_idle`).
-/
import IPShadowT.Stream

/-! ## A writer with a record -/

/-- An `io.Writer`, and the buffers it has been given. -/
structure Recorder where
  sink : Sink
  calls : List Bytes
  deriving DecidableEq, Repr

namespace Recorder

/-- `w.Write(b)`: the number of bytes taken, whether there was no error, and the writer
afterwards. -/
def write (w : Recorder) (b : Bytes) : ℕ × Bool × Recorder :=
  let (ok, sink) := w.sink.write b
  (sink.written.length - w.sink.written.length, ok, ⟨sink, w.calls ++ [b]⟩)

@[simp] theorem write_calls (w : Recorder) (b : Bytes) :
    (w.write b).2.2.calls = w.calls ++ [b] := rfl

/-- What the writer takes is at the front of the buffer, and all of it if there is no error. -/
theorem write_sent (w : Recorder) (b : Bytes) :
    ∃ sent, sent <+: b ∧ (w.write b).2.2.sink.written = w.sink.written ++ sent ∧
      (w.write b).1 = sent.length ∧ ((w.write b).2.1 = true → sent = b) := by
  obtain ⟨sent, hsent, hwritten, hall⟩ := w.sink.write_sent b
  refine ⟨sent, hsent, hwritten, ?_, hall⟩
  show (w.sink.write b).2.written.length - w.sink.written.length = sent.length
  rw [hwritten, List.length_append, Nat.add_sub_cancel_left]

theorem write_of_reliable {w : Recorder} (h : w.sink.Reliable) (b : Bytes) :
    w.write b = (b.length, true, ⟨⟨w.sink.written ++ b, []⟩, w.calls ++ [b]⟩) := by
  rw [write, Sink.write_of_reliable h]
  simp

/-- The next write takes nothing and fails. -/
def Refuses (w : Recorder) : Prop := w.sink.script.head? = some (some 0)

instance (w : Recorder) : Decidable w.Refuses := inferInstanceAs (Decidable (_ = _))

theorem write_taken_eq_zero_iff (w : Recorder) {b : Bytes} (hb : b ≠ []) :
    (w.write b).1 = 0 ↔ w.Refuses := by
  unfold write Sink.write Refuses
  rcases w.sink.script with _ | ⟨_ | k, script⟩ <;> simp [hb]

end Recorder

namespace ChunkedWrite

/-! ## The loop -/

/-- How a call stands: it has returned a count and whether there was no error, it is still in its
loop, or it has panicked. -/
inductive Outcome where
  | returned (n : ℕ) (ok : Bool)
  | running
  | panic
  deriving DecidableEq, Repr

/-- A call with the buffer `p` and `total` bytes counted before has written what is at the front
of `p`, counts it, and has written all of it if it returns no error. -/
def SendsPrefix (w w' : Recorder) (p : Bytes) (total : ℕ) (outcome : Outcome) : Prop :=
  ∃ sent, sent <+: p ∧ w'.sink.written = w.sink.written ++ sent ∧
    ∀ n ok, outcome = .returned n ok → n = total + sent.length ∧ (ok = true → sent = p)

/-- A single write of the whole buffer is such a call. -/
theorem sendsPrefix_write (w : Recorder) (p : Bytes) :
    SendsPrefix w (w.write p).2.2 p 0 (.returned (w.write p).1 (w.write p).2.1) := by
  obtain ⟨sent, hsent, hwritten, htaken, hall⟩ := w.write_sent p
  refine ⟨sent, hsent, hwritten, ?_⟩
  rintro _ _ ⟨⟩
  exact ⟨by omega, hall⟩

/-- A first write without an error, and a call for the rest of the buffer. -/
theorem SendsPrefix.append {w w₁ w₂ : Recorder} {p q : Bytes} {total : ℕ} {outcome : Outcome}
    (hp : w₁.sink.written = w.sink.written ++ p) (hq : SendsPrefix w₁ w₂ q total outcome) :
    ∃ sent, sent <+: p ++ q ∧ w₂.sink.written = w.sink.written ++ sent ∧ p <+: sent ∧
      ∀ n, outcome = .returned n true → sent = p ++ q := by
  obtain ⟨sent, hsent, hwritten, hret⟩ := hq
  refine ⟨p ++ sent, List.prefix_append_right_inj p |>.2 hsent, ?_, List.prefix_append p sent, ?_⟩
  · rw [hwritten, hp, List.append_assoc]
  · intro n hn
    rw [(hret n true hn).2 rfl]

/-- The particulars of a loop with a state of type `σ`. -/
structure Chunker (σ : Type) where
  /-- the size of the next chunk; `none` if choosing one fails -/
  size : σ → Option ℕ
  /-- what is handed on for a chunk -/
  emit : σ → Bytes → Bytes
  /-- the state after a chunk of that many bytes -/
  next : σ → ℕ → σ

variable {σ : Type} (k : Chunker σ)

/-- At most `fuel` rounds of the loop, with `rest` to be written and `total` bytes counted. -/
def loop : (fuel : ℕ) → σ → Recorder → (rest : Bytes) → (total : ℕ) → Outcome × σ × Recorder
  | 0, s, w, _, _ => (.running, s, w)
  | fuel + 1, s, w, rest, total =>
    if rest = [] then (.returned total true, s, w)
    else
      match k.size s with
      | none => (.returned total false, s, w)
      | some size =>
        let n := min size rest.length
        let (taken, ok, w) := w.write (k.emit s (rest.take n))
        if ok then loop fuel (k.next s n) w (rest.drop n) (total + taken)
        else (.returned (total + taken) false, s, w)

/-- The sizes that the loop chooses for `len` bytes while no write fails, and `none` where choosing
one fails. -/
def plan : (fuel : ℕ) → σ → (len : ℕ) → List (Option ℕ)
  | 0, _, _ => []
  | fuel + 1, s, len =>
    if len = 0 then []
    else
      match k.size s with
      | none => [none]
      | some size =>
        some (min size len) :: plan fuel (k.next s (min size len)) (len - min size len)

variable {w : Recorder} {rest : Bytes}

/-- A round that writes a chunk. -/
theorem loop_succ {fuel : ℕ} {s : σ} {total size : ℕ} (hrest : rest ≠ [])
    (hsize : k.size s = some size) :
    loop k (fuel + 1) s w rest total =
      let n := min size rest.length
      let r := w.write (k.emit s (rest.take n))
      if r.2.1 then loop k fuel (k.next s n) r.2.2 (rest.drop n) (total + r.1)
      else (.returned (total + r.1) false, s, r.2.2) := by
  rw [loop, if_neg hrest, hsize]

/-- **The rule for the loop.**  What every write of a chunk keeps, before and after the state
has changed, holds at the end if it holds at the start. -/
theorem loop_invariant {P : σ → Recorder → Prop}
    (hwrite : ∀ s w rest size, rest ≠ [] → k.size s = some size → P s w →
      let n := min size rest.length
      let w' := (w.write (k.emit s (rest.take n))).2.2
      P s w' ∧ P (k.next s n) w') (fuel : ℕ) {s : σ} (rest : Bytes) (total : ℕ) (h : P s w) :
    P (loop k fuel s w rest total).2.1 (loop k fuel s w rest total).2.2 := by
  induction fuel generalizing s w rest total with
  | zero => exact h
  | succ fuel ih =>
    by_cases hrest : rest = []
    · rw [loop, if_pos hrest]
      exact h
    cases hsize : k.size s with
    | none =>
      rw [loop, if_neg hrest, hsize]
      exact h
    | some size =>
      rw [loop_succ k hrest hsize]
      obtain ⟨hfail, hok⟩ := hwrite s w rest size hrest hsize h
      dsimp only
      split_ifs with hwritten
      · exact ih _ _ hok
      · exact hfail

/-- **The bytes written are at the front of the buffer**, they are counted, and they are all of
it if there is no error. -/
theorem loop_sent (hemit : ∀ s b, k.emit s b = b) (fuel : ℕ) (s : σ) (w : Recorder)
    (rest : Bytes) (total : ℕ) :
    SendsPrefix w (loop k fuel s w rest total).2.2 rest total (loop k fuel s w rest total).1 := by
  induction fuel generalizing s w rest total with
  | zero => exact ⟨[], List.nil_prefix, (List.append_nil _).symm, nofun⟩
  | succ fuel ih =>
    by_cases hrest : rest = []
    · rw [loop, if_pos hrest]
      refine ⟨[], List.nil_prefix, (List.append_nil _).symm, ?_⟩
      rintro _ _ ⟨⟩
      exact ⟨rfl, fun _ => hrest.symm⟩
    cases hsize : k.size s with
    | none =>
      rw [loop, if_neg hrest, hsize]
      refine ⟨[], List.nil_prefix, (List.append_nil _).symm, ?_⟩
      rintro _ _ ⟨⟩
      exact ⟨rfl, nofun⟩
    | some size =>
      rw [loop_succ k hrest hsize]
      dsimp only
      set n := min size rest.length
      rw [hemit]
      obtain ⟨chunk, hchunk, hwritten, htaken, hall⟩ := w.write_sent (rest.take n)
      split_ifs with hok
      · obtain ⟨sent, hsent, hloop, hret⟩ :=
          ih (k.next s n) _ (rest.drop n) (total + (w.write (rest.take n)).1)
        obtain rfl := hall hok
        refine ⟨rest.take n ++ sent, ?_, ?_, ?_⟩
        · obtain ⟨tail, htail⟩ := hsent
          exact ⟨tail, by rw [List.append_assoc, htail, List.take_append_drop]⟩
        · rw [hloop, hwritten, List.append_assoc]
        · intro m ok hm
          obtain ⟨hcount, hnil⟩ := hret m ok hm
          refine ⟨by rw [hcount, htaken, List.length_append]; omega, fun h => ?_⟩
          rw [hnil h, List.take_append_drop]
      · refine ⟨chunk, hchunk.trans (List.take_prefix n rest), hwritten, ?_⟩
        rintro _ _ ⟨⟩
        exact ⟨by rw [htaken], nofun⟩

/-! ## Positive sizes -/

/-- From states that satisfy `I`, the loop hands on what it takes, in chunks of positive size. -/
structure Chunker.Steady (k : Chunker σ) (I : σ → Prop) : Prop where
  emit_eq : ∀ s b, k.emit s b = b
  next : ∀ s n, I s → I (k.next s n)
  size_pos : ∀ s size, I s → k.size s = some size → 0 < size

section Steady

variable {k} {I : σ → Prop} (hk : k.Steady I) (fuel : ℕ) {s : σ} (hs : I s) (w : Recorder)
  (rest : Bytes) (total : ℕ)
include hk hs

theorem loop_state : I (loop k fuel s w rest total).2.1 :=
  loop_invariant k (P := fun s _ => I s) (fun s _ _ _ _ _ h => ⟨h, hk.next s _ h⟩) fuel rest total
    hs

/-- No chunk is empty. -/
theorem loop_calls :
    ∃ chunks, (loop k fuel s w rest total).2.2.calls = w.calls ++ chunks ∧
      ∀ c ∈ chunks, c ≠ [] := by
  refine (loop_invariant k (P := fun s w' => I s ∧ ∃ chunks, w'.calls = w.calls ++ chunks ∧
    ∀ c ∈ chunks, c ≠ []) ?_ fuel rest total ⟨hs, [], (List.append_nil _).symm, by simp⟩).2
  rintro s w' rest size hrest hsize ⟨hs, chunks, hcalls, hchunks⟩
  dsimp only
  rw [hk.emit_eq, Recorder.write_calls, hcalls]
  have hnew : ∃ chunks', w.calls ++ chunks ++ [rest.take (min size rest.length)]
      = w.calls ++ chunks' ∧ ∀ c ∈ chunks', c ≠ [] := by
    refine ⟨_, List.append_assoc .., ?_⟩
    intro c hc
    rcases List.mem_append.1 hc with hold | hlast
    · exact hchunks c hold
    · obtain rfl := List.mem_singleton.1 hlast
      have := hk.size_pos s size hs hsize
      have := List.length_pos_iff.2 hrest
      rw [← List.length_pos_iff, List.length_take]
      omega
  exact ⟨⟨hs, hnew⟩, hk.next s _ hs, hnew⟩

/-- The loop comes to an end. -/
theorem loop_returns (hfuel : rest.length < fuel) :
    ∃ n ok, (loop k fuel s w rest total).1 = .returned n ok := by
  induction fuel generalizing s w rest total with
  | zero => exact absurd hfuel (Nat.not_lt_zero _)
  | succ fuel ih =>
    by_cases hrest : rest = []
    · rw [loop, if_pos hrest]
      exact ⟨_, _, rfl⟩
    cases hsize : k.size s with
    | none =>
      rw [loop, if_neg hrest, hsize]
      exact ⟨_, _, rfl⟩
    | some size =>
      rw [loop_succ k hrest hsize]
      dsimp only
      split_ifs
      · apply ih (hk.next s _ hs)
        have := hk.size_pos s size hs hsize
        have := List.length_pos_iff.2 hrest
        rw [List.length_drop]
        omega
      · exact ⟨_, _, rfl⟩

/-- **When the loop has no error**: every choice succeeds, and no write fails. -/
theorem loop_ok_iff (hfuel : rest.length < fuel) :
    (∃ n, (loop k fuel s w rest total).1 = .returned n true) ↔
      none ∉ plan k fuel s rest.length ∧ w.sink.Lasts (plan k fuel s rest.length).length := by
  induction fuel generalizing s w rest total with
  | zero => exact absurd hfuel (Nat.not_lt_zero _)
  | succ fuel ih =>
    by_cases hrest : rest = []
    · subst hrest
      rw [loop, if_pos rfl, plan, List.length_nil, if_pos rfl]
      exact iff_of_true ⟨total, rfl⟩ ⟨List.not_mem_nil, fun r hr => by simp at hr⟩
    have hpos := List.length_pos_iff.2 hrest
    cases hsize : k.size s with
    | none =>
      rw [loop, if_neg hrest, plan, if_neg hpos.ne', hsize]
      refine iff_of_false ?_ fun h => h.1 List.mem_cons_self
      rintro ⟨n, hn⟩
      cases hn
    | some size =>
      have hless : (rest.drop (min size rest.length)).length < fuel := by
        have := hk.size_pos s size hs hsize
        rw [List.length_drop]
        omega
      rw [loop_succ k hrest hsize, plan, if_neg hpos.ne', hsize]
      dsimp only
      rw [hk.emit_eq, List.length_cons,
        Sink.lasts_succ w.sink (rest.take (min size rest.length)), List.mem_cons, not_or,
        ← List.length_drop]
      by_cases hok : (w.write (rest.take (min size rest.length))).2.1 = true
      · rw [if_pos hok, ih (hk.next s _ hs) _ _ _ hless]
        exact ⟨fun h => ⟨⟨nofun, h.1⟩, hok, h.2⟩, fun h => ⟨h.1.2, h.2.2⟩⟩
      · rw [if_neg hok]
        refine iff_of_false ?_ fun h => hok h.2.1
        rintro ⟨n, hn⟩
        cases hn

/-- On a connection that does not fail, the loop writes all, unless a choice fails. -/
theorem loop_all (hsome : ∀ s, k.size s ≠ none) (hw : w.sink.NeverFails)
    (hfuel : rest.length < fuel) :
    (loop k fuel s w rest total).1 = .returned (total + rest.length) true := by
  have hplan : ∀ (fuel : ℕ) (s : σ) (len : ℕ), none ∉ plan k fuel s len := by
    intro fuel
    induction fuel with
    | zero => exact fun _ _ => List.not_mem_nil
    | succ fuel ih =>
      intro s len
      obtain ⟨size, hsize⟩ := Option.ne_none_iff_exists'.1 (hsome s)
      rw [plan, hsize]
      split_ifs
      · exact List.not_mem_nil
      · exact fun h => (List.mem_cons.1 h).elim nofun (ih _ _)
  obtain ⟨n, hret⟩ :=
    (loop_ok_iff hk fuel hs w rest total hfuel).2 ⟨hplan fuel s rest.length, hw.lasts _⟩
  obtain ⟨sent, -, -, hcount⟩ := loop_sent k hk.emit_eq fuel s w rest total
  obtain ⟨hn, hall⟩ := hcount n true hret
  rw [hret, hn, hall rfl]

end Steady

/-! ## Chunks of no bytes -/

/-- The loop always chooses the size 0. -/
structure Chunker.Idle (k : Chunker σ) : Prop where
  size_zero : ∀ s, k.size s = some 0
  emit_nil : ∀ s, k.emit s [] = []

section Idle

variable {k} (hk : k.Idle)
include hk

/-- A round of such a loop makes no progress: it writes nothing, and goes on unless that
fails. -/
theorem loop_succ_of_idle (fuel : ℕ) (s : σ) (w : Recorder) (hrest : rest ≠ []) (total : ℕ) :
    loop k (fuel + 1) s w rest total =
      if (w.write []).2.1 then
        loop k fuel (k.next s 0) (w.write []).2.2 rest (total + (w.write []).1)
      else (.returned (total + (w.write []).1) false, s, (w.write []).2.2) := by
  rw [loop_succ k hrest (hk.size_zero s)]
  dsimp only
  rw [Nat.zero_min, List.take_zero, List.drop_zero, hk.emit_nil]

/-- On a connection that never fails, any number of rounds leaves it in its loop. -/
theorem loop_running_of_idle (hrest : rest ≠ []) (fuel : ℕ) (s : σ) (hw : w.sink.NeverFails)
    (total : ℕ) :
    (loop k fuel s w rest total).1 = .running := by
  induction fuel generalizing s w total with
  | zero => rfl
  | succ fuel ih =>
    have hround : (w.write []).2.1 = true ∧ (w.write []).2.2.sink.NeverFails := by
      obtain ⟨⟨written, script⟩, calls⟩ := w
      rcases script with _ | ⟨_ | n, script⟩
      · exact ⟨rfl, hw⟩
      · exact ⟨rfl, fun n hn => hw n (List.mem_cons_of_mem _ hn)⟩
      · exact absurd (List.mem_cons_self ..) (hw n)
    rw [loop_succ_of_idle hk fuel s w hrest, if_pos hround.1]
    exact ih _ hround.2 _

/-- It leaves its loop at the first write that fails. -/
theorem loop_returns_of_idle (hrest : rest ≠ []) (s : σ) (hw : ¬ w.sink.NeverFails) (total : ℕ) :
    ∃ fuel n ok, (loop k fuel s w rest total).1 = .returned n ok := by
  obtain ⟨⟨written, script⟩, calls⟩ := w
  -- on the writes before the one that fails
  induction script generalizing s written calls total with
  | nil => exact absurd (fun n hn => by cases hn) hw
  | cons result script ih =>
    cases result with
    | none =>
      have hlater : ¬ Sink.NeverFails ⟨written ++ [], script⟩ := by
        intro hnever
        apply hw
        intro n hn
        rcases List.mem_cons.1 hn with hn | hn
        · cases hn
        · exact hnever n hn
      set w : Recorder := ⟨⟨written, none :: script⟩, calls⟩
      obtain ⟨fuel, n, ok, hret⟩ :=
        ih (k.next s 0) (total + (w.write []).1) (calls ++ [[]]) _ hlater
      refine ⟨fuel + 1, n, ok, ?_⟩
      rw [loop_succ_of_idle hk fuel s _ hrest]
      exact hret
    | some n =>
      set w : Recorder := ⟨⟨written, some n :: script⟩, calls⟩
      refine ⟨1, total + (w.write []).1, false, ?_⟩
      rw [loop_succ_of_idle hk 0 s _ hrest]
      rfl

end Idle

/-! ## Writers that take everything -/

/-- A call has delivered all of `p`, in chunks that are not empty unless `p` is. -/
structure Delivers (w w' : Recorder) (p : Bytes) : Prop where
  reliable : w'.sink.Reliable
  written : w'.sink.written = w.sink.written ++ p
  chunks : ∃ chunks, w'.calls = w.calls ++ chunks ∧ (p ≠ [] → ∀ c ∈ chunks, c ≠ [])

theorem delivers_write (hw : w.sink.Reliable) (p : Bytes) : Delivers w (w.write p).2.2 p := by
  rw [Recorder.write_of_reliable hw]
  refine ⟨rfl, rfl, [p], rfl, fun hp c hc => ?_⟩
  rwa [List.mem_singleton.1 hc]

/-- One call after the other. -/
theorem Delivers.append {w w₁ w₂ : Recorder} {p q : Bytes} (h : Delivers w w₁ p)
    (h' : Delivers w₁ w₂ q) (hp : p ≠ []) (hq : q ≠ []) : Delivers w w₂ (p ++ q) := by
  obtain ⟨chunks, hcalls, hne⟩ := h.chunks
  obtain ⟨chunks', hcalls', hne'⟩ := h'.chunks
  refine ⟨h'.reliable, ?_, chunks ++ chunks', ?_, ?_⟩
  · rw [h'.written, h.written, List.append_assoc]
  · rw [hcalls', hcalls, List.append_assoc]
  · intro _ c hc
    rcases List.mem_append.1 hc with hc | hc
    · exact hne hp c hc
    · exact hne' hq c hc

/-- A loop that never fails to choose a size delivers its buffer. -/
theorem loop_delivers {k : Chunker σ} {I : σ → Prop} (hk : k.Steady I)
    (hsome : ∀ s, k.size s ≠ none) {fuel : ℕ} {s : σ} (hs : I s) (hw : w.sink.Reliable) (total : ℕ)
    (hfuel : rest.length < fuel) :
    (∃ n, (loop k fuel s w rest total).1 = .returned n true) ∧
      Delivers w (loop k fuel s w rest total).2.2 rest := by
  have hreliable : (loop k fuel s w rest total).2.2.sink.Reliable := by
    refine loop_invariant k (P := fun _ w => w.sink.Reliable) ?_ fuel rest total hw
    intro s w rest size _ _ hw
    dsimp only
    rw [Recorder.write_of_reliable hw]
    exact ⟨rfl, rfl⟩
  have hret := loop_all hk fuel hs w rest total hsome hw.neverFails hfuel
  obtain ⟨sent, -, hwritten, hcount⟩ := loop_sent k hk.emit_eq fuel s w rest total
  obtain ⟨chunks, hcalls, hne⟩ := loop_calls hk fuel hs w rest total
  obtain rfl := (hcount _ true hret).2 rfl
  exact ⟨⟨_, hret⟩, hreliable, hwritten, chunks, hcalls, fun _ => hne⟩

end ChunkedWrite
