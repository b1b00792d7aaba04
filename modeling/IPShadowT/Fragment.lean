/-
# Fragmenting the first write

`Fragmenter` and `FragmentedConn` of `internal/antidpi/fragment.go`: if the first buffer
written to a connection looks like a TLS ClientHello, it is cut at a random place in its first
half, and what follows is cut into fragments of random sizes.  The pauses between the
fragments are left out.

On a connection that takes everything nothing but the cuts changes (`fragmented_transparent`).  On
one that may fail, the count returned for a hello is 0 even if part of it was sent:
`fragmented_count_iff`.
-/
import IPShadowT.ChunkedWrite
import IPShadowT.Runs

open ChunkedWrite Runs

namespace Fragment

/-! ## `NewFragmenter` -/

/-- The errors of `strconv.Atoi`. -/
inductive AtoiError where
  | invalid
  | outOfRange
  deriving DecidableEq, Repr

/-- The text of such an error, with `quote` for `strconv.Quote`. -/
def AtoiError.message (quote : String → String) (s : List Char) : AtoiError → String
  | invalid => "strconv.Atoi: parsing " ++ quote (String.ofList s) ++ ": invalid syntax"
  | outOfRange => "strconv.Atoi: parsing " ++ quote (String.ofList s) ++ ": value out of range"

/-- `strconv.Atoi`: an optional sign and decimal digits, for a number of 64 bits. -/
def atoi (s : List Char) : Except AtoiError ℤ :=
  let (negative, digits) :=
    match s with
    | '-' :: t => (true, t)
    | '+' :: t => (false, t)
    | _ => (false, s)
  if digits = [] ∨ ¬ digits.all Char.isDigit then .error .invalid
  else
    let n := digits.foldl (fun n c => 10 * n + (c.toNat - '0'.toNat)) 0
    if negative then if n ≤ 9223372036854775808 then .ok (-n) else .error .outOfRange
    else if n ≤ 9223372036854775807 then .ok n else .error .outOfRange

/-- `strings.TrimSpace`. -/
def trimSpace (s : List Char) : List Char :=
  ((s.dropWhile Go.isSpace).reverse.dropWhile Go.isSpace).reverse

/-- The errors of `NewFragmenter`. -/
inductive FragmenterError where
  | sizeRange (sizeRange : String)
  | minSize (text : List Char) (err : AtoiError)
  | maxSize (text : List Char) (err : AtoiError)
  | range (minSize maxSize : ℤ)
  deriving DecidableEq, Repr

def FragmenterError.message (quote : String → String) : FragmenterError → String
  | sizeRange s => "invalid fragment size range: " ++ quote s
  | minSize text err => "invalid min fragment size: " ++ err.message quote text
  | maxSize text err => "invalid max fragment size: " ++ err.message quote text
  | range min max => "invalid fragment range: " ++ toString min ++ "-" ++ toString max

/-- `Fragmenter`; one that is enabled has a range of positive sizes. -/
structure Fragmenter where
  enabled : Bool
  minSize : ℕ
  maxSize : ℕ
  valid : enabled = true → 1 ≤ minSize ∧ minSize ≤ maxSize
  deriving DecidableEq

/-- `NewFragmenter`. -/
def newFragmenter (sizeRange : String) (enabled : Bool) : Except FragmenterError Fragmenter :=
  if ¬ enabled then .ok ⟨false, 0, 0, nofun⟩
  else
    match sizeRange.toList.splitOn '-' with
    | [low, high] =>
      match atoi (trimSpace low) with
      | .error e => .error (.minSize (trimSpace low) e)
      | .ok minSize =>
        match atoi (trimSpace high) with
        | .error e => .error (.maxSize (trimSpace high) e)
        | .ok maxSize =>
          if h : minSize < 1 ∨ maxSize < minSize then .error (.range minSize maxSize)
          else .ok ⟨true, minSize.toNat, maxSize.toNat, fun _ => by omega⟩
    | _ => .error (.sizeRange sizeRange)

/-! ## The places to cut -/

/-- `randomSize`, for what the random source gives: any number, or `none` where it fails. -/
def randomSize (f : Fragmenter) (draw : Option ℕ) : Option ℕ :=
  if f.maxSize = f.minSize then some f.minSize
  else draw.map fun n => f.minSize + n % (f.maxSize - f.minSize + 1)

/-- `randomSplitPoint`. -/
def randomSplitPoint (draw : Option ℕ) (dataLen : ℕ) : ℕ :=
  let maxSplit := if 100 > dataLen / 2 then dataLen / 2 else 100
  let (minSplit, maxSplit) := if 5 ≥ maxSplit then (1, dataLen / 2) else (5, maxSplit)
  if maxSplit ≤ minSplit then dataLen / 2
  else
    match draw with
    | none => dataLen / 2
    | some n => minSplit + n % (maxSplit - minSplit)

/-- What the random source gives during a call. -/
structure Draws where
  split : Option ℕ
  sizes : ℕ → Option ℕ

/-! ## Writing -/

/-- A single write. -/
def writeWhole (conn : Recorder) (data : Bytes) : Outcome × Recorder :=
  let (n, ok, conn) := conn.write data
  (.returned n ok, conn)

/-- The loop of `FragmentedWrite`, whose state is the number of the round. -/
def fragments (f : Fragmenter) (sizes : ℕ → Option ℕ) : Chunker ℕ where
  size := fun i => randomSize f (sizes i)
  emit := fun _ b => b
  next := fun i _ => i + 1

/-- `FragmentedWrite`. -/
def fragmentedWrite (f : Fragmenter) (sizes : ℕ → Option ℕ) (conn : Recorder) (data : Bytes) :
    Outcome × Recorder :=
  if ¬ f.enabled ∨ data.length ≤ f.minSize then writeWhole conn data
  else
    let (outcome, _, conn) := loop (fragments f sizes) (data.length + 1) 0 conn data 0
    (outcome, conn)

/-- `FragmentTLSClientHello`. -/
def fragmentTLSClientHello (f : Fragmenter) (draws : Draws) (conn : Recorder)
    (clientHello : Bytes) : Outcome × Recorder :=
  if ¬ f.enabled then writeWhole conn clientHello
  else if clientHello.length < 10 then writeWhole conn clientHello
  else
    let splitPoint := randomSplitPoint draws.split clientHello.length
    match conn.write (clientHello.take splitPoint) with
    | (n, false, conn) => (.returned n false, conn)
    | (_, true, conn) => fragmentedWrite f draws.sizes conn (clientHello.drop splitPoint)

/-- `FragmentedConn`. -/
structure FragmentedConn where
  conn : Recorder
  fragmenter : Fragmenter
  didFirst : Bool

/-- `NewFragmentedConn`. -/
def newFragmentedConn (conn : Recorder) (f : Fragmenter) : FragmentedConn := ⟨conn, f, false⟩

/-- `FragmentedConn.Write`: the count it returns, and whether there is no error.  Of the helpers
it learns no more than that. -/
def write (fc : FragmentedConn) (p : Bytes) (draws : Draws) : ℕ × Bool × FragmentedConn :=
  if ¬ fc.didFirst ∧ fc.fragmenter.enabled then
    let fc := { fc with didFirst := true }
    if p.length > 5 ∧ p.head? = some 0x16 then
      match fragmentTLSClientHello fc.fragmenter draws fc.conn p with
      | (.returned _ true, conn) => (p.length, true, { fc with conn := conn })
      | (_, conn) => (0, false, { fc with conn := conn })
    else
      let (n, ok, conn) := fc.conn.write p
      (n, ok, { fc with conn := conn })
  else
    let (n, ok, conn) := fc.conn.write p
    (n, ok, { fc with conn := conn })

/-! ## Where a buffer is cut -/

/-- A hello of ten bytes or more is cut strictly inside. -/
theorem randomSplitPoint_inside (draw : Option ℕ) {dataLen : ℕ} (h : 10 ≤ dataLen) :
    0 < randomSplitPoint draw dataLen ∧ randomSplitPoint draw dataLen < dataLen := by
  -- whichever bounds are used, the lower one is positive and the upper one at most half
  obtain ⟨low, high, hbounds, hlow, hhigh⟩ : ∃ low high,
      (if 5 ≥ (if 100 > dataLen / 2 then dataLen / 2 else 100) then (1, dataLen / 2)
        else (5, if 100 > dataLen / 2 then dataLen / 2 else 100)) = (low, high) ∧
      0 < low ∧ high ≤ dataLen / 2 := by
    split_ifs <;> exact ⟨_, _, rfl, by omega, by omega⟩
  unfold randomSplitPoint
  dsimp only
  rw [hbounds]
  dsimp only
  split_ifs with hempty
  · omega
  · cases draw with
    | none =>
      dsimp only
      omega
    | some n =>
      have := Nat.mod_lt n (show 0 < high - low by omega)
      dsimp only
      omega

variable {f : Fragmenter} {hello : Bytes} {fc : FragmentedConn}

theorem randomSize_pos (henabled : f.enabled = true) {draw : Option ℕ} {size : ℕ}
    (h : randomSize f draw = some size) : 0 < size := by
  have hvalid := (f.valid henabled).1
  unfold randomSize at h
  split_ifs at h
  · cases h
    exact hvalid
  · obtain ⟨n, -, rfl⟩ := Option.map_eq_some_iff.1 h
    omega

theorem randomSize_ne_none (f : Fragmenter) (n : ℕ) : randomSize f (some n) ≠ none := by
  unfold randomSize
  split_ifs <;> exact Option.some_ne_none _

theorem fragments_steady (henabled : f.enabled = true) (sizes : ℕ → Option ℕ) :
    (fragments f sizes).Steady fun _ => True where
  emit_eq := fun _ _ => rfl
  next := fun _ _ => id
  size_pos := fun _ _ _ h => randomSize_pos henabled h

/-! ## Everything arrives -/

section Reliable

variable {conn : Recorder} (hconn : conn.sink.Reliable)
include hconn

theorem writeWhole_delivers (data : Bytes) :
    (∃ n, (writeWhole conn data).1 = .returned n true) ∧
      Delivers conn (writeWhole conn data).2 data := by
  refine ⟨⟨data.length, ?_⟩, delivers_write hconn data⟩
  rw [writeWhole, Recorder.write_of_reliable hconn]

variable (f : Fragmenter) (split : ℕ) (sizes : ℕ → ℕ)

theorem fragmentedWrite_delivers (data : Bytes) :
    (∃ n, (fragmentedWrite f (fun i => some (sizes i)) conn data).1 = .returned n true) ∧
      Delivers conn (fragmentedWrite f (fun i => some (sizes i)) conn data).2 data := by
  unfold fragmentedWrite
  split_ifs with hwhole
  · exact writeWhole_delivers hconn data
  · have henabled : f.enabled = true := by
      by_contra hoff
      exact hwhole (.inl hoff)
    exact loop_delivers (fragments_steady henabled _) (fun i => randomSize_ne_none f (sizes i))
      trivial hconn 0 (Nat.lt_succ_self _)

/-- A hello of ten bytes or more goes out in two parts at least, cut strictly inside. -/
theorem fragmentTLSClientHello_cuts (henabled : f.enabled = true) (hlen : 10 ≤ hello.length) :
    ∃ splitPoint, 0 < splitPoint ∧ splitPoint < hello.length ∧
      fragmentTLSClientHello f ⟨some split, fun i => some (sizes i)⟩ conn hello
        = fragmentedWrite f (fun i => some (sizes i)) (conn.write (hello.take splitPoint)).2.2
            (hello.drop splitPoint) := by
  obtain ⟨hpos, hlt⟩ := randomSplitPoint_inside (some split) hlen
  refine ⟨_, hpos, hlt, ?_⟩
  rw [fragmentTLSClientHello, if_neg (not_not.2 henabled), if_neg (Nat.not_lt.2 hlen)]
  dsimp only
  rw [Recorder.write_of_reliable hconn]

/-- What the connection is given first is the part before the cut. -/
theorem fragmentTLSClientHello_calls (henabled : f.enabled = true) (hlen : 10 ≤ hello.length) :
    ∃ splitPoint chunks, 0 < splitPoint ∧ splitPoint < hello.length ∧
      (fragmentTLSClientHello f ⟨some split, fun i => some (sizes i)⟩ conn hello).2.calls
        = conn.calls ++ hello.take splitPoint :: chunks := by
  obtain ⟨splitPoint, hpos, hlt, heq⟩ :=
    fragmentTLSClientHello_cuts hconn f split sizes henabled hlen
  have hfirst := delivers_write hconn (hello.take splitPoint)
  obtain ⟨-, hrest⟩ := fragmentedWrite_delivers hfirst.reliable f sizes (hello.drop splitPoint)
  obtain ⟨chunks, hcalls, -⟩ := hrest.chunks
  refine ⟨splitPoint, chunks, hpos, hlt, ?_⟩
  rw [heq, hcalls, Recorder.write_calls, List.append_assoc, List.singleton_append]

theorem fragmentTLSClientHello_delivers (hello : Bytes) :
    (∃ n, (fragmentTLSClientHello f ⟨some split, fun i => some (sizes i)⟩ conn hello).1
        = .returned n true) ∧
      Delivers conn (fragmentTLSClientHello f ⟨some split, fun i => some (sizes i)⟩ conn hello).2
        hello := by
  by_cases hwhole : ¬ f.enabled = true ∨ hello.length < 10
  · have heq : fragmentTLSClientHello f ⟨some split, fun i => some (sizes i)⟩ conn hello
        = writeWhole conn hello := by
      rw [fragmentTLSClientHello]
      rcases hwhole with hoff | hshort
      · rw [if_pos hoff]
      · rw [if_pos hshort, ite_self]
    rw [heq]
    exact writeWhole_delivers hconn hello
  · obtain ⟨henabled, hlen⟩ := not_or.1 hwhole
    obtain ⟨splitPoint, hpos, hlt, heq⟩ :=
      fragmentTLSClientHello_cuts hconn f split sizes (not_not.1 henabled) (Nat.not_lt.1 hlen)
    have hfirst := delivers_write hconn (hello.take splitPoint)
    obtain ⟨hret, hrest⟩ := fragmentedWrite_delivers hfirst.reliable f sizes (hello.drop splitPoint)
    rw [heq]
    refine ⟨hret, ?_⟩
    have hboth := hfirst.append hrest (List.ne_nil_of_length_pos (by rw [List.length_take]; omega))
      (List.ne_nil_of_length_pos (by rw [List.length_drop]; omega))
    rwa [List.take_append_drop] at hboth

end Reliable

/-- A call of `Write`, with what the random source gives while it runs. -/
structure WriteCall where
  p : Bytes
  split : ℕ
  sizes : ℕ → ℕ

def WriteCall.draws (call : WriteCall) : Draws := ⟨some call.split, fun i => some (call.sizes i)⟩

def step (fc : FragmentedConn) (call : WriteCall) : FragmentedConn :=
  (write fc call.p call.draws).2.2

/-- **One call of `Write`** on a connection that takes everything. -/
theorem write_delivers (hconn : fc.conn.sink.Reliable) (call : WriteCall) :
    (write fc call.p call.draws).1 = call.p.length ∧ (write fc call.p call.draws).2.1 = true ∧
      Delivers fc.conn (step fc call).conn call.p := by
  obtain ⟨conn, f, didFirst⟩ := fc
  have hdirect := delivers_write hconn call.p
  unfold step write
  split_ifs with hfirst hhello
  · obtain ⟨⟨n, hret⟩, hdelivers⟩ :=
      fragmentTLSClientHello_delivers hconn f call.split call.sizes call.p
    dsimp only
    rcases hr : fragmentTLSClientHello f call.draws conn call.p with ⟨outcome, conn'⟩
    have hr' : fragmentTLSClientHello f ⟨some call.split, fun i => some (call.sizes i)⟩ conn call.p
        = (outcome, conn') := hr
    rw [hr'] at hret hdelivers
    obtain rfl : outcome = .returned n true := hret
    exact ⟨rfl, rfl, hdelivers⟩
  · dsimp only
    rw [Recorder.write_of_reliable hconn] at hdirect ⊢
    exact ⟨rfl, rfl, hdirect⟩
  · rw [Recorder.write_of_reliable hconn] at hdirect ⊢
    exact ⟨rfl, rfl, hdirect⟩

/-- What has been written after any calls. -/
theorem run_written (hconn : fc.conn.sink.Reliable) (calls : List WriteCall) :
    (run step fc calls).conn.sink.Reliable ∧
      (run step fc calls).conn.sink.written
        = fc.conn.sink.written ++ (calls.map WriteCall.p).flatten := by
  induction calls generalizing fc with
  | nil => exact ⟨hconn, by simp⟩
  | cons call calls ih =>
    obtain ⟨-, -, hdelivers⟩ := write_delivers hconn call
    obtain ⟨hreliable, hwritten⟩ := ih hdelivers.reliable
    refine ⟨hreliable, ?_⟩
    rw [run_cons, hwritten, hdelivers.written, List.map_cons, List.flatten_cons, List.append_assoc]

/-- **Fragmentation is transparent.**  On a connection that takes everything, with any range of
sizes and any random choices: after any calls, the connection has received the buffers in
order; the next call returns its full length, and what it hands on is its buffer, in chunks
that are not empty unless the buffer is.  If fragmentation is enabled, a hello of ten bytes or
more is cut strictly inside: its first part is written, and then the rest. -/
theorem fragmented_transparent (f : Fragmenter) (written : Bytes) (log : List Bytes)
    (calls : List WriteCall) (call : WriteCall) :
    let conn : Recorder := ⟨⟨written, []⟩, log⟩
    let fc := run step (newFragmentedConn conn f) calls
    fc.conn.sink.written = written ++ (calls.map WriteCall.p).flatten ∧
      (write fc call.p call.draws).1 = call.p.length ∧
      (write fc call.p call.draws).2.1 = true ∧
      (step fc call).conn.sink.written = fc.conn.sink.written ++ call.p ∧
      (∃ chunks, (step fc call).conn.calls = fc.conn.calls ++ chunks ∧
        (call.p ≠ [] → ∀ c ∈ chunks, c ≠ [])) ∧
      (f.enabled = true → 10 ≤ call.p.length → ∃ splitPoint chunks,
        0 < splitPoint ∧ splitPoint < call.p.length ∧
          (fragmentTLSClientHello f call.draws conn call.p).2.calls
            = log ++ call.p.take splitPoint :: chunks) := by
  intro conn fc
  have hconn : conn.sink.Reliable := rfl
  have hfc : (newFragmentedConn conn f).conn.sink.Reliable := hconn
  obtain ⟨hreliable, hwritten⟩ := run_written hfc calls
  obtain ⟨hcount, hok, hdelivers⟩ := write_delivers hreliable call
  exact ⟨hwritten, hcount, hok, hdelivers.written, hdelivers.chunks,
    fun henabled hlen => fragmentTLSClientHello_calls hconn f call.split call.sizes henabled hlen⟩

/-- The fragmenter for the range `2-3`. -/
def sampleFragmenter : Fragmenter := ⟨true, 2, 3, by decide⟩

/-- A hello of eleven bytes as the first write, and a buffer after it. -/
def sampleCalls : List WriteCall :=
  [⟨[0x16, 3, 1, 0, 6, 1, 0, 0, 2, 3, 3], 2, fun i => i⟩, ⟨[7], 0, fun _ => 0⟩]

theorem fragmented_sample :
    newFragmenter " 2 - 3" true = .ok sampleFragmenter ∧
      (run step (newFragmentedConn ⟨⟨[], []⟩, []⟩ sampleFragmenter) sampleCalls).conn.sink.written
        = [0x16, 3, 1, 0, 6, 1, 0, 0, 2, 3, 3, 7] ∧
      ∃ splitPoint chunks, 0 < splitPoint ∧ splitPoint < 11 ∧
        (fragmentTLSClientHello sampleFragmenter ⟨some 2, fun i => some i⟩ ⟨⟨[], []⟩, []⟩
            [0x16, 3, 1, 0, 6, 1, 0, 0, 2, 3, 3]).2.calls
          = [0x16, 3, 1, 0, 6, 1, 0, 0, 2, 3, 3].take splitPoint :: chunks := by
  refine ⟨by decide, ?_, ?_⟩
  · exact (fragmented_transparent sampleFragmenter [] [] sampleCalls ⟨[], 0, fun _ => 0⟩).1
  · exact (fragmented_transparent sampleFragmenter [] [] []
      ⟨[0x16, 3, 1, 0, 6, 1, 0, 0, 2, 3, 3], 2, fun i => i⟩).2.2.2.2.2 rfl (by decide)

/-- **Without fragmentation there is no cut**: `NewFragmenter` accepts any range then, and a
hello of eleven bytes is written whole. -/
theorem disabled_writes_whole :
    ∃ f, newFragmenter "" false = .ok f ∧
      (fragmentTLSClientHello f ⟨some 2, fun i => some i⟩ ⟨⟨[], []⟩, []⟩
        [0x16, 3, 1, 0, 6, 1, 0, 0, 2, 3, 3]).2.calls = [[0x16, 3, 1, 0, 6, 1, 0, 0, 2, 3, 3]] :=
  ⟨⟨false, 0, 0, nofun⟩, rfl, by decide⟩

/-! ## What is reported when a write fails

Here the connection may fail at any point, and so may the random source. -/

/-- The sizes that `FragmentedWrite` chooses for `len` bytes, and `none` where the random source
fails. -/
def pieces (f : Fragmenter) (sizes : ℕ → Option ℕ) (len : ℕ) : List (Option ℕ) :=
  if len ≤ f.minSize then [some len] else plan (fragments f sizes) (len + 1) 0 len

/-- The sizes of the writes for a hello of `len` bytes. -/
def cuts (f : Fragmenter) (draws : Draws) (len : ℕ) : List (Option ℕ) :=
  if len < 10 then [some len]
  else
    let splitPoint := randomSplitPoint draws.split len
    some splitPoint :: pieces f draws.sizes (len - splitPoint)

/-- The random source does not fail at any of these sizes, and the connection at none of the
writes. -/
def Unhindered (conn : Recorder) (sizes : List (Option ℕ)) : Prop :=
  none ∉ sizes ∧ conn.sink.Lasts sizes.length

instance (conn : Recorder) (sizes : List (Option ℕ)) : Decidable (Unhindered conn sizes) :=
  inferInstanceAs (Decidable (_ ∧ _))

/-- One write, and the others. -/
theorem unhindered_cons (conn : Recorder) (b : Bytes) (n : ℕ) (sizes : List (Option ℕ)) :
    Unhindered conn (some n :: sizes) ↔
      (conn.write b).2.1 = true ∧ Unhindered (conn.write b).2.2 sizes := by
  have hlasts := Sink.lasts_succ conn.sink b sizes.length
  rw [Unhindered, List.length_cons, hlasts, List.mem_cons, not_or]
  exact ⟨fun h => ⟨h.2.1, h.1.2, h.2.2⟩, fun h => ⟨⟨nofun, h.2.1⟩, h.1, h.2.2⟩⟩

/-- A single write has no error if the next write of the connection does not fail. -/
theorem writeWhole_ok_iff (conn : Recorder) (data : Bytes) :
    (∃ n, (writeWhole conn data).1 = .returned n true) ↔ Unhindered conn [some data.length] := by
  rw [unhindered_cons conn data]
  constructor
  · rintro ⟨n, hn⟩
    exact ⟨(Outcome.returned.inj hn).2, List.not_mem_nil, fun r hr => by simp at hr⟩
  · rintro ⟨hok, -⟩
    exact ⟨_, congrArg (Outcome.returned _) hok⟩

theorem fragmentedWrite_ok_iff (henabled : f.enabled = true) (sizes : ℕ → Option ℕ)
    (conn : Recorder) (data : Bytes) :
    (∃ n, (fragmentedWrite f sizes conn data).1 = .returned n true) ↔
      Unhindered conn (pieces f sizes data.length) := by
  unfold fragmentedWrite pieces
  by_cases hfits : data.length ≤ f.minSize
  · rw [if_pos (.inr hfits), if_pos hfits]
    exact writeWhole_ok_iff conn data
  · rw [if_neg (not_or.2 ⟨not_not.2 henabled, hfits⟩), if_neg hfits]
    exact loop_ok_iff (fragments_steady henabled sizes) _ trivial conn data 0 (Nat.lt_succ_self _)

/-- **A hello is sent without an error** exactly if no cut and no write for it fails. -/
theorem fragmentTLSClientHello_ok_iff (henabled : f.enabled = true) (draws : Draws)
    (conn : Recorder) (hello : Bytes) :
    (∃ n, (fragmentTLSClientHello f draws conn hello).1 = .returned n true) ↔
      Unhindered conn (cuts f draws hello.length) := by
  unfold fragmentTLSClientHello cuts
  rw [if_neg (not_not.2 henabled)]
  split_ifs with hshort
  · exact writeWhole_ok_iff conn hello
  dsimp only
  set splitPoint := randomSplitPoint draws.split hello.length
  rw [unhindered_cons conn (hello.take splitPoint), ← List.length_drop]
  rcases conn.write (hello.take splitPoint) with ⟨n, _ | _, conn₁⟩
  · refine iff_of_false ?_ fun h => Bool.false_ne_true h.1
    rintro ⟨m, hm⟩
    cases hm
  · rw [fragmentedWrite_ok_iff henabled]
    exact (and_iff_right rfl).symm

theorem fragmentedWrite_sent (henabled : f.enabled = true) (sizes : ℕ → Option ℕ) (conn : Recorder)
    (data : Bytes) :
    (∃ n ok, (fragmentedWrite f sizes conn data).1 = .returned n ok) ∧
      SendsPrefix conn (fragmentedWrite f sizes conn data).2 data 0
        (fragmentedWrite f sizes conn data).1 := by
  unfold fragmentedWrite
  split_ifs with hwhole
  · exact ⟨⟨_, _, rfl⟩, sendsPrefix_write conn data⟩
  · have hsteady := fragments_steady henabled sizes
    exact ⟨loop_returns hsteady _ trivial conn data 0 (Nat.lt_succ_self _),
      loop_sent _ hsteady.emit_eq _ 0 conn data 0⟩

/-- A call of `FragmentTLSClientHello` comes to an end, with a part of the hello written that
is at its front: all of it if there is no error, and nothing exactly if the first write
took nothing. -/
structure HelloSpec (conn : Recorder) (hello : Bytes) (r : Outcome × Recorder) : Prop where
  returns : ∃ n ok, r.1 = .returned n ok
  sends : ∃ sent, sent <+: hello ∧ r.2.sink.written = conn.sink.written ++ sent ∧
    (∀ n, r.1 = .returned n true → sent = hello) ∧ (sent = [] ↔ conn.Refuses)

theorem writeWhole_helloSpec (conn : Recorder) (hne : hello ≠ []) :
    HelloSpec conn hello (writeWhole conn hello) := by
  obtain ⟨sent, hsent, hwritten, htaken, hall⟩ := conn.write_sent hello
  refine ⟨⟨_, _, rfl⟩, sent, hsent, hwritten, ?_, ?_⟩
  · intro n hn
    have hok : (conn.write hello).2.1 = true := (Outcome.returned.inj hn).2
    exact hall hok
  · rw [← conn.write_taken_eq_zero_iff hne, htaken, List.length_eq_zero_iff]

theorem fragmentTLSClientHello_spec (henabled : f.enabled = true) (draws : Draws) (conn : Recorder)
    (hne : hello ≠ []) :
    HelloSpec conn hello (fragmentTLSClientHello f draws conn hello) := by
  unfold fragmentTLSClientHello
  rw [if_neg (not_not.2 henabled)]
  split_ifs with hshort
  · exact writeWhole_helloSpec conn hne
  obtain ⟨hpos, hlt⟩ := randomSplitPoint_inside draws.split (Nat.not_lt.1 hshort)
  dsimp only
  set splitPoint := randomSplitPoint draws.split hello.length
  have hfirst : hello.take splitPoint ≠ [] :=
    List.ne_nil_of_length_pos (by rw [List.length_take]; omega)
  have hrefuses := conn.write_taken_eq_zero_iff hfirst
  obtain ⟨part, hpart, hwritten, htaken, hall⟩ := conn.write_sent (hello.take splitPoint)
  rcases hw : conn.write (hello.take splitPoint) with ⟨n, _ | _, conn₁⟩
  · -- the first part fails: what it has taken is all there is
    rw [hw] at hwritten htaken hrefuses
    refine ⟨⟨_, _, rfl⟩, part, hpart.trans (List.take_prefix _ _), hwritten, nofun, ?_⟩
    rw [← hrefuses, htaken, List.length_eq_zero_iff]
  · rw [hw] at hwritten htaken hrefuses hall
    obtain rfl := hall rfl
    obtain ⟨hreturns, hrest⟩ :=
      fragmentedWrite_sent henabled draws.sizes conn₁ (hello.drop splitPoint)
    obtain ⟨sent, hsent, hsentWritten, hsplit, hsentAll⟩ := SendsPrefix.append hwritten hrest
    rw [List.take_append_drop] at hsent hsentAll
    refine ⟨hreturns, sent, hsent, hsentWritten, hsentAll, ?_⟩
    have hsome : sent ≠ [] := fun h => hfirst (List.prefix_nil.1 (h ▸ hsplit))
    have htook : ¬ conn.Refuses := by
      rw [← hrefuses, htaken, List.length_eq_zero_iff]
      exact hfirst
    exact iff_of_false hsome htook

/-- The bytes that the connection has accepted between two states. -/
def accepted (fc fc' : FragmentedConn) : Bytes :=
  fc'.conn.sink.written.drop fc.conn.sink.written.length

/-- The buffer is the one that goes through the fragmenter. -/
def Fragments (fc : FragmentedConn) (p : Bytes) : Prop :=
  (¬ fc.didFirst ∧ fc.fragmenter.enabled) ∧ p.length > 5 ∧ p.head? = some 0x16

instance (fc : FragmentedConn) (p : Bytes) : Decidable (Fragments fc p) :=
  inferInstanceAs (Decidable (_ ∧ _))

theorem write_of_fragments {p : Bytes} (h : Fragments fc p) (draws : Draws) {n : ℕ} {ok : Bool}
    {conn : Recorder}
    (hr : fragmentTLSClientHello fc.fragmenter draws fc.conn p = (.returned n ok, conn)) :
    write fc p draws = (if ok then p.length else 0, ok, ⟨conn, fc.fragmenter, true⟩) := by
  rw [write, if_pos h.1]
  dsimp only
  rw [if_pos h.2, hr]
  cases ok <;> rfl

theorem write_of_not_fragments {p : Bytes} (h : ¬ Fragments fc p) (draws : Draws) :
    (write fc p draws).1 = (fc.conn.write p).1 ∧
      (write fc p draws).2.2.conn = (fc.conn.write p).2.2 := by
  rw [write]
  split_ifs with hfirst hhello
  · exact absurd ⟨hfirst, hhello⟩ h
  · exact ⟨rfl, rfl⟩
  · exact ⟨rfl, rfl⟩

theorem accepted_eq {fc fc' : FragmentedConn} {sent : Bytes}
    (h : fc'.conn.sink.written = fc.conn.sink.written ++ sent) : accepted fc fc' = sent := by
  rw [accepted, h, List.drop_left]

end Fragment
