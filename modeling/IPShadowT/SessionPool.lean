/-
# Placing streams on sessions

Model of `SessionPool` in `internal/mux/mux.go`, lines 127 to 225.  `GetStream` goes through the
sessions once, keeping the best score so far and the sessions that have it, and takes the one of
them that a counter points to, modulo their number.

`getStream_spec` says where a stream is opened, and `count_choices` how the best sessions take
turns.  The list of candidates is made anew in each call; it comes out in the same order because
`Add` appends and `RemoveClosed` keeps the order.

Sessions are known by a `key`, in the order in which they were added.  The counter is an `int`: it
wraps around after the largest one, and a negative counter gives a negative index, which panics.
-/
import IPShadowT.Bytes
import IPShadowT.KeepBest
import IPShadowT.Runs
import Mathlib.Data.Finset.Sort
import Mathlib.Data.List.Rotate

open Go (Arch item item_of_lt)
open KeepBest Runs

/-! ## The pool -/

/-- What `GetStream` asks of a mux session. -/
structure SessionPool.Session where
  key : ℕ
  /-- `IsClosed()` -/
  closed : Bool
  /-- `NumStreams()` -/
  numStreams : ℕ
  deriving DecidableEq, Repr

open SessionPool in
/-- `SessionPool`, and how many sessions have been added to it. -/
structure SessionPool where
  sessions : List Session
  /-- an `int` -/
  index : ℤ
  /-- `cfg.MaxStreams` -/
  maxStreams : Int
  qualityFunc : Option (ℕ → Int)
  created : ℕ

namespace SessionPool

/-- The errors that `GetStream` returns before it opens a stream: `no sessions available` and
`all sessions are closed or at max capacity`. -/
inductive GetStreamError where
  | noSessions
  | allBusy
  deriving DecidableEq, Repr

/-- The session is at its limit. -/
def Full (p : SessionPool) (s : Session) : Prop :=
  p.maxStreams > 0 ∧ (s.numStreams : Int) ≥ p.maxStreams

instance (p : SessionPool) : DecidablePred p.Full := fun _ => inferInstanceAs (Decidable (_ ∧ _))

/-- The score of the session at position `idx`. -/
def score (p : SessionPool) (idx : ℕ) (s : Session) : Int :=
  match p.qualityFunc with
  | none => 100 - s.numStreams
  | some quality => quality (idx + 1) - s.numStreams

/-- The body of the loop, with `bestScore` and `candidates` so far. -/
def consider (p : SessionPool) (acc : Int × List Session) (si : Session × ℕ) : Int × List Session :=
  if si.1.closed then acc
  else if p.Full si.1 then acc
  else if p.score si.2 si.1 > acc.1 then (p.score si.2 si.1, [si.1])
  else if p.score si.2 si.1 = acc.1 then (acc.1, acc.2 ++ [si.1])
  else acc

/-- `candidates` after the loop, which starts with a `bestScore` of `-1 << 30`. -/
def candidates (p : SessionPool) : List Session :=
  (p.sessions.zipIdx.foldl p.consider (-1073741824, [])).2

/-- `GetStream` up to its last statement: the session on which it opens a stream. -/
def pick (a : Arch) (p : SessionPool) : Go GetStreamError Session × SessionPool :=
  if p.sessions = [] then (.error (.error .noSessions), p)
  else if p.candidates = [] then (.error (.error .allBusy), p)
  else
    let index := a.int (p.index + 1)
    (item p.candidates (index.tmod p.candidates.length), { p with index := index })

/-- Change the sessions, but not which ones they are. -/
def modify (p : SessionPool) (closed : Session → Bool) (numStreams : Session → ℕ) : SessionPool :=
  { p with sessions := p.sessions.map fun s => ⟨s.key, closed s, numStreams s⟩ }

/-- `GetStream`, where `ok` says whether `OpenStream` succeeds. -/
def getStream (a : Arch) (p : SessionPool) (ok : Bool) : Go GetStreamError Session × SessionPool :=
  match p.pick a with
  | (.error e, p') => (.error e, p')
  | (.ok s, p') =>
    (.ok s, if ok then p'.modify Session.closed fun x =>
      if x.key = s.key then x.numStreams + 1 else x.numStreams else p')

/-- `Add` of a new session. -/
def add (p : SessionPool) (closed : Bool) (numStreams : ℕ) : SessionPool :=
  { p with
    sessions := p.sessions ++ [⟨p.created, closed, numStreams⟩]
    created := p.created + 1 }

/-- `RemoveClosed`. -/
def removeClosed (p : SessionPool) : SessionPool :=
  { p with sessions := p.sessions.filter (!·.closed) }

/-! ## Candidates -/

/-- A session that the loop does not pass over. -/
def Usable (p : SessionPool) (s : Session) : Prop := ¬ s.closed ∧ ¬ p.Full s

instance (p : SessionPool) : DecidablePred p.Usable := fun _ => inferInstanceAs (Decidable (_ ∧ _))

/-- The sessions that the loop does not pass over, with their positions. -/
def usable (p : SessionPool) : List (Session × ℕ) :=
  p.sessions.zipIdx.filter fun si => p.Usable si.1

/-- **A session to open a stream on**: open, with room, and no other such session has a higher
score. -/
def Best (p : SessionPool) (s : Session) : Prop :=
  ∃ idx, p.sessions[idx]? = some s ∧ p.Usable s
    ∧ ∀ idx' s', p.sessions[idx']? = some s' → p.Usable s' → p.score idx' s' ≤ p.score idx s

/-- The scores are above the one the loop starts with. -/
def Scored (p : SessionPool) : Prop :=
  ∀ idx s, p.sessions[idx]? = some s → p.Usable s → -1073741824 < p.score idx s

variable {p : SessionPool} {B : Finset ℕ}

theorem mem_usable {s : Session} {idx : ℕ} :
    (s, idx) ∈ p.usable ↔ p.sessions[idx]? = some s ∧ p.Usable s := by
  rw [usable, List.mem_filter, List.mem_zipIdx_iff_getElem?, decide_eq_true_iff]

/-- One round of the loop, for a session that it does not pass over. -/
theorem consider_usable {si : Session × ℕ} (h : p.Usable si.1) (acc : Int × List (Session × ℕ)) :
    p.consider (acc.1, acc.2.map Prod.fst) si
      = ((keepBest (fun si => p.score si.2 si.1) acc si).1,
        (keepBest (fun si => p.score si.2 si.1) acc si).2.map Prod.fst) := by
  unfold consider keepBest
  rw [if_neg h.1, if_neg h.2]
  split_ifs
  · rfl
  · rw [List.map_append]
    rfl
  · rfl

theorem consider_of_not_usable {si : Session × ℕ} (h : ¬ p.Usable si.1) (acc : Int × List Session) :
    p.consider acc si = acc := by
  unfold consider
  split_ifs with hclosed hfull
  · rfl
  · rfl
  all_goals exact absurd ⟨hclosed, hfull⟩ h

/-- The loop is a pass over the usable sessions. -/
theorem foldl_consider (p : SessionPool) (l : List (Session × ℕ))
    (acc : Int × List (Session × ℕ)) :
    l.foldl p.consider (acc.1, acc.2.map Prod.fst)
      = (((l.filter fun si => p.Usable si.1).foldl
            (keepBest fun si => p.score si.2 si.1) acc).1,
          ((l.filter fun si => p.Usable si.1).foldl
            (keepBest fun si => p.score si.2 si.1) acc).2.map Prod.fst) := by
  induction l generalizing acc with
  | nil => rfl
  | cons si l ih =>
    rw [List.foldl_cons]
    by_cases h : p.Usable si.1
    · rw [consider_usable h, ih, List.filter_cons_of_pos (by simpa using h), List.foldl_cons]
    · rw [consider_of_not_usable h, ih, List.filter_cons_of_neg (by simpa using h)]

/-- What the loop ends with. -/
theorem exists_kept (p : SessionPool) :
    ∃ acc, Kept (fun si => p.score si.2 si.1) (-1073741824) p.usable acc
      ∧ p.candidates = acc.2.map Prod.fst := by
  refine ⟨_, kept_foldl _ p.usable, ?_⟩
  exact congrArg Prod.snd (foldl_consider p p.sessions.zipIdx (-1073741824, []))

theorem mem_candidates_iff (h : p.Scored) {s : Session} : s ∈ p.candidates ↔ p.Best s := by
  obtain ⟨acc, hkept, hcandidates⟩ := p.exists_kept
  rw [hcandidates, hkept.list]
  constructor
  · intro hs
    obtain ⟨⟨s, idx⟩, hmem, rfl⟩ := List.mem_map.1 hs
    obtain ⟨husable, hscore⟩ := List.mem_filter.1 hmem
    have hscore : p.score idx s = acc.1 := of_decide_eq_true hscore
    obtain ⟨hidx, huse⟩ := mem_usable.1 husable
    refine ⟨idx, hidx, huse, ?_⟩
    intro idx' s' hidx' huse'
    rw [hscore]
    exact hkept.le (s', idx') (mem_usable.2 ⟨hidx', huse'⟩)
  · rintro ⟨idx, hidx, huse, hbest⟩
    have hmem := mem_usable.2 ⟨hidx, huse⟩
    have hle : p.score idx s ≤ acc.1 := hkept.le (s, idx) hmem
    have hlt := h idx s hidx huse
    -- the bound is attained, and by no session with a higher score
    obtain hinit | ⟨⟨s', idx'⟩, hmem', hscore⟩ := hkept.attained
    · omega
    · obtain ⟨hidx', huse'⟩ := mem_usable.1 hmem'
      have hscore : p.score idx' s' = acc.1 := hscore
      have hle' := hbest idx' s' hidx' huse'
      refine List.mem_map.2 ⟨(s, idx), List.mem_filter.2 ⟨hmem, decide_eq_true ?_⟩, rfl⟩
      show p.score idx s = acc.1
      omega

theorem candidates_eq_nil_iff (h : p.Scored) :
    p.candidates = [] ↔ ∀ s ∈ p.sessions, ¬ p.Usable s := by
  obtain ⟨acc, hkept, hcandidates⟩ := p.exists_kept
  constructor
  · intro hnil s hs huse
    obtain ⟨idx, hidx⟩ := List.mem_iff_getElem?.1 hs
    have hle : p.score idx s ≤ acc.1 := hkept.le (s, idx) (mem_usable.2 ⟨hidx, huse⟩)
    have hlt := h idx s hidx huse
    obtain hinit | ⟨a, ha, hscore⟩ := hkept.attained
    · omega
    · have hmem : a ∈ acc.2 := by
        rw [hkept.list]
        exact List.mem_filter.2 ⟨ha, decide_eq_true hscore⟩
      rw [hcandidates, List.map_eq_nil_iff] at hnil
      rw [hnil] at hmem
      cases hmem
  · intro hnone
    rw [hcandidates, hkept.list, List.map_eq_nil_iff, List.filter_eq_nil_iff]
    rintro ⟨s, idx⟩ hmem
    obtain ⟨hidx, huse⟩ := mem_usable.1 hmem
    exact absurd huse (hnone s (List.mem_of_getElem? hidx))

/-! ## One call -/

variable {a : Arch}

/-- The counter is not negative, and does not wrap around in the next `k` calls. -/
def Fits (a : Arch) (k : ℕ) (p : SessionPool) : Prop := 0 ≤ p.index ∧ p.index + k ≤ a.maxInt

theorem pick_of_nil (h : p.candidates = []) : ∃ e, p.pick a = (.error (.error e), p) := by
  unfold pick
  split_ifs
  · exact ⟨.noSessions, rfl⟩
  · exact ⟨.allBusy, rfl⟩

theorem candidates_of_sessions_nil (h : p.sessions = []) : p.candidates = [] := by
  rw [candidates, h]
  rfl

/-- The counter points to a candidate. -/
theorem pick_of_ne_nil (h : p.candidates ≠ []) (hfits : p.Fits a 1) :
    ∃ s, p.candidates[(p.index.toNat + 1) % p.candidates.length]? = some s
      ∧ p.pick a = (.ok s, { p with index := p.index + 1 }) := by
  obtain ⟨h0, hmax⟩ := hfits
  have hpos : 0 < p.candidates.length := List.length_pos_iff.2 h
  have hint : a.int (p.index + 1) = p.index + 1 := Arch.int_of_le (by omega) hmax
  have hidx : (p.index + 1).tmod p.candidates.length =
      ((p.index.toNat + 1) % p.candidates.length : ℕ) := by
    rw [Int.natCast_mod, Int.tmod_eq_emod_of_nonneg (by omega), Nat.cast_succ,
      Int.toNat_of_nonneg h0]
  have hlt := Nat.mod_lt (p.index.toNat + 1) hpos
  obtain ⟨s, hs, hitem⟩ : ∃ s, p.candidates[(p.index.toNat + 1) % p.candidates.length]? = some s ∧
      (item p.candidates ((p.index.toNat + 1) % p.candidates.length : ℕ) :
        Go GetStreamError Session) = .ok s :=
    item_of_lt (Int.natCast_nonneg _) (Int.ofNat_lt.2 hlt)
  refine ⟨s, hs, ?_⟩
  rw [pick, if_neg (fun hnil => h (candidates_of_sessions_nil hnil)), if_neg h, hint]
  dsimp only
  rw [hidx, hitem]

/-- `GetStream` returns an error before it opens a stream if there is no candidate, and otherwise
opens one on the candidate that the counter points to. -/
theorem getStream_of_nil (h : p.candidates = []) (ok : Bool) :
    ∃ e, p.getStream a ok = (.error (.error e), p) := by
  obtain ⟨e, hpick⟩ := pick_of_nil h
  exact ⟨e, by rw [getStream, hpick]⟩

theorem getStream_of_ne_nil (h : p.candidates ≠ []) (hfits : p.Fits a 1) (ok : Bool) :
    ∃ s, p.candidates[(p.index.toNat + 1) % p.candidates.length]? = some s
      ∧ (p.getStream a ok).1 = .ok s ∧ (p.getStream a ok).2.index = p.index + 1 := by
  obtain ⟨s, hs, hpick⟩ := pick_of_ne_nil h hfits
  refine ⟨s, hs, by rw [getStream, hpick], ?_⟩
  rw [getStream, hpick]
  cases ok <;> rfl

/-! ## Many calls -/

/-- What can happen to a pool: `GetStream`, the other methods, and whatever opens, ends and closes
in the sessions themselves. -/
inductive Event where
  | getStream (ok : Bool)
  | add (closed : Bool) (numStreams : ℕ)
  | removeClosed
  | close
  | setQualityFunc (qualityFunc : Option (ℕ → Int))
  | change (closed : Session → Bool) (numStreams : Session → ℕ)

def step (a : Arch) (p : SessionPool) : Event → SessionPool
  | .getStream ok => (p.getStream a ok).2
  | .add closed numStreams => p.add closed numStreams
  | .removeClosed => p.removeClosed
  | .close => { p with sessions := [] }
  | .setQualityFunc qualityFunc => { p with qualityFunc := qualityFunc }
  | .change closed numStreams => p.modify closed numStreams

/-- The session that a call of `GetStream` chooses. -/
def chosen (a : Arch) (p : SessionPool) : Event → Option ℕ
  | .getStream ok =>
    match (p.getStream a ok).1 with
    | .ok s => some s.key
    | .error _ => none
  | _ => none

/-- The sessions that the calls of a run choose, in order. -/
def choices (a : Arch) : SessionPool → List Event → List ℕ
  | _, [] => []
  | p, e :: es => (p.chosen a e).toList ++ choices a (p.step a e) es

def Event.isCall : Event → Bool
  | .getStream _ => true
  | _ => false

/-- At a call, the best sessions are those of the set `B`. -/
def BestAre (B : Finset ℕ) (p : SessionPool) (e : Event) : Prop :=
  e.isCall → p.Scored ∧ ∀ key, key ∈ B ↔ ∃ s, p.Best s ∧ s.key = key

/-- The sessions stand in the order in which they were added. -/
structure Ordered (p : SessionPool) : Prop where
  sorted : (p.sessions.map Session.key).Pairwise (· < ·)
  bound : ∀ s ∈ p.sessions, s.key < p.created

theorem Ordered.modify (h : p.Ordered) (closed : Session → Bool) (numStreams : Session → ℕ) :
    (p.modify closed numStreams).Ordered := by
  refine ⟨?_, ?_⟩
  · show ((p.sessions.map _).map _).Pairwise _
    rw [List.map_map]
    exact h.sorted
  · intro s hs
    obtain ⟨s', hs', rfl⟩ := List.mem_map.1 hs
    exact h.bound s' hs'

theorem Ordered.getStream (h : p.Ordered) (ok : Bool) : (p.getStream a ok).2.Ordered := by
  have hpick : (p.pick a).2.Ordered := by
    unfold pick
    split_ifs
    · exact h
    · exact h
    · exact ⟨h.sorted, h.bound⟩
  unfold SessionPool.getStream
  rcases hresult : p.pick a with ⟨e | s, p'⟩ <;> rw [hresult] at hpick
  · exact hpick
  · cases ok with
    | true => exact Ordered.modify hpick _ _
    | false => exact hpick

theorem Ordered.step (h : p.Ordered) (e : Event) : (p.step a e).Ordered := by
  cases e with
  | getStream ok => exact h.getStream ok
  | add closed numStreams =>
    refine ⟨?_, ?_⟩
    · show ((p.sessions ++ [_]).map Session.key).Pairwise _
      rw [List.map_append, List.pairwise_append]
      refine ⟨h.sorted, List.pairwise_singleton _ _, ?_⟩
      intro a ha b hb
      obtain ⟨s, hs, rfl⟩ := List.mem_map.1 ha
      rw [List.mem_singleton.1 hb]
      exact h.bound s hs
    · intro s hs
      obtain hs | hs := List.mem_append.1 hs
      · exact Nat.lt_succ_of_lt (h.bound s hs)
      · rw [List.mem_singleton.1 hs]
        exact Nat.lt_succ_self _
  | removeClosed =>
    refine ⟨h.sorted.sublist (List.filter_sublist.map _), ?_⟩
    intro s hs
    exact h.bound s (List.mem_of_mem_filter hs)
  | close => exact ⟨List.Pairwise.nil, nofun⟩
  | setQualityFunc qualityFunc => exact ⟨h.sorted, h.bound⟩
  | change closed numStreams => exact h.modify closed numStreams

/-- The candidates are in the order of the sessions. -/
theorem candidates_sublist (p : SessionPool) : p.candidates.Sublist p.sessions := by
  obtain ⟨acc, hkept, hcandidates⟩ := p.exists_kept
  rw [hcandidates, hkept.list]
  have hsub : (p.usable.filter fun si => p.score si.2 si.1 = acc.1).Sublist p.sessions.zipIdx :=
    List.filter_sublist.trans List.filter_sublist
  have hmap := hsub.map Prod.fst
  rwa [List.zipIdx_map_fst] at hmap

/-- **The candidates depend on the set of the best sessions alone.** -/
theorem Ordered.candidates_eq (h : p.Ordered) {e : Event} (hbest : BestAre B p e) (he : e.isCall) :
    p.candidates.map Session.key = B.sort := by
  obtain ⟨hscored, hB⟩ := hbest he
  refine List.Pairwise.eq_of_mem_iff (r := (· < ·)) (h.sorted.sublist (p.candidates_sublist.map _))
    (Finset.sortedLT_sort B).pairwise ?_
  intro key
  rw [Finset.mem_sort, hB, List.mem_map]
  simp only [mem_candidates_iff hscored]

theorem index_step_of_not_call (p : SessionPool) {e : Event} (he : ¬ e.isCall) :
    (p.step a e).index = p.index := by
  cases e with
  | getStream ok => exact absurd rfl he
  | _ => rfl

/-- A list from one position on, and from the next. -/
theorem take_rotate_succ {α : Type*} {l : List α} {n c : ℕ} {a : α}
    (ha : l[n % l.length]? = some a) (hc : c < l.length) :
    (l.rotate n).take (c + 1) = a :: (l.rotate (n + 1)).take c := by
  have hlen := List.length_rotate l n
  cases hl : l.rotate n with
  | nil =>
    rw [hl, List.length_nil] at hlen
    omega
  | cons b rest =>
    have hb : b = a := by
      have hget := List.getElem?_rotate (n := n) (m := 0) (by omega : 0 < l.length)
      rw [hl, Nat.zero_add, ha] at hget
      exact Option.some.inj hget
    rw [hl, List.length_cons] at hlen
    rw [← List.rotate_rotate, hl, List.rotate_cons_succ, List.rotate_zero, List.take_succ_cons,
      List.take_append_of_le_length (by omega), hb]

/-- The choices of a run in which the best sessions stay the same: the counter goes round them. -/
theorem choices_eq (h : p.Ordered) {es : List Event} (hbest : EachStep (step a) (BestAre B) p es)
    (hle : es.countP Event.isCall ≤ B.card) (hfits : p.Fits a (es.countP Event.isCall)) :
    p.choices a es = (B.sort.rotate (p.index.toNat + 1)).take (es.countP Event.isCall) := by
  induction es generalizing p with
  | nil => rfl
  | cons e es ih =>
    obtain ⟨hnow, hlater⟩ := hbest
    by_cases he : e.isCall
    · cases e with
      | getStream ok =>
        rw [List.countP_cons_of_pos rfl] at hle hfits ⊢
        obtain ⟨h0, hmax⟩ := hfits
        have hcand := h.candidates_eq hnow he
        have hlen : p.candidates.length = B.card := by
          rw [← List.length_map Session.key, hcand, Finset.length_sort]
        have hne : p.candidates ≠ [] := by
          rw [← List.length_pos_iff]
          omega
        obtain ⟨s, hs, hget, hindex⟩ := getStream_of_ne_nil (a := a) hne ⟨h0, by omega⟩ ok
        have hkey : B.sort[(p.index.toNat + 1) % B.sort.length]? = some s.key := by
          rw [← hcand, List.length_map, List.getElem?_map, hs]
          rfl
        have hchosen : p.chosen a (.getStream ok) = some s.key := by rw [chosen, hget]
        have hindex : (p.step a (.getStream ok)).index = p.index + 1 := hindex
        have hnat : (p.index + 1).toNat = p.index.toNat + 1 := by omega
        have hfits : (p.step a (.getStream ok)).Fits a (es.countP Event.isCall) := by
          rw [Fits, hindex]
          omega
        rw [choices, hchosen, ih (h.step _) hlater (by omega) hfits, hindex, hnat,
          take_rotate_succ hkey (by rw [Finset.length_sort]; omega)]
        rfl
      | _ => exact absurd he Bool.false_ne_true
    · have hchosen : p.chosen a e = none := by
        cases e with
        | getStream ok => exact absurd rfl he
        | _ => rfl
      have hindex : (p.step a e).index = p.index := index_step_of_not_call p he
      rw [List.countP_cons_of_neg he] at hle hfits ⊢
      rw [choices, hchosen, ih (h.step e) hlater hle (by rwa [Fits, hindex]), hindex]
      rfl

/-- A stream is opened on a best session, unless no session is usable. -/
theorem getStream_spec (h : p.Scored) (hfits : p.Fits a 1) (ok : Bool) :
    ((∃ e, (p.getStream a ok).1 = .error (.error e)) ↔ ∀ s ∈ p.sessions, ¬ p.Usable s)
      ∧ ((∃ s ∈ p.sessions, p.Usable s) → ∃ s, (p.getStream a ok).1 = .ok s ∧ p.Best s) := by
  have hnone := candidates_eq_nil_iff h
  by_cases hnil : p.candidates = []
  · obtain ⟨e, he⟩ := getStream_of_nil (a := a) hnil ok
    refine ⟨iff_of_true ⟨e, by rw [he]⟩ (hnone.1 hnil), ?_⟩
    rintro ⟨s, hs, husable⟩
    exact absurd husable (hnone.1 hnil s hs)
  · obtain ⟨s, hs, hget, -⟩ := getStream_of_ne_nil hnil hfits ok
    refine ⟨iff_of_false ?_ fun hall => hnil (hnone.2 hall), fun _ => ⟨s, hget, ?_⟩⟩
    · rintro ⟨e, he⟩
      rw [hget] at he
      cases he
    · exact (mem_candidates_iff h).1 (List.mem_of_getElem? hs)

/-- As many calls as there are best sessions choose each of them once. -/
theorem count_choices (h : p.Ordered) {es : List Event} (hbest : EachStep (step a) (BestAre B) p es)
    (hcalls : es.countP Event.isCall = B.card) (hfits : p.Fits a B.card) (key : ℕ) :
    (p.choices a es).count key = if key ∈ B then 1 else 0 := by
  have hall : p.choices a es = B.sort.rotate (p.index.toNat + 1) := by
    rw [choices_eq h hbest hcalls.le (hcalls ▸ hfits), hcalls, List.take_of_length_le]
    rw [List.length_rotate, Finset.length_sort]
  rw [hall, (List.rotate_perm _ _).count_eq, List.Nodup.count (B.sort_nodup (· ≤ ·))]
  simp only [Finset.mem_sort]

/-- **Streams are placed on a best session, and the best sessions take turns.**  A call of
`GetStream` fails before it opens a stream exactly if no open session is below `MaxStreams`, where
zero or less is no limit, and otherwise opens it on such a session with the highest score.  As many
calls as there are best sessions, with anything happening in between that leaves the best ones the
same, choose each of them once.  The counter is not at the largest `int`, and does not get beyond
it in these calls. -/
theorem getStream_places_in_turn (a : Arch) :
    (∀ (p : SessionPool) (ok : Bool), p.Scored → p.Fits a 1 →
      ((∃ e, (p.getStream a ok).1 = .error (.error e)) ↔ ∀ s ∈ p.sessions, ¬ p.Usable s)
        ∧ ((∃ s ∈ p.sessions, p.Usable s) → ∃ s, (p.getStream a ok).1 = .ok s ∧ p.Best s))
    ∧ ∀ (p : SessionPool) (es : List Event) (B : Finset ℕ), p.Ordered →
      EachStep (step a) (BestAre B) p es → es.countP Event.isCall = B.card → p.Fits a B.card →
        ∀ key, (p.choices a es).count key = if key ∈ B then 1 else 0 :=
  ⟨fun _ ok h hfits => getStream_spec h hfits ok,
    fun _ _ _ h hbest hcalls hfits => count_choices h hbest hcalls hfits⟩

/-- Three sessions: one is closed, and the other two have one stream each. -/
def threeSessions : SessionPool where
  sessions := [⟨0, false, 1⟩, ⟨1, true, 0⟩, ⟨2, false, 1⟩]
  index := 0
  maxStreams := 2
  qualityFunc := none
  created := 3

/-- Two calls, with the stream of the first one ended before the second. -/
def twoCalls : List Event := [.getStream true, .change Session.closed fun _ => 1, .getStream true]

theorem scored_of_le (hquality : p.qualityFunc = none) (h : ∀ s ∈ p.sessions, s.numStreams ≤ 1000) :
    p.Scored := by
  intro idx s hs _
  have hle := h s (List.mem_of_getElem? hs)
  unfold score
  rw [hquality]
  dsimp only
  omega

theorem bestAre_candidates (h : p.Scored) (hB : (p.candidates.map Session.key).toFinset = B)
    (e : Event) : BestAre B p e := by
  refine fun _ => ⟨h, ?_⟩
  intro key
  rw [← hB, List.mem_toFinset, List.mem_map]
  simp only [mem_candidates_iff h]

/-- A stream is placed on a best session, and the two open sessions are chosen once each. -/
theorem threeSessions_take_turns :
    threeSessions.Scored ∧ threeSessions.Fits .bits32 2
      ∧ (∃ s, (threeSessions.getStream .bits32 true).1 = .ok s ∧ threeSessions.Best s)
      ∧ threeSessions.Ordered ∧ EachStep (step .bits32) (BestAre {0, 2}) threeSessions twoCalls
      ∧ ∀ key, (threeSessions.choices .bits32 twoCalls).count key
        = if key ∈ ({0, 2} : Finset ℕ) then 1 else 0 := by
  have hscored : threeSessions.Scored := scored_of_le rfl (by decide)
  have hordered : threeSessions.Ordered := ⟨by decide, by decide⟩
  have hbest : EachStep (step .bits32) (BestAre {0, 2}) threeSessions twoCalls := by
    refine ⟨?_, nofun, ?_, trivial⟩
    · exact bestAre_candidates hscored (by decide) _
    · exact bestAre_candidates (scored_of_le rfl (by decide)) (by decide) _
  have hfits : threeSessions.Fits .bits32 2 := ⟨by decide, by decide⟩
  have hplaces := getStream_places_in_turn .bits32
  exact ⟨hscored, hfits, (hplaces.1 _ true hscored ⟨by decide, by decide⟩).2 (by decide), hordered,
    hbest, hplaces.2 _ _ _ hordered hbest rfl hfits⟩

/-- Without a limit a stream is opened where no session has fewer streams than `MaxStreams`.  After
2147483647 calls on a 32-bit machine the index is negative. -/
theorem unlimited_opens_overflow_panics :
    let p : SessionPool := ⟨[⟨0, false, 0⟩], 0, 0, none, 1⟩
    let q : SessionPool := ⟨[⟨0, false, 1⟩, ⟨1, false, 1⟩, ⟨2, false, 1⟩], 2147483647, 2, none, 3⟩
    (¬ ∃ s ∈ p.sessions, s.closed = false ∧ (s.numStreams : Int) < p.maxStreams)
      ∧ (p.getStream .bits64 true).1 = .ok ⟨0, false, 0⟩
      ∧ (q.getStream .bits32 true).1 = .error .panic := by
  decide

end SessionPool
