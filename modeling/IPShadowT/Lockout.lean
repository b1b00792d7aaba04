/-
# Lockouts and their expiry

Runs of the brute-force protection of `internal/security/security.go`.  `RecordFailedLogin`
blocks "after 5 failures within 5 minutes", and `CleanupExpiredBlocks` takes an address off
the blacklist "if it was auto-added"; the manager keeps a count and one time for each key,
and one blacklist for both kinds of blocks.

`lockout_iff` compares a call with a window of five minutes, and `blocks_persist_iff` says when the
blocks of the administrator stay.  Times are in nanoseconds.
-/
import IPShadowT.Runs
import IPShadowT.Security

open Runs

namespace Security

/-! ## Five failures -/

/-- A call of `RecordFailedLogin` or of `ResetFailedLogins`. -/
inductive LoginCall where
  | recordFailedLogin (now : Int) (ip : Bytes)
  | resetFailedLogins (ip : Bytes)
  deriving DecidableEq, Repr

namespace LoginCall

def step (m : Manager) : LoginCall → Manager
  | recordFailedLogin now ip => (m.recordFailedLogin now ip).2
  | resetFailedLogins ip => m.resetFailedLogins ip

/-- The time of a failure. -/
def time : LoginCall → Option Int
  | recordFailedLogin now _ => some now
  | resetFailedLogins _ => none

/-- The failures of a key since its last reset, the latest first, after one more call. -/
def track (ip : Bytes) (failures : List Int) : LoginCall → List Int
  | recordFailedLogin now key => if key = ip then now :: failures else failures
  | resetFailedLogins key => if key = ip then [] else failures

end LoginCall

/-- The times of the failures of a key since its last reset, the latest first. -/
def failures (ip : Bytes) (calls : List LoginCall) : List Int :=
  run (LoginCall.track ip) [] calls

/-- Five minutes. -/
def lockoutWindow : Int := 5 * 60 * 1000000000

/-- The five most recent of these failures lie within five minutes. -/
def WithinWindow (times : List Int) : Prop :=
  5 ≤ times.length ∧ ∀ t ∈ times.take 5, ∀ t' ∈ times.take 5, t - t' ≤ lockoutWindow

instance (times : List Int) : Decidable (WithinWindow times) :=
  inferInstanceAs (Decidable (_ ∧ _))

namespace Manager

/-! The counter of a key after each operation. -/

theorem attempts_resetFailedLogins (m : Manager) (ip key : Bytes) :
    (m.resetFailedLogins key).attempts ip = if key = ip then ⟨0, 0⟩ else m.attempts ip := by
  unfold resetFailedLogins attempts
  rw [List.find?_filter]
  by_cases h : key = ip
  · rw [if_pos h, List.find?_eq_none.2]
    · rfl
    · intro entry _
      simp [h]
  · rw [if_neg h]
    congr 3
    funext entry
    by_cases hentry : entry.1 = ip
    · simp [hentry, Ne.symm h]
    · simp [hentry]

theorem attempts_cons_filter (m : Manager) (ip key : Bytes) (a : LoginAttempts) :
    ({ m with failedLogins := (key, a) :: m.failedLogins.filter (·.1 ≠ key) } : Manager).attempts
      ip = if key = ip then a else m.attempts ip := by
  by_cases h : key = ip
  · simp [attempts, h]
  · rw [attempts, List.find?_cons_of_neg (by simpa using h), if_neg h]
    exact (m.attempts_resetFailedLogins ip key).trans (if_neg h)

/-- What `RecordFailedLogin` decides and does. -/
theorem recordFailedLogin_cases (m : Manager) (now : Int) (ip : Bytes) :
    let r := m.recordFailedLogin now ip
    let a : LoginAttempts := ⟨(m.attempts ip).count + 1, now⟩
    r.2.failedLogins = (ip, a) :: m.failedLogins.filter (·.1 ≠ ip) ∧
      ((r.1 = true ∧ 5 ≤ a.count ∧ r.2.ipBlacklist = m.ipBlacklist.insert ip) ∨
        (r.1 = false ∧ a.count < 5 ∧ r.2.ipBlacklist = m.ipBlacklist)) := by
  intro r a
  by_cases h : 5 ≤ (m.attempts ip).count + 1
  · have hr : r = (true, _) := if_pos h
    rw [hr]
    exact ⟨rfl, .inl ⟨rfl, h, rfl⟩⟩
  · have hr : r = (false, _) := if_neg h
    rw [hr]
    exact ⟨rfl, .inr ⟨rfl, Nat.not_le.1 h, rfl⟩⟩

theorem attempts_recordFailedLogin (m : Manager) (now : Int) (ip key : Bytes) :
    ((m.recordFailedLogin now key).2.attempts ip)
      = if key = ip then ⟨(m.attempts key).count + 1, now⟩ else m.attempts ip := by
  have hlogins := (m.recordFailedLogin_cases now key).1
  rw [← attempts_cons_filter, attempts, hlogins]
  rfl

end Manager

/-- The count of a key is the number of its failures since the last reset. -/
theorem count_run (ip : Bytes) (calls : List LoginCall) :
    ((run LoginCall.step newManager calls).attempts ip).count = (failures ip calls).length := by
  refine run_simulation
    (R := fun m ts => (Manager.attempts m ip).count = List.length ts) ?_ rfl calls
  intro m ts call h
  cases call with
  | recordFailedLogin now key =>
    simp only [LoginCall.step, LoginCall.track, Manager.attempts_recordFailedLogin]
    by_cases hkey : key = ip
    · rw [if_pos hkey, if_pos hkey, hkey, List.length_cons, h]
    · rw [if_neg hkey, if_neg hkey, h]
  | resetFailedLogins key =>
    simp only [LoginCall.step, LoginCall.track, Manager.attempts_resetFailedLogins]
    by_cases hkey : key = ip
    · rw [if_pos hkey, if_pos hkey]
      rfl
    · rw [if_neg hkey, if_neg hkey, h]

/-- The failures of a key are among the failures of the run, in their order. -/
theorem failures_reverse_sublist (ip : Bytes) (calls : List LoginCall) :
    (failures ip calls).reverse.Sublist (calls.filterMap LoginCall.time) := by
  suffices h : ∀ ts, (run (LoginCall.track ip) ts calls).reverse.Sublist
      (ts.reverse ++ calls.filterMap LoginCall.time) from h []
  induction calls with
  | nil =>
    intro ts
    simp
  | cons call calls ih =>
    intro ts
    refine (ih _).trans ?_
    cases call with
    | recordFailedLogin now key =>
      have htime : (LoginCall.recordFailedLogin now key).time = some now := rfl
      rw [LoginCall.track, List.filterMap_cons_some htime]
      split_ifs
      · simp
      · simp
    | resetFailedLogins key =>
      have htime : (LoginCall.resetFailedLogins key).time = none := rfl
      rw [LoginCall.track, List.filterMap_cons_none htime]
      split_ifs
      · exact List.sublist_append_right _ _
      · exact List.Sublist.refl _

/-- Calls in the order of their times give failures in that order. -/
theorem failures_sorted {ip : Bytes} {calls : List LoginCall} {now : Int}
    (hsorted : (calls.filterMap LoginCall.time ++ [now]).Pairwise (· ≤ ·)) :
    (now :: failures ip calls).Pairwise (· ≥ ·) := by
  have hsub := (failures_reverse_sublist ip calls).append (List.Sublist.refl [now])
  rw [← List.reverse_cons] at hsub
  exact List.pairwise_reverse.1 (hsorted.sublist hsub)

/-- **What `RecordFailedLogin` looks at**: the number of failures, and not their times. -/
theorem recordFailedLogin_iff (calls : List LoginCall) (now : Int) (ip : Bytes) :
    ((run LoginCall.step newManager calls).recordFailedLogin now ip).1 = true ↔
      5 ≤ (now :: failures ip calls).length := by
  rw [List.length_cons, ← count_run]
  rcases ((run LoginCall.step newManager calls).recordFailedLogin_cases now ip).2 with
    ⟨htrue, hle, -⟩ | ⟨hfalse, hlt, -⟩
  · exact iff_of_true htrue hle
  · exact iff_of_false (fun h => Bool.false_ne_true (hfalse.symm.trans h)) (Nat.not_le.2 hlt)

/-- Of failures in order, the latest and the fifth decide. -/
theorem withinWindow_iff {now : Int} {earlier : List Int}
    (hsorted : (now :: earlier).Pairwise (· ≥ ·)) :
    WithinWindow (now :: earlier) ↔
      ∃ t, (now :: earlier)[4]? = some t ∧ now - t ≤ lockoutWindow := by
  constructor
  · rintro ⟨hlen, hwithin⟩
    have hfour : 4 < (now :: earlier).length := hlen
    refine ⟨(now :: earlier)[4], List.getElem?_eq_getElem hfour, ?_⟩
    refine hwithin now List.mem_cons_self _ (List.mem_iff_getElem.2 ⟨4, ?_, List.getElem_take⟩)
    rw [List.length_take]
    omega
  · rintro ⟨fifth, hfifth, hle⟩
    obtain ⟨hfour, rfl⟩ := List.getElem?_eq_some_iff.1 hfifth
    refine ⟨hfour, fun t ht t' ht' => ?_⟩
    have htop : t ≤ now := by
      rcases List.mem_cons.1 (List.mem_of_mem_take ht) with rfl | hmem
      · exact le_rfl
      · exact (List.pairwise_cons.1 hsorted).1 t hmem
    have hbottom : (now :: earlier)[4] ≤ t' := by
      obtain ⟨i, hi, rfl⟩ := List.mem_iff_getElem.1 ht'
      rw [List.length_take] at hi
      rw [List.getElem_take]
      rcases Nat.lt_or_ge i 4 with hlt | hge
      · exact List.pairwise_iff_getElem.1 hsorted i 4 _ _ hlt
      · obtain rfl : i = 4 := by omega
        exact le_rfl
    omega

/-- **When a lockout is one of five minutes.**  After any calls, for this key and for others, in
the order of their times: `RecordFailedLogin` blacklists the key if it returns true and no key
otherwise.  It returns true exactly for five failures within five minutes, if the fifth most
recent failure, where there is one, is not older than that; and not if it is. -/
theorem lockout_iff (calls : List LoginCall) (now : Int) (ip : Bytes)
    (hsorted : (calls.filterMap LoginCall.time ++ [now]).Pairwise (· ≤ ·)) :
    let m := run LoginCall.step newManager calls
    let r := m.recordFailedLogin now ip
    let times := now :: failures ip calls
    r.2.ipBlacklist = (if r.1 then m.ipBlacklist.insert ip else m.ipBlacklist) ∧
      ((r.1 = true ↔ WithinWindow times) ↔ ∀ t, times[4]? = some t → now - t ≤ lockoutWindow) := by
  intro m r times
  refine ⟨?_, ?_⟩
  · rcases (m.recordFailedLogin_cases now ip).2 with ⟨htrue, -, hlist⟩ | ⟨hfalse, -, hlist⟩
    · rw [htrue, if_pos rfl, hlist]
    · rw [hfalse, if_neg Bool.false_ne_true, hlist]
  · rw [recordFailedLogin_iff calls now ip, withinWindow_iff (failures_sorted hsorted)]
    constructor
    · intro hiff t ht
      obtain ⟨hfour, -⟩ := List.getElem?_eq_some_iff.1 ht
      obtain ⟨t', ht', hle⟩ := hiff.1 hfour
      rwa [Option.some.inj (ht.symm.trans ht')]
    · intro hfifth
      constructor
      · intro hlen
        exact ⟨_, List.getElem?_eq_getElem hlen, hfifth _ (List.getElem?_eq_getElem hlen)⟩
      · rintro ⟨t, ht, -⟩
        exact (List.getElem?_eq_some_iff.1 ht).1

/-- Four failures, these many nanoseconds apart. -/
def fourFailures (gap : Int) : List LoginCall :=
  [.recordFailedLogin 0 [49], .recordFailedLogin gap [49],
    .recordFailedLogin (2 * gap) [49], .recordFailedLogin (3 * gap) [49]]

/-- With a second between them, a fifth one locks the key out. -/
theorem lockout_fast :
    ((run LoginCall.step newManager (fourFailures 1000000000)).recordFailedLogin 4000000000
      [49]).1 = true := by
  have hsorted : ((fourFailures 1000000000).filterMap LoginCall.time ++ [4000000000]).Pairwise
      (· ≤ ·) := by decide
  have hfifth := (lockout_iff (fourFailures 1000000000) 4000000000 [49] hsorted).2.2 (by decide)
  exact hfifth.2 (by decide)

/-- **Slow failures lock out too**: the fifth of five failures that are ten minutes apart. -/
theorem slow_failures_lock_out :
    let calls := fourFailures 600000000000
    (calls.filterMap LoginCall.time ++ [2400000000000]).Pairwise (· ≤ ·) ∧
      ((run LoginCall.step newManager calls).recordFailedLogin 2400000000000 [49]).1 = true ∧
      ¬ WithinWindow (2400000000000 :: failures [49] calls) := by
  decide

/-! ## Blocks of the administrator -/

/-- A manager, with the keys that the administrator has blocked and those that
`RecordFailedLogin` has blocked. -/
structure Blocks where
  manager : Manager
  byAdmin : List Bytes
  byFailures : List Bytes
  deriving DecidableEq, Repr

/-- A call of `AddToBlacklist` by the administrator, of `RecordFailedLogin` or
`ResetFailedLogins`, or of `CleanupExpiredBlocks`. -/
inductive BlockCall where
  | addToBlacklist (ip : Bytes)
  | login (call : LoginCall)
  | cleanupExpiredBlocks (now : Int)
  deriving DecidableEq, Repr

namespace Blocks

/-- The key that a call of `RecordFailedLogin` blocks. -/
def blocked (m : Manager) : LoginCall → Option Bytes
  | .recordFailedLogin now ip => if (m.recordFailedLogin now ip).1 then some ip else none
  | .resetFailedLogins _ => none

def step (s : Blocks) : BlockCall → Blocks
  | .addToBlacklist ip =>
    { s with manager := s.manager.addToBlacklist ip, byAdmin := ip :: s.byAdmin }
  | .login call =>
    { s with
      manager := call.step s.manager
      byFailures := (blocked s.manager call).toList ++ s.byFailures }
  | .cleanupExpiredBlocks now => { s with manager := s.manager.cleanupExpiredBlocks now }

/-- A new manager. -/
def start : Blocks := ⟨newManager, [], []⟩

/-- What the administrator has blocked is on the blacklist. -/
def Persist (s : Blocks) : Prop := ∀ ip ∈ s.byAdmin, ip ∈ s.manager.ipBlacklist

/-- A key that this call takes off the blacklist was blocked by `RecordFailedLogin`, and not by
the administrator. -/
def RemovesOwn (s : Blocks) (call : BlockCall) : Prop :=
  ∀ ip ∈ s.manager.ipBlacklist, ip ∉ (s.step call).manager.ipBlacklist →
    ip ∈ s.byFailures ∧ ip ∉ s.byAdmin

/-- A clean-up does not find an expired failure of a key that the administrator has blocked. -/
def Spares (s : Blocks) : BlockCall → Prop
  | .cleanupExpiredBlocks now =>
    ∀ entry ∈ s.manager.failedLogins, Manager.Expired now entry → entry.1 ∉ s.byAdmin
  | .addToBlacklist _ | .login _ => True

/-- Every block has been made by the administrator or by `RecordFailedLogin`. -/
def Accounted (s : Blocks) : Prop :=
  ∀ ip ∈ s.manager.ipBlacklist, ip ∈ s.byAdmin ∨ ip ∈ s.byFailures

end Blocks

/-- What a failure or a reset does to the blacklist. -/
theorem mem_blacklist_login (m : Manager) (call : LoginCall) (ip : Bytes) :
    ip ∈ (call.step m).ipBlacklist ↔ ip ∈ Blocks.blocked m call ∨ ip ∈ m.ipBlacklist := by
  cases call with
  | resetFailedLogins key => simp [LoginCall.step, Blocks.blocked, Manager.resetFailedLogins]
  | recordFailedLogin now key =>
    rw [LoginCall.step, Blocks.blocked]
    rcases (m.recordFailedLogin_cases now key).2 with ⟨htrue, -, hlist⟩ | ⟨hfalse, -, hlist⟩
    · rw [htrue, hlist, if_pos rfl, List.mem_insert_iff, Option.mem_some_iff, eq_comm]
    · rw [hfalse, hlist, if_neg Bool.false_ne_true]
      simp

theorem mem_blacklist_cleanup (m : Manager) (now : Int) (ip : Bytes) :
    ip ∈ (m.cleanupExpiredBlocks now).ipBlacklist ↔
      ip ∈ m.ipBlacklist ∧ ∀ entry ∈ m.failedLogins, Manager.Expired now entry → entry.1 ≠ ip := by
  rw [Manager.cleanupExpiredBlocks, List.mem_filter]
  refine and_congr_right fun _ => ?_
  rw [decide_eq_true_iff]
  constructor
  · intro hnone entry hentry hexpired heq
    exact hnone ⟨entry, hentry, heq, hexpired⟩
  · rintro hall ⟨entry, hentry, heq, hexpired⟩
    exact hall entry hentry hexpired heq

namespace Blocks

theorem accounted_step (s : Blocks) (call : BlockCall) (h : s.Accounted) :
    (s.step call).Accounted := by
  intro ip hip
  cases call with
  | addToBlacklist key =>
    rcases List.mem_insert_iff.1 hip with rfl | hold
    · exact .inl List.mem_cons_self
    · exact (h ip hold).imp (List.mem_cons_of_mem _) id
  | login call =>
    rcases (mem_blacklist_login s.manager call ip).1 hip with hnew | hold
    · exact .inr (List.mem_append_left _ (Option.mem_toList.2 hnew))
    · exact (h ip hold).imp id (List.mem_append_right _)
  | cleanupExpiredBlocks now => exact h ip ((mem_blacklist_cleanup s.manager now ip).1 hip).1

/-- Only a clean-up can break a block of the administrator. -/
theorem persist_step_iff (s : Blocks) (call : BlockCall) (h : s.Persist) :
    (s.step call).Persist ↔ s.Spares call := by
  cases call with
  | addToBlacklist key =>
    refine iff_of_true (fun ip hip => ?_) trivial
    refine List.mem_insert_iff.2 ?_
    rcases List.mem_cons.1 hip with rfl | hold
    · exact .inl rfl
    · exact .inr (h ip hold)
  | login call =>
    refine iff_of_true (fun ip hip => ?_) trivial
    exact (mem_blacklist_login s.manager call ip).2 (.inr (h ip hip))
  | cleanupExpiredBlocks now =>
    constructor
    · intro hnext entry hentry hexpired hadmin
      have hmem := (mem_blacklist_cleanup s.manager now entry.1).1 (hnext entry.1 hadmin)
      exact hmem.2 entry hentry hexpired rfl
    · intro hspares ip hip
      refine (mem_blacklist_cleanup s.manager now ip).2 ⟨h ip hip, ?_⟩
      rintro entry hentry hexpired rfl
      exact hspares entry hentry hexpired hip

/-- A block that goes away was not one of the administrator, if theirs stay. -/
theorem removesOwn_of_persist (s : Blocks) (call : BlockCall) (hacc : s.Accounted)
    (hnext : (s.step call).Persist) : s.RemovesOwn call := by
  intro ip hip hgone
  have hadmin : ip ∉ s.byAdmin := by
    intro hmem
    refine hgone (hnext ip ?_)
    cases call with
    | addToBlacklist key => exact List.mem_cons_of_mem _ hmem
    | login call => exact hmem
    | cleanupExpiredBlocks now => exact hmem
  exact ⟨(hacc ip hip).resolve_left hadmin, hadmin⟩

end Blocks

/-- **When blocks of the administrator persist.**  Along any run, at any times, what the
administrator has blocked stays on the blacklist, and clean-up takes off only what
`RecordFailedLogin` has put there, exactly if no clean-up comes when a key that the
administrator has blocked has a failed login older than 30 minutes. -/
theorem blocks_persist_iff (calls : List BlockCall) :
    (Always Blocks.step Blocks.Persist Blocks.start calls ∧
        EachStep Blocks.step Blocks.RemovesOwn Blocks.start calls) ↔
      EachStep Blocks.step Blocks.Spares Blocks.start calls := by
  have hstart : Blocks.start.Persist := fun ip hip => by cases hip
  have hacc : Blocks.start.Accounted := fun ip hip => by cases hip
  constructor
  · rintro ⟨halways, -⟩
    exact (always_iff_eachStep Blocks.persist_step_iff hstart calls).1 halways
  · intro hspares
    have haccs : Always Blocks.step (fun s => s.Accounted ∧ s.Persist) Blocks.start calls :=
      Always.of_eachStep (fun s call h hok => ⟨Blocks.accounted_step s call h.1,
        (Blocks.persist_step_iff s call h.2).2 hok⟩) ⟨hacc, hstart⟩ hspares
    refine ⟨haccs.mono fun _ h => h.2, EachStep.of_always (fun s call h hok => ?_) haccs hspares⟩
    exact Blocks.removesOwn_of_persist s call h.1 ((Blocks.persist_step_iff s call h.2).2 hok)

/-- The administrator blocks a key that has failed once, and 31 minutes later there is a
clean-up. -/
def blockThenCleanup : List BlockCall :=
  [.login (.recordFailedLogin 0 [49]), .addToBlacklist [49], .cleanupExpiredBlocks 1860000000000]

/-- **Clean-up takes the block away**, though no lockout ever happened. -/
theorem cleanup_removes_admin_block :
    (run Blocks.step Blocks.start blockThenCleanup).byAdmin = [[49]] ∧
      (run Blocks.step Blocks.start blockThenCleanup).byFailures = [] ∧
      (run Blocks.step Blocks.start blockThenCleanup).manager.ipBlacklist = [] := by
  decide

end Security
