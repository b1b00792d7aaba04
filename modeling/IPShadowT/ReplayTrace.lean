/-
# What a rejected hello leaves behind

`verifyClientHello` asks the replay store of `IPShadowT.RealityServer` about a session id before it
verifies the token in it, and asking enters it.  So whoever sends a hello that can be parsed, with
a session id of their own making, has an entry in the store, and the store is not bounded by the
number of hellos that were accepted.

`traceless_iff` says in which runs rejected hellos leave no trace.
-/
import IPShadowT.RealityServer

open Bytes Runs

namespace Reality

/-! ## One call of `Check` -/

/-- The store is the same as before, up to the removal of entries that have expired by `now`. -/
structure ReplayProtection.SameUpToExpiry (now : Int) (before after : ReplayProtection) : Prop where
  sublist : after.seen.Sublist before.seen
  expired : ∀ kt ∈ before.seen, kt ∉ after.seen → kt.2 < now - before.window
  window : after.window = before.window
  maxSize : after.maxSize = before.maxSize

/-- The entry that `Check` makes is removed by the cleanup of the same call. -/
def ReplayProtection.DropsAtOnce (rp : ReplayProtection) (clock : Clock) : Prop :=
  rp.maxSize ≤ rp.seen.length ∧ clock.entered < clock.cleaned - rp.window

instance (rp : ReplayProtection) (clock : Clock) : Decidable (rp.DropsAtOnce clock) :=
  inferInstanceAs (Decidable (_ ∧ _))

namespace ReplayProtection

theorem sameUpToExpiry_refl (now : Int) (rp : ReplayProtection) : SameUpToExpiry now rp rp :=
  ⟨List.Sublist.refl _, fun _ hmem hnot => absurd hmem hnot, rfl, rfl⟩

/-- A call of `Check` adds at most its own entry. -/
theorem check_sublist (rp : ReplayProtection) (key : Bytes) (clock : Clock) :
    (rp.check key clock).2.seen.Sublist ((key, clock.entered) :: rp.seen) := by
  unfold check
  split_ifs
  · exact List.sublist_cons_self _ _
  · dsimp only
    split_ifs
    · exact List.filter_sublist
    · exact List.Sublist.refl _

theorem check_window_maxSize (rp : ReplayProtection) (key : Bytes) (clock : Clock) :
    (rp.check key clock).2.window = rp.window ∧ (rp.check key clock).2.maxSize = rp.maxSize := by
  unfold check
  split_ifs
  · exact ⟨rfl, rfl⟩
  · dsimp only
    split_ifs <;> exact ⟨rfl, rfl⟩

/-- The new entry is in the store after the call, unless the cleanup has removed it. -/
theorem entry_mem_check_iff {rp : ReplayProtection} {key : Bytes} (h : ¬ rp.Seen key)
    (clock : Clock) :
    (key, clock.entered) ∈ (rp.check key clock).2.seen ↔ ¬ rp.DropsAtOnce clock := by
  rw [mem_seen_check h, DropsAtOnce, not_and]
  exact and_iff_right List.mem_cons_self

/-- **A call of `Check` leaves no trace** exactly if it knows the key or drops it at once. -/
theorem sameUpToExpiry_check_iff (rp : ReplayProtection) (key : Bytes) (clock : Clock) :
    SameUpToExpiry clock.cleaned rp (rp.check key clock).2
      ↔ rp.Seen key ∨ rp.DropsAtOnce clock := by
  by_cases hseen : rp.Seen key
  · rw [check_of_seen hseen]
    exact iff_of_true (sameUpToExpiry_refl _ rp) (.inl hseen)
  · have hdrops : rp.DropsAtOnce clock ↔ (key, clock.entered) ∉ (rp.check key clock).2.seen := by
      rw [entry_mem_check_iff hseen, not_not]
    rw [or_iff_right hseen, hdrops]
    constructor
    · intro hsame hmem
      exact hseen (List.mem_map_of_mem (hsame.sublist.subset hmem))
    · intro hnot
      obtain ⟨hwindow, hmaxSize⟩ := check_window_maxSize rp key clock
      refine ⟨?_, ?_, hwindow, hmaxSize⟩
      · obtain hsub | ⟨rest, heq, -⟩ := List.sublist_cons_iff.1 (check_sublist rp key clock)
        · exact hsub
        · exact absurd (heq ▸ List.mem_cons_self) hnot
      · intro kt hmem hgone
        rw [mem_seen_check hseen, not_and] at hgone
        have hdropped := hgone (List.mem_cons_of_mem _ hmem)
        rw [Classical.not_imp, not_not] at hdropped
        exact hdropped.2

end ReplayProtection

/-! ## Runs -/

namespace Listener

/-- `verifyClientHello` rejects the hello. -/
def Rejects (C : Crypto) (s : Listener) (h : Hello) : Prop :=
  (s.server.verifyClientHello C h.rawData h.clock).1 ≠ .ok true

/-- If the hello is rejected, the store is the same after it as before, up to expiry. -/
def LeavesNoTrace (C : Crypto) (s : Listener) (h : Hello) : Prop :=
  Rejects C s h →
    ReplayProtection.SameUpToExpiry h.clock.cleaned s.server.replay (s.step C h).server.replay

/-- If the hello is rejected, it could not be parsed, or its session id is in the store, or its
entry is removed by the cleanup that comes with it. -/
def Traceless (C : Crypto) (s : Listener) (h : Hello) : Prop :=
  Rejects C s h → ∀ sessionID ephPub, parseClientHelloAuth h.rawData = .ok (sessionID, ephPub) →
    s.server.replay.Seen sessionID ∨ s.server.replay.DropsAtOnce h.clock

/-- One hello, and any store. -/
theorem leavesNoTrace_iff (C : Crypto) (s : Listener) (h : Hello) :
    LeavesNoTrace C s h ↔ Traceless C s h := by
  refine imp_congr_right fun _ => ?_
  by_cases hparse : ∃ sessionID ephPub, parseClientHelloAuth h.rawData = .ok (sessionID, ephPub)
  · obtain ⟨sessionID, ephPub, hparse⟩ := hparse
    rw [step_replay hparse, ReplayProtection.sameUpToExpiry_check_iff]
    constructor
    · intro hcheck sid eph hparse'
      obtain ⟨rfl, rfl⟩ := Go.ok_pair_unique hparse hparse'
      exact hcheck
    · exact fun hall => hall sessionID ephPub hparse
  · push Not at hparse
    rw [step_of_not_parsed hparse]
    exact iff_of_true (ReplayProtection.sameUpToExpiry_refl _ _)
      fun sid eph hparse' => absurd hparse' (hparse sid eph)

/-- Counted from a store with `n` entries, there are no more entries than accepted hellos. -/
def SizeAtMostAccepted (n : ℕ) (s : Listener) : Prop :=
  s.server.replay.seen.length ≤ n + s.accepted.length

instance (n : ℕ) : DecidablePred (SizeAtMostAccepted n) :=
  fun _ => inferInstanceAs (Decidable (_ ≤ _))

theorem sizeAtMostAccepted_step {C : Crypto} {n : ℕ} {s : Listener} {h : Hello}
    (hs : s.SizeAtMostAccepted n) (hnone : LeavesNoTrace C s h) :
    (s.step C h).SizeAtMostAccepted n := by
  unfold SizeAtMostAccepted at hs ⊢
  rcases step_cases C s h with ⟨sessionID, ephPub, hparse, -, -, -, hacc⟩ | ⟨hrejects, hacc⟩
  · -- one more entry, and one more accepted hello
    have hlen := (ReplayProtection.check_sublist s.server.replay sessionID h.clock).length_le
    rw [step_replay hparse, hacc]
    rw [List.length_cons] at hlen ⊢
    omega
  · rw [hacc]
    exact (hnone hrejects).sublist.length_le.trans hs

/-- **Which runs have rejected hellos that leave no trace**, from any store on, and hence a store
that has no more new entries than hellos were accepted: those in which every rejected hello could
not be parsed, or has a session id that is in the store, or is dropped at once. -/
theorem traceless_iff (C : Crypto) (server : RealityServer) (hellos : List Hello) :
    (EachStep (step C) (LeavesNoTrace C) (.start server) hellos
      ∧ Always (step C) (SizeAtMostAccepted server.replay.seen.length) (.start server) hellos)
      ↔ EachStep (step C) (Traceless C) (.start server) hellos := by
  have hsame : LeavesNoTrace C = Traceless C := by
    funext s h
    exact propext (leavesNoTrace_iff C s h)
  rw [← hsame, and_iff_left_iff_imp]
  have hstart : (start server).SizeAtMostAccepted server.replay.seen.length :=
    Nat.le_add_right _ _
  exact Always.of_eachStep (fun _ _ hs hnone => sizeAtMostAccepted_step hs hnone) hstart

/-- A hello without a token, with a session id of zeros and a key share of zeros, is rejected by a
new server, which has accepted nothing and has an entry in its store. -/
theorem probe_leaves_trace :
    let s := start Sample.replayedServer
    let h : Hello := ⟨Sample.helloRecord (List.replicate 32 0) (List.replicate 32 0), ⟨5, 6, 7⟩⟩
    (s.server.verifyClientHello Sample.tableCrypto h.rawData h.clock).1 = .ok false
      ∧ s.server.replay.seen = []
      ∧ (s.step Sample.tableCrypto h).server.replay.seen = [(List.replicate 32 0, 5)]
      ∧ (s.step Sample.tableCrypto h).accepted = []
      ∧ ¬ LeavesNoTrace Sample.tableCrypto s h
      ∧ ¬ (s.step Sample.tableCrypto h).SizeAtMostAccepted 0 := by
  intro s h
  have hrejects : (s.server.verifyClientHello Sample.tableCrypto h.rawData h.clock).1
      = .ok false := by
    decide +kernel
  have hseen : (s.step Sample.tableCrypto h).server.replay.seen
      = [(List.replicate 32 0, 5)] := by
    decide +kernel
  refine ⟨hrejects, rfl, hseen, by decide +kernel, ?_, by decide +kernel⟩
  intro hnone
  have hsub := (hnone (by rw [Rejects, hrejects]; exact nofun)).sublist
  rw [hseen] at hsub
  exact absurd hsub.length_le (by decide)

end Listener

end Reality
