/-
# The best elements of a list, in one pass

A loop that looks for the elements with the highest score keeps the best score so far and the
elements that have it, and starts its list again at every better score.  `kept_foldl` is the
invariant of that loop, for any list and any score.

A loop that keeps a single element, and only gives it up for a better one, ends with the first of
the best: `keepFirst_eq_some_iff`.
-/
import Mathlib.Data.List.Induction
import Mathlib.Order.Lattice

namespace KeepBest

variable {α : Type*} (score : α → Int)

/-- Keep the best score so far, and what has it. -/
def keepBest (acc : Int × List α) (a : α) : Int × List α :=
  if score a > acc.1 then (score a, [a])
  else if score a = acc.1 then (acc.1, acc.2 ++ [a])
  else acc

/-- What the pass knows after the elements of `l`: the best score is a bound of their scores, which
is attained or was there from the start, and what is kept is what attains it, in order. -/
structure Kept (init : Int) (l : List α) (acc : Int × List α) : Prop where
  list : acc.2 = l.filter fun a => score a = acc.1
  init_le : init ≤ acc.1
  le : ∀ a ∈ l, score a ≤ acc.1
  attained : acc.1 = init ∨ ∃ a ∈ l, score a = acc.1

variable {score}

/-- One more element. -/
theorem Kept.keepBest {init : Int} {l : List α} {acc : Int × List α} (h : Kept score init l acc)
    (b : α) : Kept score init (l ++ [b]) (keepBest score acc b) := by
  have hlast : b ∈ l ++ [b] := List.mem_append_right l List.mem_cons_self
  unfold KeepBest.keepBest
  split_ifs with hgt heq
  · -- all that was kept is worse
    have hnone : l.filter (fun a => score a = score b) = [] := by
      rw [List.filter_eq_nil_iff]
      intro a ha hsame
      have hle := h.le a ha
      have hsame := of_decide_eq_true hsame
      omega
    refine ⟨?_, ?_, ?_, Or.inr ⟨b, hlast, rfl⟩⟩
    · rw [List.filter_append, hnone]
      simp
    · exact Int.le_trans h.init_le (Int.le_of_lt hgt)
    · exact List.forall_mem_append.2 ⟨fun a ha => Int.le_trans (h.le a ha) (Int.le_of_lt hgt),
        List.forall_mem_singleton.2 (Int.le_refl _)⟩
  · refine ⟨?_, h.init_le, ?_, Or.inr ⟨b, hlast, heq⟩⟩
    · rw [List.filter_append, ← h.list]
      simp [heq]
    · exact List.forall_mem_append.2 ⟨h.le, List.forall_mem_singleton.2 (Int.le_of_eq heq)⟩
  · refine ⟨?_, h.init_le, ?_, ?_⟩
    · rw [List.filter_append, ← h.list]
      simp [heq]
    · exact List.forall_mem_append.2 ⟨h.le, List.forall_mem_singleton.2 (Int.not_lt.1 hgt)⟩
    · obtain hinit | ⟨a, ha, hscore⟩ := h.attained
      · exact Or.inl hinit
      · exact Or.inr ⟨a, List.mem_append_left _ ha, hscore⟩

/-- **The pass keeps the best.** -/
theorem kept_foldl (init : Int) (l : List α) :
    Kept score init l (l.foldl (keepBest score) (init, [])) := by
  induction l using List.reverseRecOn with
  | nil => exact ⟨rfl, Int.le_refl init, nofun, Or.inl rfl⟩
  | append_singleton l b ih =>
    rw [List.foldl_append]
    exact ih.keepBest b

/-! ## The first of the best -/

section First

variable {S : Type*} [LinearOrder S] (f : α → S)

/-- Keep the best score so far, and the first that had it. -/
def keepFirst (acc : S × Option α) (a : α) : S × Option α :=
  if acc.1 < f a then (f a, some a) else acc

/-- The element is in the list at a place where all before it are worse and none behind it is
better. -/
def FirstBest (l : List α) (x : α) : Prop :=
  ∃ before after, l = before ++ x :: after ∧ (∀ u ∈ before, f u < f x) ∧ ∀ u ∈ after, f u ≤ f x

/-- What the pass knows after the elements of `l`. -/
structure KeptFirst (init : S) (l : List α) (acc : S × Option α) : Prop where
  le : ∀ u ∈ l, f u ≤ acc.1
  best : acc = (init, none) ∨ ∃ x, acc = (f x, some x) ∧ init < f x ∧ FirstBest f l x

variable {f}

/-- One more element. -/
theorem KeptFirst.keepFirst {init : S} {l : List α} {acc : S × Option α}
    (h : KeptFirst f init l acc) (b : α) : KeptFirst f init (l ++ [b]) (keepFirst f acc b) := by
  unfold KeepBest.keepFirst
  split_ifs with hlt
  · have hle : ∀ u ∈ l, f u < f b := fun u hu => lt_of_le_of_lt (h.le u hu) hlt
    refine ⟨?_, .inr ⟨b, rfl, ?_, l, [], rfl, hle, nofun⟩⟩
    · exact List.forall_mem_append.2
        ⟨fun u hu => le_of_lt (hle u hu), List.forall_mem_singleton.2 (le_refl _)⟩
    · rcases h.best with rfl | ⟨x, rfl, hx, -⟩
      · exact hlt
      · exact lt_trans hx hlt
  · have hle : f b ≤ acc.1 := not_lt.1 hlt
    refine ⟨List.forall_mem_append.2 ⟨h.le, List.forall_mem_singleton.2 hle⟩, ?_⟩
    rcases h.best with hinit | ⟨x, rfl, hx, before, after, rfl, hbefore, hafter⟩
    · exact .inl hinit
    · refine .inr ⟨x, rfl, hx, before, after ++ [b], ?_, hbefore, ?_⟩
      · rw [List.append_assoc, List.cons_append]
      · exact List.forall_mem_append.2 ⟨hafter, List.forall_mem_singleton.2 hle⟩

/-- **The pass keeps the first best.** -/
theorem keptFirst_foldl (init : S) (l : List α) :
    KeptFirst f init l (l.foldl (KeepBest.keepFirst f) (init, none)) := by
  induction l using List.reverseRecOn with
  | nil => exact ⟨nofun, .inl rfl⟩
  | append_singleton l b ih =>
    rw [List.foldl_append]
    exact ih.keepFirst b

theorem FirstBest.mem {l : List α} {x : α} (h : FirstBest f l x) : x ∈ l := by
  obtain ⟨before, after, rfl, -⟩ := h
  exact List.mem_append_right _ List.mem_cons_self

theorem FirstBest.le {l : List α} {x : α} (h : FirstBest f l x) {u : α} (hu : u ∈ l) :
    f u ≤ f x := by
  obtain ⟨before, after, rfl, hbefore, hafter⟩ := h
  rcases List.mem_append.1 hu with hu | hu
  · exact le_of_lt (hbefore u hu)
  · rcases List.mem_cons.1 hu with rfl | hu
    · exact le_refl _
    · exact hafter u hu

/-- There is one first best element. -/
theorem FirstBest.eq {l : List α} {x y : α} (hx : FirstBest f l x) (hy : FirstBest f l y) :
    x = y := by
  obtain ⟨before, after, rfl, hbefore, hafter⟩ := hx
  obtain ⟨before', after', heq, hbefore', hafter'⟩ := hy
  rcases List.append_eq_append_iff.1 heq with ⟨mid, rfl, hmid⟩ | ⟨mid, rfl, hmid⟩
  · cases mid with
    | nil => exact (List.cons.inj hmid).1
    | cons c mid =>
      obtain ⟨rfl, rfl⟩ := List.cons.inj hmid
      have hlt := hbefore' x (List.mem_append_right _ List.mem_cons_self)
      have hle := hafter y (List.mem_append_right _ List.mem_cons_self)
      exact absurd hlt (not_lt.2 hle)
  · cases mid with
    | nil => exact (List.cons.inj hmid).1.symm
    | cons c mid =>
      obtain ⟨rfl, rfl⟩ := List.cons.inj hmid
      have hlt := hbefore y (List.mem_append_right _ List.mem_cons_self)
      have hle := hafter' x (List.mem_append_right _ List.mem_cons_self)
      exact absurd hlt (not_lt.2 hle)

/-- **The loop ends with the first of the best**, if it is better than the start. -/
theorem keepFirst_eq_some_iff {init : S} {l : List α} {x : α} :
    (l.foldl (KeepBest.keepFirst f) (init, none)).2 = some x ↔ init < f x ∧ FirstBest f l x := by
  have hkept : KeptFirst f init l _ := keptFirst_foldl init l
  rcases hkept.best with hnone | ⟨y, hy, hinit, hfirst⟩
  · rw [hnone]
    refine iff_of_false nofun ?_
    rintro ⟨hx, hfirst⟩
    have hle := hkept.le x hfirst.mem
    rw [hnone] at hle
    exact absurd hx (not_lt.2 hle)
  · rw [hy]
    constructor
    · intro h
      obtain rfl : y = x := Option.some.inj h
      exact ⟨hinit, hfirst⟩
    · rintro ⟨-, hx⟩
      exact congrArg some (hfirst.eq hx)

/-- It ends with something if anything is better than the start. -/
theorem exists_keepFirst {init : S} {l : List α} {u : α} (hu : u ∈ l) (hlt : init < f u) :
    ∃ x, (l.foldl (KeepBest.keepFirst f) (init, none)).2 = some x := by
  have hkept : KeptFirst f init l _ := keptFirst_foldl init l
  rcases hkept.best with hnone | ⟨y, hy, -, -⟩
  · have hle := hkept.le u hu
    rw [hnone] at hle
    exact absurd hlt (not_lt.2 hle)
  · exact ⟨y, congrArg Prod.snd hy⟩

end First

end KeepBest
