/-
# Unix paths and what they name

The lexical operations of Go's package `path/filepath` on Unix, `clean`, `join` and `dir`, on
paths as lists of characters, and their meaning: `resolve cwd p` is the list of elements, from the
root on, of what the path names for a process whose working directory is `cwd`, where no element is
a symbolic link.

* `resolve_clean` and `resolve_join` say what the operations do to it, and `resolve_dir` that the
  directory of a clean path is the path without its last element, or holds the working directory.
* `Within` is the textual test for one absolute path to lie in another, the separator included;
  `within_iff` says that it is the prefix relation of their elements.
* Names that are joined to a path one after the other come back from `rel` (`rel_foldl_join`).
-/
import Mathlib.Data.List.Basic
import Mathlib.Data.List.Infix
import Mathlib.Data.List.TakeWhile

namespace LexicalPath

/-- A path, or an element of one. -/
abbrev Path := List Char

/-- The separator. -/
def sep : Char := '/'

/-- The current directory. -/
def dot : Path := ['.']

/-- The parent directory. -/
def dotDot : Path := ['.', '.']

/-! ## Elements -/

/-- What can stand between two separators. -/
def IsElem (e : Path) : Prop := e ≠ [] ∧ e ≠ dot ∧ sep ∉ e

/-- The elements of a path; empty ones and `.` do not count. -/
def elems (p : Path) : List Path := (p.splitOn sep).filter fun e => e ≠ [] ∧ e ≠ dot

/-- The path begins at the root. -/
def rooted (p : Path) : Bool := p.head? = some sep

/-- The path with these elements. -/
def render (rooted : Bool) (es : List Path) : Path :=
  if rooted then sep :: [sep].intercalate es
  else if es = [] then dot
  else [sep].intercalate es

@[simp] theorem elems_nil : elems [] = [] := by decide

@[simp] theorem elems_dot : elems dot = [] := by decide

theorem elems_append_sep (p q : Path) : elems (p ++ sep :: q) = elems p ++ elems q := by
  unfold elems List.splitOn
  rw [List.splitOnP_append_cons p q (by simp), List.filter_append]

theorem sep_not_mem_of_mem_splitOn {p e : Path} (h : e ∈ p.splitOn sep) : sep ∉ e := by
  induction p generalizing e with
  | nil =>
    obtain rfl : e = [] := by simpa [List.splitOn] using h
    exact List.not_mem_nil
  | cons c p ih =>
    unfold List.splitOn at h ih
    rw [List.splitOnP_cons_eq_if_modifyHead] at h
    split_ifs at h with hc
    · rcases List.mem_cons.1 h with rfl | h
      · exact List.not_mem_nil
      · exact ih h
    · cases hsplit : p.splitOnP (· == sep) with
      | nil =>
        rw [hsplit] at h
        cases h
      | cons a as =>
        rw [hsplit] at h ih
        rcases List.mem_cons.1 h with rfl | h
        · have hne : sep ≠ c := fun heq => hc (by simp [heq])
          exact List.not_mem_cons_of_ne_of_not_mem hne (ih List.mem_cons_self)
        · exact ih (List.mem_cons_of_mem a h)

theorem isElem_of_mem_elems {p e : Path} (h : e ∈ elems p) : IsElem e := by
  obtain ⟨hmem, hne⟩ := List.mem_filter.1 h
  obtain ⟨hnil, hdot⟩ : e ≠ [] ∧ e ≠ dot := by simpa using hne
  exact ⟨hnil, hdot, sep_not_mem_of_mem_splitOn hmem⟩

/-- Without a separator there is at most one element. -/
theorem elems_of_sep_not_mem {p : Path} (h : sep ∉ p) :
    elems p = if p ≠ [] ∧ p ≠ dot then [p] else [] := by
  have hsplit : p.splitOn sep = [p] :=
    List.splitOnP_eq_singleton fun c hc => by
      rw [beq_eq_false_iff_ne]
      rintro rfl
      exact h hc
  unfold elems
  rw [hsplit, List.filter_singleton]
  simp

variable {r : Bool} {es : List Path} {ns : List Path} {a : Path}

/-- A path is made of its elements. -/
theorem elems_render (h : ∀ e ∈ es, IsElem e) : elems (render r es) = es := by
  have hjoin : elems ([sep].intercalate es) = es := by
    by_cases hes : es = []
    · rw [hes]
      decide
    · unfold elems
      rw [List.splitOn_intercalate sep (fun e he => (h e he).2.2) hes, List.filter_eq_self]
      exact fun e he => by simpa using ⟨(h e he).1, (h e he).2.1⟩
  unfold render
  split_ifs with hr hes
  · have := elems_append_sep [] ([sep].intercalate es)
    rw [elems_nil, List.nil_append, hjoin] at this
    exact this
  · rw [hes, elems_dot]
  · exact hjoin

theorem rooted_render (h : ∀ e ∈ es, IsElem e) : rooted (render r es) = r := by
  unfold render
  cases r with
  | true => rfl
  | false =>
    cases es with
    | nil => decide
    | cons e es =>
      obtain ⟨hnil, -, hsep⟩ := h e List.mem_cons_self
      obtain ⟨c, rest, rfl⟩ := List.exists_cons_of_ne_nil hnil
      have hc : c ≠ sep := fun heq => hsep (heq ▸ List.mem_cons_self)
      have hhead : ([sep].intercalate ((c :: rest) :: es)).head? = some c := by
        cases es with
        | nil => rfl
        | cons e' es' => rfl
      rw [if_neg Bool.false_ne_true, if_neg (List.cons_ne_nil _ _), rooted, hhead]
      simpa using hc

/-! ## Cleaning -/

/-- One more element; the elements so far are in `stack`, the last one first. -/
def push (rooted : Bool) (stack : List Path) (e : Path) : List Path :=
  if e = dotDot then
    match stack with
    | [] => if rooted then [] else [dotDot]
    | top :: rest => if top = dotDot then dotDot :: top :: rest else rest
  else e :: stack

/-- The elements of the clean path. -/
def cleanElems (rooted : Bool) (es : List Path) : List Path := (es.foldl (push rooted) []).reverse

/-- `filepath.Clean`. -/
def clean (p : Path) : Path := render (rooted p) (cleanElems (rooted p) (elems p))

/-- `filepath.Join` of two elements. -/
def join (a b : Path) : Path :=
  if a = [] then if b = [] then [] else clean b
  else if b = [] then clean a
  else clean (a ++ sep :: b)

/-- What is before the last element, with the separator. -/
def dirPart (p : Path) : Path := (p.reverse.dropWhile (· ≠ sep)).reverse

/-- `filepath.Dir`. -/
def dir (p : Path) : Path := clean (dirPart p)

theorem push_name {stack : List Path} {e : Path} (he : e ≠ dotDot) :
    push r stack e = e :: stack := if_neg he

theorem push_dotDot_cons {top : Path} {rest : List Path} :
    push r (top :: rest) dotDot = if top = dotDot then dotDot :: top :: rest else rest := if_pos rfl

theorem push_dotDot_nil : push r [] dotDot = if r then [] else [dotDot] := if_pos rfl

theorem mem_push {stack : List Path} {e x : Path} (h : x ∈ push r stack e) : x = e ∨ x ∈ stack := by
  by_cases he : e = dotDot
  · subst he
    cases stack with
    | nil =>
      rw [push_dotDot_nil] at h
      split_ifs at h
      · cases h
      · exact .inl (List.mem_singleton.1 h)
    | cons top rest =>
      rw [push_dotDot_cons] at h
      split_ifs at h
      · exact List.mem_cons.1 h
      · exact .inr (List.mem_cons_of_mem top h)
  · rw [push_name he] at h
    exact List.mem_cons.1 h

theorem isElem_cleanElems (h : ∀ e ∈ es, IsElem e) : ∀ e ∈ cleanElems r es, IsElem e := by
  have hfold : ∀ stack : List Path, (∀ e ∈ stack, IsElem e) →
      ∀ e ∈ es.foldl (push r) stack, IsElem e := by
    induction es with
    | nil => exact fun stack hstack => hstack
    | cons a es ih =>
      intro stack hstack
      refine ih (fun e he => h e (List.mem_cons_of_mem a he)) _ fun x hx => ?_
      rcases mem_push hx with rfl | hx
      · exact h x List.mem_cons_self
      · exact hstack x hx
  intro e he
  exact hfold [] (fun _ h => nomatch h) e (List.mem_reverse.1 he)

/-- `clean` cleans the elements. -/
theorem elems_clean (p : Path) : elems (clean p) = cleanElems (rooted p) (elems p) :=
  elems_render (isElem_cleanElems fun _ => isElem_of_mem_elems)

theorem rooted_clean (p : Path) : rooted (clean p) = rooted p :=
  rooted_render (isElem_cleanElems fun _ => isElem_of_mem_elems)

/-- In a clean path, parents come before all names, and only if it is not rooted. -/
theorem cleanElems_shape (r : Bool) (es : List Path) :
    ∃ k names, cleanElems r es = List.replicate k dotDot ++ names ∧ dotDot ∉ names ∧
      (r = true → k = 0) := by
  have hfold : ∀ stack : List Path,
      (∃ k names, stack = names ++ List.replicate k dotDot ∧ dotDot ∉ names ∧ (r = true → k = 0)) →
      ∃ k names, es.foldl (push r) stack = names ++ List.replicate k dotDot ∧ dotDot ∉ names ∧
        (r = true → k = 0) := by
    induction es with
    | nil => exact fun stack hstack => hstack
    | cons e es ih =>
      rintro stack ⟨k, names, rfl, hnames, hroot⟩
      refine ih _ ?_
      by_cases he : e = dotDot
      · subst he
        cases names with
        | nil =>
          cases k with
          | zero =>
            cases r with
            | true => exact ⟨0, [], rfl, hnames, fun _ => rfl⟩
            | false => exact ⟨1, [], rfl, hnames, fun hr => absurd hr Bool.false_ne_true⟩
          | succ k =>
            exact ⟨k + 2, [], rfl, hnames, fun hr => absurd (hroot hr) (Nat.succ_ne_zero k)⟩
        | cons top names =>
          have htop : top ≠ dotDot := fun heq => hnames (heq ▸ List.mem_cons_self)
          refine ⟨k, names, ?_, fun hmem => hnames (List.mem_cons_of_mem top hmem), hroot⟩
          rw [List.cons_append, push_dotDot_cons, if_neg htop]
      · refine ⟨k, e :: names, push_name he, ?_, hroot⟩
        exact List.not_mem_cons_of_ne_of_not_mem (Ne.symm he) hnames
  obtain ⟨k, names, hstack, hnames, hroot⟩ := hfold [] ⟨0, [], rfl, List.not_mem_nil, fun _ => rfl⟩
  refine ⟨k, names.reverse, ?_, by simpa using hnames, hroot⟩
  rw [cleanElems, hstack, List.reverse_append, List.reverse_replicate]

/-! ## What a path names -/

/-- From a directory, one element on; the parent of the root is the root. -/
def enter (from_ : List Path) (e : Path) : List Path :=
  if e = dotDot then from_.dropLast else from_ ++ [e]

/-- From a directory, one element after the other. -/
def walk (from_ es : List Path) : List Path := es.foldl enter from_

/-- What a path names, for a process with the working directory `cwd`. -/
def resolve (cwd : List Path) (p : Path) : List Path :=
  walk (if rooted p then [] else cwd) (elems p)

theorem walk_append (from_ es es' : List Path) :
    walk from_ (es ++ es') = walk (walk from_ es) es' := List.foldl_append

/-- A stack with one more element leads one element further. -/
theorem walk_push {from_ : List Path} (hr : r = true → from_ = []) (stack : List Path) (e : Path) :
    walk from_ (push r stack e).reverse = enter (walk from_ stack.reverse) e := by
  have hcons : ∀ (top : Path) (rest : List Path),
      walk from_ (top :: rest).reverse = enter (walk from_ rest.reverse) top := by
    intro top rest
    rw [List.reverse_cons, walk_append]
    rfl
  by_cases he : e = dotDot
  · subst he
    cases stack with
    | nil =>
      rw [push_dotDot_nil]
      split_ifs with hroot
      · rw [hr hroot]
        rfl
      · rfl
    | cons top rest =>
      rw [push_dotDot_cons]
      split_ifs with htop
      · exact hcons dotDot (top :: rest)
      · -- entering a name and leaving it again
        rw [hcons, enter, enter, if_neg htop, if_pos rfl, List.dropLast_concat]
  · rw [push_name he]
    exact hcons e stack

/-- They lead to the same place. -/
theorem walk_cleanElems {from_ : List Path} (hr : r = true → from_ = []) (es : List Path) :
    walk from_ (cleanElems r es) = walk from_ es := by
  have hfold : ∀ stack : List Path, walk from_ (es.foldl (push r) stack).reverse =
      walk (walk from_ stack.reverse) es := by
    induction es with
    | nil => exact fun stack => rfl
    | cons e es ih =>
      intro stack
      rw [List.foldl_cons, ih, walk_push hr]
      rfl
  exact hfold []

/-- **`Clean` does not change what a path names.** -/
@[simp] theorem resolve_clean (cwd : List Path) (p : Path) :
    resolve cwd (clean p) = resolve cwd p := by
  unfold resolve
  rw [elems_clean, rooted_clean]
  refine walk_cleanElems (fun hr => ?_) _
  rw [if_pos hr]

/-- **`Join` goes on from the directory.** -/
theorem resolve_join (ha : a ≠ []) (cwd : List Path) (b : Path) :
    resolve cwd (join a b) = walk (resolve cwd a) (elems b) := by
  unfold join
  rw [if_neg ha]
  split_ifs with hb
  · rw [hb, resolve_clean, elems_nil]
    rfl
  · obtain ⟨c, rest, rfl⟩ := List.exists_cons_of_ne_nil ha
    rw [resolve_clean, resolve, elems_append_sep, walk_append]
    rfl

theorem isElem_walk {from_ es : List Path} (hfrom : ∀ e ∈ from_, IsElem e)
    (hes : ∀ e ∈ es, IsElem e) : ∀ e ∈ walk from_ es, IsElem e := by
  induction es generalizing from_ with
  | nil => exact hfrom
  | cons a es ih =>
    refine ih (fun e he => ?_) fun e he => hes e (List.mem_cons_of_mem a he)
    unfold enter at he
    split_ifs at he
    · exact hfrom e (List.mem_of_mem_dropLast he)
    · rcases List.mem_append.1 he with he | he
      · exact hfrom e he
      · rw [List.mem_singleton.1 he]
        exact hes a List.mem_cons_self

theorem isElem_resolve {cwd : List Path} (hcwd : ∀ e ∈ cwd, IsElem e) (p : Path) :
    ∀ e ∈ resolve cwd p, IsElem e := by
  refine isElem_walk ?_ fun _ => isElem_of_mem_elems
  split_ifs
  · exact fun _ h => nomatch h
  · exact hcwd

/-- Names lead downwards. -/
theorem walk_of_names (hnames : dotDot ∉ es) (from_ : List Path) : walk from_ es = from_ ++ es := by
  induction es generalizing from_ with
  | nil => exact (List.append_nil from_).symm
  | cons e es ih =>
    obtain ⟨he, hes⟩ := List.ne_and_not_mem_of_not_mem_cons hnames
    show walk (enter from_ e) es = _
    rw [ih hes, enter, if_neg (Ne.symm he), List.append_assoc, List.singleton_append]

/-- Parents lead to ancestors. -/
theorem walk_replicate_dotDot (k : ℕ) (from_ : List Path) :
    walk from_ (List.replicate k dotDot) = from_.take (from_.length - k) := by
  induction k generalizing from_ with
  | zero => exact (List.take_of_length_le (Nat.le_refl _)).symm
  | succ k ih =>
    show walk from_.dropLast (List.replicate k dotDot) = _
    rw [ih, List.dropLast_eq_take, List.take_take, List.length_take]
    congr 1
    omega

/-- How many parents a path begins with, once it is clean. -/
def ups (p : Path) : ℕ := (elems (clean p)).count dotDot

/-- The names behind them. -/
def names (p : Path) : List Path := (elems (clean p)).filter (· ≠ dotDot)

/-- A clean path has its parents before its names. -/
theorem elems_clean_eq (p : Path) :
    elems (clean p) = List.replicate (ups p) dotDot ++ names p ∧ dotDot ∉ names p ∧
      (rooted p = true → ups p = 0) := by
  obtain ⟨k, ns, hshape, hns, hk⟩ := cleanElems_shape (rooted p) (elems p)
  have hups : ups p = k := by
    rw [ups, elems_clean, hshape, List.count_append, List.count_replicate_self,
      List.count_eq_zero.2 hns, Nat.add_zero]
  have hnames : names p = ns := by
    rw [names, elems_clean, hshape, List.filter_append, List.filter_replicate]
    have hkeep : ∀ e ∈ ns, decide (e ≠ dotDot) = true :=
      fun e he => decide_eq_true (ne_of_mem_of_not_mem he hns)
    simpa using List.filter_eq_self.2 hkeep
  rw [hups, hnames, elems_clean]
  exact ⟨hshape, hns, hk⟩

/-- **Where a path leads to**: up by its parents, then down by its names. -/
theorem walk_clean (from_ : List Path) (p : Path) :
    walk from_ (elems (clean p)) = from_.take (from_.length - ups p) ++ names p := by
  obtain ⟨helems, hnames, -⟩ := elems_clean_eq p
  rw [helems, walk_append, walk_replicate_dotDot, walk_of_names hnames]

/-! ## The directory of a path -/

/-- A path is what is before its last element, which ends in a separator if it is not empty,
followed by the last element. -/
theorem dirPart_append (p : Path) :
    ∃ last, p = dirPart p ++ last ∧ sep ∉ last ∧
      (dirPart p = [] ∨ ∃ q, dirPart p = q ++ [sep]) := by
  refine ⟨(p.reverse.takeWhile (· ≠ sep)).reverse, ?_, fun hmem => ?_, ?_⟩
  · rw [dirPart, ← List.reverse_append, List.takeWhile_append_dropWhile, List.reverse_reverse]
  · have := List.mem_takeWhile_imp (List.mem_reverse.1 hmem)
    simp at this
  · unfold dirPart
    cases hdrop : p.reverse.dropWhile (· ≠ sep) with
    | nil => exact .inl rfl
    | cons c rest =>
      have hc : c = sep := by
        have hhead := List.head?_dropWhile_not (· ≠ sep) p.reverse
        rw [hdrop] at hhead
        simpa using hhead
      exact .inr ⟨rest.reverse, by rw [hc, List.reverse_cons]⟩

/-- The last element is one step from the directory. -/
theorem elems_dirPart (p : Path) :
    ∃ last, sep ∉ last ∧ elems p = elems (dirPart p) ++ elems last ∧
      rooted (dirPart p) = rooted p := by
  obtain ⟨last, hp, hlast, hnil | ⟨q, hq⟩⟩ := dirPart_append p
  · rw [hnil, List.nil_append] at hp
    refine ⟨last, hlast, by rw [hnil, ← hp, elems_nil, List.nil_append], ?_⟩
    rw [hnil, hp]
    cases last with
    | nil => rfl
    | cons c last =>
      have hc : c ≠ sep := fun heq => hlast (heq ▸ List.mem_cons_self)
      simpa [rooted] using hc
  · refine ⟨last, hlast, ?_, ?_⟩
    · have hdir : elems (q ++ [sep]) = elems q := by
        rw [elems_append_sep, elems_nil, List.append_nil]
      rw [hq, hdir]
      conv_lhs => rw [hp, hq, List.append_assoc, List.singleton_append, elems_append_sep]
    · conv_rhs => rw [hp, hq]
      rw [hq]
      cases q <;> rfl

/-- A clean path that ends in a parent has nothing but parents. -/
theorem parents_of_elems_clean {p : Path} {front : List Path}
    (h : elems (clean p) = front ++ [dotDot]) :
    rooted p = false ∧ ∃ k, front = List.replicate k dotDot := by
  obtain ⟨k, names, hshape, hnames, hk⟩ := cleanElems_shape (rooted p) (elems p)
  rw [elems_clean, hshape] at h
  have hnil : names = [] := by
    by_contra hne
    have hlast := congrArg List.getLast? h
    rw [List.getLast?_append_of_ne_nil _ hne, List.getLast?_concat] at hlast
    exact hnames (List.mem_of_getLast? hlast)
  rw [hnil, List.append_nil] at h
  constructor
  · rw [← Bool.not_eq_true]
    intro hr
    rw [hk hr] at h
    simp at h
  · refine ⟨k - 1, ?_⟩
    have := congrArg List.dropLast h
    rw [List.dropLast_concat, List.dropLast_replicate] at this
    exact this.symm

/-- **The directory of a clean path**: the path itself if it is the root or the working directory,
the path without its last name, or, for a path of parents only, an ancestor of the working
directory. -/
theorem resolve_dir (cwd : List Path) (p : Path) :
    let target := resolve cwd (clean p)
    let parent := resolve cwd (dir (clean p))
    target = parent ∨ (∃ e, target = parent ++ [e]) ∨
      (target = parent.dropLast ∧ parent <+: cwd) := by
  obtain ⟨last, hlast, helems, hroot⟩ := elems_dirPart (clean p)
  have hparent : resolve cwd (dir (clean p)) = resolve cwd (dirPart (clean p)) :=
    resolve_clean cwd _
  have htarget : resolve cwd (clean p) = walk (resolve cwd (dirPart (clean p))) (elems last) := by
    unfold resolve
    rw [helems, walk_append, hroot]
  rw [hparent, htarget, elems_of_sep_not_mem hlast]
  split_ifs with hname
  · by_cases hdots : last = dotDot
    · refine .inr (.inr ⟨by rw [hdots]; rfl, ?_⟩)
      rw [elems_of_sep_not_mem hlast, if_pos hname, hdots] at helems
      obtain ⟨hrel, k, hfront⟩ := parents_of_elems_clean helems
      unfold resolve
      rw [hroot, rooted_clean, hrel, hfront]
      exact (walk_replicate_dotDot k cwd).symm ▸ List.take_prefix _ _
    · exact .inr (.inl ⟨last, by simp [walk, enter, hdots]⟩)
  · exact .inl rfl

/-! ## One path in another -/

/-- The path with a separator at its end. -/
def withSep (p : Path) : Path := if p.getLast? = some sep then p else p ++ [sep]

/-- The path equals the directory or begins with it followed by a separator. -/
def Within (directory p : Path) : Prop := p = directory ∨ withSep directory <+: p

instance (directory p : Path) : Decidable (Within directory p) :=
  inferInstanceAs (Decidable (_ ∨ _))

/-- The text of an absolute path. -/
abbrev absolute (es : List Path) : Path := render true es

theorem absolute_concat (hes : es ≠ []) (e : Path) (es' : List Path) :
    absolute (es ++ e :: es') = absolute es ++ sep :: [sep].intercalate (e :: es') := by
  have hjoin : [sep].intercalate (es ++ e :: es') =
      [sep].intercalate es ++ sep :: [sep].intercalate (e :: es') := by
    induction es with
    | nil => exact absurd rfl hes
    | cons a es ih =>
      cases es with
      | nil => simp [List.intercalate_cons_cons]
      | cons b es =>
        rw [List.cons_append, List.cons_append, List.intercalate_cons_cons,
          ← List.cons_append, ih (List.cons_ne_nil b es), List.intercalate_cons_cons]
        simp
  simp only [absolute, render, if_true, hjoin, List.cons_append]

/-- Only the root ends in a separator. -/
theorem withSep_absolute (h : ∀ e ∈ es, IsElem e) :
    withSep (absolute es) = if es = [] then [sep] else absolute es ++ [sep] := by
  by_cases hes : es = []
  · rw [hes]
    decide
  · rw [if_neg hes, withSep, if_neg]
    obtain ⟨init, last, rfl⟩ := List.eq_nil_or_concat es |>.resolve_left hes
    obtain ⟨hnil, -, hsep⟩ := h last (by simp)
    obtain ⟨front, hfront⟩ : ∃ front, absolute (init ++ [last]) = front ++ last := by
      cases init with
      | nil => exact ⟨[sep], by simp [absolute, render]⟩
      | cons a init =>
        refine ⟨absolute (a :: init) ++ [sep], ?_⟩
        rw [absolute_concat (List.cons_ne_nil a init), List.intercalate_singleton]
        simp
    rw [List.concat_eq_append, hfront, List.getLast?_append_of_ne_nil _ hnil]
    exact fun heq => hsep (List.mem_of_getLast? heq)

/-- **The textual test is the prefix relation of the elements.** -/
theorem within_iff {directory es : List Path} (hdir : ∀ e ∈ directory, IsElem e)
    (hes : ∀ e ∈ es, IsElem e) :
    Within (absolute directory) (absolute es) ↔ directory <+: es := by
  unfold Within
  rw [withSep_absolute hdir]
  constructor
  · rintro (heq | ⟨rest, hrest⟩)
    · have := congrArg elems heq
      rw [elems_render hes, elems_render hdir] at this
      rw [this]
    · split_ifs at hrest with hroot
      · rw [hroot]
        exact List.nil_prefix
      · have := congrArg elems hrest
        rw [List.append_assoc, List.singleton_append, elems_append_sep, elems_render hes,
          elems_render hdir] at this
        exact ⟨elems rest, this⟩
  · rintro ⟨tail, rfl⟩
    cases tail with
    | nil => exact .inl (by rw [List.append_nil])
    | cons e tail =>
      right
      split_ifs with hroot
      · exact ⟨_, rfl⟩
      · rw [absolute_concat hroot]
        exact ⟨[sep].intercalate (e :: tail), by simp⟩

/-! ## Names at the end -/

/-- An element that leads downwards. -/
def IsName (e : Path) : Prop := IsElem e ∧ e ≠ dotDot

instance (e : Path) : Decidable (IsName e) := inferInstanceAs (Decidable ((_ ∧ _ ∧ _) ∧ _))

theorem dotDot_notMem_of_names (hns : ∀ e ∈ ns, IsName e) : dotDot ∉ ns :=
  fun h => (hns dotDot h).2 rfl

theorem isElem_clean_append (hns : ∀ e ∈ ns, IsName e) (a : Path) :
    ∀ x ∈ cleanElems (rooted a) (elems a) ++ ns, IsElem x :=
  List.forall_mem_append.2
    ⟨isElem_cleanElems fun _ => isElem_of_mem_elems, fun x hx => (hns x hx).1⟩

theorem foldl_push_names (h : dotDot ∉ ns) (stack : List Path) :
    ns.foldl (push r) stack = ns.reverse ++ stack := by
  induction ns generalizing stack with
  | nil => rfl
  | cons e ns ih =>
    obtain ⟨he, hns⟩ := List.ne_and_not_mem_of_not_mem_cons h
    rw [List.foldl_cons, push_name (Ne.symm he), ih hns, List.reverse_cons, List.append_assoc]
    rfl

theorem cleanElems_append_names (h : dotDot ∉ ns) (es : List Path) :
    cleanElems r (es ++ ns) = cleanElems r es ++ ns := by
  rw [cleanElems, List.foldl_append, foldl_push_names h, List.reverse_append, List.reverse_reverse]
  rfl

/-- Pushing the elements of a clean path again gives the same path. -/
theorem cleanElems_cleanElems (r : Bool) (es : List Path) :
    cleanElems r (cleanElems r es) = cleanElems r es := by
  have hfold : ∀ stack : List Path, stack.reverse.foldl (push r) [] = stack →
      (es.foldl (push r) stack).reverse.foldl (push r) [] = es.foldl (push r) stack := by
    induction es with
    | nil => exact fun stack h => h
    | cons e es ih =>
      intro stack hstack
      apply ih
      by_cases he : e = dotDot
      · subst he
        cases stack with
        | nil =>
          rw [push_dotDot_nil]
          cases r <;> rfl
        | cons top rest =>
          rw [push_dotDot_cons]
          rw [List.reverse_cons, List.foldl_append] at hstack
          by_cases htop : top = dotDot
          · subst htop
            rw [if_pos rfl, List.reverse_cons, List.foldl_append, List.reverse_cons,
              List.foldl_append, hstack]
            show push r (dotDot :: rest) dotDot = dotDot :: dotDot :: rest
            rw [push_dotDot_cons, if_pos rfl]
          · rw [if_neg htop]
            have hcons : push r (rest.reverse.foldl (push r) []) top = top :: rest := hstack
            rw [push_name htop] at hcons
            exact (List.cons.inj hcons).2
      · rw [push_name he, List.reverse_cons, List.foldl_append, hstack]
        exact push_name he
  rw [cleanElems, cleanElems, hfold [] rfl]

theorem rooted_append_sep (ha : a ≠ []) (b : Path) : rooted (a ++ sep :: b) = rooted a := by
  obtain ⟨c, rest, rfl⟩ := List.exists_cons_of_ne_nil ha
  rfl

theorem render_ne_nil (h : ∀ e ∈ es, IsElem e) : render r es ≠ [] := by
  intro hnil
  have hroot := rooted_render h (r := r)
  have helems := elems_render h (r := r)
  rw [hnil] at hroot helems
  obtain rfl : es = [] := helems.symm
  obtain rfl : r = false := hroot.symm
  exact absurd hnil (by decide)

/-- **`Join` with names** puts them behind the clean path. -/
theorem join_names (ha : a ≠ []) (hns : ∀ e ∈ ns, IsName e) :
    join a (render false ns) = render (rooted a) (cleanElems (rooted a) (elems a) ++ ns) := by
  have helem : ∀ e ∈ ns, IsElem e := fun e he => (hns e he).1
  have hdots := dotDot_notMem_of_names hns
  rw [join, if_neg ha, if_neg (render_ne_nil helem), clean, rooted_append_sep ha, elems_append_sep,
    elems_render helem, cleanElems_append_names hdots]

/-- The same, one name after the other. -/
theorem foldl_join (ha : a ≠ []) (hne : ns ≠ []) (hns : ∀ e ∈ ns, IsName e) :
    ns.foldl join a = render (rooted a) (cleanElems (rooted a) (elems a) ++ ns) := by
  have hone : ∀ (b e : Path), b ≠ [] → IsName e →
      join b e = render (rooted b) (cleanElems (rooted b) (elems b) ++ [e]) := by
    intro b e hb he
    have hjoin := join_names hb (List.forall_mem_singleton.2 he)
    rwa [render, if_neg Bool.false_ne_true, if_neg (List.cons_ne_nil _ _),
      List.intercalate_singleton] at hjoin
  induction ns using List.reverseRecOn with
  | nil => exact absurd rfl hne
  | append_singleton ns e ih =>
    have he : IsName e := hns e (List.mem_append_right ns List.mem_cons_self)
    have hfront : ∀ x ∈ ns, IsName x := fun x hx => hns x (List.mem_append_left _ hx)
    rw [List.foldl_append, List.foldl_cons, List.foldl_nil]
    by_cases hnil : ns = []
    · subst hnil
      exact hone a e ha he
    · have helem := isElem_clean_append hfront a
      have hdots := dotDot_notMem_of_names hfront
      rw [ih hnil hfront, hone _ e (render_ne_nil helem) he, rooted_render helem,
        elems_render helem, cleanElems_append_names hdots, cleanElems_cleanElems,
        List.append_assoc]

/-- Only the last element is behind the last separator. -/
theorem dirPart_append_name {front e : Path} (he : sep ∉ e)
    (hfront : front = [] ∨ ∃ q, front = q ++ [sep]) : dirPart (front ++ e) = front := by
  have hall : ∀ c ∈ e.reverse, decide (c ≠ sep) = true := by
    intro c hc
    simp only [decide_eq_true_iff]
    rintro rfl
    exact he (List.mem_reverse.1 hc)
  rw [dirPart, List.reverse_append, List.dropWhile_append_of_pos hall]
  rcases hfront with rfl | ⟨q, rfl⟩
  · rfl
  · rw [List.reverse_append]
    simp

theorem intercalate_concat (hes : es ≠ []) (e : Path) :
    [sep].intercalate (es ++ [e]) = [sep].intercalate es ++ sep :: e := by
  have habs := (List.cons.inj (absolute_concat hes e [])).2
  rwa [List.intercalate_singleton] at habs

/-- The text of a path is that of its last element, behind a separator or at the beginning. -/
theorem exists_render_concat (r : Bool) (es : List Path) (e : Path) :
    ∃ front, render r (es ++ [e]) = front ++ e ∧ (front = [] ∨ ∃ q, front = q ++ [sep]) := by
  have hne : es ++ [e] ≠ [] := List.append_ne_nil_of_right_ne_nil es (List.cons_ne_nil e [])
  by_cases hnil : es = []
  · subst hnil
    cases r with
    | true => exact ⟨[sep], by simp [render], .inr ⟨[], rfl⟩⟩
    | false => exact ⟨[], by simp [render], .inl rfl⟩
  · cases r with
    | true =>
      refine ⟨sep :: [sep].intercalate es ++ [sep], ?_, .inr ⟨_, rfl⟩⟩
      rw [render, if_pos rfl, intercalate_concat hnil]
      simp
    | false =>
      refine ⟨[sep].intercalate es ++ [sep], ?_, .inr ⟨_, rfl⟩⟩
      rw [render, if_neg Bool.false_ne_true, if_neg hne, intercalate_concat hnil]
      simp

/-- **The directory of a path that ends in a name.** -/
theorem resolve_dir_render {e : Path} (hes : ∀ x ∈ es, IsElem x) (he : IsElem e) (cwd : List Path) :
    resolve cwd (dir (render r (es ++ [e]))) = walk (if r then [] else cwd) es := by
  have hall : ∀ x ∈ es ++ [e], IsElem x :=
    List.forall_mem_append.2 ⟨hes, List.forall_mem_singleton.2 he⟩
  have helems := elems_render hall (r := r)
  have hroot := rooted_render hall (r := r)
  obtain ⟨front, htext, hfront⟩ := exists_render_concat r es e
  obtain ⟨-, -, -, hrooted⟩ := elems_dirPart (render r (es ++ [e]))
  have hsep : sep ∉ e := he.2.2
  rw [hroot, htext, dirPart_append_name hsep hfront] at hrooted
  have hone : elems e = [e] := by
    rw [elems_of_sep_not_mem hsep, if_pos ⟨he.1, he.2.1⟩]
  have hes' : elems front = es := by
    rw [htext] at helems
    rcases hfront with rfl | ⟨q, rfl⟩
    · rw [List.nil_append, hone] at helems
      exact (List.append_inj_left' (helems : [] ++ [e] = es ++ [e]) rfl)
    · rw [List.append_assoc, List.singleton_append, elems_append_sep, hone] at helems
      rw [elems_append_sep, elems_nil, List.append_nil]
      exact List.append_inj_left' helems rfl
  rw [htext, dir, dirPart_append_name hsep hfront, resolve_clean, resolve, hes', hrooted]

/-- What a path with names behind it names. -/
theorem resolve_foldl_join (ha : a ≠ []) (hne : ns ≠ []) (hns : ∀ e ∈ ns, IsName e)
    (cwd : List Path) :
    resolve cwd (ns.foldl join a) = resolve cwd a ++ ns := by
  have helem := isElem_clean_append hns a
  have hdots := dotDot_notMem_of_names hns
  rw [foldl_join ha hne hns, resolve, rooted_render helem, elems_render helem, walk_append,
    walk_of_names hdots, ← resolve_clean cwd a, resolve, rooted_clean, elems_clean]

/-- And what its directory names. -/
theorem resolve_dir_foldl_join (ha : a ≠ []) (hne : ns ≠ []) (hns : ∀ e ∈ ns, IsName e)
    (cwd : List Path) :
    resolve cwd (dir (ns.foldl join a)) = resolve cwd a ++ ns.dropLast := by
  have hfront : ∀ e ∈ ns.dropLast, IsName e := fun e he => hns e (List.mem_of_mem_dropLast he)
  have helem := isElem_clean_append hfront a
  have hdots := dotDot_notMem_of_names hfront
  have hlast : IsName (ns.getLast hne) := hns _ (List.getLast_mem hne)
  have hsplit : cleanElems (rooted a) (elems a) ++ ns =
      (cleanElems (rooted a) (elems a) ++ ns.dropLast) ++ [ns.getLast hne] := by
    rw [List.append_assoc, List.dropLast_append_getLast hne]
  rw [foldl_join ha hne hns, hsplit, resolve_dir_render helem hlast.1, walk_append,
    walk_of_names hdots, ← resolve_clean cwd a, resolve, rooted_clean, elems_clean]

/-! ## `Rel` and `Base` -/

/-- What is left of two lists behind their common front. -/
def strip : List Path → List Path → List Path × List Path
  | b :: bs, t :: ts => if b = t then strip bs ts else (b :: bs, t :: ts)
  | bs, ts => (bs, ts)

/-- `filepath.Rel`; `none` where it fails. -/
def rel (basePath targPath : Path) : Option Path :=
  let b := clean basePath
  let t := clean targPath
  if t = b then some dot
  else if rooted b ≠ rooted t then none
  else
    let (bs, ts) := strip (elems b) (elems t)
    if bs.head? = some dotDot then none
    else some (render false (bs.map (fun _ => dotDot) ++ ts))

/-- `filepath.Base`. -/
def base (p : Path) : Path :=
  let q := p.reverse.dropWhile (· = sep)
  if p = [] then dot
  else if q = [] then [sep]
  else (q.takeWhile (· ≠ sep)).reverse

theorem strip_append (bs ts : List Path) : strip bs (bs ++ ts) = ([], ts) := by
  induction bs with
  | nil => cases ts <;> rfl
  | cons b bs ih => rw [List.cons_append, strip, if_pos rfl, ih]

/-- **`Rel` undoes `Join` with names.** -/
theorem rel_foldl_join (ha : a ≠ []) (hne : ns ≠ []) (hns : ∀ e ∈ ns, IsName e) :
    rel a (ns.foldl join a) = some (render false ns) := by
  have helem := isElem_clean_append hns a
  have hdots := dotDot_notMem_of_names hns
  have hpath := foldl_join ha hne hns
  have hrooted : rooted (clean (ns.foldl join a)) = rooted (clean a) := by
    rw [rooted_clean, rooted_clean, hpath, rooted_render helem]
  have helems : elems (clean (ns.foldl join a)) = elems (clean a) ++ ns := by
    rw [elems_clean, elems_clean, hpath, rooted_render helem, elems_render helem,
      cleanElems_append_names hdots, cleanElems_cleanElems]
  have hdiffer : clean (ns.foldl join a) ≠ clean a := by
    intro heq
    rw [heq] at helems
    exact hne (List.self_eq_append_right.1 helems)
  rw [rel, if_neg hdiffer, if_neg (not_not_intro hrooted.symm), helems, strip_append]
  rfl

end LexicalPath
