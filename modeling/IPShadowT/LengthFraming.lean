/-
# Payloads behind headers with their lengths

A stream of frames, each a header of a fixed size from which the length of the payload is read,
and the payload.  `Format.read` is a reader that follows the lengths.

An `Encoder` writes headers whose length field has a limit: up to it the field has the length,
and from it on something else, if the encoder does not check.  `exact_iff` says which payloads are
read back.
-/
import IPShadowT.Bytes

namespace LengthFraming

/-- A format of frames. -/
structure Format where
  /-- The size of the header. -/
  size : ℕ
  pos : 0 < size
  /-- The length of the payload, from the header. -/
  payloadLen : Bytes → Option ℕ

/-- The payloads that a reader finds; `none` if a frame is not complete or has no length. -/
def Format.read (F : Format) (s : Bytes) : Option Bytes :=
  if s = [] then some []
  else if s.length < F.size then none
  else
    match F.payloadLen (s.take F.size) with
    | none => none
    | some n =>
      if s.length < F.size + n then none
      else (F.read (s.drop (F.size + n))).map fun b => (s.drop F.size).take n ++ b
termination_by s.length
decreasing_by
  rw [List.length_drop]
  have := F.pos
  omega

/-- How the headers of a format are written, for lengths and other data.  From `limit` on, the
length in the header is so small that there is room for another header in the payload; `trap` is
one, behind its first byte 255, that announces a payload. -/
structure Encoder (F : Format) (X : Type) where
  header : X → ℕ → Bytes
  length_header : ∀ x n, (header x n).length = F.size
  limit : ℕ
  short : ∀ x, ∀ n < limit, F.payloadLen (header x n) = some n
  long : ∀ x n m, limit ≤ n → F.payloadLen (header x n) = some m → m + F.size < n
  trap : Bytes
  length_trap : (255 :: trap).length = F.size
  trapLen : ℕ
  payloadLen_trap : F.payloadLen (255 :: trap) = some (trapLen + 1)

section Read

variable {F : Format} {X : Type} (E : Encoder F X)

/-- A frame. -/
def Encoder.frame (f : X × Bytes) : Bytes := E.header f.1 f.2.length ++ f.2

/-- A header is read, then as much of the rest as it says. -/
theorem read_append {h : Bytes} (hlen : h.length = F.size) (t : Bytes) :
    F.read (h ++ t) =
      match F.payloadLen h with
      | none => none
      | some n => if t.length < n then none else (F.read (t.drop n)).map (t.take n ++ ·) := by
  have hpos := F.pos
  have hne : h ++ t ≠ [] := by
    intro hnil
    have := congrArg List.length hnil
    rw [List.length_append, List.length_nil] at this
    omega
  rw [Format.read, if_neg hne, if_neg (by rw [List.length_append]; omega), List.take_left' hlen]
  cases F.payloadLen h with
  | none => rfl
  | some n =>
    dsimp only
    rw [List.length_append, hlen, ← List.drop_drop, List.drop_left' hlen]
    by_cases hn : t.length < n
    · rw [if_pos (by omega), if_pos hn]
    · rw [if_neg (by omega), if_neg hn]

theorem read_payload {h b : Bytes} (hlen : h.length = F.size)
    (hpayload : F.payloadLen h = some b.length) (t : Bytes) :
    F.read (h ++ (b ++ t)) = (F.read t).map (b ++ ·) := by
  rw [read_append hlen, hpayload]
  dsimp only
  rw [if_neg (by rw [List.length_append]; omega), List.take_left, List.drop_left]

/-- A payload of a length below the limit is read. -/
theorem read_frame {f : X × Bytes} (hshort : f.2.length < E.limit) (t : Bytes) :
    F.read (E.frame f ++ t) = (F.read t).map (f.2 ++ ·) := by
  rw [Encoder.frame, List.append_assoc]
  exact read_payload (E.length_header ..) (E.short _ _ hshort) t

/-- Zeros, with a header among them where a reader would look for one. -/
def Encoder.trapped (x : X) (n : ℕ) : Bytes :=
  match F.payloadLen (E.header x n) with
  | none => List.replicate n 0
  | some m => List.replicate m 0 ++ ((255 :: E.trap) ++ List.replicate (n - m - F.size) 0)

theorem length_trapped (x : X) {n : ℕ} (hlong : E.limit ≤ n) : (E.trapped x n).length = n := by
  unfold Encoder.trapped
  cases hm : F.payloadLen (E.header x n) with
  | none => exact List.length_replicate ..
  | some m =>
    have hlt := E.long x n m hlong hm
    rw [List.length_append, List.length_append, List.length_replicate, List.length_replicate,
      E.length_trap]
    omega

/-- **A length that reaches the limit**: the reader takes a part of the payload for a header, and
does not find the payload. -/
theorem read_trapped (x : X) {n : ℕ} (hlong : E.limit ≤ n) (t after : Bytes) :
    F.read (E.frame (x, E.trapped x n) ++ t) ≠ some (E.trapped x n ++ after) := by
  intro hread
  rw [Encoder.frame, List.append_assoc, length_trapped E x hlong] at hread
  unfold Encoder.trapped at hread
  cases hm : F.payloadLen (E.header x n) with
  | none =>
    rw [read_append (E.length_header ..), hm] at hread
    cases hread
  | some m =>
    have hlt := E.long x n m hlong hm
    simp only [hm] at hread
    rw [List.append_assoc, read_payload (E.length_header ..) (by rw [hm, List.length_replicate])]
      at hread
    obtain ⟨b, hb, heq⟩ := Option.map_eq_some_iff.1 hread
    rw [List.append_assoc] at heq
    obtain rfl := List.append_cancel_left heq
    rw [List.append_assoc, read_append E.length_trap, E.payloadLen_trap] at hb
    dsimp only at hb
    split_ifs at hb with hshort
    obtain ⟨b, -, heq⟩ := Option.map_eq_some_iff.1 hb
    -- behind the false header there is a zero, and the header itself does not begin with one
    obtain ⟨j, hj⟩ : ∃ j, n - m - F.size = j + 1 := ⟨n - m - F.size - 1, by omega⟩
    rw [hj, List.replicate_succ, List.cons_append, List.take_succ_cons] at heq
    exact absurd (List.cons.inj heq).1 (by decide)

end Read

/-- **When payloads are read back.**  For a list of lengths, a reader finds the payloads in every
stream of frames with payloads of these lengths exactly if no length reaches the limit. -/
theorem exact_iff {F : Format} {X : Type} [Inhabited X] (E : Encoder F X) (ns : List ℕ) :
    (∀ fs : List (X × Bytes), (fs.map fun f => f.2.length) = ns →
        F.read (fs.flatMap E.frame) = some (fs.flatMap Prod.snd)) ↔
      ∀ n ∈ ns, n < E.limit := by
  induction ns with
  | nil =>
    refine iff_of_true (fun fs hfs => ?_) (List.forall_mem_nil _)
    rw [List.map_eq_nil_iff.1 hfs, List.flatMap_nil, Format.read, if_pos rfl]
    rfl
  | cons n ns ih =>
    rw [List.forall_mem_cons, ← ih]
    have hzeros : ((ns.map fun k => ((default : X), List.replicate k (0 : UInt8))).map
        fun f => f.2.length) = ns := by
      simp [Function.comp_def]
    constructor
    · intro hall
      have hn : n < E.limit := by
        by_contra hlong
        have hlong := not_lt.1 hlong
        have hread := hall ((default, E.trapped default n) ::
          ns.map fun k => (default, List.replicate k 0))
          (by rw [List.map_cons, hzeros, length_trapped E _ hlong])
        rw [List.flatMap_cons, List.flatMap_cons] at hread
        exact read_trapped E default hlong _ _ hread
      refine ⟨hn, fun fs hfs => ?_⟩
      have hread := hall ((default, List.replicate n 0) :: fs)
        (by rw [List.map_cons, hfs, List.length_replicate])
      rw [List.flatMap_cons, List.flatMap_cons,
        read_frame E (by rwa [List.length_replicate])] at hread
      obtain ⟨b, hb, heq⟩ := Option.map_eq_some_iff.1 hread
      rw [hb, List.append_cancel_left heq]
    · rintro ⟨hn, hrest⟩ fs hfs
      cases fs with
      | nil => cases hfs
      | cons f fs =>
        obtain ⟨hf, hfs⟩ := List.cons.inj hfs
        rw [List.flatMap_cons, List.flatMap_cons, read_frame E (lt_of_eq_of_lt hf hn), hrest fs hfs]
        rfl

end LengthFraming
