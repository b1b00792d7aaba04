/-
# DNS queries

Model of `buildDNSQuery` and `splitHostname` in `internal/dns/resolver.go`.  `splitHostname` takes
the host name rune by rune and writes each rune back; `buildDNSQuery` puts the length of each
label in one byte before it.

`query_decodes_iff` says when the question that a reader finds is the host name.  An invalid byte
is written as three others (`length_wire_labels`), and a length byte above 63 is not one.
-/
import IPShadowT.DnsName
import IPShadowT.Utf8

open Bytes DnsName Utf8

namespace DnsQuery

/-! ## The functions -/

/-- The loop of `splitHostname`, over the runes that are left. -/
def splitLoop : List ℕ → (current : Bytes) → (labels : List Bytes) → List Bytes
  | [], current, labels => if current ≠ [] then labels ++ [current] else labels
  | c :: runes, current, labels =>
    if c = dot.toNat then
      if current ≠ [] then splitLoop runes [] (labels ++ [current])
      else splitLoop runes current labels
    else splitLoop runes (current ++ encodeRune c) labels

/-- `splitHostname`. -/
def splitHostname (hostname : Bytes) : List Bytes := splitLoop (range hostname) [] []

/-- The header of a query: the ID, recursion desired, and one question. -/
def queryHeader : Bytes := [0xAB, 0xCD, 0x01, 0x00, 0x00, 0x01, 0, 0, 0, 0, 0, 0]

/-- `buildDNSQuery`. -/
def buildDNSQuery (hostname : Bytes) (qtype : UInt16) : Bytes :=
  queryHeader
    ++ ((splitHostname hostname).flatMap fun label => UInt8.ofNat label.length :: label)
    ++ [0x00] ++ [UInt8.ofNat (qtype.toNat / 256), UInt8.ofNat qtype.toNat] ++ [0x00, 0x01]

/-! ## Labels and parts -/

/-- The non-empty parts of a host name between its dots. -/
def hostParts (hostname : Bytes) : List Bytes := (hostname.splitOn dot).filter (· ≠ [])

/-- The text, unless it is empty. -/
def nonempty (b : Bytes) : List Bytes := if b = [] then [] else [b]

section Split

variable {cur t : Bytes}

theorem splitLoop_append (rs : List ℕ) (cur : Bytes) (labels : List Bytes) :
    splitLoop rs cur labels = labels ++ splitLoop rs cur [] := by
  induction rs generalizing cur labels with
  | nil =>
    rw [splitLoop, splitLoop]
    split_ifs <;> simp
  | cons c rs ih =>
    rw [splitLoop, splitLoop]
    split_ifs
    · rw [ih [] (labels ++ [cur]), ih [] ([] ++ [cur]), List.append_assoc, List.nil_append]
    · exact ih cur labels
    · exact ih _ labels

/-- At a dot, the label that was begun is done. -/
theorem splitLoop_dot (rs : List ℕ) (cur : Bytes) :
    splitLoop (dot.toNat :: rs) cur [] = nonempty cur ++ splitLoop rs [] [] := by
  rw [splitLoop, if_pos rfl, nonempty]
  by_cases hcur : cur = []
  · rw [if_neg (not_not.2 hcur), if_pos hcur, hcur]
    rfl
  · rw [if_pos hcur, if_neg hcur, splitLoop_append]
    rfl

theorem splitLoop_rune {c : ℕ} (hc : c ≠ dot.toNat) (rs : List ℕ) (cur : Bytes) :
    splitLoop (c :: rs) cur [] = splitLoop rs (cur ++ encodeRune c) [] := by
  rw [splitLoop, if_neg hc]

theorem splitLoop_nil (cur : Bytes) : splitLoop [] cur [] = nonempty cur := by
  rw [splitLoop, nonempty]
  by_cases hcur : cur = []
  · rw [if_neg (not_not.2 hcur), if_pos hcur]
  · rw [if_pos hcur, if_neg hcur]
    rfl

theorem filter_singleton_nonempty (b : Bytes) : [b].filter (· ≠ []) = nonempty b := by
  rw [List.filter_singleton, nonempty]
  by_cases hb : b = [] <;> simp [hb]

theorem hostParts_nil (hcur : dot ∉ cur) : hostParts cur = nonempty cur := by
  have hsplit : cur.splitOn dot = [cur] := by
    refine List.splitOnP_eq_singleton fun x hx => ?_
    exact beq_false_of_ne fun h => hcur (h ▸ hx)
  rw [hostParts, hsplit, filter_singleton_nonempty]

theorem hostParts_dot (hcur : dot ∉ cur) (t : Bytes) :
    hostParts (cur ++ dot :: t) = nonempty cur ++ hostParts t := by
  have hsplit : (cur ++ dot :: t).splitOn dot = cur.splitOn dot ++ t.splitOn dot :=
    List.splitOnP_append_cons cur t (beq_self_eq_true dot)
  rw [← hostParts_nil hcur, hostParts, hsplit, List.filter_append]
  rfl

end Split

/-! ## Valid and invalid host names -/

section Hostname

variable {s : Bytes}

theorem dot_ascii : dot.toNat < 0x80 := by decide

/-- A round of `range` that takes a dot ends a part. -/
theorem hostParts_round_dot (hs : s ≠ []) (hr : (decodeRune s).1 = dot.toNat) {cur : Bytes}
    (hcur : dot ∉ cur) :
    hostParts (cur ++ s) = nonempty cur ++ hostParts (s.drop (decodeRune s).2) := by
  have hsplit : s = dot :: s.drop (decodeRune s).2 := by
    conv_lhs => rw [← List.take_append_drop (decodeRune s).2 s, take_of_ascii dot_ascii hs hr]
    rfl
  conv_lhs => rw [hsplit]
  exact hostParts_dot hcur _

/-- A round that takes another rune adds no dot. -/
theorem dot_not_mem_round (hs : s ≠ []) (hr : (decodeRune s).1 ≠ dot.toNat) {cur : Bytes}
    (hcur : dot ∉ cur) : dot ∉ cur ++ s.take (decodeRune s).2 := by
  intro hmem
  rcases List.mem_append.1 hmem with hmem | hmem
  · exact hcur hmem
  · exact not_mem_take_of_ne dot_ascii hs hr hmem

/-- The labels of a valid text are its parts. -/
theorem splitLoop_of_valid (h : Valid s) {cur : Bytes} (hcur : dot ∉ cur) :
    splitLoop (range s) cur [] = hostParts (cur ++ s) := by
  induction h generalizing cur with
  | nil =>
    rw [List.append_nil, hostParts_nil hcur]
    exact splitLoop_nil cur
  | @cons s r w hfirst _ ih =>
    obtain ⟨hencode, hpos, hle⟩ := encodeRune_of_first hfirst
    have hs : s ≠ [] := by
      rintro rfl
      cases hfirst
    obtain ⟨rfl, rfl⟩ : (decodeRune s).1 = r ∧ (decodeRune s).2 = w := by
      rw [decodeRune, hfirst]
      exact ⟨rfl, rfl⟩
    rw [range_eq_cons hs]
    by_cases hr : (decodeRune s).1 = dot.toNat
    · rw [hr, splitLoop_dot, ih List.not_mem_nil, List.nil_append, hostParts_round_dot hs hr hcur]
    · rw [splitLoop_rune hr, hencode, ih (dot_not_mem_round hs hr hcur), List.append_assoc,
        List.take_append_drop]

theorem length_wire_nonempty {cur cur' : Bytes} (hempty : cur = [] ↔ cur' = []) :
    (wire (nonempty cur)).length + cur'.length = (wire (nonempty cur')).length + cur.length := by
  unfold nonempty
  by_cases hcur : cur = []
  · rw [if_pos hcur, if_pos (hempty.1 hcur), hcur, hempty.1 hcur]
  · rw [if_neg hcur, if_neg fun h => hcur (hempty.2 h), length_wire_cons, length_wire_cons]
    omega

/-- **Labels get longer by what is not valid**: between the labels and the parts there is the
difference between the runes and the text. -/
theorem length_wire_labels (s cur cur' : Bytes) (hempty : cur = [] ↔ cur' = [])
    (hcur : dot ∉ cur') :
    (wire (splitLoop (range s) cur [])).length + (cur'.length + s.length) =
      (wire (hostParts (cur' ++ s))).length + (cur.length + (reencode s).length) := by
  induction s using range_induction generalizing cur cur' with
  | nil =>
    rw [List.append_nil, hostParts_nil hcur, show range [] = [] from rfl, splitLoop_nil]
    exact length_wire_nonempty hempty
  | cons s hs ih =>
    have hlen : s.length
        = (s.take (decodeRune s).2).length + (s.drop (decodeRune s).2).length := by
      rw [← List.length_append, List.take_append_drop]
    rw [range_eq_cons hs, length_reencode hs]
    by_cases hr : (decodeRune s).1 = dot.toNat
    · have hone : (encodeRune dot.toNat).length = 1 := rfl
      have hrest := ih [] [] Iff.rfl List.not_mem_nil
      have hself := length_wire_nonempty hempty
      rw [List.nil_append] at hrest
      rw [take_of_ascii dot_ascii hs hr] at hlen
      rw [hr, splitLoop_dot, hostParts_round_dot hs hr hcur, wire_append, wire_append,
        List.length_append, List.length_append, hone]
      simp only [List.length_nil, List.length_singleton] at hrest hlen
      omega
    · have hempty' : cur ++ encodeRune (decodeRune s).1 = [] ↔
          cur' ++ s.take (decodeRune s).2 = [] := by
        refine iff_of_false (fun h => ?_) fun h => ?_
        · exact encodeRune_ne_nil _ (List.append_eq_nil_iff.1 h).2
        · exact take_decodeRune_ne_nil hs (List.append_eq_nil_iff.1 h).2
      have hrest := ih _ _ hempty' (dot_not_mem_round hs hr hcur)
      rw [List.append_assoc, List.take_append_drop, List.length_append, List.length_append]
        at hrest
      rw [splitLoop_rune hr]
      omega

theorem length_of_mem_hostParts (cur : Bytes) {part : Bytes} (hcur : dot ∉ cur)
    (h : part ∈ hostParts (cur ++ s)) :
    1 ≤ part.length ∧ part.length ≤ cur.length + s.length := by
  have hself : ∀ {b : Bytes} {n : ℕ}, part ∈ nonempty b → b.length ≤ n →
      1 ≤ part.length ∧ part.length ≤ n := by
    intro b n hmem hle
    unfold nonempty at hmem
    split_ifs at hmem with hb
    · cases hmem
    · rw [List.mem_singleton.1 hmem]
      exact ⟨List.length_pos_iff.2 hb, hle⟩
  induction s generalizing cur with
  | nil =>
    rw [List.append_nil, hostParts_nil hcur] at h
    exact hself h (Nat.le_add_right ..)
  | cons b s ih =>
    by_cases hb : b = dot
    · rw [hb, hostParts_dot hcur] at h
      rcases List.mem_append.1 h with hmem | hmem
      · exact hself hmem (Nat.le_add_right ..)
      · have hrest := ih [] List.not_mem_nil hmem
        rw [List.length_nil] at hrest
        rw [List.length_cons]
        omega
    · have hcur' : dot ∉ cur ++ [b] := by
        intro hmem
        rcases List.mem_append.1 hmem with hmem | hmem
        · exact hcur hmem
        · exact hb (List.mem_singleton.1 hmem).symm
      have hrest := ih _ hcur' (by rwa [List.append_assoc, List.singleton_append])
      rw [List.length_append, List.length_singleton] at hrest
      rw [List.length_cons]
      omega

/-- The question of a query. -/
theorem drop_buildDNSQuery (hostname : Bytes) (qtype : UInt16) :
    (buildDNSQuery hostname qtype).drop 12 =
      wire (splitHostname hostname) ++ 0 :: (beBytes 2 qtype.toNat ++ [0, 1]) :=
  drop_message (show queryHeader.length = 12 by decide) (splitHostname hostname) qtype

end Hostname

/-- **When the question is the host name.**  A reader finds the non-empty parts of the host name,
and behind them type and class, exactly if the host name is valid UTF-8 and no part is longer than
63 bytes. -/
theorem query_decodes_iff (hostname : Bytes) (hlen : hostname.length ≤ 253) (qtype : UInt16) :
    decode ((buildDNSQuery hostname qtype).drop 12)
        = some (hostParts hostname, beBytes 2 qtype.toNat ++ [0, 1]) ↔
      Valid hostname ∧ ∀ part ∈ hostParts hostname, part.length ≤ 63 := by
  have hparts : ∀ part ∈ hostParts hostname, 1 ≤ part.length ∧ part.length ≤ 255 := by
    intro part hpart
    have hbound := length_of_mem_hostParts [] List.not_mem_nil hpart
    rw [List.length_nil] at hbound
    omega
  have hlabels : Valid hostname → splitHostname hostname = hostParts hostname :=
    fun hvalid => splitLoop_of_valid hvalid List.not_mem_nil
  rw [drop_buildDNSQuery]
  constructor
  · intro hdecode
    have hvalid : Valid hostname := by
      -- the labels are no longer than the parts, so no byte was replaced
      have hread := length_of_decode hdecode
      have hwire := length_wire_labels hostname [] [] Iff.rfl List.not_mem_nil
      rw [List.nil_append] at hwire
      rw [List.length_append, List.length_cons, splitHostname] at hread
      refine valid_of_length_reencode ?_
      simp only [List.length_nil] at hwire
      omega
    refine ⟨hvalid, ?_⟩
    rw [hlabels hvalid] at hdecode
    exact (decode_wire_iff hparts _).1 ⟨_, hdecode⟩
  · rintro ⟨hvalid, hshort⟩
    rw [hlabels hvalid]
    exact decode_wire (fun part hpart => ⟨(hparts part hpart).1, hshort part hpart⟩) _

/-- A query for the A record of `a.b`. -/
theorem query_decodes_example :
    decode ((buildDNSQuery [97, 46, 98] 1).drop 12) = some ([[97], [98]], [0, 1, 0, 1]) := by
  have hvalid : Valid [97, 46, 98] :=
    .cons (w := 1) (r := 97) rfl (.cons (w := 1) (r := 46) rfl (.cons (w := 1) (r := 98) rfl .nil))
  exact (query_decodes_iff [97, 46, 98] (by decide) 1).2 ⟨hvalid, by decide⟩

/-- **Two host names that are not found in their queries**: a part of 64 bytes has a length byte
that is not one of a label, and a byte that is not UTF-8 is replaced. -/
theorem query_not_decoded :
    hostParts (List.replicate 64 97) = [List.replicate 64 97] ∧
      decode ((buildDNSQuery (List.replicate 64 97) 1).drop 12) = none ∧
      hostParts [0xFF] = [[0xFF]] ∧
      decode ((buildDNSQuery [0xFF] 1).drop 12) = some ([[0xEF, 0xBF, 0xBD]], [0, 1, 0, 1]) := by
  have hlong : splitHostname (List.replicate 64 97) = [List.replicate 64 97] := by decide +kernel
  have hreplaced : splitHostname [0xFF] = [[0xEF, 0xBF, 0xBD]] := by decide +kernel
  refine ⟨by decide +kernel, ?_, by decide +kernel, ?_⟩
  · rw [drop_buildDNSQuery, hlong, wire_cons, List.cons_append, List.append_assoc,
      decode_label (by decide) (by decide), if_pos (by decide)]
  · rw [drop_buildDNSQuery, hreplaced, decode_wire (by decide)]
    rfl

end DnsQuery
