/-
# Protocol morphing

Model of `MorphedConn.Write` and the functions that frame a buffer in
`internal/stealth/protocol_morph.go`.  Each of the imitated protocols has its own way to say how
long a buffer is, and none of the functions looks at the length.

`morph_decodable_iff` says for which lengths of buffers a reader of the protocol gets them back.
The three protocols with a length field of fixed width are `Encoder`s; in HTTP/1.1 any length can
be written, but a chunk of length zero is the last one (`readChunks_chunks`).
-/
import IPShadowT.IPAddr
import IPShadowT.LengthFraming
import IPShadowT.Stream

open Bytes IPAddr LengthFraming

namespace ProtocolMorph

/-! ## The frames -/

/-- The morph types; `other` is any text that is not one of the constants. -/
inductive MorphType where
  | http1
  | http2
  | tls13
  | dnstcp
  | other
  deriving DecidableEq, Repr

/-- A date as `Format` writes it: letters, digits and signs, without an end of line. -/
structure Date where
  text : Bytes
  plain : 13 ∉ text

/-- What a call of `Write` gets from outside: the time and two random bytes. -/
structure Env where
  date : Date
  randID : UInt16

instance : Inhabited Env := ⟨⟨⟨[], List.not_mem_nil⟩, 0⟩⟩

/-- A call of `Write`, with its buffer. -/
abbrev Call := Env × Bytes

def crlf : Bytes := [13, 10]

def ascii (s : String) : Bytes := s.toList.map fun c => UInt8.ofNat c.toNat

/-- The lines of the header in `wrapAsHTTP1`. -/
def headerLines (date : Date) : List Bytes :=
  [ascii "HTTP/1.1 200 OK", ascii "Content-Type: application/octet-stream",
    ascii "Transfer-Encoding: chunked", ascii "Server: nginx/1.24.0", ascii "Date: " ++ date.text]

def http1Header (date : Date) : Bytes := ((headerLines date).flatMap (· ++ crlf)) ++ crlf

/-- A chunk: `%x` of the length, and the data. -/
def chunk (data : Bytes) : Bytes := hex data.length ++ crlf ++ data ++ crlf

/-- `wrapAsHTTP1`. -/
def wrapAsHTTP1 (data : Bytes) (isFirst : Bool) (date : Date) : Bytes :=
  if isFirst then http1Header date ++ chunk data else chunk data

/-- The header that `wrapAsHTTP2` writes: the length in 24 bits, type, flags and stream. -/
def http2Header (n : ℕ) : Bytes :=
  [UInt8.ofNat (n / 65536), UInt8.ofNat (n / 256), UInt8.ofNat n, 0x00, 0x00, 0, 0, 0, 1]

/-- `wrapAsHTTP2`. -/
def wrapAsHTTP2 (data : Bytes) : Bytes := http2Header data.length ++ data

/-- The header of a record: type, version, and `uint16(len(data))`. -/
def tls13Header (n : ℕ) : Bytes := [0x17, 0x03, 0x03] ++ beBytes 2 n

/-- `wrapAsTLS13AppData`. -/
def wrapAsTLS13AppData (data : Bytes) : Bytes := tls13Header data.length ++ data

/-- The length `uint16(12 + len(data))` and the header of a response. -/
def dnsHeader (randID : UInt16) (n : ℕ) : Bytes :=
  beBytes 2 (12 + n) ++ beBytes 2 randID.toNat ++ [0x81, 0x80, 0x00, 0x01, 0x00, 0x01, 0, 0, 0, 0]

/-- `wrapAsDNSTCP`. -/
def wrapAsDNSTCP (data : Bytes) (randID : UInt16) : Bytes := dnsHeader randID data.length ++ data

/-- `MorphedConn`. -/
structure MorphedConn where
  conn : Sink
  morphType : MorphType
  isFirst : Bool

/-- `WrapConn`. -/
def wrapConn (morphType : MorphType) (conn : Sink) : MorphedConn := ⟨conn, morphType, true⟩

/-- The frame that `Write` makes of a buffer. -/
def frame (morphType : MorphType) (isFirst : Bool) (c : Call) : Bytes :=
  match morphType with
  | .http1 => wrapAsHTTP1 c.2 isFirst c.1.date
  | .http2 => wrapAsHTTP2 c.2
  | .tls13 => wrapAsTLS13AppData c.2
  | .dnstcp => wrapAsDNSTCP c.2 c.1.randID
  | .other => c.2

/-- `Write`: the count that is reported, whether there is no error, and the connection. -/
def write (mc : MorphedConn) (c : Call) : ℕ × Bool × MorphedConn :=
  let (ok, conn) := mc.conn.write (frame mc.morphType mc.isFirst c)
  let mc := ⟨conn, mc.morphType, false⟩
  if ok then (c.2.length, true, mc) else (0, false, mc)

/-- Calls one after the other, and whether all of them report their buffers as written. -/
def writeAll : MorphedConn → List Call → Bool × MorphedConn
  | mc, [] => (true, mc)
  | mc, c :: cs =>
    let (n, ok, mc) := write mc c
    let (rest, mc) := writeAll mc cs
    (ok && n = c.2.length && rest, mc)

/-! ## The readers -/

/-- A line, and what stands behind it. -/
def line : Bytes → Option (Bytes × Bytes)
  | [] => none
  | b :: rest =>
    if b = 13 ∧ rest.head? = some 10 then some ([], rest.tail)
    else (line rest).map fun r => (b :: r.1, r.2)

/-- What stands behind the header of a response, which ends with an empty line. -/
def skipHeader : (fuel : ℕ) → Bytes → Option Bytes
  | 0, _ => none
  | fuel + 1, s =>
    match line s with
    | none => none
    | some (l, rest) => if l = [] then some rest else skipHeader fuel rest

def isHexDigit (c : UInt8) : Bool :=
  (48 ≤ c.toNat ∧ c.toNat ≤ 57) ∨ (65 ≤ c.toNat ∧ c.toNat ≤ 70) ∨ (97 ≤ c.toNat ∧ c.toNat ≤ 102)

/-- The size of a chunk, from its line. -/
def chunkSize (l : Bytes) : Option ℕ :=
  if l ≠ [] ∧ l.all isHexDigit then some (ofNumeral 16 l) else none

/-- The data of chunks, up to the one of size zero or the end of the stream. -/
def readChunks : (fuel : ℕ) → Bytes → Option Bytes
  | 0, _ => none
  | fuel + 1, s =>
    if s = [] then some []
    else
      match line s with
      | none => none
      | some (l, rest) =>
        match chunkSize l with
        | none => none
        | some n =>
          if n = 0 then some []
          else if (rest.drop n).take 2 = crlf then
            (readChunks fuel (rest.drop (n + 2))).map (rest.take n ++ ·)
          else none

/-- A reader of HTTP/1.1. -/
def readHTTP1 (s : Bytes) : Option Bytes :=
  if s = [] then some []
  else (skipHeader (s.length + 1) s).bind fun body => readChunks (s.length + 1) body

/-- The frames of HTTP/2. -/
def http2Format : Format := ⟨9, Nat.succ_pos 8, fun h => some (beNat (h.take 3))⟩

/-- The records of TLS. -/
def tls13Format : Format := ⟨5, Nat.succ_pos 4, fun h => some (beNat ((h.drop 3).take 2))⟩

/-- The messages of DNS over TCP, of at least 12 bytes, and what stands behind their headers. -/
def dnsFormat : Format :=
  ⟨14, Nat.succ_pos 13, fun h =>
    if 12 ≤ beNat (h.take 2) then some (beNat (h.take 2) - 12) else none⟩

/-- A reader of the protocol. -/
def MorphType.read : MorphType → Bytes → Option Bytes
  | .http1 => readHTTP1
  | .http2 => http2Format.read
  | .tls13 => tls13Format.read
  | .dnstcp => dnsFormat.read
  | .other => some

/-- The lengths of buffers that a reader gets back. -/
def Fits : MorphType → List ℕ → Prop
  | .http1, ns => ∀ n ∈ ns.dropWhile (· ≠ 0), n = 0
  | .http2, ns => ∀ n ∈ ns, n < 16777216
  | .tls13, ns => ∀ n ∈ ns, n < 65536
  | .dnstcp, ns => ∀ n ∈ ns, n < 65524
  | .other, _ => True

/-! ## Length fields of fixed width -/

theorem payloadLen_http2Header (n : ℕ) :
    http2Format.payloadLen (http2Header n) = some (n % 16777216) := by
  have hfield : (http2Header n).take 3 = beBytes 3 n := by
    simp [http2Header, beBytes]
  show some (beNat ((http2Header n).take 3)) = _
  rw [hfield, beNat_beBytes]
  rfl

theorem payloadLen_tls13Header (n : ℕ) :
    tls13Format.payloadLen (tls13Header n) = some (n % 65536) := by
  show some (beNat (beBytes 2 n)) = _
  rw [beNat_beBytes]
  rfl

theorem payloadLen_dnsHeader (randID : UInt16) (n : ℕ) :
    dnsFormat.payloadLen (dnsHeader randID n) =
      if 12 ≤ (12 + n) % 65536 then some ((12 + n) % 65536 - 12) else none := by
  show (if 12 ≤ beNat (beBytes 2 (12 + n)) then some (beNat (beBytes 2 (12 + n)) - 12)
    else none) = _
  rw [beNat_beBytes]
  rfl

/-- The length field of HTTP/2 wraps at three bytes. -/
def http2Encoder : Encoder http2Format Env where
  header _ := http2Header
  length_header _ _ := rfl
  limit := 16777216
  short _ n h := by rw [payloadLen_http2Header, Nat.mod_eq_of_lt h]
  long _ n m h hm := by
    rw [payloadLen_http2Header] at hm
    have := Option.some.inj hm
    show m + 9 < n
    omega
  trap := [0, 0, 0, 0, 0, 0, 0, 0]
  length_trap := rfl
  trapLen := 16711679
  payloadLen_trap := rfl

/-- That of a record wraps at two. -/
def tls13Encoder : Encoder tls13Format Env where
  header _ := tls13Header
  length_header _ _ := rfl
  limit := 65536
  short _ n h := by rw [payloadLen_tls13Header, Nat.mod_eq_of_lt h]
  long _ n m h hm := by
    rw [payloadLen_tls13Header] at hm
    have := Option.some.inj hm
    show m + 5 < n
    omega
  trap := [0, 0, 0, 1]
  length_trap := rfl
  trapLen := 0
  payloadLen_trap := rfl

/-- That of a message counts the twelve bytes of its header, too. -/
def dnsEncoder : Encoder dnsFormat Env where
  header e := dnsHeader e.randID
  length_header _ _ := rfl
  limit := 65524
  short e n h := by
    rw [payloadLen_dnsHeader, Nat.mod_eq_of_lt (by omega), if_pos (by omega),
      Nat.add_sub_cancel_left]
  long e n m h hm := by
    rw [payloadLen_dnsHeader] at hm
    split_ifs at hm with hmin
    have := Option.some.inj hm
    show m + 14 < n
    omega
  trap := [0, 0, 0, 0, 0, 0, 0, 0, 0, 0, 0, 0, 0]
  length_trap := rfl
  trapLen := 65267
  payloadLen_trap := by simp [dnsFormat, beNat]

/-! ## Chunks -/

theorem line_append {l : Bytes} (h : 13 ∉ l) (rest : Bytes) :
    line (l ++ (crlf ++ rest)) = some (l, rest) := by
  induction l with
  | nil => exact if_pos ⟨rfl, rfl⟩
  | cons b l ih =>
    have hb : b ≠ 13 := fun heq => h (heq ▸ List.mem_cons_self)
    rw [List.cons_append, line, if_neg fun hcr => hb hcr.1,
      ih fun hmem => h (List.mem_cons_of_mem b hmem)]
    rfl

/-- The lines of a header are skipped. -/
theorem skipHeader_lines {lines : List Bytes} (h : ∀ l ∈ lines, l ≠ [] ∧ 13 ∉ l) {fuel : ℕ}
    (hfuel : lines.length < fuel) (rest : Bytes) :
    skipHeader fuel (lines.flatMap (· ++ crlf) ++ (crlf ++ rest)) = some rest := by
  induction lines generalizing fuel with
  | nil =>
    obtain ⟨fuel, rfl⟩ : ∃ k, fuel = k + 1 := ⟨fuel - 1, by omega⟩
    rw [List.flatMap_nil, skipHeader, line_append List.not_mem_nil]
    exact if_pos rfl
  | cons l lines ih =>
    obtain ⟨⟨hne, hl⟩, hlines⟩ := List.forall_mem_cons.1 h
    rw [List.length_cons] at hfuel
    obtain ⟨fuel, rfl⟩ : ∃ k, fuel = k + 1 := ⟨fuel - 1, by omega⟩
    rw [List.flatMap_cons, List.append_assoc, List.append_assoc, skipHeader, line_append hl]
    dsimp only
    rw [if_neg hne, ih hlines (by omega)]

theorem headerLines_plain (date : Date) : ∀ l ∈ headerLines date, l ≠ [] ∧ 13 ∉ l := by
  have hfixed : ∀ l ∈ [ascii "HTTP/1.1 200 OK", ascii "Content-Type: application/octet-stream",
      ascii "Transfer-Encoding: chunked", ascii "Server: nginx/1.24.0", ascii "Date: "],
      l ≠ [] ∧ 13 ∉ l := by
    decide +kernel
  intro l hl
  simp only [headerLines, List.mem_cons, List.not_mem_nil, or_false] at hl
  rcases hl with rfl | rfl | rfl | rfl | rfl
  · exact hfixed _ (by simp)
  · exact hfixed _ (by simp)
  · exact hfixed _ (by simp)
  · exact hfixed _ (by simp)
  · obtain ⟨hne, hplain⟩ := hfixed (ascii "Date: ") (by simp)
    refine ⟨List.append_ne_nil_of_left_ne_nil hne _, fun hmem => ?_⟩
    rcases List.mem_append.1 hmem with hmem | hmem
    · exact hplain hmem
    · exact date.plain hmem

theorem chunkSize_hex (n : ℕ) : chunkSize (hex n) = some n := by
  have hdigit : ∀ d < 16, isHexDigit (digitByte d) = true := by decide
  have hall : (hex n).all isHexDigit = true := by
    rw [List.all_eq_true]
    intro c hc
    obtain ⟨d, hd, rfl⟩ := exists_of_mem_numeral (by decide) hc
    exact hdigit d hd
  have hvalue : ofNumeral 16 (hex n) = n :=
    ofNumeral_numeral (by decide) (by decide) (Nat.lt_succ_self n)
  rw [chunkSize, if_pos ⟨numeral_ne_nil _ _ _, hall⟩, hvalue]

/-- One chunk is read; an empty one is the last. -/
theorem readChunks_chunk (fuel : ℕ) (b rest : Bytes) :
    readChunks (fuel + 1) (chunk b ++ rest) =
      if b = [] then some [] else (readChunks fuel rest).map (b ++ ·) := by
  have hchunk : chunk b ++ rest = hex b.length ++ (crlf ++ (b ++ (crlf ++ rest))) := by
    simp only [chunk, List.append_assoc]
  have hne : chunk b ++ rest ≠ [] := by
    rw [hchunk]
    exact List.append_ne_nil_of_left_ne_nil (numeral_ne_nil _ _ _) _
  have hcr : 13 ∉ hex b.length := not_mem_numeral (by decide) (by decide) _ _
  rw [readChunks, if_neg hne, hchunk, line_append hcr]
  dsimp only
  rw [chunkSize_hex]
  dsimp only
  by_cases hb : b = []
  · rw [if_pos hb, hb, if_pos List.length_nil]
  · have hlen : b.length ≠ 0 := fun h => hb (List.eq_nil_of_length_eq_zero h)
    have hend : (crlf ++ rest).take 2 = crlf := rfl
    rw [if_neg hb, if_neg hlen, List.drop_left, List.take_left, if_pos hend, ← List.drop_drop,
      List.drop_left]
    rfl

/-- **What a reader finds in chunks**: the buffers before the first that is empty. -/
theorem readChunks_chunks (bs : List Bytes) {fuel : ℕ} (hfuel : bs.length < fuel) :
    readChunks fuel (bs.flatMap chunk) = some (bs.takeWhile (· ≠ [])).flatten := by
  induction bs generalizing fuel with
  | nil =>
    obtain ⟨fuel, rfl⟩ : ∃ k, fuel = k + 1 := ⟨fuel - 1, by omega⟩
    exact if_pos rfl
  | cons b bs ih =>
    rw [List.length_cons] at hfuel
    obtain ⟨fuel, rfl⟩ : ∃ k, fuel = k + 1 := ⟨fuel - 1, by omega⟩
    rw [List.flatMap_cons, readChunks_chunk, ih (by omega), List.takeWhile_cons]
    by_cases hb : b = []
    · rw [if_pos hb, hb]
      rfl
    · rw [if_neg hb, if_pos (by simpa using hb), List.flatten_cons]
      rfl

/-! ## Calls of `Write` -/

/-- What the calls write. -/
def stream (t : MorphType) : Bool → List Call → Bytes
  | _, [] => []
  | isFirst, c :: cs => frame t isFirst c ++ stream t false cs

theorem writeAll_of_true {mc : MorphedConn} {cs : List Call} (h : (writeAll mc cs).1 = true) :
    (writeAll mc cs).2.conn.written = mc.conn.written ++ stream mc.morphType mc.isFirst cs := by
  induction cs generalizing mc with
  | nil => exact (List.append_nil _).symm
  | cons c cs ih =>
    obtain ⟨sent, -, hwritten, hall⟩ := mc.conn.write_sent (frame mc.morphType mc.isFirst c)
    rw [writeAll, write] at h ⊢
    cases hok : (mc.conn.write (frame mc.morphType mc.isFirst c)).1 with
    | false => simp [hok] at h
    | true =>
      simp only [hok, if_true, Bool.true_and, Bool.and_eq_true] at h ⊢
      rw [ih h.2, hwritten, hall hok, List.append_assoc]
      rfl

/-- On a connection that takes everything all buffers are reported as written. -/
theorem writeAll_of_reliable {mc : MorphedConn} (h : mc.conn.Reliable) (cs : List Call) :
    (writeAll mc cs).1 = true := by
  induction cs generalizing mc with
  | nil => rfl
  | cons c cs ih =>
    rw [writeAll, write, Sink.write_of_reliable h]
    simpa using @ih ⟨⟨_, []⟩, mc.morphType, false⟩ rfl

/-- Where the first frame is like the others, the stream is their concatenation. -/
theorem stream_eq_flatMap {t : MorphType} (h : t ≠ .http1) (isFirst : Bool) (cs : List Call) :
    stream t isFirst cs = cs.flatMap (frame t false) := by
  induction cs generalizing isFirst with
  | nil => rfl
  | cons c cs ih =>
    have hframe : frame t isFirst c = frame t false c := by
      cases t with
      | http1 => exact absurd rfl h
      | _ => rfl
    rw [stream, ih, hframe, List.flatMap_cons]

theorem stream_http1 (cs : List Call) :
    stream .http1 false cs = (cs.map Prod.snd).flatMap chunk := by
  induction cs with
  | nil => rfl
  | cons c cs ih =>
    rw [stream, ih, List.map_cons, List.flatMap_cons]
    rfl

/-- **A reader of HTTP/1.1** finds the buffers before the first that is empty. -/
theorem readHTTP1_stream (cs : List Call) :
    readHTTP1 (stream .http1 true cs) = some ((cs.map Prod.snd).takeWhile (· ≠ [])).flatten := by
  cases cs with
  | nil => rfl
  | cons c cs =>
    have hstream : stream .http1 true (c :: cs) = (headerLines c.1.date).flatMap (· ++ crlf) ++
        (crlf ++ ((c :: cs).map Prod.snd).flatMap chunk) := by
      rw [stream, stream_http1]
      show http1Header c.1.date ++ chunk c.2 ++ _ = _
      rw [http1Header, List.map_cons, List.flatMap_cons]
      simp only [List.append_assoc]
    generalize hlines : headerLines c.1.date = lines at hstream
    generalize (c :: cs).map Prod.snd = bs at hstream
    have hfuel : lines.length < (stream .http1 true (c :: cs)).length + 1 ∧
        bs.length < (stream .http1 true (c :: cs)).length + 1 := by
      have hle : bs.length ≤ (bs.flatMap chunk).length :=
        length_le_flatMap (fun b => by simp [chunk, crlf]) bs
      have hle' : lines.length ≤ (lines.flatMap (· ++ crlf)).length :=
        length_le_flatMap (fun l => by simp [crlf]) lines
      rw [hstream, List.length_append, List.length_append]
      omega
    have hne : stream .http1 true (c :: cs) ≠ [] := by
      rw [hstream]
      exact List.append_ne_nil_of_right_ne_nil _ (List.cons_ne_nil _ _)
    rw [readHTTP1, if_neg hne]
    generalize (stream .http1 true (c :: cs)).length + 1 = fuel at hfuel
    rw [hstream, skipHeader_lines (by rw [← hlines]; exact headerLines_plain _) hfuel.1]
    exact readChunks_chunks bs hfuel.2

theorem flatten_takeWhile_iff (bs : List Bytes) :
    (bs.takeWhile (· ≠ [])).flatten = bs.flatten ↔
      ∀ n ∈ (bs.map List.length).dropWhile (· ≠ 0), n = 0 := by
  induction bs with
  | nil => simp
  | cons b bs ih =>
    by_cases hb : b = []
    · subst hb
      rw [List.takeWhile_cons, if_neg (by simp), List.map_cons, List.dropWhile_cons,
        if_neg (by simp), List.forall_mem_cons, List.forall_mem_map, List.flatten_cons,
        List.nil_append, eq_comm, List.flatten_nil, List.flatten_eq_nil_iff]
      simp only [List.length_nil, true_and, List.length_eq_zero_iff]
    · rw [List.takeWhile_cons, if_pos (by simpa using hb), List.flatten_cons, List.flatten_cons,
        List.append_cancel_left_eq, ih, List.map_cons, List.dropWhile_cons,
        if_pos (by simpa using hb)]

/-- What `Write` reports as written is the stream, so that the connection does not matter. -/
theorem reads_written_iff (t : MorphType) (ns : List ℕ) :
    (∀ (conn : Sink) (cs : List Call), conn.written = [] → (cs.map fun c => c.2.length) = ns →
        (writeAll (wrapConn t conn) cs).1 = true →
        t.read (writeAll (wrapConn t conn) cs).2.conn.written = some (cs.flatMap Prod.snd)) ↔
      ∀ cs : List Call, (cs.map fun c => c.2.length) = ns →
        t.read (stream t true cs) = some (cs.flatMap Prod.snd) := by
  constructor
  · intro hall cs hns
    have hreliable : (wrapConn t ⟨[], []⟩).conn.Reliable := rfl
    have hok := writeAll_of_reliable hreliable cs
    have hread := hall ⟨[], []⟩ cs rfl hns hok
    rwa [writeAll_of_true hok] at hread
  · intro hall conn cs hempty hns hok
    rw [writeAll_of_true hok]
    show t.read (conn.written ++ stream t true cs) = _
    rw [hempty]
    exact hall cs hns

/-- In HTTP/1.1 what is in the buffers does not matter, only their lengths. -/
theorem http1_exact_iff (ns : List ℕ) :
    (∀ cs : List Call, (cs.map fun c => c.2.length) = ns →
        MorphType.http1.read (stream .http1 true cs) = some (cs.flatMap Prod.snd)) ↔
      Fits .http1 ns := by
  have hone : ∀ cs : List Call, (cs.map fun c => c.2.length) = ns →
      (MorphType.http1.read (stream .http1 true cs) = some (cs.flatMap Prod.snd) ↔
        Fits .http1 ns) := by
    intro cs hns
    have hlen : (cs.map Prod.snd).map List.length = ns := by
      rw [List.map_map, ← hns]
      rfl
    rw [MorphType.read, readHTTP1_stream, Option.some.injEq, List.flatMap_def,
      flatten_takeWhile_iff, hlen]
    rfl
  constructor
  · intro hall
    have hzeros : ((ns.map fun n => ((default : Env), List.replicate n (0 : UInt8))).map
        fun c => c.2.length) = ns := by
      simp [Function.comp_def]
    exact (hone _ hzeros).1 (hall _ hzeros)
  · intro hfits cs hns
    exact (hone cs hns).2 hfits

/-- **When a morphed stream is decodable.**  For a morph type and lengths of buffers: whatever is
in the buffers, if `Write` reports all of them as written, a reader of the protocol finds their
concatenation; exactly if the lengths fit. -/
theorem morph_decodable_iff (t : MorphType) (ns : List ℕ) :
    (∀ (conn : Sink) (cs : List Call), conn.written = [] → (cs.map fun c => c.2.length) = ns →
        (writeAll (wrapConn t conn) cs).1 = true →
        t.read (writeAll (wrapConn t conn) cs).2.conn.written = some (cs.flatMap Prod.snd)) ↔
      Fits t ns := by
  rw [reads_written_iff]
  cases t with
  | http1 => exact http1_exact_iff ns
  | http2 =>
    simp only [stream_eq_flatMap (show MorphType.http2 ≠ .http1 by decide)]
    exact exact_iff http2Encoder ns
  | tls13 =>
    simp only [stream_eq_flatMap (show MorphType.tls13 ≠ .http1 by decide)]
    exact exact_iff tls13Encoder ns
  | dnstcp =>
    simp only [stream_eq_flatMap (show MorphType.dnstcp ≠ .http1 by decide)]
    exact exact_iff dnsEncoder ns
  | other =>
    refine iff_of_true (fun cs _ => ?_) trivial
    rw [stream_eq_flatMap (by decide)]
    rfl

/-- **Buffers that are reported as written and not found**: in HTTP/1.1 a buffer behind an empty
one, and in a TLS record some buffer of 65536 bytes. -/
theorem morph_not_decodable :
    (writeAll (wrapConn .http1 ⟨[], []⟩) [(default, []), (default, [7])]).1 = true ∧
      MorphType.http1.read
        (writeAll (wrapConn .http1 ⟨[], []⟩) [(default, []), (default, [7])]).2.conn.written =
          some [] ∧
      ∃ b : Bytes, b.length = 65536 ∧
        (writeAll (wrapConn .tls13 ⟨[], []⟩) [(default, b)]).1 = true ∧
        MorphType.tls13.read (writeAll (wrapConn .tls13 ⟨[], []⟩) [(default, b)]).2.conn.written ≠
          some b := by
  obtain ⟨b, hlen, hread⟩ : ∃ b : Bytes, b.length = 65536 ∧
      tls13Format.read (tls13Encoder.frame (default, b) ++ []) ≠ some b := by
    refine ⟨_, length_trapped tls13Encoder default (Nat.le_refl 65536), ?_⟩
    have hread := read_trapped tls13Encoder default (Nat.le_refl 65536) [] []
    rwa [List.append_nil (tls13Encoder.trapped _ _)] at hread
  have hreliable : (wrapConn .tls13 ⟨[], []⟩).conn.Reliable := rfl
  have hok := writeAll_of_reliable hreliable [(default, b)]
  refine ⟨by decide +kernel, by decide +kernel, b, hlen, hok, ?_⟩
  rw [writeAll_of_true hok]
  exact hread

end ProtocolMorph
