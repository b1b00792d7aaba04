/-
# The WireGuard relay

Model of `CreateTunnelRelay` in `internal/wireguard/wireguard.go`, lines 172 to 234.  One goroutine
reads datagrams into a buffer of `mtu+80` bytes and writes each to the tunnel behind two bytes of
length; the other reads such frames and sends what they hold to the WireGuard peer.  It skips a
frame that is longer than its own `mtu+80`, but it skips the length only: the datagram itself is
left in the tunnel and is then read as if it were frames.

The tunnel is a `Source`, and the statements are over every way in which its bytes arrive.  The two
ends may have different MTUs, and `relays_iff` says for which sizes of datagrams that does no harm.

An MTU for which `mtu+80` is no `int` does not get past `make`; the MTU is a natural number here.
What is modelled is what the second goroutine takes for a datagram and gives to `WriteTo`; an
end whose peer address is empty or does not resolve reads the same and sends nothing.
-/
import IPShadowT.Stream

open Bytes

namespace WireGuardRelay

/-- The part of `Inner` that the relay reads. -/
structure Inner where
  mtu : ℕ
  deriving DecidableEq, Repr

namespace Inner

/-! ## The two directions -/

/-- `w.mtu+80`: the length of the buffer of the one direction and the limit of the other. -/
def limit (w : Inner) : ℕ := w.mtu + 80

/-- What is written to the tunnel for a datagram: `ReadFrom` fills the buffer and drops what does
not fit. -/
def frame (w : Inner) (d : Bytes) : Bytes :=
  beBytes 2 (d.take w.limit).length ++ d.take w.limit

/-- What is written to the tunnel for the datagrams `ds`. -/
def send (w : Inner) (ds : List Bytes) : Bytes := ds.flatMap w.frame

/-- The second loop, stopped after `rounds` rounds at the latest: what it sends to the peer. -/
def receive (w : Inner) : ℕ → Source → List Bytes
  | 0, _ => []
  | rounds + 1, tunnelConn =>
    match tunnelConn.readFull 2 with
    | (.error _, _) => []
    | (.ok header, conn₁) =>
      let pktLen := beNat header
      if pktLen > w.limit ∨ pktLen = 0 then w.receive rounds conn₁
      else
        match conn₁.readFull pktLen with
        | (.error _, _) => []
        | (.ok pkt, conn₂) => pkt :: w.receive rounds conn₂

/-- A datagram of `n` bytes is there to be sent, is sent whole, and its length fits its two
bytes. -/
def Sends (w : Inner) (n : ℕ) : Prop := 0 < n ∧ n ≤ w.limit ∧ n ≤ 65535

instance (w : Inner) : DecidablePred w.Sends := fun _ => inferInstanceAs (Decidable (_ ∧ _ ∧ _))

/-- A datagram that the other end accepts. -/
def Fits (w : Inner) (d : Bytes) : Prop := d.length ≤ w.limit

instance (w : Inner) : DecidablePred w.Fits := fun _ => inferInstanceAs (Decidable (_ ≤ _))

variable {conn : Source} {s r : Inner} {w : Inner} {d : Bytes} {n : ℕ} {ds : List Bytes}
variable {later : Bytes}

theorem Sends.frame_eq (h : w.Sends d.length) : w.frame d = beBytes 2 d.length ++ d := by
  rw [frame, List.take_of_length_le h.2.1]

theorem Sends.beNat_header (h : w.Sends n) : beNat (beBytes 2 n) = n := by
  have hle := h.2.2
  rw [beNat_beBytes]
  exact Nat.mod_eq_of_lt (by omega)

/-! ## One round -/

/-- A length that the loop rejects: it reads on behind the two bytes. -/
theorem receive_skips (rounds : ℕ) {header later : Bytes} (hheader : header.length = 2)
    (hskip : beNat header > w.limit ∨ beNat header = 0) (h : conn.flatten = header ++ later) :
    ∃ conn₁ : Source, conn₁.flatten = later
      ∧ w.receive (rounds + 1) conn = w.receive rounds conn₁ := by
  obtain ⟨conn₁, hread, hrest⟩ := Source.readFull_append h
  rw [hheader] at hread
  refine ⟨conn₁, hrest, ?_⟩
  rw [receive, hread]
  exact if_pos hskip

/-- A length that the loop accepts: what follows is sent to the peer. -/
theorem receive_takes (rounds : ℕ) {header pkt later : Bytes} (hheader : header.length = 2)
    (hlen : beNat header = pkt.length) (hpos : 0 < pkt.length) (hle : pkt.length ≤ w.limit)
    (h : conn.flatten = header ++ (pkt ++ later)) :
    ∃ conn₂ : Source, conn₂.flatten = later
      ∧ w.receive (rounds + 1) conn = pkt :: w.receive rounds conn₂ := by
  obtain ⟨conn₁, hread, hrest⟩ := Source.readFull_append h
  obtain ⟨conn₂, hread₂, hrest₂⟩ := Source.readFull_append hrest
  have hnot : ¬ (pkt.length > w.limit ∨ pkt.length = 0) := by omega
  rw [hheader] at hread
  refine ⟨conn₂, hrest₂, ?_⟩
  rw [receive, hread]
  dsimp only
  rw [hlen, if_neg hnot, hread₂]

/-! ## Frames -/

/-- The frames of `ds` behind each other. -/
theorem send_cons {s : Inner} (hd : s.Sends d.length) (ds : List Bytes) :
    s.send (d :: ds) = beBytes 2 d.length ++ (d ++ s.send ds) := by
  rw [send, List.flatMap_cons, hd.frame_eq, List.append_assoc, send]

/-- Frames of datagrams that fit are one round each, whatever follows them. -/
theorem receive_fits (hds : ∀ d ∈ ds, s.Sends d.length) (hfits : ∀ d ∈ ds, r.Fits d)
    (h : conn.flatten = s.send ds ++ later) (rounds : ℕ) :
    ∃ rest : Source, rest.flatten = later
      ∧ r.receive (ds.length + rounds) conn = ds ++ r.receive rounds rest := by
  induction ds generalizing conn with
  | nil => exact ⟨conn, h, by rw [List.length_nil, Nat.zero_add, List.nil_append]⟩
  | cons d ds ih =>
    have hd := hds d List.mem_cons_self
    rw [send_cons hd, List.append_assoc, List.append_assoc] at h
    obtain ⟨conn₂, hrest, hround⟩ := receive_takes (ds.length + rounds)
      (length_beBytes 2 d.length) hd.beNat_header hd.1 (hfits d List.mem_cons_self) h
    obtain ⟨rest, hlater, hrounds⟩ := ih (fun x hx => hds x (List.mem_cons_of_mem d hx))
      (fun x hx => hfits x (List.mem_cons_of_mem d hx)) hrest
    refine ⟨rest, hlater, ?_⟩
    rw [List.length_cons, Nat.add_right_comm, hround, hrounds, List.cons_append]

/-- **A datagram that does not fit stays in the tunnel**: only its length is skipped. -/
theorem receive_oversized (hd : s.Sends d.length) (hfits : ¬ r.Fits d)
    (h : conn.flatten = s.frame d ++ later) (rounds : ℕ) :
    ∃ rest : Source, rest.flatten = d ++ later
      ∧ r.receive (rounds + 1) conn = r.receive rounds rest := by
  rw [hd.frame_eq, List.append_assoc] at h
  refine receive_skips rounds (length_beBytes 2 d.length) (Or.inl ?_) h
  rw [hd.beNat_header]
  exact Nat.not_le.1 hfits

theorem receive_end (r : Inner) (rounds : ℕ) (h : conn.flatten = []) :
    r.receive rounds conn = [] := by
  cases rounds with
  | zero => rfl
  | succ rounds => rw [receive, Source.readFull_of_flatten_eq_nil h 1]

theorem length_le_send {s : Inner} (hds : ∀ d ∈ ds, s.Sends d.length) :
    ds.length ≤ (s.send ds).length := by
  induction ds with
  | nil => exact Nat.zero_le _
  | cons d ds ih =>
    have hrest := ih fun x hx => hds x (List.mem_cons_of_mem d hx)
    rw [send_cons (hds d List.mem_cons_self), List.length_append, List.length_append,
      length_beBytes, List.length_cons]
    omega

/-! ## Both ends -/

/-- **What the relay is for**: of the datagrams that one end sends, the other delivers those that
fit, in order and unchanged, however the tunnel cuts the stream.  A round takes at least two bytes,
so that there is an end to the rounds. -/
def Relays (s r : Inner) (ds : List Bytes) : Prop :=
  ∀ conn : Source, conn.flatten = s.send ds → ∀ rounds, conn.flatten.length ≤ rounds →
    r.receive rounds conn = ds.filter r.Fits

theorem relays_of_fits (hds : ∀ d ∈ ds, s.Sends d.length) (hfits : ∀ d ∈ ds, r.Fits d) :
    Relays s r ds := by
  intro conn hconn rounds hrounds
  have hlen := length_le_send hds
  rw [hconn] at hrounds
  obtain ⟨more, rfl⟩ := Nat.exists_eq_add_of_le (hlen.trans hrounds)
  obtain ⟨rest, hend, hreceive⟩ :=
    receive_fits hds hfits (hconn.trans (List.append_nil _).symm) more
  rw [hreceive, receive_end r more hend, List.append_nil, List.filter_eq_self.2]
  intro d hd
  exact decide_eq_true (hfits d hd)

/-- Datagrams of given sizes. -/
def zeros (sizes : List ℕ) : List Bytes := sizes.map fun n => List.replicate n 0

theorem length_of_mem_zeros {sizes : List ℕ} (h : d ∈ zeros sizes) : d.length ∈ sizes := by
  obtain ⟨n, hn, rfl⟩ := List.mem_map.1 h
  rwa [List.length_replicate]

theorem map_length_zeros (sizes : List ℕ) : (zeros sizes).map List.length = sizes := by
  unfold zeros
  rw [List.map_map]
  exact (List.map_congr_left fun n _ => List.length_replicate).trans (List.map_id' sizes)

/-- A datagram whose first bytes are a frame of one byte. -/
def probe (n : ℕ) : Bytes := 0 :: 1 :: 1 :: List.replicate (n - 3) 0

theorem length_probe (h : 3 ≤ n) : (probe n).length = n := by
  simp only [probe, List.length_cons, List.length_replicate]
  omega

theorem one_not_mem_zeros (sizes : List ℕ) : [1] ∉ zeros sizes := by
  intro h
  obtain ⟨m, -, hm⟩ := List.mem_map.1 h
  have hone : (1 : UInt8) ∈ List.replicate m 0 := by
    rw [hm]
    exact List.mem_cons_self
  exact absurd (List.eq_of_mem_replicate hone) (by decide)

/-- Where a datagram does not fit, what it holds can be taken for a datagram. -/
theorem receive_probe {before : List Bytes} (hbefore : ∀ d ∈ before, s.Sends d.length ∧ r.Fits d)
    (hn : s.Sends n) (hlimit : r.limit < n)
    (h : conn.flatten = s.send before ++ (s.frame (probe n) ++ later)) (rounds : ℕ) :
    ∃ rest : Source, r.receive (before.length + (rounds + 2)) conn
      = before ++ [1] :: r.receive rounds rest := by
  have hlim : r.limit = r.mtu + 80 := rfl
  have hprobe : (probe n).length = n := length_probe (by omega)
  obtain ⟨conn₁, hconn₁, hround₁⟩ :=
    receive_fits (fun d hd => (hbefore d hd).1) (fun d hd => (hbefore d hd).2) h (rounds + 2)
  rw [← hprobe] at hn hlimit
  obtain ⟨conn₂, hconn₂, hround₂⟩ :=
    receive_oversized hn (Nat.not_le.2 hlimit) hconn₁ (rounds + 1)
  obtain ⟨rest, -, hround₃⟩ : ∃ rest : Source, rest.flatten = List.replicate (n - 3) 0 ++ later
      ∧ r.receive (rounds + 1) conn₂ = [1] :: r.receive rounds rest := by
    have hheader : ([0, 1] : Bytes).length = 2 := rfl
    refine receive_takes rounds hheader rfl Nat.one_pos ?_ hconn₂
    show 1 ≤ r.limit
    omega
  exact ⟨rest, by rw [hround₁, hround₂, hround₃]⟩

theorem not_relays_probe {before after : List ℕ} (hsizes : ∀ m ∈ before ++ n :: after, s.Sends m)
    (hbefore : ∀ m ∈ before, m ≤ r.limit) (hlt : r.limit < n) :
    ¬ Relays s r (zeros before ++ probe n :: zeros after) := by
  intro h
  have hlim : r.limit = r.mtu + 80 := rfl
  have hfits : ∀ d ∈ zeros before, s.Sends d.length ∧ r.Fits d := by
    intro d hd
    have hmem := length_of_mem_zeros hd
    exact ⟨hsizes _ (List.mem_append_left _ hmem), hbefore _ hmem⟩
  have hn : s.Sends n := hsizes n (List.mem_append_right _ List.mem_cons_self)
  have hprobe : ¬ r.Fits (probe n) := by
    rw [Fits, length_probe (by omega)]
    exact Nat.not_le.2 hlt
  -- the whole stream in one piece
  let stream := s.send (zeros before ++ probe n :: zeros after)
  have hflat : ([stream] : Source).flatten = stream := List.append_nil stream
  have hstream : ([stream] : Source).flatten
      = s.send (zeros before) ++ (s.frame (probe n) ++ s.send (zeros after)) := by
    rw [hflat]
    simp only [stream, send, List.flatMap_append, List.flatMap_cons]
  obtain ⟨rest, hreceive⟩ := receive_probe hfits hn hlt hstream stream.length
  have hdelivered := h [stream] hflat ((zeros before).length + (stream.length + 2))
    (by rw [hflat]; omega)
  have hkept : (zeros before).filter r.Fits = zeros before :=
    List.filter_eq_self.2 fun d hd => decide_eq_true (hfits d hd).2
  rw [hreceive, List.filter_append, hkept, List.filter_cons_of_neg (by simpa using hprobe)]
    at hdelivered
  -- the byte inside the long datagram is not one of the datagrams that follow it
  have hmem : [1] ∈ (zeros after).filter r.Fits := by
    rw [← List.append_cancel_left hdelivered]
    exact List.mem_cons_self
  exact one_not_mem_zeros after (List.mem_of_mem_filter hmem)

/-- **Which datagrams are relayed.**  Whatever the datagrams of given sizes hold, they are
delivered, exactly if none of them is longer than the receiver's limit: one that is longer is not
skipped, but read as frames. -/
theorem relays_iff (s r : Inner) {sizes : List ℕ} (hsizes : ∀ n ∈ sizes, s.Sends n) :
    (∀ ds : List Bytes, ds.map List.length = sizes → Relays s r ds)
      ↔ ∀ n ∈ sizes, n ≤ r.limit := by
  constructor
  · intro hrelays n hn
    by_contra hlonger
    -- the first one that is too long
    obtain ⟨n, hfind⟩ : ∃ n, sizes.find? (fun n => r.limit < n) = some n :=
      Option.isSome_iff_exists.1
        (List.find?_isSome.2 ⟨n, hn, decide_eq_true (Nat.not_le.1 hlonger)⟩)
    obtain ⟨hlt, before, after, rfl, hbefore⟩ := List.find?_eq_some_iff_append.1 hfind
    have hlt : r.limit < n := of_decide_eq_true hlt
    have hlim : r.limit = r.mtu + 80 := rfl
    refine not_relays_probe hsizes ?_ hlt (hrelays _ ?_)
    · intro m hm
      simpa using hbefore m hm
    · rw [List.map_append, List.map_cons, map_length_zeros, map_length_zeros,
        length_probe (by omega)]
  · rintro hfits ds rfl
    refine relays_of_fits ?_ ?_
    · exact fun d hd => hsizes _ (List.mem_map_of_mem hd)
    · exact fun d hd => hfits _ (List.mem_map_of_mem hd)

/-- An end with the default MTU and one with a smaller MTU. -/
theorem relays_small_datagrams :
    (∀ n ∈ [1, 82], (Inner.mk 1420).Sends n)
      ∧ ∀ ds : List Bytes, ds.map List.length = [1, 82] → Relays ⟨1420⟩ ⟨2⟩ ds := by
  have hsizes : ∀ n ∈ [1, 82], (Inner.mk 1420).Sends n := by decide
  exact ⟨hsizes, (relays_iff ⟨1420⟩ ⟨2⟩ hsizes).2 (by decide)⟩

/-- A datagram of 84 bytes for an end that accepts 82, and one of four bytes. -/
def longAndShort : List Bytes := [probe 84, [1, 2, 3, 4]]

/-- The third byte of the first is delivered as a datagram, and the second is lost. -/
theorem oversized_corrupts :
    (∀ d ∈ longAndShort, (Inner.mk 1420).Sends d.length)
      ∧ (Inner.mk 2).receive 100 [(Inner.mk 1420).send longAndShort] = [[1]]
      ∧ ¬ Relays ⟨1420⟩ ⟨2⟩ longAndShort := by
  have hreceive : (Inner.mk 2).receive 100 [(Inner.mk 1420).send longAndShort] = [[1]] := by decide
  refine ⟨by decide, hreceive, ?_⟩
  intro h
  have hdelivered := h [(Inner.mk 1420).send longAndShort] (List.append_nil _) 100 (by decide)
  rw [hreceive] at hdelivered
  exact absurd hdelivered (by decide)

end Inner

end WireGuardRelay
