import CppGossip.Wire.Packet

/-!
# Pointers into what was received

A handler of datagrams is given a buffer and the number of bytes received, of
which it asks only whether a section is appended. It decodes a header whatever
that number is, and the sum that tells it of a section is made in 32 bits while
the pointer to the section is not. `pointers` are the places it reads from, and
`inside_iff` says which datagrams keep them inside. A session asks for no more
of a body than its buffer holds, and reads the length once more when the header is
gone; `frameInside_iff` says which frames it handles whole.
-/

namespace CppGossip

open Bytes Message

namespace Message

/-- The handler comes to look for a section: that of pings has followed the sender
by then. -/
def Seeks (fb : FlatBuffers) (type : UInt32) (mem : List UInt8) : Prop :=
  type = typePing → (fb.ping.getRoot (mem.drop 8)).from_.isSome

instance (fb : FlatBuffers) (type : UInt32) (mem : List UInt8) : Decidable (Seeks fb type mem) :=
  inferInstanceAs (Decidable (_ → _))

/-- Where a handler of datagrams of type `type` finds a root: behind the header,
and at the section that it takes to be appended. -/
def pointers (fb : FlatBuffers) (type : UInt32) (mem : List UInt8) (size : ℕ) : List ℕ :=
  let header := decodeHeader mem
  if header.type = type then
    8 :: if Seeks fb type mem then (appendedAt header size).toList else []
  else []

/-- Nothing is read beyond the bytes received; `stale` is what stands behind them
in the buffer. -/
structure Inside (fb : FlatBuffers) (type : UInt32) (received stale : List UInt8) : Prop where
  header : 8 ≤ received.length
  roots : ∀ off ∈ pointers fb type (received ++ stale) received.length, off < received.length

variable {fb : FlatBuffers} {type : UInt32} {received stale : List UInt8}

/-- The sum is that of the naturals when it does not wrap around, and small otherwise. -/
theorem toNat_add_headerSize (length : UInt32) :
    (length + headerSize).toNat =
      if length < 4294967288 then length.toNat + 8 else length.toNat + 8 - 4294967296 := by
  have hlt : length.toNat < 4294967296 := length.toNat_lt
  have height : headerSize.toNat = 8 := rfl
  have hbound : length < 4294967288 ↔ length.toNat < 4294967288 := UInt32.lt_iff_toNat_lt
  rw [UInt32.toNat_add, height]
  split
  case isTrue h =>
    rw [hbound] at h
    omega
  case isFalse h =>
    rw [hbound] at h
    omega

/-- A section inside the datagram is one whose offset does not wrap around. -/
theorem appendedAt_lt_iff {header : Header} {size : ℕ} (hlong : 8 ≤ size) (hshort : size ≤ mtu) :
    (∀ off ∈ appendedAt header size, off < size) ↔ header.bodyLength < 4294967288 := by
  have hmtu : size ≤ 1460 := hshort
  have hlt : header.bodyLength.toNat < 4294967296 := header.bodyLength.toNat_lt
  have hbound : header.bodyLength < 4294967288 ↔ header.bodyLength.toNat < 4294967288 :=
    UInt32.lt_iff_toNat_lt
  rw [appendedAt, toNat_add_headerSize]
  by_cases hwrap : header.bodyLength < 4294967288
  · rw [if_pos hwrap]
    split
    case isTrue happended =>
      simp only [Option.mem_some_iff, forall_eq', hwrap, iff_true]
      omega
    case isFalse => simp [hwrap]
  · rw [if_neg hwrap, if_pos (by omega)]
    rw [hbound] at hwrap
    simp only [Option.mem_some_iff, forall_eq', hbound]
    omega

/-- The handler stays inside a datagram that has a header and, if it is of the
handler's type, a byte of the body, and whose length does not wrap around where a
section is looked for. -/
theorem inside_iff (hshort : received.length ≤ mtu) :
    Inside fb type received stale ↔
      8 ≤ received.length ∧
        ((decodeHeader received).type = type →
          9 ≤ received.length ∧
            (Seeks fb type (received ++ stale) →
              (decodeHeader received).bodyLength < 4294967288)) := by
  have hroots : 8 ≤ received.length →
      ((∀ off ∈ pointers fb type (received ++ stale) received.length, off < received.length) ↔
        ((decodeHeader received).type = type →
          9 ≤ received.length ∧
            (Seeks fb type (received ++ stale) →
              (decodeHeader received).bodyLength < 4294967288))) := by
    intro hlong
    rw [pointers, decodeHeader_append hlong]
    by_cases htype : (decodeHeader received).type = type
    · simp only [htype, if_true, List.forall_mem_cons, true_implies]
      refine and_congr Iff.rfl ?_
      by_cases hseeks : Seeks fb type (received ++ stale)
      · rw [if_pos hseeks, forall_prop_of_true hseeks]
        simp only [Option.mem_toList]
        exact appendedAt_lt_iff hlong hshort
      · rw [if_neg hseeks]
        exact iff_of_true (List.forall_mem_nil _) fun hsought => absurd hsought hseeks
    · simp [htype]
  constructor
  · intro h
    exact ⟨h.header, (hroots h.header).1 h.roots⟩
  · rintro ⟨hlong, hregular⟩
    exact ⟨hlong, (hroots hlong).2 hregular⟩

end Message

namespace Gossiper

variable {fb : FlatBuffers} {env : Env} {d : Destroyed} {mem mem' : List UInt8} {size : ℕ}

/-- The answer to a datagram depends on what stands at the pointers alone. -/
theorem handlePacket_congr (hheader : decodeHeader mem = decodeHeader mem')
    (hsame : ∀ off ∈ pointers fb typePing mem size, mem.drop off = mem'.drop off)
    (respBuff : List UInt8) (respSize : ℕ) (g : Gossiper) :
    handlePacket fb env d mem size respBuff respSize g =
      handlePacket fb env d mem' size respBuff respSize g := by
  by_cases htype : (decodeHeader mem).type = typePing
  · have htype' : (decodeHeader mem').type = typePing := hheader ▸ htype
    simp only [pointers, htype, if_true, List.forall_mem_cons] at hsame
    obtain ⟨hbody, hsection⟩ := hsame
    rw [handlePacket_of_ping htype, handlePacket_of_ping htype', ← hbody]
    cases hsender : (fb.ping.getRoot (mem.drop 8)).from_ with
    | none => simp only [orFault_none, Result.error_bind]
    | some sender =>
      have hseeks : Seeks fb typePing mem := fun _ => by rw [hsender]; rfl
      rw [if_pos hseeks] at hsection
      have hgossip : gossipRead fb mem size = gossipRead fb mem' size := by
        rw [gossipRead, gossipRead, ← hheader]
        cases happended : appendedAt (decodeHeader mem) size with
        | none => rfl
        | some off =>
          rw [Option.map_some, Option.map_some, hsection off (Option.mem_toList.2 happended)]
      rw [hgossip]
  · have htype' : (decodeHeader mem').type ≠ typePing := hheader ▸ htype
    rw [handlePacket, handlePacket, if_neg htype, if_neg htype']

/-- What is read of a pong depends on what stands at the pointers alone. -/
theorem readPong_congr (hheader : decodeHeader mem = decodeHeader mem')
    (hsame : ∀ off ∈ pointers fb typePong mem size, mem.drop off = mem'.drop off) :
    readPong fb mem size = readPong fb mem' size := by
  rw [readPong, readPong, ← hheader]
  by_cases htype : (decodeHeader mem).type = typePong
  · have hseeks : Seeks fb typePong mem := fun hping => absurd hping (by decide)
    simp only [pointers, htype, if_true, if_pos hseeks, List.forall_mem_cons,
      Option.mem_toList] at hsame
    obtain ⟨hbody, hsection⟩ := hsame
    rw [if_neg (not_not_intro htype), if_neg (not_not_intro htype), hbody]
    cases happended : appendedAt (decodeHeader mem) size with
    | none => rfl
    | some off =>
      dsimp only
      rw [hsection off happended]
  · rw [if_pos htype, if_pos htype]

/-- The types for which `handleBody` follows the root of the body. -/
def HasRoot (type : UInt32) : Prop :=
  type = typePing ∨ type = typeIndirectPing ∨ type = typeSyncState

instance (type : UInt32) : Decidable (HasRoot type) := inferInstanceAs (Decidable (_ ∨ _))

/-- The answer to a frame of another type does not depend on its body. -/
theorem answerBody_congr {type : UInt32} (htype : ¬ HasRoot type)
    (order : List NodeState → List NodeState) (locals : Locals) (buff buff' : List UInt8)
    (g : Gossiper) :
    answerBody fb env order d locals type buff g =
      answerBody fb env order d locals type buff' g := by
  have hping : type ≠ typePing := fun h => htype (Or.inl h)
  have hsync : type ≠ typeSyncState := fun h => htype (Or.inr (Or.inr h))
  simp only [answerBody, if_neg hping, if_neg hsync]

end Gossiper

/-! ## Frames -/

namespace Session

variable {d : Destroyed} {sent inBuff : List UInt8}

/-- What a session asks for of the body. -/
def wanted (header : Header) : ℕ := min buffSize header.bodyLength.toNat

/-- A frame is handled when the body has come as far as it was asked for. -/
theorem read_eq_some_iff {header : Header} {buff : List UInt8} :
    read d sent inBuff = some (header, buff) ↔
      8 ≤ sent.length ∧ wanted (decodeHeader sent) ≤ sent.length - 8 ∧
        header = d.header (decodeHeader sent) ∧
        buff = write 0 ((sent.drop 8).take (wanted (decodeHeader sent)))
          (write 0 (sent.take 8) inBuff) := by
  by_cases hlong : 8 ≤ sent.length
  · have hlength : (sent.take 8).length = 8 := by
      rw [List.length_take]
      omega
    have hdecode : decodeHeader (write 0 (sent.take 8) inBuff) = decodeHeader sent := by
      have hsent : decodeHeader (sent.take 8 ++ sent.drop 8) = decodeHeader (sent.take 8) :=
        decodeHeader_append (by omega) _
      rw [List.take_append_drop] at hsent
      rw [write_zero, decodeHeader_append (by omega), hsent]
    rw [read, if_neg (Nat.not_lt.2 hlong)]
    simp only [hdecode]
    show (if sent.length - 8 < wanted (decodeHeader sent) then _ else _) = _ ↔ _
    split
    case isTrue hless =>
      simp only [reduceCtorEq, false_iff]
      rintro ⟨_, hle, _⟩
      omega
    case isFalse henough =>
      simp only [Option.some.injEq, Prod.mk.injEq]
      constructor
      · rintro ⟨rfl, rfl⟩
        exact ⟨hlong, Nat.not_lt.1 henough, rfl, rfl⟩
      · rintro ⟨_, _, rfl, rfl⟩
        exact ⟨rfl, rfl⟩
  · rw [read, if_pos (Nat.not_le.1 hlong)]
    simp [hlong]

/-- `handleBody` is called with a body all of whose bytes, as many as the header that
it is called with says, have been received and are in the buffer, and a byte has been
received where a root is read. -/
structure FrameInside (d : Destroyed) (sent inBuff : List UInt8) : Prop where
  whole : ∀ header buff, read d sent inBuff = some (header, buff) →
    ∃ body, body.length = header.bodyLength.toNat ∧
      body <+: (sent.drop 8).take (wanted (decodeHeader sent)) ∧ body <+: buff
  root : ∀ header buff, read d sent inBuff = some (header, buff) → Gossiper.HasRoot header.type →
    0 < wanted (decodeHeader sent)

/-- A body is whole when no more is taken for it than was asked for. -/
theorem whole_iff {header : Header} {buff : List UInt8}
    (hread : read d sent inBuff = some (header, buff)) :
    (∃ body, body.length = header.bodyLength.toNat ∧
      body <+: (sent.drop 8).take (wanted (decodeHeader sent)) ∧ body <+: buff) ↔
      header.bodyLength.toNat ≤ wanted (decodeHeader sent) := by
  obtain ⟨hlong, hle, -, rfl⟩ := read_eq_some_iff.1 hread
  have hbody : ((sent.drop 8).take (wanted (decodeHeader sent))).length =
      wanted (decodeHeader sent) := by
    rw [List.length_take, List.length_drop, Nat.min_eq_left hle]
  constructor
  · rintro ⟨body, hlength, hprefix, -⟩
    rw [← hlength, ← hbody]
    exact hprefix.length_le
  · intro hroom
    have hfront : ((sent.drop 8).take (wanted (decodeHeader sent))).take header.bodyLength.toNat <+:
        (sent.drop 8).take (wanted (decodeHeader sent)) := List.take_prefix _ _
    refine ⟨_, ?_, hfront, ?_⟩
    · rw [List.length_take, hbody, Nat.min_eq_left hroom]
    · rw [write_zero]
      exact hfront.trans (List.prefix_append _ _)

/-- The session stays inside a frame when the length it reads of the header that is
gone is not more than it has asked for, and it has asked for something where a root
is read. -/
theorem frameInside_iff :
    FrameInside d sent inBuff ↔
      (8 ≤ sent.length → wanted (decodeHeader sent) ≤ sent.length - 8 →
        (d.header (decodeHeader sent)).bodyLength.toNat ≤ wanted (decodeHeader sent) ∧
          (Gossiper.HasRoot (d.header (decodeHeader sent)).type →
            (decodeHeader sent).bodyLength ≠ 0)) := by
  have hzero : 0 < wanted (decodeHeader sent) ↔ (decodeHeader sent).bodyLength ≠ 0 := by
    have hsize : 0 < buffSize := by decide
    rw [wanted, Nat.lt_min, and_iff_right hsize, Nat.pos_iff_ne_zero]
    exact not_congr (UInt32.toNat_inj (b := 0))
  constructor
  · intro h hlong hle
    have hread : read d sent inBuff = some (d.header (decodeHeader sent), _) :=
      read_eq_some_iff.2 ⟨hlong, hle, rfl, rfl⟩
    exact ⟨(whole_iff hread).1 (h.whole _ _ hread), fun htype => hzero.1 (h.root _ _ hread htype)⟩
  · intro h
    constructor
    · intro header buff hread
      obtain ⟨hlong, hle, rfl, -⟩ := read_eq_some_iff.1 hread
      exact (whole_iff hread).2 (h hlong hle).1
    · intro header buff hread htype
      obtain ⟨hlong, hle, rfl, -⟩ := read_eq_some_iff.1 hread
      exact hzero.2 ((h hlong hle).2 htype)

end Session

/-- The datagrams and the frames whose lengths do not lead outside of them, and no others. -/
theorem lengths_inside_iff (fb : FlatBuffers) (d : Destroyed) (type : UInt32)
    (received stale : List UInt8) (hshort : received.length ≤ mtu) (sent inBuff : List UInt8) :
    (Inside fb type received stale ↔
      8 ≤ received.length ∧
        ((decodeHeader received).type = type →
          9 ≤ received.length ∧
            (Seeks fb type (received ++ stale) →
              (decodeHeader received).bodyLength < 4294967288))) ∧
    (Session.FrameInside d sent inBuff ↔
      (8 ≤ sent.length → Session.wanted (decodeHeader sent) ≤ sent.length - 8 →
        (d.header (decodeHeader sent)).bodyLength.toNat ≤ Session.wanted (decodeHeader sent) ∧
          (Gossiper.HasRoot (d.header (decodeHeader sent)).type →
            (decodeHeader sent).bodyLength ≠ 0))) :=
  ⟨inside_iff hshort, Session.frameInside_iff⟩

/-- The body of a ping of `b:1`. -/
def sampleBody : List UInt8 := (reference.ping.finish { seqNo := 7, from_ := some "b:1" }).getD []

/-- A ping with one byte of gossip, and one as a frame. -/
theorem lengths_inside_of_ping :
    let header := encodeHeader ⟨typePing, UInt32.ofNat sampleBody.length⟩
    Inside reference typePing (header ++ sampleBody ++ [0]) [] ∧
      Session.FrameInside .intact (header ++ sampleBody) (List.replicate Session.buffSize 0) := by
  obtain ⟨hping, hframe⟩ := lengths_inside_iff reference .intact typePing
    (encodeHeader ⟨typePing, UInt32.ofNat sampleBody.length⟩ ++ sampleBody ++ [0]) [] (by decide)
    (encodeHeader ⟨typePing, UInt32.ofNat sampleBody.length⟩ ++ sampleBody)
    (List.replicate Session.buffSize 0)
  exact ⟨hping.2 (by decide), hframe.2 (by decide)⟩

/-- A ping whose length wraps around, a pong of one byte, a frame whose body is longer
than the buffer, and one of ten bytes whose header is read when the stack has been used
again: each leads outside of what was received. -/
theorem not_lengths_inside :
    ¬ Inside reference typePing (encodeHeader ⟨typePing, 4294967295⟩ ++ sampleBody) [] ∧
      ¬ Inside reference typePong [0] (be32 typePong ++ be32 0) ∧
      ¬ Session.FrameInside .intact
        (encodeHeader ⟨typePing, 65537⟩ ++ List.replicate Session.buffSize 0)
        (List.replicate Session.buffSize 0) ∧
      ¬ Session.FrameInside .lost (encodeHeader ⟨typePing, 10⟩ ++ List.replicate 10 0)
        (List.replicate Session.buffSize 0) := by
  refine ⟨?_, ?_, ?_, ?_⟩
  · rw [inside_iff (by decide)]
    decide
  · rw [inside_iff (by decide)]
    decide
  · have hdecode : decodeHeader
        (encodeHeader ⟨typePing, 65537⟩ ++ List.replicate Session.buffSize 0) =
        ⟨typePing, 65537⟩ := decodeHeader_encodeHeader_append _ _
    rw [Session.frameInside_iff, hdecode, List.length_append, List.length_replicate]
    decide
  · rw [Session.frameInside_iff]
    decide

end CppGossip
