import CppGossip.Bytes.Memory

/-!
# The header of a packet

Every datagram and every frame begins with eight bytes: what kind of message it
is, and how long its body. A number that names no kind is kept as it is.
-/

namespace CppGossip

open Bytes

/-- `mtu_`, the size of the buffers for datagrams. -/
def mtu : ℕ := 1460

namespace Message

/-- `struct Header`. -/
structure Header where
  type : UInt32
  bodyLength : UInt32
deriving DecidableEq

/-- `HEADER_SIZE`, a `uint32_t`. -/
def headerSize : UInt32 := 8

/-- `enum TYPE`. -/
def typePing : UInt32 := 0
def typePong : UInt32 := 1
def typeIndirectPing : UInt32 := 2
def typeSyncState : UInt32 := 3

/-- `DecodeHeader`. -/
def decodeHeader (buff : List UInt8) : Header where
  type := ofBe32 buff
  bodyLength := ofBe32 (buff.drop 4)

/-- The bytes that `EncodeHeader` writes. -/
def encodeHeader (header : Header) : List UInt8 := be32 header.type ++ be32 header.bodyLength

@[simp] theorem length_encodeHeader (header : Header) : (encodeHeader header).length = 8 := rfl

theorem decodeHeader_encodeHeader_append (header : Header) (mem : List UInt8) :
    decodeHeader (encodeHeader header ++ mem) = header := by
  have htype : ofBe32 (encodeHeader header ++ mem) = header.type := by
    rw [encodeHeader, List.append_assoc, ofBe32_be32_append]
  have hlength : ofBe32 ((encodeHeader header ++ mem).drop 4) = header.bodyLength := by
    rw [encodeHeader, List.append_assoc, List.drop_append_of_le_length (Nat.le_refl 4)]
    exact ofBe32_be32_append header.bodyLength mem
  rw [decodeHeader, htype, hlength]

/-- What stands behind a header makes no difference. -/
theorem decodeHeader_append {mem : List UInt8} (h : 8 ≤ mem.length) (rest : List UInt8) :
    decodeHeader (mem ++ rest) = decodeHeader mem := by
  have hdrop : 4 ≤ (mem.drop 4).length := by
    rw [List.length_drop]
    omega
  rw [decodeHeader, decodeHeader, ofBe32_append (Nat.le_trans (by decide) h),
    List.drop_append_of_le_length (Nat.le_trans (by decide) h), ofBe32_append hdrop]

end Message

end CppGossip
