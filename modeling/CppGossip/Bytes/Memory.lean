import Mathlib.Data.List.GetD

/-!
# Memory as a list of bytes

A buffer is the list of the bytes it holds. `write off bytes mem` is `memcpy` of
`bytes` to the place `off` places on, and a pointer into the buffer is the list
from there on, so what lies behind the bytes that a reader is meant to see is
still there for it to see. Numbers of 32 bits are written most significant byte
first.
-/

namespace Bytes

/-! ## Writing -/

/-- `mem` with `bytes` copied to the place `off`. -/
def write (off : ℕ) (bytes mem : List UInt8) : List UInt8 :=
  mem.take off ++ (bytes ++ mem.drop (off + bytes.length))

variable {off : ℕ} {bytes front mem : List UInt8}

/-- What is written after all of `front` follows it. -/
theorem write_append (h : off = front.length) :
    write off bytes (front ++ mem) = front ++ write 0 bytes mem := by
  subst h
  simp [write]

theorem write_zero (bytes mem : List UInt8) :
    write 0 bytes mem = bytes ++ mem.drop bytes.length := by
  simp [write]

@[simp] theorem write_nil (off : ℕ) (mem : List UInt8) : write off [] mem = mem := by
  simp [write]

/-- Three writes, each behind the one before. -/
theorem write_write_write (a b c mem : List UInt8) :
    write (a.length + b.length) c (write a.length b (write 0 a mem)) =
      a ++ (b ++ (c ++ mem.drop (a.length + b.length + c.length))) := by
  rw [write_zero, write_append rfl, write_zero, ← List.append_assoc,
    write_append (List.length_append).symm, write_zero, List.append_assoc, List.drop_drop,
    List.drop_drop, Nat.add_assoc]

/-- A write that goes beyond the end shows in the length. -/
theorem length_write (h : off ≤ mem.length) :
    (write off bytes mem).length = max mem.length (off + bytes.length) := by
  simp only [write, List.length_append, List.length_take, List.length_drop]
  omega

/-! ## Numbers -/

/-- The bytes of a number, most significant first. -/
def be32 (x : UInt32) : List UInt8 :=
  [UInt8.ofNat (x.toNat / 16777216), UInt8.ofNat (x.toNat / 65536),
    UInt8.ofNat (x.toNat / 256), UInt8.ofNat x.toNat]

/-- The number that the first four bytes stand for. -/
def ofBe32 (mem : List UInt8) : UInt32 :=
  UInt32.ofNat ((mem.getD 0 0).toNat * 16777216 + (mem.getD 1 0).toNat * 65536 +
    (mem.getD 2 0).toNat * 256 + (mem.getD 3 0).toNat)

@[simp] theorem length_be32 (x : UInt32) : (be32 x).length = 4 := rfl

theorem ofBe32_be32_append (x : UInt32) (mem : List UInt8) : ofBe32 (be32 x ++ mem) = x := by
  have hlt : x.toNat < 4294967296 := x.toNat_lt
  apply UInt32.toNat_inj.1
  simp only [ofBe32, be32, List.cons_append, List.nil_append, List.getD_cons_zero,
    List.getD_cons_succ, UInt8.toNat_ofNat', UInt32.toNat_ofNat']
  omega

/-- What stands behind four bytes makes no difference. -/
theorem ofBe32_append (h : 4 ≤ mem.length) (rest : List UInt8) :
    ofBe32 (mem ++ rest) = ofBe32 mem := by
  have hget : ∀ i, i < 4 → (mem ++ rest).getD i 0 = mem.getD i 0 := fun i hi =>
    List.getD_append _ _ _ _ (Nat.lt_of_lt_of_le hi h)
  rw [ofBe32, ofBe32, hget 0 (by omega), hget 1 (by omega), hget 2 (by omega), hget 3 (by omega)]

end Bytes
