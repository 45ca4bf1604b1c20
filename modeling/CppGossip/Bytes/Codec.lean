import CppGossip.Bytes.Memory

/-!
# Codecs

A codec writes a value as bytes and reads it back from the front of a memory,
with what is left. `get_put` is its law: what stands behind the bytes makes no
difference and is left alone. Codecs for pairs, options and lists are put
together from codecs for their parts, and `Codec.map` is the codec of a type
whose values are written as values of another.
-/

namespace Bytes

/-- Writing and reading values of type `α`. -/
structure Codec (α : Type) where
  put : α → List UInt8
  get : List UInt8 → Option (α × List UInt8)
  get_put : ∀ a rest, get (put a ++ rest) = some (a, rest)

namespace Codec

variable {α β : Type}

/-- Four bytes, most significant first. -/
def word : Codec UInt32 where
  put := be32
  get mem := if mem.length < 4 then none else some (ofBe32 mem, mem.drop 4)
  get_put x rest := by
    have hlong : ¬ (be32 x ++ rest).length < 4 := by
      rw [List.length_append, length_be32]
      omega
    rw [if_neg hlong, ofBe32_be32_append]
    rfl

/-- Values of `β` written as values of `α`. -/
def map (c : Codec α) (f : α → β) (g : β → α) (h : ∀ b, f (g b) = b) : Codec β where
  put b := c.put (g b)
  get mem := (c.get mem).map fun r => (f r.1, r.2)
  get_put b rest := by
    rw [c.get_put, Option.map_some, h]

/-- A pair, the first component before the second. -/
def pair (c : Codec α) (d : Codec β) : Codec (α × β) where
  put r := c.put r.1 ++ d.put r.2
  get mem := (c.get mem).bind fun r => (d.get r.2).map fun s => ((r.1, s.1), s.2)
  get_put r rest := by
    rw [List.append_assoc, c.get_put, Option.bind_some, d.get_put, Option.map_some]

/-- A mark, then the value if there is one. -/
def option (c : Codec α) : Codec (Option α) where
  put o := o.elim [0] fun a => 1 :: c.put a
  get
    | [] => none
    | mark :: mem => if mark = 0 then some (none, mem) else (c.get mem).map fun r => (some r.1, r.2)
  get_put o rest := by
    cases o with
    | none => rfl
    | some a =>
        show (c.get (c.put a ++ rest)).map _ = _
        rw [c.get_put, Option.map_some]

/-- At most `n` values, each behind a mark, up to the mark that ends the list. -/
def getList (c : Codec α) : ℕ → List UInt8 → Option (List α × List UInt8)
  | n + 1, mark :: mem =>
      if mark = 0 then some ([], mem)
      else (c.get mem).bind fun r => (getList c n r.2).map fun s => (r.1 :: s.1, s.2)
  | _, _ => none

theorem getList_put (c : Codec α) (l : List α) {n : ℕ} (hn : l.length < n) (rest : List UInt8) :
    getList c n ((l.flatMap fun a => 1 :: c.put a) ++ 0 :: rest) = some (l, rest) := by
  induction l generalizing n with
  | nil =>
      obtain ⟨n, rfl⟩ := Nat.exists_eq_succ_of_ne_zero (Nat.ne_of_gt hn)
      rfl
  | cons a l ih =>
      obtain ⟨n, rfl⟩ := Nat.exists_eq_succ_of_ne_zero (Nat.ne_of_gt (Nat.zero_lt_of_lt hn))
      rw [List.flatMap_cons, List.cons_append, List.cons_append, List.append_assoc]
      show (c.get (c.put a ++ _)).bind _ = _
      rw [c.get_put, Option.bind_some, ih (Nat.lt_of_succ_lt_succ hn), Option.map_some]

/-- A list, each value behind a mark. -/
def list (c : Codec α) : Codec (List α) where
  put l := (l.flatMap fun a => 1 :: c.put a) ++ [0]
  get mem := getList c mem.length mem
  get_put l rest := by
    have hlong : l.length ≤ (l.flatMap fun a => 1 :: c.put a).length := by
      induction l with
      | nil => exact Nat.zero_le _
      | cons a l ih =>
          rw [List.flatMap_cons, List.length_append, List.length_cons, List.length_cons]
          omega
    rw [List.append_assoc, List.singleton_append]
    apply getList_put
    rw [List.length_append, List.length_cons]
    omega

/-- A character by its code. -/
def char : Codec Char :=
  word.map (fun x => Char.ofNat x.toNat) (fun c => c.val) Char.ofNat_toNat

/-- A string by its characters. -/
def string : Codec String :=
  char.list.map String.ofList String.toList fun _ => String.ofList_toList

/-- A number of 64 bits by its two halves. -/
def long : Codec UInt64 :=
  (word.pair word).map (fun r => UInt64.ofNat (r.1.toNat * 4294967296 + r.2.toNat))
    (fun x => (UInt32.ofNat (x.toNat / 4294967296), UInt32.ofNat x.toNat)) fun x => by
      have hlt : x.toNat < 18446744073709551616 := x.toNat_lt
      apply UInt64.toNat_inj.1
      simp only [UInt32.toNat_ofNat', UInt64.toNat_ofNat']
      omega

/-- A signed number of 16 bits. -/
def short : Codec Int16 :=
  word.map (fun x => Int16.ofBitVec (BitVec.ofNat 16 x.toNat))
    (fun p => UInt32.ofNat p.toBitVec.toNat) fun p => by
      have hlt : p.toBitVec.toNat < 65536 := p.toBitVec.isLt
      have hback : (UInt32.ofNat p.toBitVec.toNat).toNat = p.toBitVec.toNat := by
        rw [UInt32.toNat_ofNat']
        omega
      rw [hback, BitVec.ofNat_toNat, BitVec.setWidth_eq, Int16.ofBitVec_toBitVec]

/-- A signed number of 8 bits. -/
def byte : Codec Int8 :=
  word.map (fun x => Int8.ofBitVec (BitVec.ofNat 8 x.toNat))
    (fun p => UInt32.ofNat p.toBitVec.toNat) fun p => by
      have hlt : p.toBitVec.toNat < 256 := p.toBitVec.isLt
      have hback : (UInt32.ofNat p.toBitVec.toNat).toNat = p.toBitVec.toNat := by
        rw [UInt32.toNat_ofNat']
        omega
      rw [hback, BitVec.ofNat_toNat, BitVec.setWidth_eq, Int8.ofBitVec_toBitVec]

end Codec

end Bytes
