import CppGossip.Message.Encode
import Mathlib.Data.List.TakeWhile

/-!
# Ports

A port is kept as text. The text comes from `std::to_string` of a 16-bit number
and is read back by `std::stoi` whenever the record is sent.
-/

namespace CppGossip

namespace Message

theorem decimal_toDigits (n : ℕ) : decimal (Nat.toDigits 10 n) = n := by
  have h := Nat.ofDigitChars_ten_toDigits (n := n)
  rwa [Nat.ofDigitChars_eq_foldl] at h

/-- A digit is neither a blank nor a sign. -/
theorem digit_ne {c : Char} (hc : c.isDigit) : isSpace c = false ∧ c ≠ '-' ∧ c ≠ '+' := by
  rw [Char.isDigit_iff_toNat] at hc
  refine ⟨?_, ?_, ?_⟩
  · have hlow : '0'.toNat ≤ c.toNat := hc.1
    simp only [isSpace, decide_eq_false_iff_not, not_or, not_and]
    constructor
    · rintro rfl
      exact absurd hlow (by decide)
    · intro _ hle
      have hle' : c.toNat ≤ '\r'.toNat := hle
      exact absurd (Nat.le_trans hlow hle') (by decide)
  · rintro rfl
    exact absurd hc.1 (by decide)
  · rintro rfl
    exact absurd hc.1 (by decide)

/-- Digits alone are read as the number they stand for. -/
theorem stoi_digits {digits : List Char} (hdigits : ∀ c ∈ digits, c.isDigit) (hne : digits ≠ [])
    (hle : decimal digits ≤ 2147483647) : stoi (String.ofList digits) = some (decimal digits) := by
  obtain ⟨c, rest, rfl⟩ := List.exists_cons_of_ne_nil hne
  obtain ⟨hspace, hminus, hplus⟩ := digit_ne (hdigits c List.mem_cons_self)
  have htake : (c :: rest).takeWhile Char.isDigit = c :: rest :=
    List.takeWhile_eq_self_iff.2 hdigits
  simp only [stoi, String.toList_ofList, List.dropWhile_cons, hspace, Bool.false_eq_true, if_false]
  split
  case h_1 heq => exact absurd (List.cons.inj heq).1 hminus
  case h_2 heq => exact absurd (List.cons.inj heq).1 hplus
  case h_3 =>
    rw [if_neg (by rw [htake]; exact hne), htake]
    exact if_pos (by simp; omega)

theorem stoi_minus_digits {digits : List Char} (hdigits : ∀ c ∈ digits, c.isDigit)
    (hne : digits ≠ []) (hle : decimal digits ≤ 2147483648) :
    stoi (String.ofList ('-' :: digits)) = some (-(decimal digits : Int)) := by
  have htake : digits.takeWhile Char.isDigit = digits := List.takeWhile_eq_self_iff.2 hdigits
  have hspace : isSpace '-' = false := by decide
  simp only [stoi, String.toList_ofList, List.dropWhile_cons, hspace, Bool.false_eq_true, if_false,
    if_true, htake, if_neg hne]
  exact if_pos (by omega)

theorem isDigit_of_mem_toDigits (n : ℕ) : ∀ c ∈ Nat.toDigits 10 n, c.isDigit := fun _ hc =>
  Nat.isDigit_of_mem_toDigits (by decide) (by decide) hc

/-- The text of a number is read as the number, if an `int` holds it. -/
theorem stoi_toString_nat {n : ℕ} (hle : n ≤ 2147483647) : stoi (toString n) = some (n : Int) := by
  have hread : toString n = String.ofList (Nat.toDigits 10 n) := by
    simp [toString, Nat.repr_eq_ofList_toDigits]
  rw [hread, stoi_digits (isDigit_of_mem_toDigits n) Nat.toDigits_ne_nil
    (by rwa [decimal_toDigits]), decimal_toDigits]
  rfl

/-- The text of a port is read as the port. -/
theorem stoi_toString (p : Int16) : stoi (toString p) = some p.toInt := by
  have hrange : -32768 ≤ p.toInt ∧ p.toInt < 32768 := ⟨p.le_toInt, p.toInt_lt⟩
  have hstr : toString p = toString p.toInt := rfl
  rw [hstr]
  generalize p.toInt = i at hrange
  obtain ⟨hlow, hhigh⟩ := hrange
  cases i with
  | ofNat n =>
      have hlt : n < 32768 := Int.ofNat_lt.1 hhigh
      have hread : toString (Int.ofNat n) = toString n := rfl
      rw [hread, stoi_toString_nat (by omega)]
      rfl
  | negSucc n =>
      have hread : toString (Int.negSucc n) = String.ofList ('-' :: Nat.toDigits 10 (n + 1)) := by
        simp [toString, Int.repr, Nat.repr_eq_ofList_toDigits]
      rw [hread, stoi_minus_digits (isDigit_of_mem_toDigits _) Nat.toDigits_ne_nil
        (by rw [decimal_toDigits]; omega), decimal_toDigits]
      rfl

end Message

/-- The port of the record is the text of a 16-bit number. -/
def NodeState.DecimalPort (node : NodeState) : Prop := ∃ port : Int16, node.port = toString port

/-- Such a record can be sent. -/
theorem exists_encode_of_decimalPort {node : NodeState} (h : node.DecimalPort) :
    ∃ ns, Message.encode node = some ns := by
  obtain ⟨port, hport⟩ := h
  rw [Message.encode, hport, Message.stoi_toString]
  exact ⟨_, rfl⟩

end CppGossip
