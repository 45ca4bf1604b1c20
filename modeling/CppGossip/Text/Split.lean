import CppGossip.Collection.Scan
import Mathlib.Algebra.Order.Ring.Int

/-!
# Splitting a text

`Split` looks for the separator from the left and keeps the positions it finds
in variables of type `int`, in which `npos` is −1. A string of less than `2 ^ 31`
characters is cut into the pieces of its reading from the left, and a piece that
is empty at the end is left out. In a longer one a position may be another
number than the one found.
-/

namespace CppGossip

open Collection

namespace Text

/-- `s.find(sep, pos)`; `none` is `npos`. -/
def find (s sep : List Char) (pos : ℕ) : Option ℕ :=
  (List.range (s.length + 1)).find? fun i => decide (pos ≤ i ∧ sep <+: s.drop i)

/-- `s.substr(pos, n)`, or what is behind `pos` when `n` is beyond the end;
`none` stands for `out_of_range`. -/
def substr (s : List Char) (pos n : Option ℕ) : Option (List Char) :=
  pos.bind fun pos =>
    if pos ≤ s.length then some (n.elim (s.drop pos) fun n => (s.drop pos).take n) else none

/-- What `find` returns, kept in an `int`. -/
def ofPosition : Option ℕ → Int32
  | none => -1
  | some i => Int32.ofNat i

/-- An `int` taken for a `size_t`. A negative one is beyond the end of any string. -/
def position (i : Int32) : Option ℕ := if i < 0 then none else some i.toNatClampNeg

/-- The loop of `Split` from `start` on, and the piece behind it. `none` stands
for a loop that is not over after `fuel` turns, and for an exception. -/
def splitFrom (s sep : List Char) : ℕ → Int32 → Option (List (List Char))
  | 0, _ => none
  | fuel + 1, start =>
      let mark := ofPosition ((position start).bind (find s sep))
      if mark ≠ -1 then do
        let piece ← substr s (position start) (position (mark - start))
        let pieces ← splitFrom s sep fuel (mark + Int32.ofNat sep.length)
        some (piece :: pieces)
      else if ∃ i ∈ position start, i < s.length then
        (substr s (position start) none).map fun piece => [piece]
      else some []

/-- `Split`, given that many turns of its loop. -/
def split (fuel : ℕ) (s sep : String) : Option (List String) :=
  (splitFrom s.toList sep.toList fuel 0).map fun pieces => pieces.map String.ofList

example : split 3 "aaa" "aa" = some ["", "a"] := by decide

variable {s sep front back : List Char} {pos : ℕ}

/-! ## What is found -/

theorem find_eq_none (h : ¬ sep <:+: s.drop pos) : find s sep pos = none := by
  rw [find, List.find?_eq_none]
  intro i _ hi
  obtain ⟨hle, hocc⟩ := of_decide_eq_true hi
  exact h (hocc.isInfix.trans (List.drop_suffix_drop_left s hle).isInfix)

theorem find_eq_some (hpos : pos ≤ s.length) (heq : s.drop pos = front ++ sep ++ back)
    (hfront : Closes sep front) : find s sep pos = some (pos + front.length) := by
  have hlength := congrArg List.length heq
  simp only [List.length_drop, List.length_append] at hlength
  rw [find, List.find?_range_eq_some]
  refine ⟨decide_eq_true ⟨Nat.le_add_right _ _, ?_⟩, List.mem_range.2 (by omega), fun i hi => ?_⟩
  · rw [← List.drop_drop, heq, List.append_assoc, List.drop_left]
    exact List.prefix_append _ _
  · have hnot : ¬ (pos ≤ i ∧ sep <+: s.drop i) := by
      rintro ⟨hle, hocc⟩
      obtain ⟨j, rfl⟩ := Nat.exists_eq_add_of_le hle
      rw [← List.drop_drop, heq] at hocc
      have := hfront.length_le hocc
      omega
    rw [Bool.not_eq_true', decide_eq_false_iff_not]
    exact hnot

/-! ## Positions that an `int` holds -/

theorem ofNat_nonneg {n : ℕ} (h : n < 2 ^ 31) : ¬ Int32.ofNat n < 0 := by
  rw [Int32.lt_iff_toInt_lt, Int32.toInt_ofNat_of_lt h]
  exact Int.not_lt.2 (Int.natCast_nonneg n)

theorem position_ofNat {n : ℕ} (h : n < 2 ^ 31) : position (Int32.ofNat n) = some n := by
  rw [position, if_neg (ofNat_nonneg h), Int32.toNatClampNeg_ofNat_of_lt h]

theorem ofNat_ne {n : ℕ} (h : n < 2 ^ 31) : Int32.ofNat n ≠ -1 := by
  intro heq
  have hneg : Int32.ofNat n < 0 := by
    rw [heq]
    decide
  exact ofNat_nonneg h hneg

theorem ofNat_sub {m n : ℕ} (h : n ≤ m) : Int32.ofNat m - Int32.ofNat n = Int32.ofNat (m - n) := by
  obtain ⟨k, rfl⟩ := Nat.exists_eq_add_of_le h
  rw [Int32.ofNat_add, Nat.add_sub_cancel_left, Int32.add_comm, Int32.add_sub_cancel]

/-! ## The pieces -/

/-- The pieces of a reading, without an empty one at the end. -/
def pieces (fronts : List (List Char)) (last : List Char) : List (List Char) :=
  if last = [] then fronts else fronts ++ [last]

variable {fronts : List (List Char)} {last : List Char} {start fuel : ℕ}

/-- A turn that finds the separator cuts off what is before it. -/
theorem splitFrom_of_found (heq : s.drop start = front ++ sep ++ back) (hfront : Closes sep front)
    (hstart : start ≤ s.length) (hfound : start + front.length < 2 ^ 31) (fuel : ℕ) :
    splitFrom s sep (fuel + 1) (Int32.ofNat start) =
      (splitFrom s sep fuel (Int32.ofNat (start + front.length + sep.length))).map
        fun pieces => front :: pieces := by
  have hmark : ofPosition (find s sep start) = Int32.ofNat (start + front.length) := by
    rw [find_eq_some hstart heq hfront, ofPosition]
  have hpiece : substr s (some start)
      (position (Int32.ofNat (start + front.length) - Int32.ofNat start)) = some front := by
    rw [ofNat_sub (Nat.le_add_right _ _), Nat.add_sub_cancel_left, position_ofNat (by omega),
      substr, Option.bind_some, if_pos hstart, Option.elim_some, heq, List.append_assoc,
      List.take_left]
  rw [splitFrom, position_ofNat (by omega)]
  simp only [Option.bind_some, hmark]
  rw [if_pos (ofNat_ne hfound), hpiece, ← Int32.ofNat_add, Option.bind_eq_bind, Option.bind_some,
    Option.bind_eq_bind, Option.map_eq_bind]
  rfl

/-- A turn that finds no separator is the last one. -/
theorem splitFrom_of_last (hlast : s.drop start = last) (hnot : ¬ sep <:+: last)
    (hstart : start ≤ s.length) (hposition : start < 2 ^ 31) (fuel : ℕ) :
    splitFrom s sep (fuel + 1) (Int32.ofNat start) = some (pieces [] last) := by
  have hnone : find s sep start = none := find_eq_none (hlast ▸ hnot)
  have hlength : last.length = s.length - start := by rw [← hlast, List.length_drop]
  rw [splitFrom, position_ofNat hposition]
  simp only [Option.bind_some, hnone, ofPosition, ne_eq, not_true_eq_false, if_false,
    Option.mem_some_iff, exists_eq_left', substr, if_pos hstart, Option.elim_none, hlast,
    Option.map_some, pieces]
  by_cases hempty : last = []
  · rw [hempty, List.length_nil] at hlength
    rw [if_neg (by omega), if_pos hempty]
  · have hpos : 0 < last.length := List.length_pos_iff.2 hempty
    rw [if_pos (by omega), if_neg hempty]
    rfl

/-- The loop goes through the pieces of what it has not read, as long as an `int`
holds their positions. -/
theorem splitFrom_of_scanned (hs : s.length < last.length + 2 ^ 31) (hstart : start ≤ s.length)
    (h : Scanned sep (s.drop start) fronts last) (hfuel : fronts.length < fuel) :
    splitFrom s sep fuel (Int32.ofNat start) = some (pieces fronts last) := by
  induction fronts generalizing start fuel with
  | nil =>
      obtain ⟨fuel, rfl⟩ := Nat.exists_eq_succ_of_ne_zero (Nat.ne_of_gt hfuel)
      have hlast : s.drop start = last := h.eq
      have hlength : last.length = s.length - start := by rw [← hlast, List.length_drop]
      exact splitFrom_of_last hlast h.last hstart (by omega) fuel
  | cons front fronts ih =>
      obtain ⟨fuel, rfl⟩ := Nat.exists_eq_succ_of_ne_zero (Nat.ne_of_gt (Nat.zero_lt_of_lt hfuel))
      obtain ⟨back, heq, hback⟩ := h.tail
      have hlength := congrArg List.length heq
      simp only [List.length_drop, List.length_append] at hlength
      have hlast := hback.length_last_le
      have hnext : s.drop (start + front.length + sep.length) = back := by
        rw [← List.drop_drop, ← List.drop_drop, heq, List.append_assoc, List.drop_left,
          List.drop_left]
      have hrest : splitFrom s sep fuel (Int32.ofNat (start + front.length + sep.length)) =
          some (pieces fronts last) :=
        ih (by omega) (hnext ▸ hback) (Nat.lt_of_succ_lt_succ hfuel)
      rw [splitFrom_of_found heq h.head hstart (by omega), hrest, Option.map_some, pieces, pieces]
      split
      · rfl
      · rfl

/-- Once it is over, more turns do not matter. -/
theorem splitFrom_mono {l : List (List Char)} {start : Int32} {fuel fuel' : ℕ}
    (h : splitFrom s sep fuel start = some l) (hle : fuel ≤ fuel') :
    splitFrom s sep fuel' start = some l := by
  induction fuel generalizing start fuel' l with
  | zero => cases h
  | succ fuel ih =>
      obtain ⟨more, rfl⟩ := Nat.exists_eq_add_of_le hle
      rw [Nat.add_right_comm, splitFrom]
      rw [splitFrom] at h
      split at h
      case isTrue hmark =>
        simp only [Option.bind_eq_bind, Option.bind_eq_some_iff, Option.some.injEq] at h
        obtain ⟨piece, hpiece, rest, hrest, rfl⟩ := h
        rw [if_pos hmark, hpiece, Option.bind_eq_bind, Option.bind_some,
          ih hrest (Nat.le_add_right _ _), Option.bind_eq_bind, Option.bind_some]
      case isFalse hmark =>
        rw [if_neg hmark]
        exact h

/-- Two calls that are over return the same pieces. -/
theorem split_unique {s sep : String} {l l' : List String} {fuel fuel' : ℕ}
    (h : split fuel s sep = some l) (h' : split fuel' s sep = some l') : l = l' := by
  obtain ⟨chars, hchars, rfl⟩ := Option.map_eq_some_iff.1 h
  obtain ⟨chars', hchars', rfl⟩ := Option.map_eq_some_iff.1 h'
  have hmax := splitFrom_mono hchars (Nat.le_max_left fuel fuel')
  have hmax' := splitFrom_mono hchars' (Nat.le_max_right fuel fuel')
  rw [hmax] at hmax'
  cases hmax'
  rfl

theorem mem_pieces {piece : List Char} (h : piece ∈ pieces fronts last) :
    piece ∈ fronts ∨ piece = last := by
  unfold pieces at h
  split at h
  · exact Or.inl h
  · rcases List.mem_append.1 h with hfront | hlast
    · exact Or.inl hfront
    · exact Or.inr (List.mem_singleton.1 hlast)

theorem toList_intercalate_ofList (sep : String) (l : List (List Char)) :
    (sep.intercalate (l.map String.ofList)).toList = sep.toList.intercalate l := by
  rw [String.toList_intercalate, List.map_map]
  simp [Function.comp_def]

/-- `s` ends with a separator that is found when it is read from the left. -/
def EndsIn (sep s : List Char) : Prop := ∃ fronts, fronts ≠ [] ∧ Scanned sep s fronts []

/-- `Split` is over after a turn for each character and one more at the most. No
piece has the separator in it, and joined with it they are the text, but for one
separator at its end. -/
theorem exists_pieces (s sep : String) (hs : s.length < 2 ^ 31) (hsep : sep ≠ "") :
    ∃ pieces, (∀ fuel, s.length < fuel → split fuel s sep = some pieces) ∧
      (∀ piece ∈ pieces, ¬ sep.toList <:+: piece.toList) ∧
      (EndsIn sep.toList s.toList → sep.intercalate pieces ++ sep = s) ∧
      (¬ EndsIn sep.toList s.toList → sep.intercalate pieces = s) := by
  have hne : sep.toList ≠ [] := fun hnil => hsep (String.toList_inj.1 hnil)
  obtain ⟨fronts, last, hscan⟩ := exists_scanned hne s.toList
  have hsplit : ∀ fuel, s.length < fuel →
      split fuel s sep = some ((pieces fronts last).map String.ofList) := by
    intro fuel hfuel
    have hfronts := hscan.length_le hne
    rw [String.length_toList] at hfronts
    have hloop : splitFrom s.toList sep.toList fuel (Int32.ofNat 0) = some (pieces fronts last) :=
      splitFrom_of_scanned (by rw [String.length_toList]; omega) (Nat.zero_le _) hscan (by omega)
    have hzero : Int32.ofNat 0 = 0 := rfl
    rw [split, ← hzero, hloop, Option.map_some]
  refine ⟨_, hsplit, ?_, ?_, ?_⟩
  · intro piece hpiece
    obtain ⟨chars, hchars, rfl⟩ := List.mem_map.1 hpiece
    rw [String.toList_ofList]
    rcases mem_pieces hchars with hfront | rfl
    · exact (hscan.closes chars hfront).not_within hne
    · exact hscan.last
  · rintro ⟨others, hothers, hends⟩
    obtain ⟨rfl, rfl⟩ := hscan.unique hends
    apply String.toList_inj.1
    rw [String.toList_append, toList_intercalate_ofList, pieces, if_pos rfl]
    exact hscan.join_append hothers
  · intro hopen
    apply String.toList_inj.1
    rw [toList_intercalate_ofList, pieces]
    split
    case isTrue hlast =>
      cases fronts with
      | nil => exact (hscan.eq.trans hlast).symm
      | cons front fronts => exact absurd ⟨_, List.cons_ne_nil _ _, hlast ▸ hscan⟩ hopen
    case isFalse hlast => exact hscan.join

/-- Occurrences that overlap are found once. -/
theorem exists_pieces_of_overlap :
    (∀ fuel, 3 < fuel → split fuel "aaa" "aa" = some ["", "a"]) ∧
      ∀ piece ∈ ["", "a"], ¬ "aa".toList <:+: piece.toList := by
  obtain ⟨pieces, hsplit, hwithout, -⟩ := exists_pieces "aaa" "aa" (by decide) (by decide)
  have hpieces : some pieces = some ["", "a"] := (hsplit 4 (by decide)).symm.trans (by decide)
  cases hpieces
  exact ⟨hsplit, hwithout⟩

/-! ## Loops that are not over -/

/-- A turn that leads to where it began leads there again. -/
theorem splitFrom_of_stuck {start : Int32}
    (hmark : ofPosition ((position start).bind (find s sep)) ≠ -1)
    (hstuck : ofPosition ((position start).bind (find s sep)) + Int32.ofNat sep.length = start)
    (fuel : ℕ) : splitFrom s sep fuel start = none := by
  induction fuel with
  | zero => rfl
  | succ fuel ih =>
      rw [splitFrom, if_pos hmark, hstuck, ih]
      cases substr s (position start)
        (position (ofPosition ((position start).bind (find s sep)) - start)) with
      | none => rfl
      | some piece => rfl

/-- An empty separator is found again and again. -/
theorem split_empty (fuel : ℕ) (s : String) : split fuel s "" = none := by
  have hnothing : Closes ([] : List Char) [] := fun i hi => absurd hi (Nat.not_lt_zero i)
  have hwhole : s.toList.drop 0 = [] ++ [] ++ s.toList := rfl
  have hfind : find s.toList [] 0 = some 0 := find_eq_some (Nat.zero_le _) hwhole hnothing
  have hzero : position 0 = some 0 := rfl
  have hloop : splitFrom s.toList [] fuel 0 = none := by
    apply splitFrom_of_stuck
    · rw [hzero, Option.bind_some, hfind]
      decide
    · rw [hzero, Option.bind_some, hfind]
      rfl
  rw [split, String.toList_empty, hloop, Option.map_none]

/-- Behind a position that no `int` holds, an `int` is before it or negative. -/
theorem le_of_position {n k : ℕ} (hfar : 2 ^ 31 - 1 ≤ n)
    (hk : position (Int32.ofNat n + Int32.ofNat 1) = some k) : k ≤ n := by
  rw [← Int32.ofNat_add, position] at hk
  split at hk
  · cases hk
  · cases hk
    have hlt := (Int32.ofNat (n + 1)).toNatClampNeg_lt
    omega

/-- A separator of one character whose first occurrence is too far from the
beginning for an `int` does not cut the text into two pieces. -/
theorem splitFrom_ne_of_far {c : Char} (hfar : 2 ^ 31 - 1 ≤ front.length)
    (hfront : Closes [c] front) (back : List Char) (fuel : ℕ) (a b : List Char) :
    splitFrom (front ++ [c] ++ back) [c] fuel 0 ≠ some [a, b] := by
  have hfind : ∀ pos ≤ front.length, find (front ++ [c] ++ back) [c] pos = some front.length := by
    intro pos hpos
    have hdrop : (front ++ [c] ++ back).drop pos = front.drop pos ++ [c] ++ back := by
      rw [List.append_assoc, List.drop_append_of_le_length hpos, List.append_assoc]
    rw [find_eq_some (by simp only [List.length_append]; omega) hdrop (hfront.drop hpos),
      List.length_drop, Nat.add_sub_cancel' hpos]
  have hzero : position 0 = some 0 := rfl
  cases fuel with
  | zero => simp [splitFrom]
  | succ fuel =>
      rw [splitFrom, hzero, Option.bind_some, hfind 0 (Nat.zero_le _), ofPosition]
      split
      case isTrue hmark =>
        intro heq
        simp only [Option.bind_eq_bind, Option.bind_eq_some_iff, Option.some.injEq,
          List.cons.injEq] at heq
        obtain ⟨piece, -, rest, hrest, -, rfl⟩ := heq
        cases hnext : position (Int32.ofNat front.length + Int32.ofNat [c].length) with
        | none =>
            cases fuel with
            | zero => cases hrest
            | succ fuel =>
                rw [splitFrom, hnext] at hrest
                simp [ofPosition] at hrest
        | some k =>
            have hagain : ofPosition ((position (Int32.ofNat front.length +
                Int32.ofNat [c].length)).bind (find (front ++ [c] ++ back) [c])) =
                Int32.ofNat front.length := by
              rw [hnext, Option.bind_some, hfind k (le_of_position hfar hnext), ofPosition]
            rw [splitFrom_of_stuck (by rwa [hagain]) (by rw [hagain])] at hrest
            cases hrest
      case isFalse =>
        split
        · simp
        · simp

end Text

end CppGossip
