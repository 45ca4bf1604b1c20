import Mathlib.Data.List.Infix
import Mathlib.Data.Nat.Find

/-!
# Reading a list up to each separator

Reading a list from left to right for a separator cuts it into the pieces that
the separator closes and what is left behind the last of these. The occurrences
found do not overlap: in `[1, 1, 1]` the separator `[1, 1]` is found once, and
what is left is `[1]`. `Scanned` says of pieces that they are those, and there
is exactly one such reading of every list.
-/

namespace Collection

variable {α : Type*} {sep front back s last : List α} {fronts : List (List α)}

/-- In `front ++ sep`, whatever follows, `sep` begins nowhere before its end. -/
def Closes (sep front : List α) : Prop :=
  ∀ i < front.length, ¬ sep <+: (front ++ sep).drop i

/-- Reading `s` for `sep` finds the pieces `fronts`, and leaves `last`. -/
structure Scanned (sep s : List α) (fronts : List (List α)) (last : List α) : Prop where
  eq : s = (fronts.map (· ++ sep)).flatten ++ last
  closes : ∀ front ∈ fronts, Closes sep front
  last : ¬ sep <:+: last

theorem Closes.not_within (h : Closes sep front) (hsep : sep ≠ []) : ¬ sep <:+: front := by
  rintro ⟨before, after, rfl⟩
  have hpos : 0 < sep.length := List.length_pos_iff.2 hsep
  refine h before.length (by simp only [List.length_append]; omega) ?_
  rw [List.append_assoc, List.append_assoc, List.drop_left]
  exact List.prefix_append _ _

/-- The first occurrence is the one that closes the piece. -/
theorem Closes.length_le (h : Closes sep front) {i : ℕ}
    (hi : sep <+: (front ++ sep ++ back).drop i) : front.length ≤ i := by
  by_contra hlt
  have hlt : i < front.length := Nat.lt_of_not_le hlt
  have hdrop : (front ++ sep ++ back).drop i = (front ++ sep).drop i ++ back :=
    List.drop_append_of_le_length (by rw [List.length_append]; omega)
  rw [hdrop] at hi
  refine h i hlt (List.prefix_of_prefix_length_le hi (List.prefix_append _ _) ?_)
  rw [List.length_drop, List.length_append]
  omega

theorem Closes.drop (h : Closes sep front) {n : ℕ} (hn : n ≤ front.length) :
    Closes sep (front.drop n) := by
  intro i hi hocc
  rw [List.length_drop] at hi
  refine h (n + i) (by omega) ?_
  rwa [← List.drop_append_of_le_length hn, List.drop_drop] at hocc

/-- A list that has the separator in it begins with a piece that it closes. -/
theorem exists_closes (hsep : sep ≠ []) (h : sep <:+: s) :
    ∃ front back, s = front ++ sep ++ back ∧ Closes sep front := by
  classical
  have hocc : ∃ i, sep <+: s.drop i := by
    obtain ⟨before, after, rfl⟩ := h
    refine ⟨before.length, ?_⟩
    rw [List.append_assoc, List.drop_left]
    exact List.prefix_append _ _
  obtain ⟨back, hback⟩ := Nat.find_spec hocc
  have hle : Nat.find hocc ≤ s.length := by
    by_contra hlt
    rw [List.drop_eq_nil_of_le (by omega)] at hback
    exact hsep (List.append_eq_nil_iff.1 hback).1
  have heq : s = s.take (Nat.find hocc) ++ sep ++ back := by
    rw [List.append_assoc, hback, List.take_append_drop]
  have hlength : (s.take (Nat.find hocc)).length = Nat.find hocc := by
    rw [List.length_take, Nat.min_eq_left hle]
  generalize s.take (Nat.find hocc) = front at heq hlength
  refine ⟨front, back, heq, fun i hi hpre => ?_⟩
  have hdrop : (front ++ sep ++ back).drop i = (front ++ sep).drop i ++ back :=
    List.drop_append_of_le_length (by rw [List.length_append]; omega)
  refine Nat.find_min hocc (hlength ▸ hi) (hpre.trans ?_)
  rw [heq, hdrop]
  exact List.prefix_append _ _

/-- A separator of one element closes the pieces that do not have it. -/
theorem closes_singleton_iff {a : α} : Closes [a] front ↔ a ∉ front := by
  constructor
  · intro h hmem
    exact h.not_within (List.cons_ne_nil a []) ((List.singleton_infix_iff a front).2 hmem)
  · intro hnot i hi hocc
    rw [List.drop_append_of_le_length (Nat.le_of_lt hi), List.drop_eq_getElem_cons hi] at hocc
    have heq : a = front[i] := (List.cons_prefix_cons.1 hocc).1
    exact hnot (heq ▸ List.getElem_mem hi)

namespace Scanned

theorem nil (h : ¬ sep <:+: last) : Scanned sep last [] last :=
  ⟨rfl, fun _ hmem => absurd hmem List.not_mem_nil, h⟩

theorem cons (hfront : Closes sep front) (h : Scanned sep back fronts last) :
    Scanned sep (front ++ sep ++ back) (front :: fronts) last where
  eq := by rw [List.map_cons, List.flatten_cons, List.append_assoc (front ++ sep), ← h.eq]
  closes := List.forall_mem_cons.2 ⟨hfront, h.closes⟩
  last := h.last

theorem head (h : Scanned sep s (front :: fronts) last) : Closes sep front :=
  h.closes front List.mem_cons_self

/-- What follows the first piece is read in the same way. -/
theorem tail (h : Scanned sep s (front :: fronts) last) :
    ∃ back, s = front ++ sep ++ back ∧ Scanned sep back fronts last := by
  refine ⟨(fronts.map (· ++ sep)).flatten ++ last, ?_, rfl, ?_, h.last⟩
  · rw [h.eq, List.map_cons, List.flatten_cons, List.append_assoc (front ++ sep)]
  · exact fun other hmem => h.closes other (List.mem_cons_of_mem front hmem)

end Scanned

/-- Every list can be read. -/
theorem exists_scanned (hsep : sep ≠ []) (s : List α) :
    ∃ fronts last, Scanned sep s fronts last := by
  induction hn : s.length using Nat.strongRecOn generalizing s with
  | ind n ih =>
      by_cases h : sep <:+: s
      · obtain ⟨front, back, rfl, hfront⟩ := exists_closes hsep h
        have hpos : 0 < sep.length := List.length_pos_iff.2 hsep
        rw [List.length_append, List.length_append] at hn
        obtain ⟨fronts, last, hback⟩ := ih back.length (by omega) back rfl
        exact ⟨front :: fronts, last, hback.cons hfront⟩
      · exact ⟨[], s, Scanned.nil h⟩

namespace Scanned

variable {fronts' : List (List α)} {last' : List α}

/-- There is one reading of a list. -/
theorem unique (h : Scanned sep s fronts last) (h' : Scanned sep s fronts' last') :
    fronts = fronts' ∧ last = last' := by
  induction fronts generalizing s fronts' with
  | nil =>
      cases fronts' with
      | nil => exact ⟨rfl, h.eq.symm.trans h'.eq⟩
      | cons front' fronts' =>
          obtain ⟨back, rfl, -⟩ := h'.tail
          have heq : front' ++ sep ++ back = last := h.eq
          exact absurd ⟨front', back, heq⟩ h.last
  | cons front fronts ih =>
      obtain ⟨back, rfl, hback⟩ := h.tail
      cases fronts' with
      | nil =>
          have heq : front ++ sep ++ back = last' := h'.eq
          exact absurd ⟨front, back, heq⟩ h'.last
      | cons front' fronts' =>
          obtain ⟨back', heq, hback'⟩ := h'.tail
          have hocc : ∀ a b : List α, sep <+: (a ++ sep ++ b).drop a.length := fun a b => by
            rw [List.append_assoc, List.drop_left]
            exact List.prefix_append _ _
          have hlength : front.length = front'.length := Nat.le_antisymm
            (h.head.length_le (heq ▸ hocc front' back')) (h'.head.length_le (heq ▸ hocc front back))
          rw [List.append_assoc, List.append_assoc] at heq
          obtain ⟨rfl, hrest⟩ := List.append_inj heq hlength
          obtain rfl := List.append_cancel_left hrest
          obtain ⟨rfl, rfl⟩ := ih hback hback'
          exact ⟨rfl, rfl⟩

theorem length_last_le (h : Scanned sep s fronts last) : last.length ≤ s.length := by
  rw [h.eq, List.length_append]
  exact Nat.le_add_left _ _

/-- There are no more pieces than elements. -/
theorem length_le (h : Scanned sep s fronts last) (hsep : sep ≠ []) :
    fronts.length ≤ s.length := by
  induction fronts generalizing s with
  | nil => exact Nat.zero_le _
  | cons front fronts ih =>
      obtain ⟨back, rfl, hback⟩ := h.tail
      have hpos : 0 < sep.length := List.length_pos_iff.2 hsep
      have hle := ih hback
      simp only [List.length_cons, List.length_append]
      omega

/-- The pieces and what is left, joined with the separator, are the list. -/
theorem join (h : Scanned sep s fronts last) : sep.intercalate (fronts ++ [last]) = s := by
  obtain ⟨rfl, -, -⟩ := h
  induction fronts with
  | nil => exact List.intercalate_singleton
  | cons front fronts ih =>
      rw [List.cons_append, List.intercalate_cons_of_ne_nil (by simp), ih]
      rw [List.map_cons, List.flatten_cons, List.append_assoc (front ++ sep)]

/-- Without what is left, when that is nothing, one separator is missing. -/
theorem join_append (h : Scanned sep s fronts []) (hne : fronts ≠ []) :
    sep.intercalate fronts ++ sep = s := by
  obtain ⟨rfl, -, -⟩ := h
  rw [List.append_nil]
  induction fronts with
  | nil => exact absurd rfl hne
  | cons front fronts ih =>
      cases fronts with
      | nil => simp
      | cons next fronts =>
          rw [List.intercalate_cons_cons, List.append_assoc _ _ sep, ih (List.cons_ne_nil _ _)]
          rfl

end Scanned

end Collection
