import Mathlib.Data.List.Nodup
import Mathlib.Data.List.Perm.Basic

/-!
# Removal by swapping with the last element

`swapRemove x l` overwrites the first occurrence of `x` with the last element
and drops the last place, so it costs no shift. Up to the order it is
`List.erase`, and the facts about length, membership and duplicates are read
off that permutation.
-/

namespace Collection

variable {α : Type*} [DecidableEq α]

/-- `l` with its first `x` replaced by the last element and the last place
dropped; `l` itself when it has no `x`. -/
def swapRemove (x : α) (l : List α) : List α :=
  if h : x ∈ l then
    (l.set (l.idxOf x) (l.getLast (List.ne_nil_of_mem h))).dropLast
  else l

theorem swapRemove_of_notMem {x : α} {l : List α} (h : x ∉ l) :
    swapRemove x l = l := by
  simp [swapRemove, h]

theorem swapRemove_perm_erase (x : α) (l : List α) :
    (swapRemove x l).Perm (l.erase x) := by
  by_cases h : x ∈ l
  · obtain ⟨p, q, rfl, hp⟩ := List.eq_append_cons_of_mem h
    have hidx : (p ++ x :: q).idxOf x = p.length := by
      rw [List.idxOf_append_of_notMem hp, List.idxOf_cons_self, Nat.add_zero]
    have herase : (p ++ x :: q).erase x = p ++ q := by
      rw [List.erase_append_right _ hp, List.erase_cons_head]
    rw [herase]
    simp only [swapRemove, h, dif_pos, hidx]
    rcases List.eq_nil_or_concat q with rfl | ⟨r, y, rfl⟩
    · simp
    · -- the last element `y` takes the place of `x`
      have hset : (p ++ x :: r.concat y).set p.length y = (p ++ y :: r) ++ [y] := by
        simp
      have hlast : (p ++ x :: r.concat y).getLast (List.ne_nil_of_mem h) = y := by simp
      rw [hlast, hset, List.dropLast_concat, List.concat_eq_append]
      calc (p ++ y :: r).Perm (y :: (p ++ r)) := List.perm_middle
        _ |>.Perm ((p ++ r) ++ [y]) := (List.perm_append_singleton y (p ++ r)).symm
        _ = p ++ (r ++ [y]) := List.append_assoc p r [y]
  · rw [swapRemove_of_notMem h, List.erase_of_not_mem h]

theorem length_swapRemove_of_mem {x : α} {l : List α} (h : x ∈ l) :
    (swapRemove x l).length = l.length - 1 := by
  rw [(swapRemove_perm_erase x l).length_eq, List.length_erase_of_mem h]

theorem Nodup.swapRemove {x : α} {l : List α} (h : l.Nodup) :
    (swapRemove x l).Nodup :=
  (swapRemove_perm_erase x l).nodup_iff.2 (h.erase x)

theorem mem_swapRemove_iff {x y : α} {l : List α} (h : l.Nodup) :
    y ∈ swapRemove x l ↔ y ≠ x ∧ y ∈ l := by
  rw [(swapRemove_perm_erase x l).mem_iff, h.mem_erase_iff]

end Collection
