import CppGossip.Collection.HashMap
import CppGossip.Collection.SwapRemove

/-!
# A list that indexes part of a map

`IsIndex p m l` says that the list `l` has every key of `m` whose value has the
property `p`, once, and no other key. The three writes that keep an index are
those a program makes: a value is overwritten by one with the property, a key
without it gains it and is appended, a key loses it and is swapped out.
-/

namespace Collection

variable {κ ν : Type*} [DecidableEq κ]

/-- `l` lists, without duplicates, the keys of `m` whose value has `p`. -/
structure IsIndex (p : ν → Prop) (m : HashMap κ ν) (l : List κ) : Prop where
  nodup : l.Nodup
  mem_iff : ∀ k, k ∈ l ↔ ∃ v, m.lookup k = some v ∧ p v

variable {p : ν → Prop} {m : HashMap κ ν} {l : List κ}

theorem isIndex_empty (p : ν → Prop) : IsIndex p (∅ : HashMap κ ν) [] where
  nodup := List.nodup_nil
  mem_iff k := by simp

theorem IsIndex.insert_of_mem (h : IsIndex p m l) {k : κ} {v : ν} (hk : k ∈ l) (hv : p v) :
    IsIndex p (m.insert k v) l where
  nodup := h.nodup
  mem_iff x := by
    rw [Collection.lookup_insert]
    by_cases hx : x = k
    · subst hx
      simp [hk, hv]
    · rw [if_neg hx, h.mem_iff]

theorem IsIndex.insert_of_notMem (h : IsIndex p m l) {k : κ} {v : ν} (hk : k ∉ l) (hv : p v) :
    IsIndex p (m.insert k v) (l ++ [k]) where
  nodup := by
    rw [List.nodup_append]
    refine ⟨h.nodup, List.nodup_singleton k, ?_⟩
    intro x hx y hy hxy
    rw [List.mem_singleton] at hy
    exact hk (hy ▸ hxy ▸ hx)
  mem_iff x := by
    rw [Collection.lookup_insert, List.mem_append, List.mem_singleton]
    by_cases hx : x = k
    · subst hx
      simp [hv]
    · rw [if_neg hx, h.mem_iff]
      simp [hx]

theorem IsIndex.insert_swapRemove (h : IsIndex p m l) (k : κ) {v : ν} (hv : ¬ p v) :
    IsIndex p (m.insert k v) (swapRemove k l) where
  nodup := Nodup.swapRemove h.nodup
  mem_iff x := by
    rw [Collection.lookup_insert, mem_swapRemove_iff h.nodup]
    by_cases hx : x = k
    · subst hx
      simp [hv]
    · rw [if_neg hx, h.mem_iff]
      simp [hx]

end Collection
