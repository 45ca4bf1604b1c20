import CppGossip.Collection.HashMap
import Mathlib.Data.List.Rotate

/-!
# Iterating a hash map in a circle

An iterator that is put back to the beginning whenever it has reached the end
goes round the map. `stand c m` is the key at which it stands, the end standing
for the beginning, and `cycle c m` lists all keys from there on, once round. The
rules say what becomes of the circle when the iterator moves on, when the key it
stands at is erased, when the map is rehashed and when a key is inserted somewhere.
-/

namespace Collection

variable {κ ν : Type*} {m m' : HashMap κ ν} {c : Option κ} {k : κ}

/-- The iterator is the end or stands at a key of the map. -/
def Within (c : Option κ) (m : HashMap κ ν) : Prop := ∀ k ∈ c, k ∈ m

theorem within_none (m : HashMap κ ν) : Within none m := fun _ hk => by cases hk

theorem within_of_head? {A B : List κ} (hkeys : m.keys = A ++ B) : Within B.head? m := by
  intro k hk
  have hmem : k ∈ m.keys := by
    rw [hkeys]
    exact List.mem_append_right A (List.mem_of_mem_head? hk)
  exact hmem

/-- The key at which the iterator stands, once it has been put back from the end. -/
def stand (c : Option κ) (m : HashMap κ ν) : Option κ := if c = none then first m else c

/-- An iterator that has been put back stays where it stands. -/
theorem stand_stand (c : Option κ) (m : HashMap κ ν) : stand (stand c m) m = stand c m := by
  cases c with
  | none =>
      cases hfirst : first m with
      | none => simp [stand, hfirst]
      | some k => simp [stand, hfirst]
  | some k => rfl

theorem stand_eq_none_iff : stand c m = none ↔ c = none ∧ m.keys = [] := by
  cases c with
  | none => simp [stand, first]
  | some k => simp [stand]

theorem within_stand (h : Within c m) : Within (stand c m) m := by
  cases c with
  | none => exact within_of_head? (A := []) rfl
  | some k => exact h

variable [DecidableEq κ]

instance (c : Option κ) (m : HashMap κ ν) : Decidable (Within c m) :=
  inferInstanceAs (Decidable (∀ k ∈ c, k ∈ m))

/-- The keys in the order of the map, from the one at which the iterator stands
once round. -/
def cycle (c : Option κ) (m : HashMap κ ν) : List κ :=
  m.keys.rotate (c.elim 0 fun k => m.keys.idxOf k)

theorem cycle_perm (c : Option κ) (m : HashMap κ ν) : (cycle c m).Perm m.keys :=
  List.rotate_perm _ _

theorem nodup_cycle (c : Option κ) (m : HashMap κ ν) : (cycle c m).Nodup :=
  (cycle_perm c m).nodup_iff.2 m.keys_nodup

theorem mem_cycle_iff : k ∈ cycle c m ↔ k ∈ m := (cycle_perm c m).mem_iff

theorem length_cycle (c : Option κ) (m : HashMap κ ν) : (cycle c m).length = m.keys.length :=
  List.length_rotate _ _

/-- What the circle of an iterator depends on are the keys. -/
theorem cycle_congr (hkeys : m'.keys = m.keys) (c : Option κ) : cycle c m' = cycle c m := by
  rw [cycle, cycle, hkeys]

/-- The circle of the iterator that stands after the keys `A`. -/
theorem cycle_head? {A B : List κ} (hkeys : m.keys = A ++ B) : cycle B.head? m = B ++ A := by
  cases B with
  | nil => simp [cycle, hkeys]
  | cons b B =>
      have hnodup : (A ++ b :: B).Nodup := hkeys ▸ m.keys_nodup
      have hnot : b ∉ A := fun hmem => List.disjoint_of_nodup_append hnodup hmem (by simp)
      have hindex : m.keys.idxOf b = A.length := by
        rw [hkeys, List.idxOf_append_of_notMem hnot, List.idxOf_cons_self, Nat.add_zero]
      show m.keys.rotate (m.keys.idxOf b) = b :: B ++ A
      rw [hindex, hkeys, List.rotate_append_length_eq]

/-- The map is cut in two where the iterator stands. -/
theorem exists_split (h : Within c m) :
    ∃ A B, m.keys = A ++ B ∧ cycle c m = B ++ A ∧ stand c m = (B ++ A).head? := by
  cases c with
  | none => exact ⟨[], m.keys, rfl, by simp [cycle], by simp [stand, first]⟩
  | some k =>
      have hmem : k ∈ m.keys := h k rfl
      obtain ⟨A, B, hkeys⟩ := List.append_of_mem hmem
      exact ⟨A, k :: B, hkeys, cycle_head? hkeys, rfl⟩

theorem head?_cycle (h : Within c m) : (cycle c m).head? = stand c m := by
  obtain ⟨A, B, _, hcycle, hstand⟩ := exists_split h
  rw [hcycle, hstand]

/-- Putting the iterator back from the end leaves the circle as it is. -/
theorem cycle_stand (c : Option κ) (m : HashMap κ ν) : cycle (stand c m) m = cycle c m := by
  cases c with
  | none =>
      have hfirst : cycle m.keys.head? m = m.keys ++ [] := cycle_head? (List.nil_append _).symm
      rw [List.append_nil] at hfirst
      simpa [stand, first, cycle] using hfirst
  | some k => rfl

theorem mem_of_stand (h : Within c m) (hk : stand c m = some k) : k ∈ m := by
  rw [← head?_cycle h] at hk
  exact mem_cycle_iff.1 (List.mem_of_mem_head? hk)

theorem next_of_split {A B : List κ} (hkeys : m.keys = A ++ k :: B) : next k m = B.head? := by
  have hnodup : (A ++ k :: B).Nodup := hkeys ▸ m.keys_nodup
  have hnot : k ∉ A := fun hmem => List.disjoint_of_nodup_append hnodup hmem (by simp)
  have hindex : m.keys.idxOf k = A.length := by
    rw [hkeys, List.idxOf_append_of_notMem hnot, List.idxOf_cons_self, Nat.add_zero]
  rw [next, hindex, hkeys]
  simp [List.drop_append]

/-- Where the iterator stands, with the keys before and after in the order of the
map. -/
theorem exists_split_of_stand (h : Within c m) (hk : stand c m = some k) :
    ∃ A B, m.keys = A ++ k :: B ∧ cycle c m = k :: (B ++ A) := by
  obtain ⟨A, B, hkeys, hcycle, hstand⟩ := exists_split h
  cases B with
  | nil =>
      rw [hk, List.nil_append] at hstand
      obtain ⟨A', rfl⟩ : ∃ A', A = k :: A' := by
        cases A with
        | nil => cases hstand
        | cons a A => exact ⟨A, by rw [Option.some.inj hstand]⟩
      exact ⟨[], A', by simpa using hkeys, by simpa using hcycle⟩
  | cons b B =>
      obtain rfl : k = b := Option.some.inj (hk.symm.trans hstand).symm ▸ rfl
      exact ⟨A, B, hkeys, hcycle⟩

/-! ## Moving on -/

theorem within_next (h : Within c m) (hk : stand c m = some k) : Within (next k m) m := by
  obtain ⟨A, B, hkeys, _⟩ := exists_split_of_stand h hk
  rw [next_of_split hkeys]
  exact within_of_head? (A := A ++ [k]) (by simpa using hkeys)

/-- The iterator moves on by one place. -/
theorem cycle_next (h : Within c m) (hk : stand c m = some k) :
    cycle (next k m) m = (cycle c m).rotate 1 := by
  obtain ⟨A, B, hkeys, hcycle⟩ := exists_split_of_stand h hk
  rw [next_of_split hkeys, hcycle, cycle_head? (A := A ++ [k]) (by simpa using hkeys)]
  simp

theorem keys_erase_of_split {A B : List κ} (hkeys : m.keys = A ++ k :: B) :
    (m.erase k).keys = A ++ B := by
  have hnodup : (A ++ k :: B).Nodup := hkeys ▸ m.keys_nodup
  have hnot : k ∉ A := fun hmem => List.disjoint_of_nodup_append hnodup hmem (by simp)
  rw [AList.keys_erase, hkeys, List.erase_append_right _ hnot, List.erase_cons_head]

theorem within_next_erase (h : Within c m) (hk : stand c m = some k) :
    Within (next k m) (m.erase k) := by
  obtain ⟨A, B, hkeys, _⟩ := exists_split_of_stand h hk
  rw [next_of_split hkeys]
  exact within_of_head? (keys_erase_of_split hkeys)

/-- The iterator moves on and the key it stood at is erased. -/
theorem cycle_next_erase (h : Within c m) (hk : stand c m = some k) :
    cycle (next k m) (m.erase k) = (cycle c m).tail := by
  obtain ⟨A, B, hkeys, hcycle⟩ := exists_split_of_stand h hk
  rw [next_of_split hkeys, hcycle, cycle_head? (keys_erase_of_split hkeys)]
  rfl

/-- An iterator that does not stand at the key erased is not affected. -/
theorem Within.erase (h : Within c m) (hne : c ≠ some k) : Within c (m.erase k) := by
  intro j hj
  rw [AList.mem_erase]
  refine ⟨?_, h j hj⟩
  intro heq
  exact hne (heq ▸ hj)

/-! ## Rehashing -/

theorem Within.reorder [DecidableEq ν] (h : Within c m) (m' : HashMap κ ν) :
    Within c (Collection.reorder m' m) := fun j hj => mem_reorder.2 (h j hj)

@[simp] theorem length_cycle_reorder [DecidableEq ν] (c : Option κ) (m' m : HashMap κ ν) :
    (cycle c (Collection.reorder m' m)).length = (cycle c m).length := by
  have hkeys : (Collection.reorder m' m).keys.Perm m.keys :=
    (entries_reorder_perm m' m).map Sigma.fst
  rw [length_cycle, length_cycle, hkeys.length_eq]

/-! ## Assignment -/

theorem keys_assign_of_mem (place : ℕ) (v : ν) (hk : k ∈ m) : (assign place k v m).keys = m.keys := by
  rw [assign, dif_pos hk]
  exact AList.keys_replace k v m

theorem keys_assign_of_notMem (place : ℕ) (v : ν) (hk : k ∉ m) :
    (assign place k v m).keys = m.keys.take place ++ k :: m.keys.drop place := by
  rw [assign, dif_neg hk]
  show (insertEntry place k v m.entries).keys = _
  simp [insertEntry, List.keys, AList.keys, List.map_take, List.map_drop]

theorem Within.assign (h : Within c m) (place : ℕ) (k : κ) (v : ν) :
    Within c (Collection.assign place k v m) := by
  intro j hj
  have hmem : j ∈ m.keys := h j hj
  show j ∈ (Collection.assign place k v m).keys
  by_cases hk : k ∈ m
  · rwa [keys_assign_of_mem place v hk]
  · rw [keys_assign_of_notMem place v hk, List.mem_append, List.mem_cons]
    rw [← List.take_append_drop place m.keys, List.mem_append] at hmem
    exact hmem.imp_right Or.inr

/-- A key that is inserted comes somewhere into the circle. -/
theorem exists_cycle_assign (h : Within c m) (place : ℕ) (v : ν) (hk : k ∉ m) :
    ∃ X Y, cycle c m = X ++ Y ∧ cycle c (assign place k v m) = X ++ k :: Y := by
  have hkeys := keys_assign_of_notMem place v hk
  cases c with
  | none =>
      refine ⟨m.keys.take place, m.keys.drop place, ?_, ?_⟩
      · simp [cycle]
      · simp [cycle, hkeys]
  | some j =>
      have hmem : j ∈ m.keys := h j rfl
      obtain ⟨A, B, hsplit⟩ := List.append_of_mem hmem
      have hcycle : cycle (some j) m = j :: B ++ A := cycle_head? (B := j :: B) hsplit
      rw [hsplit, List.take_append, List.drop_append] at hkeys
      rw [hcycle]
      rcases Nat.lt_or_ge A.length place with hlt | hle
      · -- the new key comes after `j`
        obtain ⟨n, hn⟩ : ∃ n, place - A.length = n + 1 := ⟨place - A.length - 1, by omega⟩
        rw [hn, List.take_of_length_le hlt.le, List.drop_of_length_le hlt.le] at hkeys
        refine ⟨j :: B.take n, B.drop n ++ A, ?_, ?_⟩
        · simp [← List.append_assoc]
        · have hafter := cycle_head? (m := Collection.assign place k v m) (A := A)
            (B := j :: (B.take n ++ k :: B.drop n)) (by simpa using hkeys)
          simpa using hafter
      · -- the new key comes before `j`
        rw [Nat.sub_eq_zero_of_le hle] at hkeys
        refine ⟨j :: B ++ A.take place, A.drop place, ?_, ?_⟩
        · simp
        · have hafter := cycle_head? (m := Collection.assign place k v m)
            (A := A.take place ++ k :: A.drop place) (B := j :: B) (by simpa using hkeys)
          simpa using hafter

/-- A key that comes after the first `n` of the circle leaves these alone. -/
theorem take_cycle_assign {n place : ℕ} {v : ν} (h : Within c m) (hn : n ≤ (cycle c m).length)
    (hnot : k ∉ (cycle c (assign place k v m)).take n) :
    (cycle c (assign place k v m)).take n = (cycle c m).take n ∧
      n ≤ (cycle c (assign place k v m)).length := by
  by_cases hk : k ∈ m
  · rw [cycle_congr (keys_assign_of_mem place v hk)]
    exact ⟨rfl, hn⟩
  · obtain ⟨X, Y, hbefore, hafter⟩ := exists_cycle_assign h place v hk
    rw [hafter] at hnot ⊢
    rw [hbefore] at hn ⊢
    have hle : n ≤ X.length := by
      by_contra hlt
      apply hnot
      rw [List.take_append, List.mem_append]
      right
      obtain ⟨d, hd⟩ : ∃ d, n - X.length = d + 1 := ⟨n - X.length - 1, by omega⟩
      simp [hd]
    rw [List.take_append_of_le_length hle, List.take_append_of_le_length hle, List.length_append]
    exact ⟨rfl, by omega⟩

end Collection
