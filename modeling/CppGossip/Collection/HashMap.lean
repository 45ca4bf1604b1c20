import Mathlib.Data.List.AList

/-!
# Hash maps with an iteration order

A hash map is an association list with distinct keys, `AList`, whose entries
stand in the order in which the map is iterated. `assign place k v m` is the
assignment `m[k] = v`: a present key keeps its place, a new one goes to the
place the caller names, since where a hash table puts it is not specified. A new
key may also make the table grow, which leaves the keys in any order: `reorder`.
Iterators are keys, `none` being the end: `first m` is the begin iterator and
`next k m` the iterator after the one at `k`.
-/

namespace Collection

/-- A map from `κ` to `ν` together with the order in which it is iterated. -/
abbrev HashMap (κ ν : Type*) := AList (fun _ : κ => ν)

variable {κ ν : Type*}

/-- The entry list with `⟨k, v⟩` put at place `n`, or at the end when the list
is shorter. -/
def insertEntry (n : ℕ) (k : κ) (v : ν) (l : List (Sigma fun _ : κ => ν)) :
    List (Sigma fun _ : κ => ν) :=
  l.take n ++ ⟨k, v⟩ :: l.drop n

theorem insertEntry_perm (n : ℕ) (k : κ) (v : ν) (l : List (Sigma fun _ : κ => ν)) :
    (insertEntry n k v l).Perm (⟨k, v⟩ :: l) := by
  have hmid : (insertEntry n k v l).Perm (⟨k, v⟩ :: (l.take n ++ l.drop n)) :=
    List.perm_middle
  rwa [List.take_append_drop] at hmid

variable [DecidableEq κ]

/-- `m[k] = v`; a new key goes to place `place` of the iteration order. The other keys
keep theirs, unless the table grows. -/
def assign (place : ℕ) (k : κ) (v : ν) (m : HashMap κ ν) : HashMap κ ν :=
  if h : k ∈ m then m.replace k v
  else ⟨insertEntry place k v m.entries,
    (List.perm_nodupKeys (insertEntry_perm place k v m.entries)).2
      (List.nodupKeys_cons.2 ⟨h, m.nodupKeys⟩)⟩

/-- `m` once it has been rehashed, and is iterated in the order of `m'`. -/
def reorder [DecidableEq ν] (m' m : HashMap κ ν) : HashMap κ ν :=
  if m'.entries.Perm m.entries then m' else m

/-- The begin iterator. -/
def first (m : HashMap κ ν) : Option κ := m.keys.head?

/-- The iterator after the one at `k`, the first key of the rest of the order. -/
def next (k : κ) (m : HashMap κ ν) : Option κ :=
  (m.keys.drop (m.keys.idxOf k + 1)).head?

theorem dlookup_entry_cons (k k' : κ) (v : ν) (l : List (Sigma fun _ : κ => ν)) :
    List.dlookup k' (⟨k, v⟩ :: l) = if k' = k then some v else l.dlookup k' := by
  by_cases h : k' = k
  · subst h
    simp
  · rw [if_neg h]
    exact List.dlookup_cons_ne l _ h

theorem dlookup_kreplace (k k' : κ) (v : ν) (l : List (Sigma fun _ : κ => ν)) :
    (l.kreplace k v).dlookup k' =
      if k' = k ∧ k ∈ l.keys then some v else l.dlookup k' := by
  induction l with
  | nil => simp [List.kreplace]
  | cons s l ih =>
      obtain ⟨a, b⟩ := s
      by_cases ha : k = a
      · subst ha
        have hhead : List.kreplace k v (⟨k, b⟩ :: l) = ⟨k, v⟩ :: l := by
          simp [List.kreplace, List.lookmap_cons_some]
        rw [hhead, dlookup_entry_cons, dlookup_entry_cons]
        by_cases hk : k' = k
        · simp [hk]
        · simp [hk]
      · have htail : List.kreplace k v (⟨a, b⟩ :: l) = ⟨a, b⟩ :: l.kreplace k v := by
          simp [List.kreplace, List.lookmap_cons_none, ha]
        rw [htail, dlookup_entry_cons, dlookup_entry_cons, ih]
        by_cases hk : k' = a
        · simp [hk, Ne.symm ha]
        · simp [hk, ha]

theorem dlookup_insertEntry (n : ℕ) (k k' : κ) (v : ν)
    {l : List (Sigma fun _ : κ => ν)} (hk : k ∉ l.keys) (hl : l.NodupKeys) :
    (insertEntry n k v l).dlookup k' = if k' = k then some v else l.dlookup k' := by
  have hperm := insertEntry_perm n k v l
  have hcons : (⟨k, v⟩ :: l : List (Sigma fun _ : κ => ν)).NodupKeys :=
    List.nodupKeys_cons.2 ⟨hk, hl⟩
  rw [List.perm_dlookup k' ((List.perm_nodupKeys hperm).2 hcons) hperm,
    dlookup_entry_cons]

theorem lookup_assign (place : ℕ) (k k' : κ) (v : ν) (m : HashMap κ ν) :
    (assign place k v m).lookup k' = if k' = k then some v else m.lookup k' := by
  unfold assign
  split
  case isTrue h =>
    have hkey : k ∈ m.entries.keys := h
    exact (dlookup_kreplace k k' v m.entries).trans
      (if_congr (and_iff_left hkey) rfl rfl)
  case isFalse h => exact dlookup_insertEntry place k k' v h m.nodupKeys

theorem entries_reorder_perm [DecidableEq ν] (m' m : HashMap κ ν) :
    (reorder m' m).entries.Perm m.entries := by
  unfold reorder
  split
  case isTrue hperm => exact hperm
  case isFalse => exact List.Perm.refl _

@[simp] theorem lookup_reorder [DecidableEq ν] (m' m : HashMap κ ν) (k : κ) :
    (reorder m' m).lookup k = m.lookup k :=
  List.perm_dlookup k (reorder m' m).nodupKeys (entries_reorder_perm m' m)

@[simp] theorem mem_reorder [DecidableEq ν] {m' m : HashMap κ ν} {k : κ} :
    k ∈ reorder m' m ↔ k ∈ m :=
  ((entries_reorder_perm m' m).map Sigma.fst).mem_iff

theorem lookup_insert (k k' : κ) (v : ν) (m : HashMap κ ν) :
    (m.insert k v).lookup k' = if k' = k then some v else m.lookup k' := by
  by_cases h : k' = k
  · subst h
    rw [AList.lookup_insert, if_pos rfl]
  · rw [AList.lookup_insert_ne h, if_neg h]

theorem lookup_erase (k k' : κ) (m : HashMap κ ν) :
    (m.erase k).lookup k' = if k' = k then none else m.lookup k' := by
  by_cases h : k' = k
  · subst h
    rw [AList.lookup_erase, if_pos rfl]
  · rw [AList.lookup_erase_ne h, if_neg h]

/-- An entry written keeps what all entries satisfy if it satisfies it. -/
theorem forall_lookup_insert {P : κ → ν → Prop} {m : HashMap κ ν}
    (h : ∀ k v, m.lookup k = some v → P k v) {k₀ : κ} {v₀ : ν} (hnew : P k₀ v₀) :
    ∀ k v, (m.insert k₀ v₀).lookup k = some v → P k v := by
  intro k v hv
  rw [lookup_insert] at hv
  split at hv
  case isTrue hk =>
    cases hv
    exact hk ▸ hnew
  case isFalse => exact h k v hv

theorem forall_lookup_erase {P : κ → ν → Prop} {m : HashMap κ ν}
    (h : ∀ k v, m.lookup k = some v → P k v) (k₀ : κ) :
    ∀ k v, (m.erase k₀).lookup k = some v → P k v := by
  intro k v hv
  rw [lookup_erase, Option.ite_none_left_eq_some] at hv
  exact h k v hv.2

end Collection
