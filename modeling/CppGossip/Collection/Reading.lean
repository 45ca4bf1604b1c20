import Mathlib.Data.List.GetD
import Mathlib.Data.List.Nodup
import Mathlib.Data.List.Perm.Basic

/-!
# Lists read entry by entry

`l.mapM f` reads a list with a function that may fail on an entry. The whole
list is read exactly when each of its entries is, and its order then plays no
part: the entries of another order are read to another order of the results.
-/

namespace Collection

variable {α β γ : Type*} {f : α → Option β} {l : List α} {r : List β}

theorem mapM_eq_some_iff_forall₂ :
    l.mapM f = some r ↔ List.Forall₂ (fun a b => f a = some b) l r := by
  induction l generalizing r with
  | nil => simp [eq_comm]
  | cons a l ih =>
      simp only [List.mapM_cons, Option.bind_eq_bind, Option.bind_eq_some_iff, Option.pure_def,
        Option.some_inj, List.forall₂_cons_left_iff]
      constructor
      · rintro ⟨b, hb, rest, hrest, rfl⟩
        exact ⟨b, rest, hb, ih.1 hrest, rfl⟩
      · rintro ⟨b, rest, hb, hrest, rfl⟩
        exact ⟨b, hb, rest, ih.2 hrest, rfl⟩

theorem isSome_mapM_iff : (l.mapM f).isSome ↔ ∀ a ∈ l, (f a).isSome := by
  induction l with
  | nil => simp
  | cons a l ih =>
      rw [List.forall_mem_cons, ← ih, List.mapM_cons]
      cases f a with
      | none => simp
      | some b =>
          cases l.mapM f with
          | none => simp
          | some rest => simp

/-- Another order of a list that is read is read to another order. -/
theorem exists_mapM_of_perm {l' : List α} (hperm : l.Perm l') (h : l.mapM f = some r) :
    ∃ r', l'.mapM f = some r' ∧ r.Perm r' := by
  obtain ⟨r', hr', hrest⟩ :=
    List.perm_comp_forall₂ hperm.symm (mapM_eq_some_iff_forall₂.1 h)
  exact ⟨r', mapM_eq_some_iff_forall₂.2 hr', hrest.symm⟩

theorem mapM_eq_none_of_perm {l' : List α} (hperm : l.Perm l') (h : l.mapM f = none) :
    l'.mapM f = none := by
  cases hr : l'.mapM f with
  | none => rfl
  | some r' =>
      obtain ⟨r, hr, _⟩ := exists_mapM_of_perm hperm.symm hr
      rw [h] at hr
      cases hr

/-- Where an entry that is read carries a mark that its result has too, the
marks of the list are those of the results. -/
theorem filterMap_of_mapM {mark : α → Option γ} {mark' : β → γ}
    (hmark : ∀ a b, f a = some b → mark a = some (mark' b)) (h : l.mapM f = some r) :
    l.filterMap mark = r.map mark' := by
  have hread := mapM_eq_some_iff_forall₂.1 h
  induction hread with
  | nil => rfl
  | cons hab hrest ih =>
      rw [List.filterMap_cons_some (hmark _ _ hab), List.map_cons,
        ih (mapM_eq_some_iff_forall₂.2 hrest)]

/-- The results of a list that is read are what is read of its entries. -/
theorem filterMap_eq_of_mapM (h : l.mapM f = some r) : l.filterMap f = r := by
  have hread : l.filterMap f = r.map id := filterMap_of_mapM (fun _ _ hab => hab) h
  rw [hread, List.map_id]

/-! ## Read at places -/

variable {places : List ℕ}

theorem map_getD_range (l : List α) (d : α) :
    ((List.range l.length).map fun i => l.getD i d) = l := by
  apply List.ext_getElem
  · rw [List.length_map, List.length_range]
  · intro i hi hi'
    rw [List.getElem_map, List.getElem_range, List.getD_eq_getElem _ _ hi']

/-- A list read at as many places as it is long gives each of its entries once
when no place is read twice. -/
theorem map_getD_perm_iff (hl : l.Nodup) (hlt : ∀ i ∈ places, i < l.length)
    (hlen : places.length = l.length) (d : α) :
    (places.map fun i => l.getD i d).Perm l ↔ places.Nodup := by
  constructor
  · intro hperm
    exact List.Nodup.of_map _ (hperm.nodup_iff.2 hl)
  · intro hnodup
    have hsub : places ⊆ List.range l.length := fun i hi => List.mem_range.2 (hlt i hi)
    have hrange : places.Perm (List.range l.length) :=
      (List.subperm_of_subset hnodup hsub).perm_of_length_le
        (Nat.le_of_eq (List.length_range.trans hlen.symm))
    have hread := hrange.map fun i => l.getD i d
    rwa [map_getD_range] at hread

end Collection
