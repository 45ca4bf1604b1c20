import Mathlib.Order.MinMax
import Mathlib.Data.List.Induction
import Mathlib.Data.List.Perm.Basic

/-!
# Registers that keep the greatest claim

A register holds one value of a linear order and hears claims. Kept as it
should be, it takes the greatest value heard, `merge r l`, whatever the order
in which the claims arrive. `absorb closed` is the register that drops a
closed claim when its own value is closed already; such a register may end
below the greatest claim, and `foldl_absorb_eq_merge_iff` says exactly when it
does not.
-/

namespace Register

variable {κ : Type*} [LinearOrder κ]

/-- The value of a register that began at `r` and heard the claims `l`. -/
def merge (r : κ) (l : List κ) : κ := l.foldl max r

@[simp] theorem merge_nil (r : κ) : merge r [] = r := rfl

@[simp] theorem merge_cons (r m : κ) (l : List κ) :
    merge r (m :: l) = merge (max r m) l := rfl

theorem merge_append (r : κ) (l l' : List κ) : merge r (l ++ l') = merge (merge r l) l' :=
  List.foldl_append

theorem merge_le_iff (r b : κ) (l : List κ) :
    merge r l ≤ b ↔ r ≤ b ∧ ∀ m ∈ l, m ≤ b := by
  induction l generalizing r with
  | nil => simp
  | cons m l ih => rw [merge_cons, ih, max_le_iff, List.forall_mem_cons, and_assoc]

theorem le_merge (r : κ) (l : List κ) : r ≤ merge r l :=
  ((merge_le_iff r _ l).1 le_rfl).1

theorem le_merge_of_mem {r m : κ} {l : List κ} (h : m ∈ l) : m ≤ merge r l :=
  ((merge_le_iff r _ l).1 le_rfl).2 m h

/-- The greatest claim does not depend on the order of the claims. -/
theorem merge_perm (r : κ) {l l' : List κ} (h : l.Perm l') : merge r l = merge r l' := by
  apply le_antisymm
  · exact (merge_le_iff r _ l).2 ⟨le_merge r l', fun m hm => le_merge_of_mem (h.mem_iff.1 hm)⟩
  · exact (merge_le_iff r _ l').2 ⟨le_merge r l, fun m hm => le_merge_of_mem (h.mem_iff.2 hm)⟩

/-- Nor does it depend on how often each was made. -/
theorem merge_congr (r : κ) {l l' : List κ} (h : ∀ m, m ∈ l ↔ m ∈ l') : merge r l = merge r l' := by
  apply le_antisymm
  · exact (merge_le_iff r _ l).2 ⟨le_merge r l', fun m hm => le_merge_of_mem ((h m).1 hm)⟩
  · exact (merge_le_iff r _ l').2 ⟨le_merge r l, fun m hm => le_merge_of_mem ((h m).2 hm)⟩

variable (closed : κ → Prop) [DecidablePred closed]

/-- One claim `m` heard by a register at `r` that drops closed claims once its
own value is closed. -/
def absorb (r m : κ) : κ := if closed r ∧ closed m then r else max r m

theorem le_absorb (r m : κ) : r ≤ absorb closed r m := by
  unfold absorb
  split
  · exact le_rfl
  · exact le_max_left r m

theorem absorb_le_max (r m : κ) : absorb closed r m ≤ max r m := by
  unfold absorb
  split
  · exact le_max_left r m
  · exact le_rfl

theorem le_foldl_absorb (r : κ) (l : List κ) : r ≤ l.foldl (absorb closed) r := by
  induction l generalizing r with
  | nil => exact le_rfl
  | cons m l ih => exact (le_absorb closed r m).trans (ih _)

theorem foldl_absorb_le_merge (r : κ) (l : List κ) :
    l.foldl (absorb closed) r ≤ merge r l := by
  induction l generalizing r with
  | nil => exact le_rfl
  | cons m l ih =>
      rw [List.foldl_cons, merge_cons]
      refine (ih _).trans ((merge_le_iff _ _ l).2 ⟨?_, fun x hx => le_merge_of_mem hx⟩)
      exact (absorb_le_max closed r m).trans (le_merge _ l)

/-- A claim is taken where it is heard: its value, and the value of the
register on hearing it, are not both closed. -/
def Taken (r m : κ) (l : List κ) : Prop :=
  ∃ p q, l = p ++ m :: q ∧ ¬ (closed (p.foldl (absorb closed) r) ∧ closed m)

/-- The value of a register is its first one or a claim it took. -/
theorem foldl_absorb_eq_or_taken (r : κ) (l : List κ) :
    l.foldl (absorb closed) r = r ∨
      Taken closed r (l.foldl (absorb closed) r) l := by
  induction l using List.reverseRecOn with
  | nil => exact Or.inl rfl
  | append_singleton l m ih =>
      rw [List.foldl_append, List.foldl_cons, List.foldl_nil]
      have hkeep : absorb closed (l.foldl (absorb closed) r) m = l.foldl (absorb closed) r →
          absorb closed (l.foldl (absorb closed) r) m = r ∨
            Taken closed r (absorb closed (l.foldl (absorb closed) r) m) (l ++ [m]) := by
        intro h
        rw [h]
        refine ih.imp id ?_
        rintro ⟨p, q, hl, hopen⟩
        have hsplit := (congrArg (· ++ [m]) hl).trans (List.append_assoc p _ [m])
        exact ⟨p, q ++ [m], hsplit, hopen⟩
      by_cases hclosed : closed (l.foldl (absorb closed) r) ∧ closed m
      · exact hkeep (if_pos hclosed)
      · have hmax : absorb closed (l.foldl (absorb closed) r) m =
            max (l.foldl (absorb closed) r) m := if_neg hclosed
        rcases max_choice (l.foldl (absorb closed) r) m with h | h
        · exact hkeep (hmax.trans h)
        · rw [hmax, h]
          exact Or.inr ⟨l, [], rfl, hclosed⟩

/-- A register that drops closed claims ends at the greatest claim exactly when
it began there or takes some copy of that claim. -/
theorem foldl_absorb_eq_merge_iff (r : κ) (l : List κ) :
    l.foldl (absorb closed) r = merge r l ↔
      r = merge r l ∨ Taken closed r (merge r l) l := by
  constructor
  · intro h
    rcases foldl_absorb_eq_or_taken closed r l with hr | ht
    · exact Or.inl (hr.symm.trans h)
    · exact Or.inr (h ▸ ht)
  · intro h
    apply le_antisymm (foldl_absorb_le_merge closed r l)
    rcases h with hr | ⟨p, q, hl, hopen⟩
    · calc merge r l = r := hr.symm
        _ ≤ l.foldl (absorb closed) r := le_foldl_absorb closed r l
    · have htake : merge r l ≤ absorb closed (p.foldl (absorb closed) r) (merge r l) := by
        rw [absorb, if_neg hopen]
        exact le_max_right _ _
      have hsplit : l.foldl (absorb closed) r =
          q.foldl (absorb closed) (absorb closed (p.foldl (absorb closed) r) (merge r l)) := by
        conv_lhs => rw [hl, List.foldl_append, List.foldl_cons]
      rw [hsplit]
      exact htake.trans (le_foldl_absorb closed _ q)

end Register
