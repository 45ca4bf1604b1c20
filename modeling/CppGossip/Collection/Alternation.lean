import Mathlib.Data.List.Chain

/-!
# Alternating histories

Something that is switched on and off leaves a list of booleans behind, the
first entry first. `Alternates up l` says that `l` is the history of a switch
that was off to begin with, was only ever switched the other way, and is on now
exactly when `up`.
-/

namespace Collection

/-- `l` starts with `true`, alternates, and ends with `true` exactly when `up`. -/
structure Alternates (up : Prop) (l : List Bool) : Prop where
  chain : l.IsChain (· ≠ ·)
  first : ∀ b ∈ l.head?, b = true
  last : l.getLast? = some true ↔ up

variable {up up' : Prop} {l : List Bool}

theorem alternates_nil (h : ¬ up) : Alternates up [] where
  chain := List.isChain_nil
  first _ hb := by cases hb
  last := iff_of_false (by simp) h

theorem Alternates.congr (h : Alternates up l) (hiff : up ↔ up') : Alternates up' l where
  chain := h.chain
  first := h.first
  last := h.last.trans hiff

/-- A switch that is off may be switched on. -/
theorem Alternates.switchOn (h : Alternates up l) (hup : ¬ up) (hup' : up') :
    Alternates up' (l ++ [true]) where
  chain := by
    refine h.chain.append (List.isChain_singleton true) ?_
    intro b hb c hc hbc
    cases hc
    exact hup (h.last.1 (hbc ▸ hb))
  first b hb := by
    cases l with
    | nil => exact (Option.some.inj hb).symm
    | cons c l => exact h.first b hb
  last := iff_of_true (by simp) hup'

/-- A switch that is on may be switched off. -/
theorem Alternates.switchOff (h : Alternates up l) (hup : up) (hup' : ¬ up') :
    Alternates up' (l ++ [false]) where
  chain := by
    refine h.chain.append (List.isChain_singleton false) ?_
    intro b hb c hc hbc
    cases hc
    have hlast := h.last.2 hup
    rw [Option.mem_def.1 hb, hbc] at hlast
    exact Bool.false_ne_true (Option.some.inj hlast)
  first b hb := by
    cases l with
    | nil =>
        have hlast := h.last.2 hup
        cases hlast
    | cons c l => exact h.first b hb
  last := iff_of_false (by simp) hup'

end Collection
