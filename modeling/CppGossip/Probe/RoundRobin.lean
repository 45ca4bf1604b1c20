import CppGossip.Collection.Reading
import CppGossip.Membership.Table
import Mathlib.Data.Nat.ModEq

/-!
# The order in which nodes are probed

`roundrobinNode` keeps its cursor in a static variable, which all gossipers of
a process have in common. Each call takes the remainder of the cursor by the
length of the caller's own list, and leaves a cursor that is less than that
length. `names` are what the calls of one gossiper return while others call in
between. By itself a gossiper probes each node once in turn; among others it
depends on where they leave the cursor.
-/

namespace CppGossip

open Collection Transition

namespace Gossiper

/-- A call of `roundrobinNode(1)` in the process: by the gossiper itself, or by
another one as it is at the time. -/
inductive Call where
  | own
  | other (peer : Gossiper)

def Call.isOwn : Call → Bool
  | own => true
  | other _ => false

/-- The names that the gossiper's own calls return. -/
def names (g : Gossiper) : ℕ → List Call → List String
  | _, [] => []
  | cursor, .own :: calls =>
      (g.roundrobinNode 1 cursor).1 ++ names g (g.roundrobinNode 1 cursor).2 calls
  | cursor, .other peer :: calls => names g (peer.roundrobinNode 1 cursor).2 calls

/-- The cursor after a call on a list of length `size`. -/
def advance (size cursor : ℕ) : ℕ := if size ≤ 1 then cursor else (cursor + 1) % size

/-- The remainders by `n` of the cursor at the own calls of a gossiper whose list
has length `n`. -/
def places (n : ℕ) : ℕ → List Call → List ℕ
  | _, [] => []
  | cursor, .own :: calls => cursor % n :: places n (advance n cursor) calls
  | cursor, .other peer :: calls => places n (advance peer.nodes.length cursor) calls

variable {g : Gossiper}

theorem roundrobinNode_one_snd (g : Gossiper) (cursor : ℕ) :
    (g.roundrobinNode 1 cursor).2 = advance g.nodes.length cursor := by
  rw [roundrobinNode, advance]
  split
  · rfl
  · rfl

/-- The names are those at the places. -/
theorem names_eq_map (hn : 1 < g.nodes.length) (cursor : ℕ) (calls : List Call) :
    names g cursor calls = (places g.nodes.length cursor calls).map fun i => g.nodes.getD i "" := by
  have hne : g.nodes ≠ [] := List.ne_nil_of_length_pos (Nat.zero_lt_of_lt hn)
  induction calls generalizing cursor with
  | nil => rfl
  | cons call calls ih =>
      cases call with
      | own =>
          rw [names, places, roundrobinNode_one hne, roundrobinNode_one_snd, ih, List.map_cons]
          rfl
      | other peer => rw [names, places, roundrobinNode_one_snd, ih]

theorem length_places (n cursor : ℕ) (calls : List Call) :
    (places n cursor calls).length = calls.countP Call.isOwn := by
  induction calls generalizing cursor with
  | nil => rfl
  | cons call calls ih =>
      cases call with
      | own => rw [places, List.length_cons, ih, List.countP_cons_of_pos rfl]
      | other peer => rw [places, ih, List.countP_cons_of_neg Bool.false_ne_true]

theorem lt_of_mem_places {n cursor i : ℕ} (hn : 0 < n) {calls : List Call}
    (hi : i ∈ places n cursor calls) : i < n := by
  induction calls generalizing cursor with
  | nil => cases hi
  | cons call calls ih =>
      cases call with
      | own =>
          rcases List.mem_cons.1 hi with rfl | hrest
          · exact Nat.mod_lt _ hn
          · exact ih hrest
      | other peer => exact ih hi

/-- As many calls as there are names return each name once, exactly when the
cursor has another remainder at each of them. -/
theorem names_perm_iff (env : Env) (es : List Event) (hv : Valid env fresh es) (cursor : ℕ)
    (calls : List Call) :
    let g := run (Gossiper.step env) fresh es
    1 < g.nodes.length → calls.countP Call.isOwn = g.nodes.length →
      ((names g cursor calls).Perm g.nodes ↔ (places g.nodes.length cursor calls).Nodup) := by
  intro g hn hcount
  have htable : Tabled env g := tabled_run hv
  rw [names_eq_map hn]
  exact map_getD_perm_iff htable.index.nodup (fun i hi => lt_of_mem_places (Nat.zero_lt_of_lt hn) hi)
    ((length_places _ _ _).trans hcount) ""

/-! ## Undisturbed -/

/-- The calls of the others leave the remainder of the cursor as it was. -/
def Undisturbed (n : ℕ) : ℕ → List Call → Prop
  | _, [] => True
  | cursor, .own :: calls => Undisturbed n (advance n cursor) calls
  | cursor, .other peer :: calls =>
      advance peer.nodes.length cursor % n = cursor % n ∧
        Undisturbed n (advance peer.nodes.length cursor) calls

/-- Then the places follow one another. -/
theorem places_of_undisturbed {n : ℕ} (hn : 1 < n) {cursor : ℕ} {calls : List Call}
    (h : Undisturbed n cursor calls) :
    places n cursor calls =
      (List.range (calls.countP Call.isOwn)).map fun i => (cursor + i) % n := by
  induction calls generalizing cursor with
  | nil => rfl
  | cons call calls ih =>
      cases call with
      | own =>
          have hnext : advance n cursor = (cursor + 1) % n := if_neg (Nat.not_le.2 hn)
          rw [places, ih h, List.countP_cons_of_pos rfl, List.range_succ_eq_map, List.map_cons,
            List.map_map, hnext]
          congr 1
          refine List.map_congr_left fun i _ => ?_
          rw [Nat.mod_add_mod, Function.comp_apply, Nat.add_assoc, Nat.add_comm 1 i]
      | other peer =>
          rw [places, ih h.2, List.countP_cons_of_neg Bool.false_ne_true]
          refine List.map_congr_left fun i _ => ?_
          rw [Nat.add_mod, h.1, ← Nat.add_mod]

/-- A gossiper that is not disturbed probes each node once in turn. -/
theorem nodup_places_of_undisturbed {n : ℕ} (hn : 1 < n) {cursor : ℕ} {calls : List Call}
    (hcount : calls.countP Call.isOwn = n) (h : Undisturbed n cursor calls) :
    (places n cursor calls).Nodup := by
  rw [places_of_undisturbed hn h, hcount]
  refine List.nodup_range.map_on fun i hi j hj heq => ?_
  have hmod : i ≡ j [MOD n] := Nat.ModEq.add_left_cancel' cursor heq
  exact hmod.eq_of_lt_of_lt (List.mem_range.1 hi) (List.mem_range.1 hj)

/-! ## Two gossipers in a process -/

/-- A gossiper that lists `a:1` and `b:1`. -/
def samplePair : List Event := [.join, .message (news "b:1" 1 .alive "") true]

/-- One that calls twice by itself, in between one that is alone. -/
theorem names_perm_of_single :
    let g := run (Gossiper.step sampleEnv) fresh samplePair
    let calls : List Call := [.own, .other (run (Gossiper.step sampleEnv) fresh [.join]), .own]
    (names g 5 calls).Perm g.nodes :=
  (names_perm_iff sampleEnv samplePair (by decide) 5 _ (by decide) (by decide)).2 (by decide)

/-- Another one that lists two nodes calls in between, and `a:1` is probed twice. -/
theorem not_names_perm_of_pair :
    let g := run (Gossiper.step sampleEnv) fresh samplePair
    ¬ (names g 0 [.own, .other g, .own]).Perm g.nodes := by
  decide

end Gossiper

end CppGossip
