import CppGossip.Own.Record

/-!
# The exchange of tables

A node that joins sends its table to the seed, which merges it and sends back
its own, and the node merges that. A table is sent as the list of its records in
whatever order the map is iterated. Each name occurs once in such a list, so
what becomes of a name is decided by its one record: the records before and
after it leave the name alone.
-/

namespace CppGossip

open Collection Transition

namespace Gossiper

/-- The records that `encodeLocalState` sends, up to their order. -/
def localState (g : Gossiper) : List NodeState := g.nodeMap.entries.map Sigma.snd

/-- `mergeStates` on a list of records received whole. -/
def merge (env : Env) (needBc : Bool) (states : List NodeState) (g : Gossiper) : Gossiper :=
  run (Gossiper.step env) g (states.map fun state => .message state needBc)

/-- `syncState` of `x`, run by `envX`, with `y`, run by `envY`: the request is
merged by `y` with `need_bc` true, the reply by `x` with `need_bc` false. -/
def Exchange (envX envY : Env) (x y x' y' : Gossiper) : Prop :=
  ∃ request reply : List NodeState, request.Perm x.localState ∧
    y' = y.merge envY true request ∧ reply.Perm y'.localState ∧ x' = x.merge envX false reply

variable {env : Env} {g : Gossiper} {z : String} {needBc : Bool}

theorem merge_run (es : List Event) (l : List NodeState) :
    (run (Gossiper.step env) fresh es).merge env needBc l =
      run (Gossiper.step env) fresh (es ++ l.map fun state => .message state needBc) :=
  (run_append fresh es _).symm

/-- Messages may come at any time. -/
theorem valid_map_message (needBc : Bool) (l : List NodeState) :
    Valid env g (l.map fun state => .message state needBc) := by
  induction l generalizing g with
  | nil => trivial
  | cons m l ih => exact ⟨trivial, ih⟩

theorem valid_messages {es : List Event} (hv : Valid env fresh es) (needBc : Bool)
    (l : List NodeState) :
    Valid env fresh (es ++ l.map fun state => .message state needBc) := by
  rw [Valid, along_append]
  exact ⟨hv, valid_map_message needBc l⟩

/-- What is sent is in the table. -/
theorem exists_lookup_of_mem_localState {r : NodeState} (h : r ∈ g.localState) :
    ∃ x, g.nodeMap.lookup x = some r := by
  obtain ⟨entry, hentry, rfl⟩ := List.mem_map.1 h
  exact ⟨entry.1, AList.mem_lookup_iff.2 hentry⟩

theorem mem_localState_iff (h : Tabled env g) {r : NodeState} :
    r ∈ g.localState ↔ g.getNodeState r.name = some r := by
  have hlookup : g.getNodeState r.name = some r ↔ Sigma.mk r.name r ∈ g.nodeMap.entries :=
    AList.mem_lookup_iff
  rw [hlookup, localState, List.mem_map]
  constructor
  · rintro ⟨⟨k, s⟩, hmem, rfl⟩
    have hname : s.name = k := h.keyed k s (AList.mem_lookup_iff.2 hmem)
    exact hname ▸ hmem
  · intro hmem
    exact ⟨_, hmem, rfl⟩

theorem nodup_localState (h : Tabled env g) : (g.localState.map NodeState.name).Nodup := by
  have hkeys : g.localState.map NodeState.name = g.nodeMap.keys := by
    rw [localState, List.map_map]
    refine List.map_congr_left fun entry hmem => ?_
    exact h.keyed entry.1 entry.2 (AList.mem_lookup_iff.2 hmem)
  rw [hkeys]
  exact g.nodeMap.keys_nodup

/-! ## One record at a time -/

theorem peer_mergeState_of_ne (h : Tabled env g) (hz : z ≠ env.conf.name) {m : NodeState}
    (hne : m.name ≠ z) : (g.mergeState env needBc m).peer z = g.peer z := by
  unfold mergeState
  split
  · rw [peer_aliveNode needBc (h.not_leaving m), if_neg hne]
  · rw [peer_suspectNode h hz, if_neg hne]
  · rw [peer_deadNode hz, if_neg hne]
  · rfl

theorem own_mergeState_of_ne (h : Tabled env g) {m : NodeState} (hne : m.name ≠ env.conf.name) :
    (g.mergeState env needBc m).own env = g.own env := by
  unfold mergeState
  split
  · rw [own_aliveNode m needBc (h.not_leaving m), if_neg hne]
  · rw [own_suspectNode h, if_neg hne]
  · rw [own_deadNode h.staying, if_neg hne]
  · rfl

/-- What is held about one name: about another node what is held about a peer,
about the node itself what it holds of itself. -/
def held (env : Env) (z : String) (g : Gossiper) : Peer × Option Own :=
  (g.peer z, if z = env.conf.name then some (g.own env) else none)

theorem held_mergeState_of_ne (h : Tabled env g) {m : NodeState} (hne : m.name ≠ z) :
    held env z (g.mergeState env needBc m) = held env z g := by
  by_cases hself : z = env.conf.name
  · subst hself
    have hown : (g.mergeState env needBc m).own env = g.own env := own_mergeState_of_ne h hne
    have hpeer : (g.mergeState env needBc m).peer env.conf.name = g.peer env.conf.name :=
      congrArg Own.peer hown
    simp only [held, hown, hpeer]
  · simp only [held, if_neg hself, peer_mergeState_of_ne h hself hne]

theorem Tabled.merge (h : Tabled env g) (l : List NodeState) : Tabled env (g.merge env needBc l) := by
  induction l generalizing g with
  | nil => exact h
  | cons m l ih => exact ih (h.step (.message m needBc) trivial)

/-- Records of other names leave a name alone. -/
theorem held_merge_of_notMem (h : Tabled env g) {l : List NodeState}
    (hnot : z ∉ l.map NodeState.name) : held env z (g.merge env needBc l) = held env z g := by
  induction l generalizing g with
  | nil => rfl
  | cons m l ih =>
      rw [List.map_cons, List.mem_cons, not_or] at hnot
      exact (ih (h.step (.message m needBc) trivial) hnot.2).trans
        (held_mergeState_of_ne h (Ne.symm hnot.1))

/-- What becomes of a name is decided by its record: it is merged into a table
that holds about the name what was held to begin with. -/
theorem held_merge_of_mem (h : Tabled env g) (needBc : Bool) {l : List NodeState}
    (hnodup : (l.map NodeState.name).Nodup) {r : NodeState} (hr : r ∈ l) :
    ∃ g₁ : Gossiper, Tabled env g₁ ∧ held env r.name g₁ = held env r.name g ∧
      held env r.name (g.merge env needBc l) = held env r.name (g₁.mergeState env needBc r) := by
  obtain ⟨l₁, l₂, rfl⟩ := List.append_of_mem hr
  rw [List.map_append, List.map_cons, List.nodup_middle, List.nodup_cons, List.mem_append,
    not_or] at hnodup
  have hfirst : Tabled env (g.merge env needBc l₁) := h.merge l₁
  have hsplit : g.merge env needBc (l₁ ++ r :: l₂) =
      ((g.merge env needBc l₁).mergeState env needBc r).merge env needBc l₂ := by
    simp only [Gossiper.merge, List.map_append, run_append, List.map_cons, run_cons]
    rfl
  refine ⟨g.merge env needBc l₁, hfirst, held_merge_of_notMem h hnodup.1.1, ?_⟩
  rw [hsplit]
  exact held_merge_of_notMem (hfirst.step (.message r needBc) trivial) hnodup.1.2

end Gossiper

end CppGossip
