import CppGossip.Membership.Thread

/-!
# Handlers in parallel

`Threads` is a gossiper whose handlers any number of threads run, in any order of
their locked steps. A handler decides on a copy of the record and writes later,
so what it decided on may have changed by then. `safe_iff_timely` says which
steps do the harm: those that overwrite a record with an older one, and those
that append a name which is listed already. Handlers about one node that do not
overlap take no such step (`safe_of_apart`).
-/

namespace CppGossip

open Collection Transition

/-- A gossiper and the threads that run its handlers. -/
structure Threads (ι : Type*) where
  g : Gossiper
  pc : ι → Pc

/-- What may happen next: a thread enters a handler, or takes a step in it. -/
inductive Turn (ι : Type*) where
  | alive (i : ι) (a : NodeState) (needBc : Bool)
  | suspect (i : ι) (s : NodeState)
  | dead (i : ι) (d : NodeState)
  /-- with the answer of `Confirm`, should the step call it -/
  | move (i : ι) (quorum : Bool)

namespace Threads

variable {ι : Type*} [DecidableEq ι] (env : Env)

/-- A gossiper as it is constructed, and no handler running. -/
def start : Threads ι where
  g := .fresh
  pc := fun _ => .idle

/-- What a turn does. -/
def act (s : Threads ι) : Turn ι → Threads ι
  | .alive i a needBc => { s with pc := Function.update s.pc i (.aliveRead a needBc) }
  | .suspect i m => { s with pc := Function.update s.pc i (.suspectRead m) }
  | .dead i d => { s with pc := Function.update s.pc i (.deadRead d) }
  | .move i quorum =>
      let (g, p) := (s.pc i).move env quorum s.g
      { g := g, pc := Function.update s.pc i p }

/-- The turns that may come next. The handlers are called on news of their own
kind, and `suspectNode` also on the record of a node whose pong did not come. -/
def Enabled (s : Threads ι) : Turn ι → Prop
  | .alive i a _ => s.pc i = .idle ∧ a.state = .alive
  | .suspect i m => s.pc i = .idle ∧ (m.state = .suspect ∨ m.state = .alive)
  | .dead i d => s.pc i = .idle ∧ d.state = .dead
  | .move _ _ => True

/-- No name stands twice in `nodes_`. -/
def NoTwice (s : Threads ι) : Prop := s.g.nodes.Nodup

/-- A node without a record, or recorded dead, is not in `nodes_`, unless a thread
has written one of its entries and is about to write the other. -/
def Delisted (s : Threads ι) : Prop :=
  ∀ x, s.g.Down x → (∀ i, (s.pc i).between ≠ some x) → x ∉ s.g.nodes

/-- No record is lost and no record's dominant decreases. -/
def Grows (s : Threads ι) (t : Turn ι) : Prop :=
  ∀ x r, s.g.getNodeState x = some r →
    ∃ r', (s.act env t).g.getNodeState x = some r' ∧ r.dominant ≤ r'.dominant

/-- The table is not corrupted in the run of `ts`. -/
def Safe (s : Threads ι) (ts : List (Turn ι)) : Prop :=
  Throughout (act env) NoTwice s ts ∧ Along (act env) (Grows env) s ts ∧
    Throughout (act env) Delisted s ts

/-- When a thread writes a record, the one it overwrites is not newer, and when it
appends a name, the name is not listed. -/
def Timely (s : Threads ι) : Turn ι → Prop
  | .move i _ =>
      (∀ w ∈ (s.pc i).writes, s.g.knownDominant w.1 ≤ w.2.dominant) ∧
        ∀ x ∈ (s.pc i).appends, x ∉ s.g.nodes
  | _ => True

instance Enabled.decidable (s : Threads ι) : ∀ t, Decidable (s.Enabled t)
  | .alive _ _ _ | .suspect _ _ | .dead _ _ => inferInstanceAs (Decidable (_ ∧ _))
  | .move _ _ => inferInstanceAs (Decidable True)

instance NoTwice.decidable (s : Threads ι) : Decidable s.NoTwice :=
  inferInstanceAs (Decidable s.g.nodes.Nodup)

instance Timely.decidable (s : Threads ι) : ∀ t, Decidable (s.Timely t)
  | .move _ _ => inferInstanceAs (Decidable (_ ∧ _))
  | .alive _ _ _ | .suspect _ _ | .dead _ _ => inferInstanceAs (Decidable True)

/-! ## What every thread keeps -/

/-- Every thread handles news of its own kind, and the table is in order. -/
structure Sound (s : Threads ι) : Prop where
  proper : ∀ i, (s.pc i).Proper
  noTwice : s.NoTwice
  delisted : s.Delisted

variable {env} {s : Threads ι} {t : Turn ι}

omit [DecidableEq ι] in
theorem sound_start : Sound (start : Threads ι) where
  proper _ := trivial
  noTwice := List.nodup_nil
  delisted _ _ _ := List.not_mem_nil

/-- A thread that enters a handler touches nothing. -/
theorem Sound.enter (h : Sound s) {i : ι} {p : Pc} (hidle : s.pc i = .idle) (hp : p.Proper) :
    Sound { s with pc := Function.update s.pc i p } where
  proper j := by
    by_cases hj : j = i
    · subst hj
      simpa using hp
    · simpa [hj] using h.proper j
  noTwice := h.noTwice
  delisted x hdown hnone := by
    refine h.delisted x hdown fun j => ?_
    by_cases hj : j = i
    · subst hj
      simp [hidle, Pc.between]
    · simpa [hj] using hnone j

/-- The record of a node after one step of a thread. -/
theorem getNodeState_move (i : ι) (quorum : Bool) (x : String) :
    (s.act env (.move i quorum)).g.getNodeState x =
      match (s.pc i).writes with
      | some (y, r) => if x = y then some r else s.g.getNodeState x
      | none => s.g.getNodeState x := by
  have hmap : (s.act env (.move i quorum)).g.nodeMap = _ :=
    Pc.nodeMap_move env quorum s.g (s.pc i)
  rw [Gossiper.getNodeState, hmap]
  cases (s.pc i).writes with
  | none => rfl
  | some w => exact lookup_insert w.1 x w.2 s.g.nodeMap

theorem getNodeState_move_of_unwritten {i : ι} {x : String}
    (h : ∀ r, (s.pc i).writes ≠ some (x, r)) (quorum : Bool) :
    (s.act env (.move i quorum)).g.getNodeState x = s.g.getNodeState x := by
  rw [getNodeState_move]
  split
  case h_1 y r hw =>
    rw [if_neg]
    rintro rfl
    exact h r hw
  case h_2 => rfl

theorem pc_move (i j : ι) (quorum : Bool) :
    (s.act env (.move i quorum)).pc j =
      if j = i then ((s.pc i).move env quorum s.g).2 else s.pc j :=
  Function.update_apply s.pc i _ j

theorem grows_move_iff (i : ι) (quorum : Bool) :
    Grows env s (.move i quorum) ↔
      ∀ w ∈ (s.pc i).writes, s.g.knownDominant w.1 ≤ w.2.dominant := by
  unfold Grows
  simp only [getNodeState_move]
  cases (s.pc i).writes with
  | none =>
      refine iff_of_true (fun x r hr => ⟨r, hr, UInt64.le_refl _⟩) ?_
      intro w hw
      cases hw
  | some w =>
      obtain ⟨y, r⟩ := w
      constructor
      · intro h w hw
        cases hw
        cases hy : s.g.getNodeState y with
        | none =>
            rw [Gossiper.knownDominant_of_none hy]
            exact UInt64.zero_le
        | some old =>
            obtain ⟨r', hr', hle⟩ := h y old hy
            dsimp only at hr'
            rw [if_pos rfl] at hr'
            cases hr'
            rwa [Gossiper.knownDominant_of_some hy]
      · intro h x old hold
        dsimp only
        by_cases hx : x = y
        · subst hx
          have hle := h _ rfl
          rw [Gossiper.knownDominant_of_some hold] at hle
          exact ⟨r, if_pos rfl, hle⟩
        · rw [if_neg hx]
          exact ⟨old, hold, UInt64.le_refl _⟩

theorem noTwice_move_iff (h : s.NoTwice) (i : ι) (quorum : Bool) :
    (s.act env (.move i quorum)).NoTwice ↔ ∀ x ∈ (s.pc i).appends, x ∉ s.g.nodes := by
  have hnodes : (s.act env (.move i quorum)).g.nodes =
      ((s.pc i).move env quorum s.g).1.nodes := rfl
  rw [NoTwice, hnodes]
  cases happends : (s.pc i).appends with
  | some x =>
      rw [Pc.nodes_move_of_appends happends]
      have hiff : (s.g.nodes ++ [x]).Nodup ↔ x ∉ s.g.nodes := by
        rw [List.nodup_append_comm, List.singleton_append, List.nodup_cons]
        exact and_iff_left h
      simpa using hiff
  | none =>
      refine iff_of_true ?_ (fun x hx => by cases hx)
      by_cases hremove : ∃ d, s.pc i = .deadRemove d
      · obtain ⟨d, hd⟩ := hremove
        rw [hd, Pc.nodes_move_deadRemove]
        exact Nodup.swapRemove h
      · rw [Pc.nodes_move_of_ne happends fun d hd => hremove ⟨d, hd⟩]
        exact h

/-- A node that a step leaves down and listed was listed before and is not the
one the step removes. -/
theorem Sound.delisted_move (h : Sound s) (i : ι) (quorum : Bool) :
    (s.act env (.move i quorum)).Delisted := by
  intro x hdown hnone hmem
  have hafter : ((s.pc i).move env quorum s.g).2.between ≠ some x := by
    have hi := hnone i
    rwa [pc_move, if_pos rfl] at hi
  have hunwritten : ∀ r, (s.pc i).writes ≠ some (x, r) := by
    intro r hw
    rcases (h.proper i).of_writes env quorum s.g hw with hup | hbetween
    · refine hup (hdown r ?_)
      rw [getNodeState_move, hw]
      exact if_pos rfl
    · exact hafter hbetween
  have hbefore : s.g.Down x := by
    intro r hr
    refine hdown r ?_
    rwa [getNodeState_move_of_unwritten hunwritten]
  have hnodes : (s.act env (.move i quorum)).g.nodes =
      ((s.pc i).move env quorum s.g).1.nodes := rfl
  rw [hnodes] at hmem
  by_cases hremove : ∃ d, s.pc i = .deadRemove d ∧ d.name = x
  · obtain ⟨d, hd, rfl⟩ := hremove
    rw [hd, Pc.nodes_move_deadRemove] at hmem
    exact ((mem_swapRemove_iff h.noTwice).1 hmem).1 rfl
  · have hclear : ∀ j, (s.pc j).between ≠ some x := by
      intro j hj
      by_cases hji : j = i
      · subst hji
        rcases Pc.writes_or_removes_of_between hj with ⟨r, hw⟩ | hd
        · exact hunwritten r hw
        · exact hremove hd
      · have hother := hnone j
        rw [pc_move, if_neg hji] at hother
        exact hother hj
    rcases Pc.mem_nodes_of_move hmem with hlisted | happends
    · exact h.delisted x hbefore hclear hlisted
    · obtain ⟨r, hw⟩ := Pc.exists_writes_of_appends happends
      exact hunwritten r hw

theorem Sound.step (h : Sound s) (he : s.Enabled t) (hnodup : (s.act env t).NoTwice) :
    Sound (s.act env t) := by
  cases t with
  | alive i a needBc => exact h.enter he.1 he.2
  | suspect i m =>
      refine h.enter he.1 ?_
      rcases he.2 with hm | hm
      · simp [Pc.Proper, hm]
      · simp [Pc.Proper, hm]
  | dead i d => exact h.enter he.1 he.2
  | move i quorum =>
      refine ⟨fun j => ?_, hnodup, h.delisted_move i quorum⟩
      by_cases hj : j = i
      · subst hj
        simpa [act] using (h.proper j).move env quorum s.g
      · simpa [act, hj] using h.proper j

theorem timely_iff (env : Env) (h : s.NoTwice) (t : Turn ι) :
    s.Timely t ↔ (s.act env t).NoTwice ∧ Grows env s t := by
  cases t with
  | move i quorum => rw [noTwice_move_iff h, grows_move_iff, and_comm, Timely]
  | alive | suspect | dead =>
      exact iff_of_true trivial ⟨h, fun x r hr => ⟨r, hr, UInt64.le_refl _⟩⟩

/-- In parallel handlers the table is not corrupted exactly when no step writes an
older record over a newer one or appends a name that is listed. -/
theorem safe_iff_timely (env : Env) (ts : List (Turn ι))
    (hv : Along (act env) Enabled start ts) :
    Safe env start ts ↔ Along (act env) Timely start ts := by
  have hiff : Along (act env) (fun s t => (s.act env t).NoTwice ∧ Grows env s t) start ts ↔
      Along (act env) Timely start ts :=
    along_iff_along (fun s t h he hkept => h.step he hkept.1)
      (fun s t h _ => (timely_iff env h.noTwice t).symm) sound_start hv
  rw [← hiff, along_and]
  constructor
  · rintro ⟨htwice, hgrows, _⟩
    exact ⟨((throughout_iff_along_step _ _ _).1 htwice).2, hgrows⟩
  · rintro ⟨htwice, hgrows⟩
    have hsound : Throughout (act env) Sound start ts :=
      ((along_and _ _ _ _).2 ⟨hv, htwice⟩).throughout (fun s t h hand => h.step hand.1 hand.2)
        sound_start
    exact ⟨hsound.mono fun s h => h.noTwice, hgrows, hsound.mono fun s h => h.delisted⟩

/-- Two threads take turns on the record of one node, the second having read it
after the first wrote it. -/
theorem safe_of_turns :
    Safe Gossiper.sampleEnv (start : Threads ℕ)
      [.alive 1 (Gossiper.news "b:1" 1 .alive "b:1") true, .move 1 false, .move 1 false,
        .move 1 false, .suspect 2 (Gossiper.news "b:1" 1 .suspect "c:1"), .move 2 false,
        .move 1 false, .move 2 false, .move 2 false, .move 1 false, .move 2 false, .move 2 false,
        .dead 1 (Gossiper.news "b:1" 1 .dead "c:1"), .move 1 false, .move 1 false, .move 1 false,
        .move 1 false] :=
  (safe_iff_timely Gossiper.sampleEnv _ (by decide)).2 (by decide)

/-- Two threads find `b:1` unknown. One of them puts its made-up record over the
other's, the name is listed twice, and when `b:1` dies it is removed once. -/
theorem not_safe_of_race :
    let ts : List (Turn Bool) :=
      [.alive true (Gossiper.news "b:1" 1 .alive "b:1") true,
        .alive false (Gossiper.news "b:1" 1 .alive "b:1") true, .move true false,
        .move false false, .move true false, .move true false, .move false false,
        .move false false, .move true false, .move true false, .move false false,
        .move false false, .dead true (Gossiper.news "b:1" 1 .dead "c:1"), .move true false,
        .move true false, .move true false, .move true false, .move true false]
    let s := run (act Gossiper.sampleEnv) start ts
    Along (act Gossiper.sampleEnv) Enabled start ts ∧
      ¬ Throughout (act Gossiper.sampleEnv) NoTwice start ts ∧
      ¬ Along (act Gossiper.sampleEnv) (Grows Gossiper.sampleEnv) start ts ∧
      (∀ i, s.pc i = .idle) ∧ s.g.Down "b:1" ∧ "b:1" ∈ s.g.nodes := by
  refine ⟨by decide, ?_, ?_, by decide, by decide, by decide⟩
  · intro htwice
    have hmiddle := (throughout_iff_run NoTwice start _).1 htwice _
      (List.take_prefix 8 _)
    exact absurd hmiddle (by decide)
  · intro hgrows
    obtain ⟨r', hr', hle⟩ := hgrows.2.2.2.2.2.2.1 "b:1" _ rfl
    cases hr'
    exact absurd hle (by decide)

/-! ## Handlers that do not overlap -/

/-- A handler is entered only while no other about the same node runs. -/
def Apart (s : Threads ι) : Turn ι → Prop
  | .alive _ m _ | .suspect _ m | .dead _ m => ∀ j, (s.pc j).about ≠ some m.name
  | .move _ _ => True

/-- No two threads are in handlers about one node, and what they have read
holds. -/
structure Solo (s : Threads ι) : Prop extends Sound s where
  alone : ∀ i j x, (s.pc i).about = some x → (s.pc j).about = some x → i = j
  abreast : ∀ i, (s.pc i).Abreast s.g
  accused : ∀ x sus, s.g.suspicions.lookup x = some sus → sus.accusation.name = x

omit [DecidableEq ι] in
theorem solo_start : Solo (start : Threads ι) where
  toSound := sound_start
  alone _ _ _ h := by cases h
  abreast _ := trivial
  accused _ _ h := by simp [start, Gossiper.fresh] at h

omit [DecidableEq ι] in
theorem Solo.timely (h : Solo s) (t : Turn ι) : s.Timely t := by
  cases t with
  | alive | suspect | dead => trivial
  | move i quorum =>
      have habreast := h.abreast i
      refine ⟨fun w hw => ?_, fun x hx hlisted => ?_⟩
      · cases hp : s.pc i with
        | aliveAdd | aliveUpdate | suspectUpdate | deadUpdate =>
            rw [hp] at hw habreast
            cases hw
            first | exact habreast | exact habreast.2.1
        | _ =>
            rw [hp] at hw
            cases hw
      · cases hp : s.pc i with
        | aliveAdd a needBc state =>
            rw [hp] at hx habreast
            cases hx
            -- nobody else is about this node, so nobody stands between its entries
            refine h.delisted a.name habreast.1 (fun j hj => ?_) hlisted
            have hi : (s.pc i).about = some a.name := by
              rw [hp]
              rfl
            have hji : j = i := h.alone j i a.name (Pc.about_of_between hj) hi
            rw [hji, hp] at hj
            cases hj
        | _ =>
            rw [hp] at hx
            cases hx

/-- A thread enters a handler about a node that no other is about. -/
theorem Solo.enter (h : Solo s) {i : ι} {p : Pc} (hidle : s.pc i = .idle) (hp : p.Proper)
    (habreast : p.Abreast s.g) (hfree : ∀ x, p.about = some x → ∀ j, (s.pc j).about ≠ some x) :
    Solo { s with pc := Function.update s.pc i p } where
  toSound := h.toSound.enter hidle hp
  alone j k x hj hk := by
    by_cases hji : j = i
    · by_cases hki : k = i
      · rw [hji, hki]
      · subst hji
        simp only [Function.update_self, Function.update_of_ne hki] at hj hk
        exact absurd hk (hfree x hj k)
    · by_cases hki : k = i
      · subst hki
        simp only [Function.update_self, Function.update_of_ne hji] at hj hk
        exact absurd hj (hfree x hk j)
      · simp only [Function.update_of_ne hji, Function.update_of_ne hki] at hj hk
        exact h.alone j k x hj hk
  abreast j := by
    by_cases hj : j = i
    · subst hj
      simpa using habreast
    · simpa [hj] using h.abreast j
  accused := h.accused

theorem Solo.move (h : Solo s) (i : ι) (quorum : Bool) : Solo (s.act env (.move i quorum)) := by
  have hkept := (timely_iff env h.noTwice (.move i quorum)).1 (h.timely _)
  have habout (j : ι) (x : String) (hj : ((s.act env (.move i quorum)).pc j).about = some x) :
      (s.pc j).about = some x := by
    rw [pc_move] at hj
    split at hj
    case isTrue heq =>
      rw [heq]
      exact (h.abreast i).about_move env quorum hj
    case isFalse => exact hj
  refine ⟨h.toSound.step trivial hkept.1, ?_, ?_, ?_⟩
  · intro j k x hj hk
    exact h.alone j k x (habout j x hj) (habout k x hk)
  · intro j
    rw [pc_move]
    split
    case isTrue => exact (h.abreast i).move env quorum h.accused
    case isFalse hji =>
      refine (h.abreast j).congr fun x hx => getNodeState_move_of_unwritten (fun r hw => ?_) quorum
      exact hji (h.alone j i x hx (Pc.about_of_writes hw))
  · exact Pc.accused_move env quorum s.g (s.pc i) h.accused

theorem Solo.step (h : Solo s) (hand : s.Enabled t ∧ s.Apart t) : Solo (s.act env t) := by
  obtain ⟨he, hapart⟩ := hand
  cases t with
  | move i quorum => exact h.move i quorum
  | alive i m needBc =>
      refine h.enter he.1 he.2 trivial fun x hx => ?_
      cases hx
      exact hapart
  | suspect i m =>
      refine h.enter he.1 ?_ trivial fun x hx => ?_
      · rcases he.2 with hm | hm
        · simp [Pc.Proper, hm]
        · simp [Pc.Proper, hm]
      · cases hx
        exact hapart
  | dead i m =>
      refine h.enter he.1 he.2 trivial fun x hx => ?_
      cases hx
      exact hapart

/-- Handlers about one node that do not overlap do not corrupt the table, however
those about different nodes do. -/
theorem safe_of_apart (env : Env) (ts : List (Turn ι))
    (hv : Along (act env) (fun s t => s.Enabled t ∧ s.Apart t) start ts) :
    Safe env start ts :=
  (safe_iff_timely env ts ((along_and _ _ _ _).1 hv).1).2
    (hv.of_invariant (fun _ _ h hand => h.step hand) (fun _ t h _ => h.timely t) solo_start)

end Threads

end CppGossip
