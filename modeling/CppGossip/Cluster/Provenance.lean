import CppGossip.Cluster.State
import CppGossip.Gossiper.Origin
import CppGossip.Wire.Survival

/-!
# Where the records of a cluster come from

A cluster makes nothing up. Whatever is recorded, queued, pinged or sent anywhere
in it is what some node has announced of itself, at the dominant of that
announcement, and says either that the node is alive or that it is dead. Before it
says the latter, a probe of the node recorded at this very dominant has timed out
somewhere, and there the suspicion has run out or got its quorum (`Condemned`). A
SUSPECT record is nowhere found.
-/

namespace CppGossip

open Message Transition

namespace Cluster

variable {ι : Type*} [DecidableEq ι] (env : ι → Env) (os : List (Happening ι))

/-- The node `j` has announced itself at the dominant `d`. -/
def Announced (j : ι) (d : UInt64) : Prop :=
  ∃ accusation, .issue (Gossiper.selfState (env j) d) accusation ∈
    ((run (act env) start os).node j).trace

/-- At some node a probe of `x`, recorded at the dominant `d`, has timed out, and
later the callback of the suspicion that it raised has run. -/
def Condemned (x : String) (d : UInt64) : Prop :=
  ∃ (i : ι) (s : NodeState) (before : List (Happening ι)) (o : Happening ι)
      (after : List (Happening ι)) (e : Event),
    os = before ++ o :: after ∧ .own i (.probeTimeout s) ∈ before ∧ s.name = x ∧ s.dominant = d ∧
      handled i o = some e ∧ ((run (act env) start before).node i).callback e = some s

/-- The record is what a node has announced of itself, or the news of its death. -/
structure Sourced (m : NodeState) : Prop where
  announced : ∃ j, Announced env os j m.dominant ∧
    m = { Gossiper.selfState (env j) m.dominant with state := m.state, timestamp := m.timestamp }
  verdict : m.state = .alive ∨ m.state = .dead ∧ Condemned env os m.name m.dominant

/-- At `i` a probe of `s` has timed out. -/
def Accuses (i : ι) (s : NodeState) : Prop :=
  Sourced env os s ∧ .own i (.probeTimeout s) ∈ os

/-- All that is held or sent is accounted for. -/
structure Accounted (s : Cluster ι) : Prop where
  held : ∀ i, Gossiper.Founded (Sourced env os) (Accuses env os i) (s.node i)
  wired : ∀ ns ∈ s.wire, ∀ m, convert ns = some m → Sourced env os m

variable {env os} {o : Happening ι} {i j : ι} {x : String} {d : UInt64} {m : NodeState}

/-! ## What is said stays said -/

theorem trace_suffix_act (s : Cluster ι) (o : Happening ι) (i : ι) :
    (s.node i).trace <:+ ((act env s o).node i).trace := by
  cases he : handled i o with
  | none => rw [node_act_of_not_handled he]
  | some e =>
      rw [node_act_of_handled he]
      exact Gossiper.trace_suffix_step (env i) (s.node i) e

theorem Announced.later (h : Announced env os j d) (o : Happening ι) :
    Announced env (os ++ [o]) j d := by
  obtain ⟨accusation, hissue⟩ := h
  refine ⟨accusation, ?_⟩
  rw [run_append_singleton]
  exact (trace_suffix_act _ o j).mem hissue

theorem Condemned.later (h : Condemned env os x d) (o : Happening ι) :
    Condemned env (os ++ [o]) x d := by
  obtain ⟨i, s, before, o', after, e, rfl, hrest⟩ := h
  refine ⟨i, s, before, o', after ++ [o], e, ?_, hrest⟩
  rw [List.append_assoc, List.cons_append]

theorem Sourced.later (h : Sourced env os m) (o : Happening ι) :
    Sourced env (os ++ [o]) m where
  announced := by
    obtain ⟨j, hannounced, heq⟩ := h.announced
    exact ⟨j, hannounced.later o, heq⟩
  verdict := h.verdict.imp id (And.imp id (Condemned.later · o))

theorem Accuses.later (h : Accuses env os i m) (o : Happening ι) : Accuses env (os ++ [o]) i m :=
  ⟨h.1.later o, List.mem_append_left _ h.2⟩

/-! ## What is done to a record -/

theorem Sourced.stamped (h : Sourced env os m) : Sourced env os { m with timestamp := 0 } where
  announced := by
    obtain ⟨j, hannounced, heq⟩ := h.announced
    refine ⟨j, hannounced, ?_⟩
    rw [NodeState.mk.injEq] at *
    exact ⟨heq.1, heq.2.1, heq.2.2.1, rfl, rfl, heq.2.2.2.2.2.1, rfl⟩
  verdict := h.verdict

theorem Sourced.killed (h : Sourced env os m) (hdead : Condemned env os m.name m.dominant) :
    Sourced env os m.killed where
  announced := by
    obtain ⟨j, hannounced, heq⟩ := h.announced
    refine ⟨j, hannounced, ?_⟩
    rw [NodeState.mk.injEq] at *
    exact ⟨heq.1, heq.2.1, heq.2.2.1, rfl, rfl, heq.2.2.2.2.2.1, rfl⟩
  verdict := Or.inr ⟨rfl, hdead⟩

theorem Sourced.ne_suspect (h : Sourced env os m) : m.state ≠ .suspect := by
  rcases h.verdict with halive | ⟨hdead, -⟩
  · rw [halive]
    decide
  · rw [hdead]
    decide

/-- Names and addresses are texts without a NUL. -/
def Readable (env : ι → Env) : Prop :=
  ∀ i, NulFree (env i).conf.name ∧ NulFree (env i).conf.addr

theorem Sourced.portable (hread : Readable env) (h : Sourced env os m) : m.Portable := by
  obtain ⟨j, _, heq⟩ := h.announced
  rw [heq]
  exact ⟨⟨(env j).conf.port, rfl⟩, (hread j).1, (hread j).2, List.not_mem_nil⟩

/-- A record is received as it was sent. -/
theorem Sourced.received (hread : Readable env) (h : Sourced env os m) {m' : NodeState}
    {ns : Message.NodeState} (hencode : encode m = some ns) (hconvert : convert ns = some m') :
    m' = m := by
  rw [Gossiper.convert_of_encode_eq_received hencode, (h.portable hread).received_eq] at hconvert
  exact (Option.some.inj hconvert).symm

/-! ## Steps -/

theorem accounted_start : Accounted env [] start where
  held _ := Gossiper.founded_fresh _ _
  wired _ h := by cases h

theorem Accounted.everywhere {s : Cluster ι} (h : Accounted env os s) :
    Everywhere (Sourced env os) s where
  held i := (h.held i).every fun _ hs => hs.1
  wired := h.wired

/-- A callback runs for an accusation, and that is what condemns. -/
theorem condemned_of_callback {s : NodeState} {e : Event} (hs : Accuses env os i s)
    (he : handled i o = some e)
    (hcallback : ((run (act env) start os).node i).callback e = some s) :
    Condemned env (os ++ [o]) s.name s.dominant :=
  ⟨i, s, os, o, [], e, rfl, hs.2, rfl, rfl, he, hcallback⟩

theorem own_of_probeTimeout {node : NodeState} (he : handled i o = some (.probeTimeout node)) :
    o = .own i (.probeTimeout node) := by
  cases o with
  | own j e =>
      rw [handled, Option.ite_none_right_eq_some] at he
      obtain ⟨rfl, heq⟩ := he
      cases heq
      rfl
  | gossip | receive =>
      rw [handled, Option.ite_none_right_eq_some] at he
      simp at he
  | sendState => cases he

/-- What a node rests on when it handles an event is accounted for. -/
theorem Accounted.admits (h : Accounted env os (run (act env) start os))
    (ho : (run (act env) start os).Enabled o) {e : Event} (he : handled i o = some e) :
    Gossiper.Admits (env i) (Sourced env (os ++ [o])) (Accuses env (os ++ [o]) i)
      ((run (act env) start os).node i) e := by
  obtain ⟨henabled, hreceived⟩ := h.everywhere.of_handled ho he
  refine ⟨fun m hm => hm.stamped, fun d n hissue => ?_, fun m needBc heq => ?_, fun s hs => ?_,
    fun s hs => ?_⟩
  · refine ⟨⟨i, ⟨n, ?_⟩, rfl⟩, Or.inl rfl⟩
    rwa [run_append_singleton, node_act_of_handled he]
  · exact (hreceived m needBc heq).later o
  · cases e with
    | message m needBc =>
        rw [Event.accusation, Option.ite_none_right_eq_some] at hs
        exact absurd hs.1 (hreceived m needBc rfl).ne_suspect
    | probeTimeout probed =>
        cases hs
        refine ⟨((h.held i).pinged s henabled).later o, ?_⟩
        rw [own_of_probeTimeout he]
        exact List.mem_append_right _ List.mem_cons_self
    | registerNotifier | join | probe | deadAlert | conviction | batch => cases hs
  · have haccuses := (h.held i).of_callback henabled hs
    exact (haccuses.1.later o).killed (condemned_of_callback haccuses he hs)

theorem Accounted.step (hread : Readable env) (h : Accounted env os (run (act env) start os))
    (ho : (run (act env) start os).Enabled o) :
    Accounted env (os ++ [o]) (act env (run (act env) start os) o) where
  held i := by
    have hlater : Gossiper.Founded (Sourced env (os ++ [o])) (Accuses env (os ++ [o]) i)
        ((run (act env) start os).node i) :=
      (h.held i).mono (fun m hm => hm.later o) fun s hs => hs.later o
    cases he : handled i o with
    | none =>
        rw [node_act_of_not_handled he]
        exact hlater
    | some e =>
        rw [node_act_of_handled he]
        exact hlater.step (h.everywhere.of_handled ho he).1 (h.admits ho he)
  wired ns hns m hm := by
    refine Sourced.later ?_ o
    rcases List.mem_append.1 hns with hold | hnew
    · exact h.wired ns hold m hm
    · cases hencoded : ((run (act env) start os).sent o).mapM encode with
      | none =>
          rw [hencoded] at hnew
          cases hnew
      | some nss =>
          rw [hencoded] at hnew
          obtain ⟨m', hm', hencode⟩ := exists_of_mem_mapM hencoded hnew
          have hsent : Sourced env os m' := h.everywhere.of_sent hm'
          exact hsent.received hread hencode hm ▸ hsent

theorem accounted_run (hread : Readable env) (hv : Along (act env) Enabled start os) :
    Accounted env os (run (act env) start os) :=
  hv.history (P := Accounted env) accounted_start fun _ _ h ho => h.step hread ho

/-- In every run of a cluster each record held or sent is what a node has announced
of itself, or the news of its death. A suspicion was raised by a probe that timed out
where it is held. A record says dead, and `notify_leave_` is called, only after the
callback of such a suspicion at the same dominant has run. -/
theorem provenance (hread : Readable env) (hv : Along (act env) Enabled start os) :
    let s := run (act env) start os
    (∀ i x r, (s.node i).getNodeState x = some r → Sourced env os r) ∧
    (∀ ns ∈ s.wire, ∀ m, convert ns = some m → Sourced env os m) ∧
    (∀ i x sus, (s.node i).suspicions.lookup x = some sus →
      .own i (.probeTimeout sus.accusation) ∈ os) ∧
    ∀ i x, .notifyLeave x ∈ (s.node i).trace →
      ∃ j d, x = (env j).conf.name ∧ Announced env os j d ∧ Condemned env os x d := by
  have h := accounted_run hread hv
  refine ⟨fun i x r hr => (h.held i).recorded x r hr, h.wired,
    fun i x sus hsus => ((h.held i).accused x sus hsus).2, fun i x hleave => ?_⟩
  obtain ⟨m, hm, rfl, hdead⟩ := (h.held i).called _ hleave
  obtain ⟨j, hannounced, heq⟩ := hm.announced
  refine ⟨j, m.dominant, (congrArg NodeState.name heq), hannounced, ?_⟩
  rcases hm.verdict with halive | ⟨_, hcondemned⟩
  · exact absurd (halive.symm.trans hdead) (by decide)
  · exact hcondemned

/-- The suspicion that `a:1` has of `c:1` runs out, and `b:1` hears of it. -/
def buried : List (Happening ℕ) :=
  acquainted ++
    [.own 0 (.probe 2), .own 0 (.probeTimeout (known "c:1" "c")),
      .own 0 (.conviction (known "c:1" "c")), .sendState 0,
      .receive 1 { hello "c:1" "c" with state := Message.State.dead.toRaw } false]

theorem readable_sampleEnvs : Readable sampleEnvs := by
  intro i
  simp only [sampleEnvs]
  split
  · decide
  · split
    · decide
    · decide

theorem provenance_of_buried :
    let s := run (act sampleEnvs) start buried
    (s.node 1).getNodeState "c:1" = some { known "c:1" "c" with state := .dead } ∧
      Sourced sampleEnvs buried { known "c:1" "c" with state := .dead } := by
  have hdead : ((run (act sampleEnvs) start buried).node 1).getNodeState "c:1" =
      some { known "c:1" "c" with state := .dead } := by decide
  exact ⟨hdead, (provenance readable_sampleEnvs (by decide)).1 1 "c:1" _ hdead⟩

end Cluster

end CppGossip
