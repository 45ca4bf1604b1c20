import CppGossip.Cluster.State
import CppGossip.Suspicion.State
import Mathlib.Data.Finset.Card

/-!
# Accusers in a cluster

`suspectNode` passes on an accusation as it got it. What a probe timeout gives it
is the probed node's own record, which is in state ALIVE and names no sender, so
that is what the other nodes receive. `Trial` describes an open suspicion that
other nodes' accusations reach; `accusersCounted_iff` says what becomes of them.
-/

namespace CppGossip

open Message Collection Transition

/-- The record names no sender and is no accusation. -/
def NodeState.Plain (m : NodeState) : Prop := m.from_ = "" ∧ m.state ≠ .suspect

namespace Gossiper

variable {env : Env} {g : Gossiper} {x : String} {sus sus' : Suspicion}

theorem lookup_of_ite_erase {p : Prop} [Decidable p] {name : String}
    (h : (if p then g.suspicions.erase name else g.suspicions).lookup x = some sus') :
    g.suspicions.lookup x = some sus' := by
  split at h
  case isTrue =>
    rw [lookup_erase, Option.ite_none_left_eq_some] at h
    exact h.2
  case isFalse => exact h

theorem lookup_of_aliveNode {a : NodeState} {needBc : Bool}
    (h : (g.aliveNode env a needBc).suspicions.lookup x = some sus') :
    g.suspicions.lookup x = some sus' := by
  rw [suspicions_aliveNode] at h
  exact lookup_of_ite_erase h

theorem lookup_of_deadNode {d : NodeState}
    (h : (g.deadNode env d).suspicions.lookup x = some sus') :
    g.suspicions.lookup x = some sus' := by
  rw [suspicions_deadNode] at h
  exact lookup_of_ite_erase h

/-- A suspicion that stays open is not touched by an accusation of another node,
and counts the sender of a heeded one of its own. -/
theorem suspicion_of_suspectNode {s : NodeState} (hsus : g.suspicions.lookup x = some sus)
    (h : (g.suspectNode env s).suspicions.lookup x = some sus') :
    sus' = if s.name = x ∧ g.Heeds s then (sus.confirm s.from_).2 else sus := by
  have hcounted (new : Suspicion) (hnew : g.suspicions.lookup s.name = some new)
      (hheeds : g.Heeds s) (hlookup : (g.counted s new).suspicions.lookup x = some sus') :
      sus' = if s.name = x ∧ g.Heeds s then (sus.confirm s.from_).2 else sus := by
    rw [counted, lookup_insert] at hlookup
    by_cases hx : x = s.name
    · rw [if_pos hx] at hlookup
      rw [← hx, hsus] at hnew
      cases hnew
      rw [if_pos ⟨hx.symm, hheeds⟩]
      exact (Option.some.inj hlookup).symm
    · rw [if_neg hx, hsus] at hlookup
      rw [if_neg fun hand => hx hand.1.symm]
      exact (Option.some.inj hlookup).symm
  have hother (hnone : g.suspicions.lookup s.name = none)
      (hlookup : (g.suspicions.insert s.name (Suspicion.new env g.nodeNum s)).lookup x = some sus' ∨
        g.suspicions.lookup x = some sus') :
      sus' = if s.name = x ∧ g.Heeds s then (sus.confirm s.from_).2 else sus := by
    have hx : s.name ≠ x := by
      rintro rfl
      rw [hnone] at hsus
      cases hsus
    rw [lookup_insert, if_neg hx.symm, or_self, hsus] at hlookup
    rw [if_neg fun hand => hx hand.1]
    exact (Option.some.inj hlookup).symm
  have hcases := suspected env g s
  generalize g.suspectNode env s = g' at hcases h
  cases hcases with
  | stale hstale =>
      rw [hsus] at h
      rw [if_neg fun hand => hstale hand.2]
      exact (Option.some.inj h).symm
  | convicted hheeds new hnew _ => exact hcounted new hnew hheeds (lookup_of_deadNode h)
  | confirmed hheeds new hnew _ => exact hcounted new hnew hheeds h
  | ignored _ hnone _ => exact hother hnone (.inr h)
  | openedSelf _ hnone _ _ => exact hother hnone (.inl h)
  | opened _ hnone _ _ => exact hother hnone (.inl h)

/-- Where no suspicion is open, an accusation leaves none or a new one. -/
theorem suspicion_of_raised {s : NodeState} (hnone : g.suspicions.lookup s.name = none)
    (h : (g.suspectNode env s).suspicions.lookup s.name = some sus') :
    sus' = Suspicion.new env g.nodeNum s := by
  have hcases := suspected env g s
  generalize g.suspectNode env s = g' at hcases h
  cases hcases with
  | stale _ | ignored _ _ _ =>
      rw [hnone] at h
      cases h
  | convicted _ sus hsus _ | confirmed _ sus hsus _ =>
      rw [hnone] at hsus
      cases hsus
  | openedSelf _ _ _ _ | opened _ _ _ _ =>
      rw [lookup_insert, if_pos rfl] at h
      exact (Option.some.inj h).symm

/-- A probe of `x` times out and is not outdated. -/
def TimesOut (x : String) (g : Gossiper) : Event → Prop
  | .probeTimeout node => node.name = x ∧ g.Heeds node
  | _ => False

instance TimesOut.decidable (x : String) (g : Gossiper) : ∀ e, Decidable (g.TimesOut x e)
  | .probeTimeout _ => inferInstanceAs (Decidable (_ ∧ _))
  | .registerNotifier _ _ | .join | .message _ _ | .probe _ | .deadAlert _ _ _ | .conviction _
  | .batch _ _ => inferInstanceAs (Decidable False)

/-- Without SUSPECT messages, and with records that name no sender, a suspicion
that stays open counts nobody but the empty name, at a timeout. -/
theorem suspicion_of_step {e : Event} (hplain : Every NodeState.Plain g) (he : g.Enabled e)
    (hreceived : ∀ m needBc, e = .message m needBc → m.Plain)
    (hsus : g.suspicions.lookup x = some sus)
    (h : (g.step env e).suspicions.lookup x = some sus') :
    sus' = if g.TimesOut x e then (sus.confirm "").2 else sus := by
  have hkept (hlookup : g.suspicions.lookup x = some sus') : sus' = sus :=
    Option.some.inj (hlookup.symm.trans hsus)
  cases e with
  | registerNotifier join leave => exact hkept h
  | join =>
      have hlookup : (({ g with dominant := g.dominant + 1 } : Gossiper).record
          (.issue (selfState env (g.dominant + 1)) none)).suspicions.lookup x = some sus' :=
        lookup_of_aliveNode h
      exact hkept hlookup
  | message m needBc =>
      have hm := hreceived m needBc rfl
      refine hkept ?_
      simp only [step, mergeState] at h
      split at h
      case h_1 => exact lookup_of_aliveNode h
      case h_2 hsuspect => exact absurd hsuspect hm.2
      case h_3 => exact lookup_of_deadNode h
      case h_4 => exact h
  | probe cursor =>
      refine hkept ?_
      simp only [step, Gossiper.probe] at h
      repeat' split at h
      all_goals exact h
  | probeTimeout node =>
      have hcount := suspicion_of_suspectNode hsus h
      rwa [(hplain.pinged node he).1] at hcount
  | deadAlert name state dominant =>
      refine hkept ?_
      simp only [step, deadAlert] at h
      split at h
      · rwa [fuckyou_suspicions] at h
      · exact h
  | conviction s => exact hkept (lookup_of_deadNode h)
  | batch n applied => exact hkept h

end Gossiper

/-! ## The count of a suspicion -/

/-- Nobody has been counted, or once the empty name. -/
def Suspicion.Tallied (again : Bool) (sus : Suspicion) : Prop :=
  sus.whoConfirmed = (if again then {""} else ∅) ∧ sus.confirmCount = if again then 1 else 0

theorem Suspicion.Tallied.confirm {again : Bool} {sus : Suspicion} (h : sus.Tallied again) :
    (sus.confirm "").2.Tallied true := by
  obtain ⟨hwho, hcount⟩ := h
  cases again with
  | true => simp_all [Suspicion.confirm, Suspicion.Tallied]
  | false => simp_all [Suspicion.confirm, Suspicion.Tallied]

namespace Cluster

variable {ι : Type*} [DecidableEq ι] {env : ι → Env} {s : Cluster ι} {o : Happening ι} {y : ι}
  {x : String} {sus sus' : Suspicion}

omit [DecidableEq ι] in
/-- Records that name no sender and are no accusations are all there are. -/
theorem preserved_plain : Preserved env NodeState.Plain where
  passed _ :=
    { own := fun _ => ⟨rfl, by simp [Gossiper.selfState]⟩
      stamped := fun _ h => h
      killed := fun _ h => ⟨h.1, by simp [NodeState.killed]⟩ }
  received h hencode hconvert := by
    obtain ⟨port, heq⟩ := convert_of_encode hencode
    rw [heq] at hconvert
    cases hconvert
    refine ⟨?_, h.2⟩
    show str _ = ""
    rw [h.1]
    decide

/-- What `y` has counted in its open suspicion of `x`. -/
def confirmations (y : ι) (x : String) (s : Cluster ι) : ℕ :=
  ((s.node y).suspicions.lookup x).elim 0 fun sus => sus.confirmCount.toNat

/-- A probe of `x` by `y` times out and is not outdated. -/
def TimesOut (y : ι) (x : String) (s : Cluster ι) : Happening ι → Prop
  | .own j e => j = y ∧ (s.node y).TimesOut x e
  | _ => False

instance TimesOut.decidable (y : ι) (x : String) (s : Cluster ι) :
    ∀ o, Decidable (s.TimesOut y x o)
  | .own _ _ => inferInstanceAs (Decidable (_ ∧ _))
  | .gossip _ _ _ | .sendState _ | .receive _ _ _ => inferInstanceAs (Decidable False)

theorem timesOut_iff_of_handled {e : Event} (he : handled y o = some e) :
    s.TimesOut y x o ↔ (s.node y).TimesOut x e := by
  cases o with
  | own j e' =>
      rw [handled, Option.ite_none_right_eq_some] at he
      obtain ⟨rfl, heq⟩ := he
      cases heq
      exact and_iff_right rfl
  | gossip j n applied =>
      rw [handled, Option.ite_none_right_eq_some] at he
      cases he.2
      exact Iff.rfl
  | sendState j => cases he
  | receive j ns needBc =>
      rw [handled, Option.ite_none_right_eq_some] at he
      obtain ⟨m, _, rfl⟩ := Option.map_eq_some_iff.1 he.2
      exact Iff.rfl

theorem not_timesOut_of_not_handled (he : handled y o = none) : ¬ s.TimesOut y x o := by
  cases o with
  | own j e =>
      rintro ⟨rfl, _⟩
      simp [handled] at he
  | gossip | sendState | receive => exact id

theorem tallied_step (h : Everywhere NodeState.Plain s) (ho : s.Enabled o) {again : Bool}
    (hsus : (s.node y).suspicions.lookup x = some sus) (htally : sus.Tallied again)
    (hsus' : ((act env s o).node y).suspicions.lookup x = some sus') :
    sus'.Tallied (again || decide (s.TimesOut y x o)) := by
  cases he : handled y o with
  | none =>
      rw [node_act_of_not_handled he, hsus] at hsus'
      cases hsus'
      simpa [not_timesOut_of_not_handled he] using htally
  | some e =>
      obtain ⟨henabled, hreceived⟩ := h.of_handled ho he
      rw [node_act_of_handled he] at hsus'
      have hcount := Gossiper.suspicion_of_step (h.held y) henabled hreceived hsus hsus'
      rw [decide_eq_decide.2 (timesOut_iff_of_handled he)]
      by_cases htime : (s.node y).TimesOut x e
      · rw [if_pos htime] at hcount
        rw [hcount, decide_eq_true htime, Bool.or_true]
        exact htally.confirm
      · rw [if_neg htime] at hcount
        rw [hcount, decide_eq_false htime, Bool.or_false]
        exact htally

/-- While it stays open, a suspicion counts one confirmation if a probe by the
node itself times out again, and none else. -/
theorem tallied_run {os : List (Happening ι)} (h : Everywhere NodeState.Plain s)
    (hv : Along (act env) Enabled s os)
    (hopen : Throughout (act env) (fun s => x ∈ (s.node y).suspicions) s os) {again : Bool}
    (hsus : (s.node y).suspicions.lookup x = some sus) (htally : sus.Tallied again) :
    ∃ sus', ((run (act env) s os).node y).suspicions.lookup x = some sus' ∧
      sus'.Tallied (again || !decide (Along (act env) (fun s o => ¬ s.TimesOut y x o) s os)) := by
  induction os generalizing s sus again with
  | nil => exact ⟨sus, hsus, by simpa using htally⟩
  | cons o os ih =>
      have hmem : x ∈ ((act env s o).node y).suspicions := by
        have hrest := hopen.2
        cases os with
        | nil => exact hrest
        | cons _ _ => exact hrest.1
      obtain ⟨sus', hsus'⟩ := Option.isSome_iff_exists.1 (AList.lookup_isSome.2 hmem)
      have hstep := tallied_step h hv.1 hsus htally hsus'
      obtain ⟨last, hlast, htallied⟩ := ih (h.step preserved_plain hv.1) hv.2 hopen.2 hsus' hstep
      have hsplit : decide (Along (act env) (fun s o => ¬ s.TimesOut y x o) s (o :: os)) =
          (!decide (s.TimesOut y x o) &&
            decide (Along (act env) (fun s o => ¬ s.TimesOut y x o) (act env s o) os)) := by
        rw [← decide_not, ← Bool.decide_and]
        exact decide_eq_decide.2 Iff.rfl
      rw [hsplit, Bool.not_and, Bool.not_not, ← Bool.or_assoc]
      exact ⟨last, hlast, htallied⟩

/-- `y` raises a suspicion of `x` when its probe of it times out, bound to
`probed`, and holds it open through `after`. The nodes in `accusers` are others,
whose probes of `x` timed out in the same run while they had it recorded alive at
the dominant of the suspicion, and whose accusations `y` received meanwhile. -/
structure Trial (env : ι → Env) (y : ι) (x : String) (before : List (Happening ι))
    (probed : NodeState) (after : List (Happening ι)) (accusers : Finset ι) : Prop where
  valid : Along (act env) Enabled start (before ++ .own y (.probeTimeout probed) :: after)
  name : probed.name = x
  closed : x ∉ ((run (act env) start before).node y).suspicions
  held : Throughout (act env) (fun s => x ∈ (s.node y).suspicions)
    (run (act env) start (before ++ [.own y (.probeTimeout probed)])) after
  others : y ∉ accusers
  heard : ∀ i ∈ accusers, ∃ (node : NodeState) (earlier : List (Happening ι)),
    earlier ++ [.own i (.probeTimeout node)] <+: before ++ .own y (.probeTimeout probed) :: after ∧
      node.name = x ∧ node.dominant = probed.dominant ∧
      (∃ r ∈ ((run (act env) start earlier).node i).getNodeState x,
        r.state = .alive ∧ r.dominant = probed.dominant) ∧
      ∃ ns needBc, encode node = some ns ∧ .receive y ns needBc ∈ after

variable {before after : List (Happening ι)} {probed : NodeState} {accusers : Finset ι}

theorem Trial.along (h : Trial env y x before probed after accusers) :
    Along (act env) Enabled start (before ++ [.own y (.probeTimeout probed)]) ∧
      Along (act env) Enabled
        (run (act env) start (before ++ [.own y (.probeTimeout probed)])) after := by
  rw [← along_append, List.append_assoc]
  exact h.valid

/-- A suspicion that is raised has counted nobody. -/
theorem Trial.raised (h : Trial env y x before probed after accusers) :
    ∃ sus, ((run (act env) start
        (before ++ [.own y (.probeTimeout probed)])).node y).suspicions.lookup x = some sus ∧
      sus.Tallied false := by
  have hmem := (throughout_iff_run _ _ _).1 h.held [] List.nil_prefix
  obtain ⟨sus, hsus⟩ := Option.isSome_iff_exists.1 (AList.lookup_isSome.2 hmem)
  refine ⟨sus, hsus, ?_⟩
  have hnone : ((run (act env) start before).node y).suspicions.lookup probed.name = none := by
    rw [h.name]
    exact AList.lookup_eq_none.2 h.closed
  have hstep : ((run (act env) start (before ++ [.own y (.probeTimeout probed)])).node y) =
      ((run (act env) start before).node y).suspectNode (env y) probed := by
    have hhandled : handled y (.own y (.probeTimeout probed)) = some (.probeTimeout probed) :=
      if_pos rfl
    rw [run_append_singleton]
    exact node_act_of_handled hhandled
  rw [run_nil, hstep, ← h.name] at hsus
  rw [Gossiper.suspicion_of_raised hnone hsus]
  exact ⟨rfl, rfl⟩

theorem Trial.confirmations_eq (h : Trial env y x before probed after accusers) :
    confirmations y x (run (act env) start (before ++ .own y (.probeTimeout probed) :: after)) =
      if Along (act env) (fun s o => ¬ s.TimesOut y x o)
        (run (act env) start (before ++ [.own y (.probeTimeout probed)])) after then 0 else 1 := by
  have hplain : Everywhere NodeState.Plain
      (run (act env) start (before ++ [.own y (.probeTimeout probed)])) :=
    (throughout_iff_run _ _ _).1 (everywhere_run preserved_plain h.along.1) _ (List.prefix_refl _)
  obtain ⟨sus, hsus, htally⟩ := h.raised
  obtain ⟨last, hlast, htallied⟩ := tallied_run hplain h.along.2 h.held hsus htally
  rw [← run_append, List.append_assoc] at hlast
  rw [confirmations]
  refine (congrArg (Option.elim · 0 fun sus => sus.confirmCount.toNat) hlast).trans ?_
  rw [Option.elim_some, htallied.2]
  by_cases hnever : Along (act env) (fun s o => ¬ s.TimesOut y x o)
      (run (act env) start (before ++ [.own y (.probeTimeout probed)])) after
  · simp [hnever]
  · simp [hnever]

/-- What other nodes accuse `x` of is not counted: as many confirmations as there
are accusers are counted only when there is none, or one and a probe by `y` itself
has timed out again. Nor is anything that is received an accusation or the word of
anybody by name. -/
theorem accusersCounted_iff (h : Trial env y x before probed after accusers) :
    (accusers.card ≤ confirmations y x
        (run (act env) start (before ++ .own y (.probeTimeout probed) :: after)) ↔
      accusers.card = 0 ∨ accusers.card = 1 ∧
        ¬ Along (act env) (fun s o => ¬ s.TimesOut y x o)
          (run (act env) start (before ++ [.own y (.probeTimeout probed)])) after) ∧
      Along (act env)
        (fun _ o => ∀ i ns needBc m, o = .receive i ns needBc → convert ns = some m →
          m.from_ = "" ∧ m.state ≠ .suspect)
        start (before ++ .own y (.probeTimeout probed) :: after) := by
  refine ⟨?_, h.valid.of_invariant (fun s o h ho => h.step preserved_plain ho) ?_
    (everywhere_start _)⟩
  · rw [h.confirmations_eq]
    split
    case isTrue hnever =>
      simp only [hnever, not_true, and_false, or_false]
      omega
    case isFalse hagain =>
      simp only [hagain, not_false_iff, and_true]
      omega
  · rintro s o hplain ho i ns needBc m rfl hconvert
    exact hplain.wired ns ho m hconvert

/-- `a:1` and `b:1` both wait in vain for a pong of `c:1`. -/
def suspected : List (Happening ℕ) :=
  acquainted ++
    [.own 0 (.probe 2), .own 0 (.probe 2), .own 1 (.probe 1),
      .own 1 (.probeTimeout (known "c:1" "c"))]

theorem trial_of_accusation (after : List (Happening ℕ))
    (hvalid : Along (act sampleEnvs) Enabled start
      (suspected ++ .own 0 (.probeTimeout (known "c:1" "c")) :: after))
    (hheld : Throughout (act sampleEnvs) (fun s => "c:1" ∈ (s.node 0).suspicions)
      (run (act sampleEnvs) start (suspected ++ [.own 0 (.probeTimeout (known "c:1" "c"))])) after)
    (hreceived : .receive 0 (hello "c:1" "c") true ∈ after) :
    Trial sampleEnvs 0 "c:1" suspected (known "c:1" "c") after {1} where
  valid := hvalid
  name := rfl
  closed := by decide
  held := hheld
  others := by decide
  heard i hi := by
    cases Finset.mem_singleton.1 hi
    refine ⟨known "c:1" "c",
      acquainted ++ [.own 0 (.probe 2), .own 0 (.probe 2), .own 1 (.probe 1)], ⟨_, rfl⟩, rfl, rfl,
      ⟨known "c:1" "c", by decide, rfl, rfl⟩, hello "c:1" "c", true, by decide, hreceived⟩

/-- The probe of `a:1` times out twice, and that is counted. -/
theorem accusersCounted_of_timeout :
    1 ≤ confirmations 0 "c:1" (run (act sampleEnvs) start
      (suspected ++ .own 0 (.probeTimeout (known "c:1" "c")) ::
        [.gossip 1 1 true, .receive 0 (hello "c:1" "c") true,
          .own 0 (.probeTimeout (known "c:1" "c"))])) :=
  (accusersCounted_iff (trial_of_accusation _ (by decide) (by decide) (by simp))).1.2
    (by decide)

/-- The accusation of `b:1` reaches `a:1`, which suspects `c:1` already, and is
not counted. -/
theorem not_accusersCounted_of_accusation :
    let after : List (Happening ℕ) := [.gossip 1 1 true, .receive 0 (hello "c:1" "c") true]
    Trial sampleEnvs 0 "c:1" suspected (known "c:1" "c") after {1} ∧
      ¬ ({1} : Finset ℕ).card ≤ confirmations 0 "c:1" (run (act sampleEnvs) start
        (suspected ++ .own 0 (.probeTimeout (known "c:1" "c")) :: after)) :=
  ⟨trial_of_accusation _ (by decide) (by decide) (by simp), by decide⟩

end Cluster

end CppGossip
