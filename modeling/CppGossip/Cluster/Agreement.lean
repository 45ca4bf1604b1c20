import CppGossip.Cluster.Provenance
import CppGossip.Membership.Record
import CppGossip.Order.Register

/-!
# Agreement without timeouts

Two nodes that record a third at the same dominant record the same address, and
differ at most in whether it lives. As long as no probe times out nobody is thought
dead, and the record of a node is a register that keeps the greatest dominant it is
told of. Nodes that were told the same agree then, however often and in whatever
order the news came, and whatever was lost on the way.
-/

namespace CppGossip

open Message Transition

namespace Gossiper

variable {env : Env} {g : Gossiper} {e : Event} {x : String}

/-- The dominants at which an event tells of `x` that it is alive. -/
def told (env : Env) (x : String) (g : Gossiper) (e : Event) : List ℕ :=
  ((g.aliveNews env e).toList.filter fun a => a.name = x).map fun a => a.dominant.toNat

/-- The event tells of nodes that are alive, or of none. -/
def Cheerful : Event → Prop
  | .message m _ => m.state = .alive
  | .probeTimeout _ | .conviction _ => False
  | _ => True

theorem toNat_knownDominant_aliveNode
    (hstay : ∀ a : NodeState, ¬ (g.isLeaving ∧ a.name = env.conf.name)) (a : NodeState)
    (needBc : Bool) (x : String) :
    ((g.aliveNode env a needBc).knownDominant x).toNat =
      if a.name = x then max (g.knownDominant x).toNat a.dominant.toNat
      else (g.knownDominant x).toNat := by
  rw [knownDominant, getNodeState_aliveNode]
  by_cases hname : a.name = x
  · subst hname
    rw [if_pos rfl]
    by_cases hlt : g.knownDominant a.name < a.dominant
    · rw [if_pos ⟨⟨hstay a, hlt⟩, rfl⟩, max_eq_right (UInt64.le_iff_toNat_le.1 (UInt64.le_of_lt hlt))]
      rfl
    · rw [if_neg fun hand => hlt hand.1.2,
        max_eq_left (UInt64.le_iff_toNat_le.1 (UInt64.not_lt.1 hlt))]
      rfl
  · rw [if_neg fun hand => hname hand.2, if_neg hname]
    rfl

/-- The recorded dominant is raised to those that are told. -/
theorem toNat_knownDominant_step (h : Tabled env g) (he : g.Enabled e) (hcheer : Cheerful e)
    (x : String) :
    ((g.step env e).knownDominant x).toNat =
      Register.merge (g.knownDominant x).toNat (g.told env x e) := by
  have hmerge (a : NodeState) (hnews : g.aliveNews env e = some a) :
      (if a.name = x then max (g.knownDominant x).toNat a.dominant.toNat
        else (g.knownDominant x).toNat) =
        Register.merge (g.knownDominant x).toNat (g.told env x e) := by
    by_cases hname : a.name = x
    · simp [told, hnews, hname]
    · simp [told, hnews, hname]
  have hnone (g' : Gossiper) (hnews : g.aliveNews env e = none)
      (hmap : g'.nodeMap = g.nodeMap) :
      (g'.knownDominant x).toNat =
        Register.merge (g.knownDominant x).toNat (g.told env x e) := by
    rw [told, hnews, knownDominant, getNodeState, hmap]
    rfl
  have hcases := handled h e he
  generalize g.step env e = g' at hcases
  cases hcases with
  | quiet hsilent hquiet => exact hnone g' (aliveNews_of_silent hsilent) hquiet.nodeMap
  | joined =>
      rw [toNat_knownDominant_aliveNode (g := g.announced env) h.not_leaving]
      exact hmerge _ rfl
  | alive a needBc ha =>
      rw [toNat_knownDominant_aliveNode h.not_leaving]
      exact hmerge a (if_pos ha)
  | suspect s needBc hs => exact absurd (hcheer.symm.trans hs) (by decide)
  | dead d needBc hd => exact absurd (hcheer.symm.trans hd) (by decide)
  | timeout s _ _ => exact hcheer.elim
  | convicted s _ => exact hcheer.elim
  | alerted n => exact hnone _ rfl (fuckyou_nodeMap env g n)

/-- The time of a record is not kept. -/
def Timeless (g : Gossiper) : Prop := ∀ x r, g.getNodeState x = some r → r.timestamp = 0

theorem timeless_fresh : Timeless fresh := by
  intro x r hr
  simp [fresh, getNodeState] at hr

theorem Timeless.step (htime : Timeless g) (h : Tabled env g) (he : g.Enabled e) :
    Timeless (g.step env e) := by
  intro x r' hr'
  have hcases := rewritten_step h he x
  generalize (g.step env e).getNodeState x = o at hcases hr'
  cases hcases with
  | kept => exact htime x r' hr'
  | alive | accused | buried =>
      cases hr'
      rfl

end Gossiper

namespace Cluster

variable {ι : Type*} [DecidableEq ι] {env : ι → Env} {os : List (Happening ι)} {o : Happening ι}
  {i j : ι} {x : String}

/-- What `i` is told of `x` in a step. -/
def told (env : ι → Env) (x : String) (i : ι) (s : Cluster ι) (o : Happening ι) : List ℕ :=
  (handled i o).elim [] ((s.node i).told (env i) x)

/-- No probe times out. -/
def Punctual (os : List (Happening ι)) : Prop := ∀ i node, .own i (.probeTimeout node) ∉ os

/-- What a gossiper's table is in every run. -/
theorem table_run (hv : Along (act env) Enabled start os) (i : ι) :
    let g := (run (act env) start os).node i
    Gossiper.Tabled (env i) g ∧ Gossiper.Recorded g ∧ Gossiper.Timeless g :=
  node_run (I := fun i g => Gossiper.Tabled (env i) g ∧ Gossiper.Recorded g ∧ Gossiper.Timeless g)
    (fun _ => ⟨Gossiper.tabled_fresh, Gossiper.recorded_fresh, Gossiper.timeless_fresh⟩)
    (fun _ _ e h he => ⟨h.1.step e he, h.2.1.step h.1 he, h.2.2.step h.1 he⟩) hv i

/-! ## Records of one dominant -/

/-- Two nodes with records of the same dominant disagree at most on whether it lives. -/
theorem record_eq_of_dominant_eq (hread : Readable env)
    (hnames : Function.Injective fun i => (env i).conf.name)
    (hv : Along (act env) Enabled start os) {r r' : NodeState}
    (hr : ((run (act env) start os).node i).getNodeState x = some r)
    (hr' : ((run (act env) start os).node j).getNodeState x = some r')
    (hdominant : r.dominant = r'.dominant) : r' = { r with state := r'.state } := by
  have haccounted := accounted_run hread hv
  obtain ⟨k, _, heq⟩ := ((haccounted.held i).recorded x r hr).announced
  obtain ⟨k', _, heq'⟩ := ((haccounted.held j).recorded x r' hr').announced
  obtain ⟨htabled, _, htime⟩ := table_run hv i
  obtain ⟨htabled', _, htime'⟩ := table_run hv j
  have hname : (env k).conf.name = (env k').conf.name := by
    have hkey := htabled.keyed x r hr
    have hkey' := htabled'.keyed x r' hr'
    rw [heq] at hkey
    rw [heq'] at hkey'
    exact hkey.trans hkey'.symm
  have hsame : k = k' := hnames hname
  subst hsame
  rw [heq', heq, htime x r hr, htime' x r' hr', hdominant]

/-- Two nodes with different records of `x` have them of different dominants, or they
differ in whether it lives, and at that dominant it has been condemned. -/
theorem dispute (hread : Readable env) (hnames : Function.Injective fun i => (env i).conf.name)
    (hv : Along (act env) Enabled start os) {r r' : NodeState}
    (hr : ((run (act env) start os).node i).getNodeState x = some r)
    (hr' : ((run (act env) start os).node j).getNodeState x = some r') (hne : r ≠ r') :
    r.dominant ≠ r'.dominant ∨ r' = { r with state := r'.state } ∧ Condemned env os x r.dominant := by
  by_cases hdominant : r.dominant = r'.dominant
  · have hsame := record_eq_of_dominant_eq hread hnames hv hr hr' hdominant
    refine Or.inr ⟨hsame, ?_⟩
    have hname : r.name = x := (table_run hv i).1.keyed x r hr
    have hname' : r'.name = x := (table_run hv j).1.keyed x r' hr'
    rcases ((accounted_run hread hv).held i).recorded x r hr |>.verdict with halive | ⟨_, hdead⟩
    · rcases ((accounted_run hread hv).held j).recorded x r' hr' |>.verdict with
        halive' | ⟨_, hdead'⟩
      · rw [halive', ← halive] at hsame
        exact absurd hsame.symm hne
      · rwa [hname', ← hdominant] at hdead'
    · rwa [hname] at hdead
  · exact Or.inl hdominant

/-! ## Runs without timeouts -/

omit [DecidableEq ι] in
theorem Punctual.init (h : Punctual (os ++ [o])) : Punctual os := fun i node hmem =>
  h i node (List.mem_append_left _ hmem)

/-- Where no probe has timed out nothing but announcements is about. -/
theorem alive_of_sourced (hpunctual : Punctual os) {m : NodeState} (h : Sourced env os m) :
    m.state = .alive := by
  rcases h.verdict with halive | ⟨_, _, _, _, _, _, _, rfl, hmem, _⟩
  · exact halive
  · exact absurd (List.mem_append_left _ hmem) (hpunctual _ _)

theorem cheerful_of_handled (h : Accounted env os (run (act env) start os))
    (hpunctual : Punctual (os ++ [o])) (ho : (run (act env) start os).Enabled o) {e : Event}
    (he : handled i o = some e) : Gossiper.Cheerful e := by
  obtain ⟨henabled, hreceived⟩ := h.everywhere.of_handled ho he
  cases e with
  | message m needBc => exact alive_of_sourced hpunctual.init (hreceived m needBc rfl)
  | probeTimeout node =>
      have hlast := own_of_probeTimeout he
      exact absurd (hlast ▸ List.mem_append_right _ List.mem_cons_self) (hpunctual i node)
  | conviction s => exact absurd ((h.held i).timed s henabled).2 (hpunctual.init i s)
  | registerNotifier | join | probe | deadAlert | batch => trivial

theorem told_of_handled {s : Cluster ι} {e : Event} (he : handled i o = some e) :
    told env x i s o = (s.node i).told (env i) x e := by
  rw [told, he]
  rfl

/-- Without timeouts a record is at the greatest dominant that its holder was told. -/
theorem toNat_knownDominant_run (hread : Readable env) (hv : Along (act env) Enabled start os)
    (hpunctual : Punctual os) (i : ι) (x : String) :
    (((run (act env) start os).node i).knownDominant x).toNat =
      Register.merge 0 (collect (act env) (told env x i) start os) := by
  induction os using List.reverseRecOn with
  | nil => rfl
  | append_singleton os o ih =>
      obtain ⟨hinit, ho⟩ := (along_append_singleton _ _ _ _).1 hv
      rw [run_append_singleton, collect_append_singleton, Register.merge_append,
        ← ih hinit hpunctual.init]
      cases he : handled i o with
      | none =>
          rw [node_act_of_not_handled he, told, he]
          rfl
      | some e =>
          rw [node_act_of_handled he, told_of_handled he]
          exact Gossiper.toNat_knownDominant_step (table_run hinit i).1 (enabled_of_handled ho he)
            (cheerful_of_handled (accounted_run hread hinit) hpunctual ho he) x

/-- The nodes of the samples, each once. -/
def threeEnvs (i : Fin 3) : Env := sampleEnvs i

theorem readable_threeEnvs : Readable threeEnvs := fun i => readable_sampleEnvs i

theorem injective_threeEnvs : Function.Injective fun i => (threeEnvs i).conf.name := by
  intro i j
  revert i j
  decide

/-- `a:1` and `b:1` hear of `c:1`, and `b:1` twice. -/
def introduced : List (Happening (Fin 3)) :=
  [.own 2 .join, .sendState 2, .receive 0 (hello "c:1" "c") true,
    .receive 1 (hello "c:1" "c") false, .receive 1 (hello "c:1" "c") true]

/-- `a:1` gives `c:1` up, and `b:1` does not. -/
def disputed : List (Happening (Fin 3)) :=
  introduced ++
    [.own 0 (.probe 0), .own 0 (.probeTimeout (known "c:1" "c")),
      .own 0 (.conviction (known "c:1" "c"))]

theorem dispute_of_conviction : Condemned threeEnvs disputed "c:1" 1 := by
  have hr : ((run (act threeEnvs) start disputed).node 0).getNodeState "c:1" =
      some { known "c:1" "c" with state := .dead } := by decide
  have hr' : ((run (act threeEnvs) start disputed).node 1).getNodeState "c:1" =
      some (known "c:1" "c") := by decide
  have hdispute := dispute readable_threeEnvs injective_threeEnvs (by decide) hr hr' (by decide)
  exact (hdispute.resolve_left (not_not_intro rfl)).2

end Cluster

end CppGossip
