import CppGossip.Collection.Alternation
import CppGossip.Gossiper.News

/-!
# Notifications

`notify_join_` is called where a name enters `nodes` and `notify_leave_` where
it is taken out, each in the handler that does it. So the calls about another
node are the history of its membership: they alternate, the first is a join, and
the last is a join exactly when the node is listed. About itself a node notifies
nobody.
-/

namespace CppGossip

open Collection Transition

namespace Gossiper

variable {env : Env} {g g' : Gossiper} {x : String}

/-- What a call tells the user about `x`: that it joined or that it left. -/
def notice (x : String) : Effect → Option Bool
  | .notifyJoin name => if name = x then some true else none
  | .notifyLeave name => if name = x then some false else none
  | .push _ | .issue _ _ => none

/-- The notifications about `x` in a trace, the earliest first: `true` for a
join, `false` for a leave. -/
def notices (x : String) (trace : List Effect) : List Bool :=
  (trace.filterMap (notice x)).reverse

@[simp] theorem notices_push (x : String) (m : NodeState) (trace : List Effect) :
    notices x (.push m :: trace) = notices x trace := rfl

@[simp] theorem notices_issue (x : String) (a : NodeState) (n : Option UInt64)
    (trace : List Effect) : notices x (.issue a n :: trace) = notices x trace := rfl

theorem notices_notifyJoin (x name : String) (trace : List Effect) :
    notices x (.notifyJoin name :: trace) =
      if name = x then notices x trace ++ [true] else notices x trace := by
  by_cases hname : name = x
  · simp [notices, notice, hname]
  · simp [notices, notice, hname]

theorem notices_notifyLeave (x name : String) (trace : List Effect) :
    notices x (.notifyLeave name :: trace) =
      if name = x then notices x trace ++ [false] else notices x trace := by
  by_cases hname : name = x
  · simp [notices, notice, hname]
  · simp [notices, notice, hname]

variable (env g g' x)

/-- What handling news may notify about `x` and do to its membership. -/
inductive Noticed : Prop
  | silent (hsame : notices x g'.trace = notices x g.trace) (hmem : x ∈ g'.nodes ↔ x ∈ g.nodes)
  | join (hother : x ≠ env.conf.name) (hnew : notices x g'.trace = notices x g.trace ++ [true])
      (hout : x ∉ g.nodes) (hin : x ∈ g'.nodes)
  | leave (hother : x ≠ env.conf.name) (hnew : notices x g'.trace = notices x g.trace ++ [false])
      (hin : x ∈ g.nodes) (hout : x ∉ g'.nodes)
  | own (hself : x = env.conf.name) (hsame : notices x g'.trace = notices x g.trace)

variable {env g g' x}

theorem noticed_aliveNode (h : Tabled env g) (hreg : g.notifyJoin = true)
    (a : NodeState) (needBc : Bool) :
    Noticed env g (g.aliveNode env a needBc) x := by
  have hpushed : notices x ((if needBc then [.push a] else []) ++ g.trace) = notices x g.trace := by
    cases needBc <;> rfl
  by_cases hacc : g.AliveAccepted env a
  · rw [aliveNode_of_accepted hacc]
    by_cases hdown : g.Down a.name
    · by_cases hname : a.name = x
      · subst hname
        by_cases hself : a.name = env.conf.name
        · exact .own hself (by simpa [hself] using hpushed)
        · refine .join hself ?_ ?_ ?_
          · simp [notices_notifyJoin, hpushed, hdown, hself, hreg]
          · exact fun hin => (h.mem_nodes_iff _).1 hin hdown
          · simp [hdown]
      · refine .silent ?_ ?_
        · dsimp only
          split
          · simp [notices_notifyJoin, hname, hpushed]
          · simpa using hpushed
        · simp [hdown, Ne.symm hname]
    · exact .silent (by simpa [hdown] using hpushed) (by simp [hdown])
  · rw [aliveNode_of_not_accepted hacc]
    exact .silent rfl Iff.rfl

theorem noticed_deadNode (h : Tabled env g) (hreg : g.notifyLeave = true)
    (d : NodeState) : Noticed env g (g.deadNode env d) x := by
  by_cases hheeds : g.Heeds d
  · by_cases hdown : g.Down d.name
    · rw [deadNode_of_down hheeds hdown]
      exact .silent rfl Iff.rfl
    · by_cases hself : d.name = env.conf.name
      · rw [deadNode_of_self hheeds hdown hself h.staying, fuckyou_eq]
        exact .silent rfl Iff.rfl
      · rw [deadNode_of_buried hheeds hdown fun hand => hself hand.1]
        have hnodup := h.index.nodup
        by_cases hname : d.name = x
        · subst hname
          refine .leave hself ?_ ?_ ?_
          · simp [notices_notifyLeave, hself, hreg]
          · exact (h.mem_nodes_iff _).2 hdown
          · simp [mem_swapRemove_iff hnodup]
        · refine .silent ?_ ?_
          · dsimp only
            split
            · simp [notices_notifyLeave, hname]
            · simp
          · simp [mem_swapRemove_iff hnodup, Ne.symm hname]
  · rw [deadNode_of_not_heeds hheeds]
    exact .silent rfl Iff.rfl

theorem noticed_suspectNode (h : Tabled env g) (hreg : g.notifyLeave = true)
    (s : NodeState) : Noticed env g (g.suspectNode env s) x := by
  have hcases := suspected env g s
  generalize g.suspectNode env s = g' at hcases
  cases hcases with
  | stale _ => exact .silent rfl Iff.rfl
  | convicted _ sus hsus _ =>
      cases noticed_deadNode (h.counted hsus) hreg sus.accusation.killed with
      | silent hsame hmem => exact .silent hsame hmem
      | join hother hnew hout hin => exact .join hother hnew hout hin
      | leave hother hnew hin hout => exact .leave hother hnew hin hout
      | own hself hsame => exact .own hself hsame
  | confirmed _ _ _ _ => exact .silent rfl Iff.rfl
  | ignored _ _ _ => exact .silent rfl Iff.rfl
  | openedSelf _ _ _ _ =>
      rw [fuckyou_eq]
      exact .silent rfl Iff.rfl
  | opened _ _ _ _ => exact .silent rfl Iff.rfl

/-- Both notifiers are given. -/
def Notifies (g : Gossiper) : Prop := g.notifyJoin = true ∧ g.notifyLeave = true

instance (g : Gossiper) : Decidable g.Notifies := inferInstanceAs (Decidable (_ ∧ _))

/-- The event does not take a notifier away. -/
def LeavesNotifiers : Event → Prop
  | .registerNotifier join leave => join = true ∧ leave = true
  | _ => True

instance LeavesNotifiers.decidable : ∀ e, Decidable (LeavesNotifiers e)
  | .registerNotifier _ _ => inferInstanceAs (Decidable (_ ∧ _))
  | .join | .message _ _ | .probe _ | .probeTimeout _ | .deadAlert _ _ _ | .conviction _
  | .batch _ _ => inferInstanceAs (Decidable True)

theorem noticed_step (h : Tabled env g) (hreg : g.Notifies) {e : Event} (he : g.Enabled e)
    (x : String) : Noticed env g (g.step env e) x := by
  have hcases := handled h e he
  generalize g.step env e = g' at hcases
  cases hcases with
  | quiet _ hquiet =>
      exact .silent (congrArg (notices x) hquiet.trace) (by rw [hquiet.nodes])
  | joined =>
      have hnext : Tabled env (g.announced env) :=
        ⟨h.index, h.keyed, h.accused, h.pinged, h.staying⟩
      cases noticed_aliveNode (x := x) hnext hreg.1 (selfState env (g.dominant + 1)) false with
      | silent hsame hmem => exact .silent hsame hmem
      | join hother hnew hout hin => exact .join hother hnew hout hin
      | leave hother hnew hin hout => exact .leave hother hnew hin hout
      | own hself hsame => exact .own hself hsame
  | alive a needBc _ => exact noticed_aliveNode h hreg.1 a needBc
  | suspect s _ _ => exact noticed_suspectNode h hreg.2 s
  | timeout s _ _ => exact noticed_suspectNode h hreg.2 s
  | dead d _ _ => exact noticed_deadNode h hreg.2 d
  | convicted s _ => exact noticed_deadNode h hreg.2 s.killed
  | alerted n =>
      rw [fuckyou_eq]
      exact .silent rfl Iff.rfl

theorem notifies_aliveNode (h : g.Notifies) (a : NodeState) (needBc : Bool) :
    (g.aliveNode env a needBc).Notifies := by
  by_cases hacc : g.AliveAccepted env a
  · rw [aliveNode_of_accepted hacc]
    exact h
  · rw [aliveNode_of_not_accepted hacc]
    exact h

theorem notifies_deadNode (h : g.Notifies) (d : NodeState) : (g.deadNode env d).Notifies := by
  by_cases hheeds : g.Heeds d
  · by_cases hdown : g.Down d.name
    · rw [deadNode_of_down hheeds hdown]
      exact h
    · by_cases hself : d.name = env.conf.name ∧ g.isLeaving = false
      · rw [deadNode_of_self hheeds hdown hself.1 hself.2, fuckyou_eq]
        exact h
      · rw [deadNode_of_buried hheeds hdown hself]
        exact h
  · rw [deadNode_of_not_heeds hheeds]
    exact h

theorem notifies_suspectNode (h : g.Notifies) (s : NodeState) :
    (g.suspectNode env s).Notifies := by
  have hcases := suspected env g s
  generalize g.suspectNode env s = g' at hcases
  cases hcases with
  | stale _ => exact h
  | convicted _ sus _ _ => exact notifies_deadNode (g := g.counted s sus) h sus.accusation.killed
  | confirmed _ _ _ _ => exact h
  | ignored _ _ _ => exact h
  | openedSelf _ _ _ _ =>
      rw [fuckyou_eq]
      exact h
  | opened _ _ _ _ => exact h

theorem notifies_step (h : g.Notifies) {e : Event} (he : LeavesNotifiers e) :
    (g.step env e).Notifies := by
  cases e with
  | registerNotifier join leave => exact he
  | join => exact notifies_aliveNode (g := g.announced env) h _ false
  | message m needBc =>
      cases hm : m.state with
      | alive =>
          simp only [Gossiper.step, mergeState, hm]
          exact notifies_aliveNode h m needBc
      | suspect =>
          simp only [Gossiper.step, mergeState, hm]
          exact notifies_suspectNode h m
      | dead =>
          simp only [Gossiper.step, mergeState, hm]
          exact notifies_deadNode h m
      | other raw hraw =>
          simp only [Gossiper.step, mergeState, hm]
          exact h
  | probe cursor =>
      simp only [Gossiper.step, Gossiper.probe]
      split
      case h_1 => exact h
      case h_2 =>
        split
        case h_1 => exact h
        case h_2 =>
          split
          · exact h
          · exact h
  | probeTimeout node => exact notifies_suspectNode h node
  | deadAlert name state dominant =>
      simp only [Gossiper.step, deadAlert]
      split
      · rw [fuckyou_eq]
        exact h
      · exact h
  | conviction s => exact notifies_deadNode h s.killed
  | batch n applied => exact h

/-- The notifications about every other node are the history of its membership,
and there are none about the node itself. -/
structure Notified (env : Env) (g : Gossiper) : Prop where
  others : ∀ x, x ≠ env.conf.name → Alternates (x ∈ g.getAliveNodes) (notices x g.trace)
  own : notices env.conf.name g.trace = []

theorem notified_fresh (env : Env) (join leave : Bool) :
    Notified env (fresh.registerNotifier join leave) where
  others x _ := alternates_nil (by simp [getAliveNodes, fresh, registerNotifier])
  own := rfl

theorem Notified.step (hnote : Notified env g) (h : Tabled env g) (hreg : g.Notifies) {e : Event}
    (he : g.Enabled e) : Notified env (g.step env e) where
  others x hx := by
    cases noticed_step h hreg he x with
    | silent hsame hmem => exact hsame ▸ (hnote.others x hx).congr hmem.symm
    | join _ hnew hout hin => exact hnew ▸ (hnote.others x hx).switchOn hout hin
    | leave _ hnew hin hout => exact hnew ▸ (hnote.others x hx).switchOff hin hout
    | own hself _ => exact absurd hself hx
  own := by
    cases noticed_step h hreg he env.conf.name with
    | silent hsame _ => exact hsame.trans hnote.own
    | join hother _ _ _ => exact absurd rfl hother
    | leave hother _ _ _ => exact absurd rfl hother
    | own _ hsame => exact hsame.trans hnote.own

/-- With both notifiers registered to begin with, the user is told of every other
node by turns that it joined and that it left, as it enters and leaves the list. -/
theorem notified_throughout (env : Env) (es : List Event)
    (hv : Valid env (fresh.registerNotifier true true) es)
    (hreg : ∀ e ∈ es, LeavesNotifiers e) :
    Throughout (Gossiper.step env) (Notified env) (fresh.registerNotifier true true) es := by
  have hboth := (along_and _ _ _ _).2
    ⟨hv, (along_iff_forall_mem LeavesNotifiers (fresh.registerNotifier true true) es).2 hreg⟩
  have htable : Tabled env (fresh.registerNotifier true true) :=
    tabled_fresh.step (.registerNotifier true true) trivial
  have hkept := hboth.throughout (I := fun g => (Tabled env g ∧ g.Notifies) ∧ Notified env g)
    (fun g e h he => ⟨⟨h.1.1.step e he.1, notifies_step h.1.2 he.2⟩,
      h.2.step h.1.1 h.1.2 he.1⟩)
    ⟨⟨htable, rfl, rfl⟩, notified_fresh env true true⟩
  exact hkept.mono fun _ h => h.2

/-- `b:1` joins, dies three times over, and comes back. -/
theorem notified_of_revival :
    Throughout (Gossiper.step sampleEnv) (Notified sampleEnv) (fresh.registerNotifier true true)
      [.join, .message (news "b:1" 1 .alive "b:1") true,
        .message (news "b:1" 1 .suspect "c:1") true, .message (news "b:1" 1 .dead "c:1") true,
        .message (news "b:1" 1 .dead "d:1") true, .conviction (news "b:1" 1 .suspect "c:1"),
        .message (news "b:1" 2 .alive "b:1") true] :=
  notified_throughout sampleEnv _ (by decide) (by decide)

end Gossiper

end CppGossip
