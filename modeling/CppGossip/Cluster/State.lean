import CppGossip.Broadcast.Cursor
import CppGossip.Gossiper.Contents
import CppGossip.Message.Encode
import CppGossip.Sync.Exchange

/-!
# A cluster

`Cluster` is any number of gossipers and the records they have sent. A gossiper
sends the messages of a batch behind a ping, or its whole table in a state sync.
What has been sent may reach any gossiper at any later time, any number of times
and in any order, or never. Nothing else is received, so every message in a run
goes back to a gossiper of the cluster.
-/

namespace CppGossip

open Message Transition

/-- The gossipers of a cluster and the records that have been sent. -/
structure Cluster (ι : Type*) where
  node : ι → Gossiper
  wire : List Message.NodeState

/-- What may happen next in a cluster. -/
inductive Happening (ι : Type*) where
  /-- something other than the receipt or the sending of messages, at one gossiper -/
  | own (i : ι) (e : Event)
  /-- the messages of a batch are sent behind a ping, or given up -/
  | gossip (i : ι) (n : ℕ) (applied : Bool)
  /-- the table is sent -/
  | sendState (i : ι)
  | receive (i : ι) (ns : Message.NodeState) (needBc : Bool)

/-- The event is neither the receipt nor the sending of messages. -/
def Event.Own : Event → Prop
  | .message _ _ | .batch _ _ => False
  | _ => True

instance Event.Own.decidable : ∀ e : Event, Decidable e.Own
  | .message _ _ | .batch _ _ => inferInstanceAs (Decidable False)
  | .registerNotifier _ _ | .join | .probe _ | .probeTimeout _ | .deadAlert _ _ _
  | .conviction _ => inferInstanceAs (Decidable True)

namespace Cluster

variable {ι : Type*} [DecidableEq ι]

/-- Gossipers as they are constructed, and nothing sent. -/
def start : Cluster ι where
  node := fun _ => .fresh
  wire := []

/-- What the gossiper `i` handles in a step. -/
def handled (i : ι) : Happening ι → Option Event
  | .own j e => if j = i then some e else none
  | .gossip j n applied => if j = i then some (.batch n applied) else none
  | .sendState _ => none
  | .receive j ns needBc =>
      if j = i then (convert ns).map fun state => .message state needBc else none

/-- What is sent in a step. -/
def sent (s : Cluster ι) : Happening ι → List NodeState
  | .gossip i n true => BroadcastQueue.peeks n (s.node i).bcQueue
  | .sendState i => (s.node i).localState
  | _ => []

/-- What a step does. The records are sent together, or none of them when one
cannot be encoded. -/
def act (env : ι → Env) (s : Cluster ι) (o : Happening ι) : Cluster ι where
  node i :=
    match handled i o with
    | some e => (s.node i).step (env i) e
    | none => s.node i
  wire := s.wire ++ ((s.sent o).mapM encode).getD []

/-- The steps that may come next. -/
def Enabled (s : Cluster ι) : Happening ι → Prop
  | .own i e => e.Own ∧ (s.node i).Enabled e
  | .receive _ ns _ => ns ∈ s.wire
  | .gossip _ _ _ | .sendState _ => True

instance Enabled.decidable (s : Cluster ι) : ∀ o, Decidable (s.Enabled o)
  | .own _ _ => inferInstanceAs (Decidable (_ ∧ _))
  | .receive _ _ _ => inferInstanceAs (Decidable (_ ∈ _))
  | .gossip _ _ _ | .sendState _ => inferInstanceAs (Decidable True)

variable {env : ι → Env} {s : Cluster ι} {o : Happening ι} {i : ι} {e : Event}
  {P : NodeState → Prop}

theorem node_act_of_handled (h : handled i o = some e) :
    (act env s o).node i = (s.node i).step (env i) e := by
  simp only [act, h]

theorem node_act_of_not_handled (h : handled i o = none) : (act env s o).node i = s.node i := by
  simp only [act, h]

/-! ## What every record in a cluster is -/

/-- A property that a record keeps at every gossiper and on the wire. -/
structure Preserved (env : ι → Env) (P : NodeState → Prop) : Prop where
  passed : ∀ i, NodeState.Passed (env i) P
  received : ∀ {m m' : NodeState} {ns : Message.NodeState},
    P m → encode m = some ns → convert ns = some m' → P m'

/-- Every record held by a gossiper or sent has the property `P`. -/
structure Everywhere (P : NodeState → Prop) (s : Cluster ι) : Prop where
  held : ∀ i, Gossiper.Every P (s.node i)
  wired : ∀ ns ∈ s.wire, ∀ m, convert ns = some m → P m

omit [DecidableEq ι] in
theorem everywhere_start (P : NodeState → Prop) : Everywhere P (start : Cluster ι) where
  held _ := Gossiper.every_fresh P
  wired _ h := by cases h

omit [DecidableEq ι] in
/-- What a gossiper sends it holds. -/
theorem Everywhere.of_sent (h : Everywhere P s) {m : NodeState} (hm : m ∈ s.sent o) : P m := by
  cases o with
  | gossip i n applied =>
      cases applied with
      | true =>
          obtain ⟨x, hx⟩ := BroadcastQueue.exists_message_of_mem_peeks hm
          exact (h.held i).queued x m hx
      | false => cases hm
  | sendState i =>
      obtain ⟨entry, hentry, rfl⟩ := List.mem_map.1 hm
      exact (h.held i).recorded entry.1 entry.2 (AList.mem_lookup_iff.2 hentry)
  | own | receive => cases hm

theorem exists_of_mem_mapM {l : List NodeState} {nss : List Message.NodeState}
    (h : l.mapM encode = some nss) {ns : Message.NodeState} (hns : ns ∈ nss) :
    ∃ m ∈ l, encode m = some ns := by
  induction l generalizing nss with
  | nil =>
      cases h
      cases hns
  | cons m l ih =>
      simp only [List.mapM_cons, Option.bind_eq_bind, Option.bind_eq_some_iff] at h
      obtain ⟨first, hfirst, rest, hrest, hcons⟩ := h
      cases hcons
      rcases List.mem_cons.1 hns with rfl | hmem
      · exact ⟨m, List.mem_cons_self, hfirst⟩
      · obtain ⟨m', hm', hencode⟩ := ih hrest hmem
        exact ⟨m', List.mem_cons_of_mem m hm', hencode⟩

/-- What is handled is enabled, and a message handled was sent. -/
theorem Everywhere.of_handled (h : Everywhere P s) (ho : s.Enabled o) (he : handled i o = some e) :
    (s.node i).Enabled e ∧ ∀ m needBc, e = .message m needBc → P m := by
  cases o with
  | own j e' =>
      rw [handled, Option.ite_none_right_eq_some] at he
      obtain ⟨rfl, heq⟩ := he
      cases heq
      refine ⟨ho.2, fun m needBc heq => ?_⟩
      rw [heq] at ho
      exact ho.1.elim
  | gossip j n applied =>
      rw [handled, Option.ite_none_right_eq_some] at he
      obtain ⟨rfl, heq⟩ := he
      cases heq
      exact ⟨trivial, fun m needBc heq => by cases heq⟩
  | sendState j => cases he
  | receive j ns needBc =>
      rw [handled, Option.ite_none_right_eq_some] at he
      obtain ⟨rfl, heq⟩ := he
      obtain ⟨m, hm, rfl⟩ := Option.map_eq_some_iff.1 heq
      refine ⟨trivial, fun m' needBc' heq => ?_⟩
      cases heq
      exact h.wired ns ho m hm

theorem Everywhere.step (h : Everywhere P s) (hP : Preserved env P) (ho : s.Enabled o) :
    Everywhere P (act env s o) where
  held i := by
    cases he : handled i o with
    | none =>
        rw [node_act_of_not_handled he]
        exact h.held i
    | some e =>
        rw [node_act_of_handled he]
        obtain ⟨henabled, hreceived⟩ := h.of_handled ho he
        exact (h.held i).step (hP.passed i) henabled hreceived
  wired ns hns m hm := by
    rcases List.mem_append.1 hns with hold | hnew
    · exact h.wired ns hold m hm
    · cases hencoded : (s.sent o).mapM encode with
      | none =>
          rw [hencoded] at hnew
          cases hnew
      | some nss =>
          rw [hencoded] at hnew
          obtain ⟨m', hm', hencode⟩ := exists_of_mem_mapM hencoded hnew
          exact hP.received (h.of_sent hm') hencode hm

theorem everywhere_run (hP : Preserved env P) {os : List (Happening ι)}
    (hv : Along (act env) Enabled start os) : Throughout (act env) (Everywhere P) start os :=
  hv.throughout (fun _ _ h ho => h.step hP ho) (everywhere_start P)

/-! ## What every gossiper of a cluster keeps -/

theorem enabled_of_handled (ho : s.Enabled o) (he : handled i o = some e) :
    (s.node i).Enabled e := by
  have hall : Everywhere (fun _ => True) s :=
    ⟨fun _ => ⟨fun _ _ _ => trivial, fun _ _ _ => trivial, fun _ _ _ => trivial,
      fun _ _ => trivial, fun _ _ => trivial⟩, fun _ _ _ _ => trivial⟩
  exact (hall.of_handled ho he).1

/-- An invariant of a gossiper is one of each in a cluster. -/
theorem node_run {I : ι → Gossiper → Prop} (hfresh : ∀ i, I i .fresh)
    (hstep : ∀ i g e, I i g → g.Enabled e → I i (g.step (env i) e)) {os : List (Happening ι)}
    (hv : Along (act env) Enabled start os) (i : ι) : I i ((run (act env) start os).node i) := by
  refine hv.invariant (I := fun s => ∀ i, I i (s.node i)) (fun s o hs ho i => ?_) hfresh i
  cases he : handled i o with
  | none =>
      rw [node_act_of_not_handled he]
      exact hs i
  | some e =>
      rw [node_act_of_handled he]
      exact hstep i _ e (hs i) (enabled_of_handled ho he)

/-! ## A cluster to run examples on -/

/-- Three nodes, called `a:1`, `b:1` and `c:1`. -/
def sampleEnvs (i : ℕ) : Env where
  conf :=
    if i = 0 then { name := "a:1", addr := "a", port := 1 }
    else if i = 1 then { name := "b:1", addr := "b", port := 1 }
    else { name := "c:1", addr := "c", port := 1 }
  place := fun _ _ => 0
  grown := fun _ _ => none
  timestamp := 0
  ceilLog2Zero := 0

/-- What `name` at `ip` says of itself when it joins, as it is sent. -/
def hello (name ip : String) : Message.NodeState where
  node := some { name := some name, ip := some ip, port := 1 }
  state := State.alive.toRaw
  dominant := 1
  from_ := some ""
  timeStamp := 0

/-- The same, as it is recorded. -/
def known (name ip : String) : NodeState where
  name := name
  ip := ip
  port := "1"
  dominant := 1
  state := .alive
  from_ := ""
  timestamp := 0

/-- All three join, and two of them hear of the others. -/
def acquainted : List (Happening ℕ) :=
  [.own 0 .join, .own 1 .join, .own 2 .join, .sendState 1, .sendState 2,
    .receive 0 (hello "b:1" "b") true, .receive 0 (hello "c:1" "c") true,
    .receive 1 (hello "c:1" "c") false]

end Cluster

end CppGossip
