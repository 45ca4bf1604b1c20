import CppGossip.Collection.Reading
import CppGossip.Sync.Exchange
import CppGossip.Wire.Section

/-!
# Objects that are gone

Three times the source reads an object after its lifetime. `mergeStates` copies each
record from the reference that `convert` returns to a local of its own, `handleBody`
copies its answer from the buffer of a builder whose block has ended, and the
handler of `doReadBody` reads the header through a reference to a local of
`doReadBody`. What such a read gives is not specified: `Destroyed` is what one call
finds there, and a parameter of whatever makes the read. `mergeStates` as it is
meant, `Gossiper.mergeStates`, is the case in which everything is found as it was
left.
-/

namespace CppGossip

open Collection Message Transition

/-- What a call finds where objects have been destroyed; `none` when the read does
not return. -/
structure Destroyed where
  /-- what is copied of the local of `convert` in turn `k`, by what it held -/
  tmp : ℕ → NodeState → Option NodeState
  /-- the memory where a builder had its buffer, by what that held -/
  builder : List UInt8 → Option (ℕ → UInt8)
  /-- the local of `doReadBody`, by the header decoded into it -/
  header : Header → Header

namespace Destroyed

/-- Everything is found as it was left. -/
def intact : Destroyed where
  tmp _ held := some held
  builder buff := some fun i => buff.getD i 0
  header decoded := decoded

/-- Nothing can be read of the record and of the buffer, and where the header was the
stack has been used again. -/
def lost : Destroyed where
  tmp _ _ := none
  builder _ := none
  header decoded := { decoded with bodyLength := 32767 }

/-- From turn `k` on the records are copied as they were left. -/
def Keeps (d : Destroyed) (k : ℕ) (states : List NodeState) : Prop :=
  ∀ e ∈ states.zipIdx k, d.tmp e.2 e.1 = some e.1

instance (d : Destroyed) (k : ℕ) (states : List NodeState) : Decidable (d.Keeps k states) :=
  inferInstanceAs (Decidable (∀ e ∈ _, _))

/-- The buffer is copied as it was left. -/
def Holds (d : Destroyed) (buff : List UInt8) : Prop :=
  ∃ mem ∈ d.builder buff, (List.range buff.length).map mem = buff

instance (d : Destroyed) (buff : List UInt8) : Decidable (d.Holds buff) :=
  inferInstanceAs (Decidable (∃ mem ∈ _, _))

/-- `node_state state(convert(*ns))` in turn `k`. -/
def copied (d : Destroyed) (k : ℕ) (ns : Message.NodeState) : Result NodeState := do
  let tmp ← orFault .absentField (convert ns)
  orFault .invalidRead (d.tmp k tmp)

/-- The records that `mergeStates` hands on from turn `k` on. -/
def copies (d : Destroyed) : ℕ → List Message.NodeState → Result (List NodeState)
  | _, [] => .ok []
  | k, ns :: nss => do
      let state ← d.copied k ns
      let states ← d.copies (k + 1) nss
      .ok (state :: states)

variable {d : Destroyed} {k : ℕ} {state : NodeState} {states : List NodeState}
  {ns : Message.NodeState} {nss : List Message.NodeState}

theorem keeps_nil (d : Destroyed) (k : ℕ) : d.Keeps k [] := fun _ he => by cases he

theorem keeps_cons_iff :
    d.Keeps k (state :: states) ↔ d.tmp k state = some state ∧ d.Keeps (k + 1) states := by
  rw [Keeps, List.zipIdx_cons, List.forall_mem_cons, Keeps]

theorem keeps_of_forall (h : ∀ m ∈ states, ∀ k, d.tmp k m = some m) (k : ℕ) : d.Keeps k states :=
  fun e he => h e.1 (List.fst_mem_of_mem_zipIdx he) e.2

theorem holds_intact (buff : List UInt8) : intact.Holds buff :=
  ⟨_, rfl, map_getD_range buff 0⟩

theorem copied_eq_ok_iff :
    d.copied k ns = .ok state ↔ ∃ held, convert ns = some held ∧ d.tmp k held = some state := by
  simp only [copied, Result.bind_eq_ok_iff, orFault_eq_ok_iff]

/-- A list is copied record by record. -/
theorem copies_cons_eq_ok_iff :
    d.copies k (ns :: nss) = .ok states ↔
      ∃ held state rest, convert ns = some held ∧ d.tmp k held = some state ∧
        d.copies (k + 1) nss = .ok rest ∧ states = state :: rest := by
  simp only [copies, Result.bind_eq_ok_iff, copied_eq_ok_iff]
  constructor
  · rintro ⟨state, ⟨held, hheld, htmp⟩, rest, hrest, heq⟩
    exact ⟨held, state, rest, hheld, htmp, hrest, (Except.ok.inj heq).symm⟩
  · rintro ⟨held, state, rest, hheld, htmp, hrest, rfl⟩
    exact ⟨state, ⟨held, hheld, htmp⟩, rest, hrest, rfl⟩

/-- Records that are copied have been read. -/
theorem exists_read_of_copies (h : d.copies k nss = .ok states) :
    ∃ held, nss.mapM convert = some held := by
  induction nss generalizing k states with
  | nil => exact ⟨[], rfl⟩
  | cons ns nss ih =>
      obtain ⟨held, _, rest, hheld, _, hrest, _⟩ := copies_cons_eq_ok_iff.1 h
      obtain ⟨later, hlater⟩ := ih hrest
      exact ⟨held :: later, by rw [List.mapM_cons, hheld, hlater]; rfl⟩

/-- A list is copied as it was read when its records are found as they were left. -/
theorem copies_eq_ok_iff_keeps (h : nss.mapM convert = some states) :
    d.copies k nss = .ok states ↔ d.Keeps k states := by
  have hread := mapM_eq_some_iff_forall₂.1 h
  induction hread generalizing k with
  | nil => exact iff_of_true rfl (keeps_nil d k)
  | @cons ns state nss states hns hrest ih =>
      have hlater : d.copies (k + 1) nss = .ok states ↔ d.Keeps (k + 1) states :=
        ih (mapM_eq_some_iff_forall₂.2 hrest)
      rw [copies_cons_eq_ok_iff, keeps_cons_iff, ← hlater]
      constructor
      · rintro ⟨held, copy, rest, hheld, htmp, hcopies, heq⟩
        cases hns.symm.trans hheld
        cases heq
        exact ⟨htmp, hcopies⟩
      · rintro ⟨htmp, hcopies⟩
        exact ⟨state, state, states, hns, htmp, hcopies, rfl⟩

end Destroyed

/-- Remains of destroyed objects: each is found as it was left, or the read does not
return. -/
structure Remains extends Destroyed where
  tmp_eq : ∀ {k held state}, tmp k held = some state → state = held
  builder_eq : ∀ {buff mem}, builder buff = some mem → (List.range buff.length).map mem = buff
  header_eq : ∀ decoded, header decoded = decoded

namespace Remains

/-- Everything is found as it was left. -/
def intact : Remains where
  toDestroyed := .intact
  tmp_eq h := (Option.some.inj h).symm
  builder_eq h := Option.some.inj h ▸ map_getD_range _ 0
  header_eq _ := rfl

/-- What is copied was read. -/
theorem mapM_convert_of_copies (d : Remains) {k : ℕ} {nss : List Message.NodeState}
    {states : List NodeState} (h : d.copies k nss = .ok states) :
    nss.mapM convert = some states := by
  induction nss generalizing k states with
  | nil =>
      cases h
      rfl
  | cons ns nss ih =>
      obtain ⟨held, state, rest, hheld, htmp, hrest, rfl⟩ := Destroyed.copies_cons_eq_ok_iff.1 h
      obtain rfl := d.tmp_eq htmp
      rw [List.mapM_cons, hheld, ih hrest]
      rfl

theorem filterMap_convert_of_copies (d : Remains) {k : ℕ} {nss : List Message.NodeState}
    {states : List NodeState} (h : d.copies k nss = .ok states) : nss.filterMap convert = states :=
  filterMap_eq_of_mapM (d.mapM_convert_of_copies h)

end Remains

namespace Gossiper

variable (d : Destroyed) (env : Env) (needBc : Bool)

/-- `mergeStates` from turn `k` on. -/
def mergeCopies : ℕ → List Message.NodeState → Gossiper → Result Gossiper
  | _, [], g => .ok g
  | k, ns :: nss, g => do
      let state ← d.copied k ns
      mergeCopies (k + 1) nss (g.mergeState env needBc state)

/-- What `mergeStates` copies of a table. -/
def copiesSection (remoteStates : NodeStates) : Result (List NodeState) := do
  let nodes ← orFault .absentField remoteStates.nodes
  d.copies 0 nodes

/-- `mergeStates` on a table. -/
def mergeSection (remoteStates : NodeStates) (g : Gossiper) : Result Gossiper := do
  let nodes ← orFault .absentField remoteStates.nodes
  mergeCopies d env needBc 0 nodes g

variable {d env needBc} {k : ℕ} {g : Gossiper}

/-- The records are merged in turn. -/
theorem mergeCopies_eq (k : ℕ) (nss : List Message.NodeState) (g : Gossiper) :
    mergeCopies d env needBc k nss g =
      (d.copies k nss).map fun states => g.merge env needBc states := by
  induction nss generalizing k g with
  | nil => rfl
  | cons ns nss ih =>
      rw [mergeCopies, Destroyed.copies]
      cases d.copied k ns with
      | error e => rfl
      | ok state =>
          rw [Result.ok_bind, Result.ok_bind, ih]
          cases d.copies (k + 1) nss with
          | error e => rfl
          | ok states => rfl

/-- A table is merged as it is copied. -/
theorem mergeSection_eq (remoteStates : NodeStates) (g : Gossiper) :
    mergeSection d env needBc remoteStates g =
      (copiesSection d remoteStates).map fun states => g.merge env needBc states := by
  rw [mergeSection, copiesSection]
  cases remoteStates.nodes with
  | none => rfl
  | some nodes => exact mergeCopies_eq 0 nodes g

/-- With everything found as it was left `mergeStates` does what it is meant to. -/
theorem mergeCopies_intact (k : ℕ) (nss : List Message.NodeState) (g : Gossiper) :
    mergeCopies .intact env needBc k nss g =
      orFault .absentField (g.mergeStates env nss needBc) := by
  induction nss generalizing k g with
  | nil => rfl
  | cons ns nss ih =>
      rw [mergeCopies, Destroyed.copied, mergeStates, List.foldlM_cons]
      cases convert ns with
      | none => rfl
      | some state =>
          show mergeCopies .intact env needBc (k + 1) nss (g.mergeState env needBc state) = _
          rw [ih, mergeStates]
          rfl

end Gossiper

end CppGossip
