import CppGossip.Suspicion.Conviction
import CppGossip.Suspicion.State
import Mathlib.Data.Finset.Card

/-!
# The quorum of a suspicion

`Confirm` keeps the set of those who confirmed, to rule out duplicates, and its
size. The accuser who opened the suspicion is not put into that set, and the
timeout of a ping of the node's own goes through `Confirm` like an accusation
that was received. Where neither is counted, the confirmations of an open
suspicion are those of as many different accusers, and a quorum is real.
-/

namespace CppGossip

open Collection Transition

/-- The accusers of `x` in the SUSPECT messages handled. -/
def accusers (x : String) (es : List Event) : Finset String :=
  (es.filterMap fun
    | .message m _ => if m.state = .suspect ∧ m.name = x then some m.from_ else none
    | _ => none).toFinset

theorem accusers_append (x : String) (es fs : List Event) :
    accusers x (es ++ fs) = accusers x es ∪ accusers x fs := by
  rw [accusers, List.filterMap_append, List.toFinset_append]
  rfl

theorem accusers_subset_of_split {x : String} {es es₁ es₂ : List Event} {e₁ : Event}
    (h : es = es₁ ++ e₁ :: es₂) (e : Event) :
    accusers x (es₂ ++ [e]) ⊆ accusers x (es ++ [e]) := by
  have hsplit : es ++ [e] = (es₁ ++ [e₁]) ++ (es₂ ++ [e]) := by simp [h]
  intro sender hsender
  rw [hsplit, accusers_append]
  exact Finset.mem_union_right _ hsender

theorem mem_accusers_message {m : NodeState} {needBc : Bool} (hm : m.state = .suspect)
    (es : List Event) : m.from_ ∈ accusers m.name (es ++ [.message m needBc]) := by
  simp [accusers, hm]

/-- The confirmations of an open suspicion are those of accusers in `heard` other
than the one who opened it, and there are not yet enough of them. -/
structure Polled (sus : Suspicion) (heard : Finset String) : Prop where
  others : sus.whoConfirmed ⊆ heard.erase sus.accusation.from_
  count : sus.confirmCount.toNat = sus.whoConfirmed.card
  short : sus.confirmCount < sus.needConfirm ∨ sus.whoConfirmed = ∅

theorem polled_new (env : Env) (nodeNum : UInt32) (s : NodeState) (heard : Finset String) :
    Polled (Suspicion.new env nodeNum s) heard where
  others := Finset.empty_subset _
  count := rfl
  short := Or.inr rfl

variable {sus : Suspicion} {heard heard' : Finset String}

theorem Polled.mono (h : Polled sus heard) (hsub : heard ⊆ heard') : Polled sus heard' where
  others := h.others.trans (Finset.erase_subset_erase _ hsub)
  count := h.count
  short := h.short

theorem Suspicion.confirm_of_mem {sender : String} (h : sender ∈ sus.whoConfirmed) :
    sus.confirm sender = (decide (sus.confirmCount ≥ sus.needConfirm), sus) := by
  simp [Suspicion.confirm, h]

theorem Suspicion.confirm_of_notMem {sender : String} (h : sender ∉ sus.whoConfirmed) :
    sus.confirm sender =
      (decide (sus.confirmCount + 1 ≥ sus.needConfirm),
        { sus with
          whoConfirmed := insert sender sus.whoConfirmed
          confirmCount := sus.confirmCount + 1 }) := by
  simp [Suspicion.confirm, h]

/-- The count of an open suspicion does not wrap when one is added. -/
theorem Polled.count_succ (h : Polled sus heard) :
    (sus.confirmCount + 1).toNat = sus.whoConfirmed.card + 1 := by
  have hlt : sus.confirmCount.toNat + 1 < UInt32.size := by
    rcases h.short with hshort | hempty
    · have hneed := sus.needConfirm.toNat_lt_size
      have hlt := UInt32.lt_iff_toNat_lt.1 hshort
      omega
    · rw [h.count, hempty]
      decide
  rw [UInt32.toNat_add, h.count.symm]
  exact Nat.mod_eq_of_lt hlt

theorem Polled.insert_subset (h : Polled sus heard) {sender : String}
    (hother : sender ≠ sus.accusation.from_) (hheard : sender ∈ heard) :
    insert sender sus.whoConfirmed ⊆ heard.erase sus.accusation.from_ :=
  Finset.insert_subset (Finset.mem_erase.2 ⟨hother, hheard⟩) h.others

theorem Polled.confirm (h : Polled sus heard) {sender : String}
    (hother : sender ≠ sus.accusation.from_) (hheard : sender ∈ heard)
    (hquorum : (sus.confirm sender).1 = false) : Polled (sus.confirm sender).2 heard := by
  by_cases hmem : sender ∈ sus.whoConfirmed
  · rw [Suspicion.confirm_of_mem hmem]
    exact h
  · rw [Suspicion.confirm_of_notMem hmem] at hquorum ⊢
    refine ⟨h.insert_subset hother hheard, ?_, Or.inl ?_⟩
    · rw [Finset.card_insert_of_notMem hmem]
      exact h.count_succ
    · exact UInt32.not_le.mp (of_decide_eq_false hquorum)

/-- An accuser who completes the quorum is one of as many as it takes. -/
theorem Polled.quorum (h : Polled sus heard) {sender : String}
    (hother : sender ≠ sus.accusation.from_) (hheard : sender ∈ heard)
    (hquorum : (sus.confirm sender).1 = true) :
    sus.needConfirm.toNat ≤ (heard.erase sus.accusation.from_).card := by
  by_cases hmem : sender ∈ sus.whoConfirmed
  · rw [Suspicion.confirm_of_mem hmem] at hquorum
    rcases h.short with hshort | hempty
    · exact absurd (of_decide_eq_true hquorum) (UInt32.not_le.mpr hshort)
    · rw [hempty] at hmem
      exact absurd hmem (Finset.notMem_empty _)
  · rw [Suspicion.confirm_of_notMem hmem] at hquorum
    calc sus.needConfirm.toNat ≤ (sus.confirmCount + 1).toNat :=
          UInt32.le_iff_toNat_le.1 (of_decide_eq_true hquorum)
      _ = (insert sender sus.whoConfirmed).card := by
          rw [h.count_succ, Finset.card_insert_of_notMem hmem]
      _ ≤ (heard.erase sus.accusation.from_).card :=
          Finset.card_le_card (h.insert_subset hother hheard)

namespace Gossiper

variable {env : Env} {g : Gossiper}

/-- The event does not count in an open suspicion the accuser who opened it, nor
a timeout of the node's own. -/
def CountsOthers (g : Gossiper) : Event → Prop
  | .message m _ =>
      m.state = .suspect → g.Heeds m →
        ∀ sus ∈ g.suspicions.lookup m.name, m.from_ ≠ sus.accusation.from_
  | .probeTimeout s => g.Heeds s → g.suspicions.lookup s.name = none
  | _ => True

instance CountsOthers.decidable (g : Gossiper) : ∀ e, Decidable (g.CountsOthers e)
  | .message m _ =>
      inferInstanceAs (Decidable (_ → _ → ∀ sus ∈ g.suspicions.lookup m.name, _))
  | .probeTimeout _ => inferInstanceAs (Decidable (_ → _))
  | .registerNotifier _ _ | .join | .probe _ | .deadAlert _ _ _ | .conviction _ | .batch _ _ =>
      inferInstanceAs (Decidable True)

theorem CountsOthers.accuser {e : Event} {s : NodeState} {sus : Suspicion} (h : g.CountsOthers e)
    (hnews : s ∈ suspectNews e) (hheeds : g.Heeds s)
    (hsus : g.suspicions.lookup s.name = some sus) (es : List Event) :
    s.from_ ≠ sus.accusation.from_ ∧ s.from_ ∈ accusers s.name (es ++ [e]) := by
  cases e with
  | message m needBc =>
      simp only [suspectNews] at hnews
      split at hnews
      case isTrue hm =>
        cases hnews
        exact ⟨h hm hheeds sus hsus, mem_accusers_message hm es⟩
      case isFalse => cases hnews
  | probeTimeout t =>
      cases hnews
      cases (h hheeds).symm.trans hsus
  | registerNotifier join leave => cases hnews
  | join => cases hnews
  | probe cursor => cases hnews
  | deadAlert name state dominant => cases hnews
  | conviction t => cases hnews
  | batch n applied => cases hnews

/-- A suspicion of `x` was opened by the accusation `s` in the run of `es`, one has
been open since, and the events since meet `P`. -/
def OpenedIn (env : Env) (es : List Event) (x : String) (s : NodeState)
    (P : List Event → Prop) : Prop :=
  ∃ es₁ e₁ es₂, es = es₁ ++ e₁ :: es₂ ∧ (run (Gossiper.step env) fresh es₁).Opens env s e₁ ∧
    Throughout (Gossiper.step env) (fun g => x ∈ g.suspicions)
      ((run (Gossiper.step env) fresh es₁).step env e₁) es₂ ∧ P es₂

theorem OpenedIn.extend {es : List Event} {x : String} {s : NodeState} {P Q : List Event → Prop}
    (h : OpenedIn env es x s P) (e : Event)
    (hopen : x ∈ ((run (Gossiper.step env) fresh es).step env e).suspicions)
    (hPQ : ∀ es₂, P es₂ → Q (es₂ ++ [e])) : OpenedIn env (es ++ [e]) x s Q := by
  obtain ⟨es₁, e₁, es₂, rfl, hopens, hsince, hP⟩ := h
  rw [run_append, run_cons] at hopen
  exact ⟨es₁, e₁, es₂ ++ [e], by simp, hopens,
    (throughout_append_singleton _ _ _ _).2 ⟨hsince, hopen⟩, hPQ es₂ hP⟩

/-- Where only other accusers are counted, an open suspicion has counted accusers
heard since it was opened. -/
theorem polled_run {es : List Event} (hv : Valid env fresh es)
    (hothers : Along (Gossiper.step env) CountsOthers fresh es) {x : String} {sus : Suspicion}
    (hsus : (run (Gossiper.step env) fresh es).suspicions.lookup x = some sus) :
    OpenedIn env es x sus.accusation fun es₂ => Polled sus (accusers x es₂) := by
  induction es using List.reverseRecOn generalizing x sus with
  | nil => simp [fresh] at hsus
  | append_singleton es e ih =>
      obtain ⟨hvalid, he⟩ := (along_append_singleton _ _ _ _).1 hv
      obtain ⟨hcounted, hcounts⟩ := (along_append_singleton _ _ _ _).1 hothers
      rw [run_append_singleton] at hsus
      have hopen : x ∈ ((run (Gossiper.step env) fresh es).step env e).suspicions :=
        AList.lookup_isSome.1 (Option.isSome_iff_exists.2 ⟨sus, hsus⟩)
      have hcases := watched_step (tabled_run hvalid) (grounded_run hvalid) he x
      generalize hafter : ((run (Gossiper.step env) fresh es).step env e).suspicions.lookup x = o
        at hcases hsus
      cases hcases with
      | kept =>
          refine (ih hvalid hcounted hsus).extend e hopen fun es₂ hpolled => ?_
          rw [accusers_append]
          exact hpolled.mono Finset.subset_union_left
      | cleared => cases hsus
      | counted s old hnews hname hheeds hold hquorum =>
          cases hsus
          subst hname
          rw [Suspicion.confirm_accusation]
          refine (ih hvalid hcounted hold).extend e hopen fun es₂ hpolled => ?_
          obtain ⟨hother, hheard⟩ := hcounts.accuser hnews hheeds hold es₂
          rw [accusers_append] at hheard ⊢
          exact (hpolled.mono Finset.subset_union_left).confirm hother hheard hquorum
      | opened s hnews hname hnone hopens =>
          cases hsus
          exact ⟨es, e, [], rfl, hopens, hopen, polled_new _ _ _ _⟩

/-- If the event makes `Confirm` convict a suspicion, then since it was opened as
many different accusers as it takes, and at least one, were heard in SUSPECT
messages, not counting the one who opened it. -/
def RealQuorum (env : Env) (es : List Event) (e : Event) : Prop :=
  ∀ m ∈ suspectNews e, ∀ sus ∈ (run (Gossiper.step env) fresh es).suspicions.lookup m.name,
    (run (Gossiper.step env) fresh es).Heeds m → (sus.confirm m.from_).1 = true →
      OpenedIn env es m.name sus.accusation fun es₂ =>
        let others := (accusers m.name (es₂ ++ [e])).erase sus.accusation.from_
        sus.needConfirm.toNat ≤ others.card ∧ others.Nonempty

/-- In a run that counts neither the first accuser nor a timeout of the node's own
every quorum is one of different accusers. -/
theorem realQuorum_of_countsOthers (env : Env) (es : List Event) (e : Event)
    (hv : Valid env fresh (es ++ [e]))
    (hothers : Along (Gossiper.step env) CountsOthers fresh (es ++ [e])) : RealQuorum env es e := by
  obtain ⟨hvalid, _⟩ := (along_append_singleton _ _ _ _).1 hv
  obtain ⟨hcounted, hcounts⟩ := (along_append_singleton _ _ _ _).1 hothers
  intro m hnews sus hsus hheeds hquorum
  obtain ⟨es₁, e₁, es₂, rfl, hopens, hsince, hpolled⟩ := polled_run hvalid hcounted hsus
  obtain ⟨hother, hheard⟩ := hcounts.accuser hnews hheeds hsus es₂
  refine ⟨es₁, e₁, es₂, rfl, hopens, hsince, ?_, ⟨m.from_, Finset.mem_erase.2 ⟨hother, hheard⟩⟩⟩
  rw [accusers_append] at hheard ⊢
  exact (hpolled.mono Finset.subset_union_left).quorum hother hheard hquorum

/-- Two accusers follow the first in a cluster of four. -/
theorem realQuorum_of_accusers :
    RealQuorum sampleEnv
      [.join, .message (news "b:1" 1 .alive "b:1") true, .message (news "c:1" 1 .alive "c:1") true,
        .message (news "d:1" 1 .alive "d:1") true, .message (news "b:1" 1 .suspect "c:1") true,
        .message (news "b:1" 1 .suspect "d:1") true]
      (.message (news "b:1" 1 .suspect "e:1") true) :=
  realQuorum_of_countsOthers sampleEnv _ _ (by decide) (by decide)

/-- The SUSPECT message that opened a suspicion of `b:1` is delivered again. -/
theorem not_realQuorum_of_suspect_again :
    let es : List Event :=
      [.join, .message (news "b:1" 1 .alive "b:1") true,
        .message (news "b:1" 1 .suspect "c:1") true]
    let e : Event := .message (news "b:1" 1 .suspect "c:1") true
    Valid sampleEnv fresh (es ++ [e]) ∧
      (run (Gossiper.step sampleEnv) fresh es).TurnsDead sampleEnv "b:1" e ∧
      ¬ RealQuorum sampleEnv es e := by
  refine ⟨by decide, by decide, ?_⟩
  intro h
  obtain ⟨es₁, e₁, es₂, hsplit, _, _, _, sender, hsender⟩ :=
    h (news "b:1" 1 .suspect "c:1") rfl _ rfl (by decide) (by decide)
  obtain ⟨hother, hheard⟩ := Finset.mem_erase.1 hsender
  have hall := accusers_subset_of_split hsplit _ hheard
  exact hother (by simpa [accusers, news] using hall)

end Gossiper

end CppGossip
