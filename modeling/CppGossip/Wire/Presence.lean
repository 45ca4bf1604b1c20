import CppGossip.Gossiper.Contents
import CppGossip.Wire.Packet

/-!
# Fields that are not there

Every field of the schema's tables may be left out, and the accessors of the
fields that a handler needs are chained without a test. `Completes` is the
result of a handler that has followed no absent field and thrown nothing.
`handled_iff` gives, for each of the four handlers, the tables it completes on
and merges as it should, the records that lack a field passed over: those that
lack none of the fields that it reads, as far as the objects that it reads when
they are gone are found as they were left.
-/

namespace CppGossip

open Bytes Collection Message Transition

namespace Message

/-- The fields that `convert` reads are there. -/
def NodeState.Present (ns : NodeState) : Prop :=
  (∃ node ∈ ns.node, node.name.isSome ∧ node.ip.isSome) ∧ ns.from_.isSome

instance (ns : NodeState) : Decidable ns.Present :=
  inferInstanceAs (Decidable ((∃ node ∈ ns.node, _) ∧ _))

/-- There is a list, and its records have the fields that are read. -/
def NodeStates.Present (states : NodeStates) : Prop :=
  ∃ nodes ∈ states.nodes, ∀ ns ∈ nodes, ns.Present

instance (states : NodeStates) : Decidable states.Present :=
  inferInstanceAs (Decidable (∃ nodes ∈ states.nodes, _))

/-- The records that can be read. -/
def NodeStates.readable (states : NodeStates) : List CppGossip.NodeState :=
  (states.nodes.getD []).filterMap convert

theorem isSome_convert_iff {ns : NodeState} : (convert ns).isSome ↔ ns.Present := by
  cases ns with
  | mk node state dominant sender timeStamp =>
      cases node with
      | none => simp [convert, NodeState.Present]
      | some node =>
          cases node with
          | mk name ip port =>
              cases name with
              | none => simp [convert, NodeState.Present]
              | some name =>
                  cases ip with
                  | none => simp [convert, NodeState.Present]
                  | some ip =>
                      cases sender with
                      | none => simp [convert, NodeState.Present]
                      | some sender => simp [convert, NodeState.Present]

/-- A list is read whole when its records have the fields that are read. -/
theorem mapM_convert_iff {nss : List NodeState} :
    nss.mapM convert = some (nss.filterMap convert) ↔ ∀ ns ∈ nss, ns.Present := by
  simp only [← isSome_convert_iff]
  rw [← isSome_mapM_iff]
  constructor
  · intro h
    rw [h]
    rfl
  · intro h
    obtain ⟨states, hstates⟩ := Option.isSome_iff_exists.1 h
    rw [hstates, filterMap_eq_of_mapM hstates]

end Message

/-! ## Results without a fault -/

/-- No absent field is followed and nothing thrown. -/
def Completes {α : Type} (x : Result α) : Prop := ∀ e, x = .error e → e = .bufferTooLarge

section Results

variable {α β : Type} {x : Result α} {f : α → Result β}

theorem completes_ok (a : α) : Completes (.ok a) := fun e he => by cases he

theorem completes_error_iff {e : Fault} :
    Completes (.error e : Result α) ↔ e = .bufferTooLarge := by
  constructor
  · intro h
    exact h e rfl
  · rintro rfl e he
    cases he
    rfl

theorem completes_bind_iff :
    Completes (x >>= f) ↔ Completes x ∧ ∀ a, x = .ok a → Completes (f a) := by
  cases x with
  | error e =>
      have herror : (Except.error e : Result α) >>= f = .error e := rfl
      rw [herror, completes_error_iff, completes_error_iff]
      simp
  | ok a => simp [completes_ok]

theorem completes_orFault_iff {e : Fault} (he : e ≠ .bufferTooLarge) {o : Option α} :
    Completes (orFault e o) ↔ o.isSome := by
  cases o with
  | none => simp [completes_error_iff, he]
  | some a => simp [completes_ok]

theorem completes_orFault_absentField_iff {o : Option α} :
    Completes (orFault .absentField o) ↔ o.isSome := completes_orFault_iff (by decide)

theorem completes_orFault_bufferTooLarge (o : Option α) : Completes (orFault .bufferTooLarge o) := by
  cases o with
  | none => exact completes_error_iff.2 rfl
  | some a => exact completes_ok a

end Results

namespace Gossiper

variable {fb : FlatBuffers} {env : Env} {order : List NodeState → List NodeState} {d : Destroyed}
  {g : Gossiper}

/-! ## Lists -/

/-- A list is merged, but for the records that lack a field. -/
def HandlesStates (d : Destroyed) (env : Env) (needBc : Bool) (nss : List Message.NodeState)
    (g : Gossiper) : Prop :=
  d.copies 0 nss = .ok (nss.filterMap convert) ∧
    mergeCopies d env needBc 0 nss g = .ok (g.merge env needBc (nss.filterMap convert))

/-- A list is copied, but for the records that lack a field, when none does and each
is found as it was left. -/
theorem copies_eq_readable_iff {k : ℕ} {nss : List Message.NodeState} :
    d.copies k nss = .ok (nss.filterMap convert) ↔
      (∀ ns ∈ nss, ns.Present) ∧ d.Keeps k (nss.filterMap convert) := by
  rw [← mapM_convert_iff]
  constructor
  · intro h
    obtain ⟨held, hheld⟩ := Destroyed.exists_read_of_copies h
    rw [filterMap_eq_of_mapM hheld] at h ⊢
    exact ⟨hheld, (Destroyed.copies_eq_ok_iff_keeps hheld).1 h⟩
  · rintro ⟨hread, hkeeps⟩
    exact (Destroyed.copies_eq_ok_iff_keeps hread).2 hkeeps

theorem handlesStates_iff {nss : List Message.NodeState} {needBc : Bool} :
    HandlesStates d env needBc nss g ↔
      (∀ ns ∈ nss, ns.Present) ∧ d.Keeps 0 (nss.filterMap convert) := by
  rw [← copies_eq_readable_iff, HandlesStates]
  refine and_iff_left_of_imp fun hcopies => ?_
  rw [mergeCopies_eq, hcopies]
  rfl

theorem copiesSection_eq_readable_iff {states : NodeStates} :
    copiesSection d states = .ok states.readable ↔ states.Present ∧ d.Keeps 0 states.readable := by
  unfold copiesSection NodeStates.readable NodeStates.Present
  cases states.nodes with
  | none => simp [bind, Except.bind]
  | some nodes =>
      rw [orFault_some, Result.ok_bind, Option.getD_some, copies_eq_readable_iff]
      simp

theorem mergeSection_of_keeps {states : NodeStates} {needBc : Bool} (h : states.Present)
    (hkeeps : d.Keeps 0 states.readable) :
    mergeSection d env needBc states g = .ok (g.merge env needBc states.readable) := by
  rw [mergeSection_eq, copiesSection_eq_readable_iff.2 ⟨h, hkeeps⟩]
  rfl

/-- What is copied of a table are the records that can be read. -/
theorem readable_of_copiesSection (d : Remains) {states : NodeStates} {copied : List NodeState}
    (h : copiesSection d.toDestroyed states = .ok copied) : states.readable = copied := by
  obtain ⟨nodes, hnodes, hcopies⟩ := Result.bind_eq_ok_iff.1 h
  rw [NodeStates.readable, orFault_eq_ok_iff.1 hnodes, Option.getD_some]
  exact d.filterMap_convert_of_copies hcopies

/-- A merge that returns has merged the records as they were read. -/
theorem merge_of_mergeSection {d : Remains} {states : NodeStates} {needBc : Bool} {g' : Gossiper}
    (h : mergeSection d.toDestroyed env needBc states g = .ok g') :
    g' = g.merge env needBc states.readable := by
  rw [mergeSection_eq, Result.map_eq_ok_iff] at h
  obtain ⟨copied, hcopies, rfl⟩ := h
  rw [readable_of_copiesSection d hcopies]

/-! ## Handlers -/

/-- Every record can be sent. -/
def Sendable (g : Gossiper) : Prop := Every NodeState.DecimalPort g

theorem decimalPort_passed (env : Env) : NodeState.Passed env NodeState.DecimalPort where
  own _ := ⟨env.conf.port, rfl⟩
  stamped _ h := h
  killed _ h := h

/-- What a received table stands for has the text of its number for a port. -/
theorem decimalPort_of_convert {ns : Message.NodeState} {m : NodeState} (h : convert ns = some m) :
    m.DecimalPort := by
  simp only [convert, Option.bind_eq_bind, Option.bind_eq_some_iff, Option.pure_def,
    Option.some.injEq] at h
  obtain ⟨node, _, name, _, ip, _, sender, _, rfl⟩ := h
  exact ⟨node.port, rfl⟩

/-- The messages that come are read off the wire. -/
def Received (es : List Event) : Prop :=
  ∀ m needBc, .message m needBc ∈ es → ∃ ns, convert ns = some m

theorem sendable_run {es : List Event} (hv : Valid env fresh es) (hes : Received es) :
    Sendable (run (step env) fresh es) := by
  refine (every_fresh _).run (decimalPort_passed env) hv fun m needBc hm => ?_
  obtain ⟨ns, hns⟩ := hes m needBc hm
  exact decimalPort_of_convert hns

theorem Sendable.merge (h : Sendable g) (needBc : Bool) (nss : List Message.NodeState) :
    Sendable (g.merge env needBc (nss.filterMap convert)) := by
  refine h.run (decimalPort_passed env) (valid_map_message needBc _) fun m needBc' hm => ?_
  obtain ⟨state, hstate, heq⟩ := List.mem_map.1 hm
  cases heq
  obtain ⟨ns, _, hns⟩ := List.mem_filterMap.1 hstate
  exact decimalPort_of_convert hns

theorem completes_appendDeadAlert {node : NodeState} (h : node.DecimalPort) (room : Int) :
    Completes (appendDeadAlert fb node room) := by
  obtain ⟨ns, hns⟩ := exists_encode_of_decimalPort h
  rw [appendDeadAlert, hns, orFault_some, Result.ok_bind, completes_bind_iff]
  refine ⟨completes_orFault_bufferTooLarge _, fun body _ => ?_⟩
  split
  · exact completes_ok _
  · exact completes_ok _

theorem completes_answerPing {ns : Option NodeState} (h : ∀ node ∈ ns, node.DecimalPort)
    (seqNo : UInt64) (respBuff : List UInt8) (respSize : ℕ) :
    Completes (answerPing fb seqNo ns respBuff respSize) := by
  rw [answerPing, completes_bind_iff]
  refine ⟨completes_orFault_bufferTooLarge _, fun pong _ => ?_⟩
  dsimp only
  split
  case isTrue => exact completes_ok _
  case isFalse =>
    cases ns with
    | none => exact completes_ok _
    | some node =>
      dsimp only
      split
      case isTrue =>
        rw [completes_bind_iff]
        exact ⟨completes_appendDeadAlert (h node rfl) _, fun _ _ => completes_ok _⟩
      case isFalse => exact completes_ok _

/-- What is left of the merge when the records that lack a field are passed over. -/
def mergeReadable (env : Env) (states : Option NodeStates) (g : Gossiper) : Gossiper :=
  g.merge env true (states.elim [] NodeStates.readable)

theorem copiesRead_eq_readable_iff {states : Option NodeStates} :
    copiesRead d states = .ok (states.elim [] NodeStates.readable) ↔
      ∀ t ∈ states, t.Present ∧ d.Keeps 0 t.readable := by
  cases states with
  | none => simp [copiesRead]
  | some states =>
      rw [copiesRead, Option.elim_some, Option.elim_some, copiesSection_eq_readable_iff]
      simp

theorem mergeRead_of_keeps {states : Option NodeStates}
    (h : ∀ t ∈ states, t.Present ∧ d.Keeps 0 t.readable) :
    mergeRead env d states g = .ok (mergeReadable env states g) := by
  rw [mergeRead_eq, copiesRead_eq_readable_iff.2 h]
  rfl

/-- A datagram is handled, and the gossip of a ping merged but for the records
that lack a field. -/
def HandlesPacket (fb : FlatBuffers) (env : Env) (d : Destroyed) (buff : List UInt8) (size : ℕ)
    (respBuff : List UInt8) (respSize : ℕ) (g : Gossiper) : Prop :=
  Completes (handlePacket fb env d buff size respBuff respSize g) ∧
    ((decodeHeader buff).type = typePing → copiesRead d (gossipRead fb buff size) =
      .ok ((gossipRead fb buff size).elim [] NodeStates.readable)) ∧
    ∀ r resp g', handlePacket fb env d buff size respBuff respSize g = .ok (r, resp, g') →
      g' = if (decodeHeader buff).type = typePing then mergeReadable env (gossipRead fb buff size) g
        else g

theorem handlesPacket_iff (h : Sendable g) {buff respBuff : List UInt8} {size respSize : ℕ} :
    HandlesPacket fb env d buff size respBuff respSize g ↔
      ((decodeHeader buff).type = typePing →
        (fb.ping.getRoot (buff.drop 8)).from_.isSome ∧
          ∀ states ∈ gossipRead fb buff size, states.Present ∧ d.Keeps 0 states.readable) := by
  by_cases htype : (decodeHeader buff).type = typePing
  · simp only [HandlesPacket, handlePacket_of_ping htype, htype, if_true, true_implies,
      copiesRead_eq_readable_iff]
    constructor
    · rintro ⟨hcompletes, hkeeps, -⟩
      rw [completes_bind_iff, completes_orFault_absentField_iff] at hcompletes
      exact ⟨hcompletes.1, hkeeps⟩
    · rintro ⟨hsome, hkeeps⟩
      obtain ⟨sender, hsender⟩ := Option.isSome_iff_exists.1 hsome
      rw [hsender, orFault_some, Result.ok_bind, mergeRead_of_keeps hkeeps, Result.ok_bind,
        completes_bind_iff]
      refine ⟨⟨completes_answerPing (fun node hnode => h.recorded _ node hnode) _ _ _,
        fun _ _ => completes_ok _⟩, hkeeps, fun r resp g' hok => ?_⟩
      obtain ⟨answer, _, heq⟩ := Result.bind_eq_ok_iff.1 hok
      cases heq
      rfl
  · have hcall : handlePacket fb env d buff size respBuff respSize g = .ok (0, respBuff, g) :=
      if_neg htype
    simp only [HandlesPacket, hcall, htype, if_false, false_implies, true_and, iff_true]
    refine ⟨completes_ok _, fun r resp g' hok => ?_⟩
    cases hok
    rfl

theorem completes_encodeLocalState (h : Sendable g) (horder : ∀ l, (order l).Perm l) :
    Completes (encodeLocalState fb order g) := by
  obtain ⟨nss, hnss⟩ := Outbox.exists_mapM_encode fun m hm => by
    obtain ⟨x, hx⟩ := exists_lookup_of_mem_localState ((horder _).mem_iff.1 hm)
    exact h.recorded x m hx
  rw [encodeLocalState, hnss, orFault_some, Result.ok_bind]
  exact completes_orFault_bufferTooLarge _

/-- A frame is handled, and a table merged but for the records that lack a field. -/
def HandlesBody (fb : FlatBuffers) (env : Env) (order : List NodeState → List NodeState)
    (d : Destroyed) (locals : Locals) (type : UInt32) (buff respBuff : List UInt8)
    (respSize : UInt64) (g : Gossiper) : Prop :=
  Completes (handleBody fb env order d locals type buff respBuff respSize g) ∧
    (type = typeSyncState → copiesSection d (fb.nodeStates.getRoot buff) =
      .ok (fb.nodeStates.getRoot buff).readable) ∧
    ∀ n resp g',
      handleBody fb env order d locals type buff respBuff respSize g = .ok (n, resp, g') →
      g' = if type = typeSyncState then mergeReadable env (some (fb.nodeStates.getRoot buff)) g
        else g

/-- An answer that is copied can be. -/
def Locals.Copyable (respSize : UInt64) (locals : Locals) : Prop :=
  locals.result ≤ respSize → locals.body.isSome

/-- The answer to a request can be copied, unless it is larger than the buffer: a pong,
the table with the one received merged, or else what the variables hold. -/
structure Answerable (fb : FlatBuffers) (env : Env) (order : List NodeState → List NodeState)
    (d : Destroyed) (locals : Locals) (type : UInt32) (buff : List UInt8) (respSize : UInt64)
    (g : Gossiper) : Prop where
  pong : type = typePing →
    ∀ pong, fb.pong.finish { seqNo := (fb.ping.getRoot buff).seqNo } = some pong →
      (Locals.ofBuffer d typePong pong).Copyable respSize
  table : type = typeSyncState →
    ∀ body, encodeLocalState fb order
        (mergeReadable env (some (fb.nodeStates.getRoot buff)) g) = .ok body →
      (Locals.ofBuffer d typeSyncState body).Copyable respSize
  other : type ≠ typePing → type ≠ typeSyncState → locals.Copyable respSize

/-- Past its `switch` a frame needs no field, but the answer. -/
theorem completes_handleBody_iff {locals : Locals} {type : UInt32} {buff respBuff : List UInt8}
    {respSize : UInt64} :
    Completes (handleBody fb env order d locals type buff respBuff respSize g) ↔
      Completes (answerBody fb env order d locals type buff g) ∧
        ∀ a g', answerBody fb env order d locals type buff g = .ok (a, g') →
          a.Copyable respSize := by
  rw [handleBody, completes_bind_iff, Prod.forall]
  refine and_congr_right fun _ => forall₃_congr fun a g' _ => ?_
  dsimp only
  by_cases hlarge : a.result > respSize
  · rw [if_pos hlarge]
    exact iff_of_true (completes_ok _) fun hle => absurd hle (UInt64.not_le.2 hlarge)
  · rw [if_neg hlarge, completes_bind_iff, completes_orFault_iff (by decide), Locals.Copyable]
    have hle : a.result ≤ respSize := UInt64.not_lt.1 hlarge
    simp [hle, completes_ok]

/-- The table that a call of `handleBody` leaves is the one its `switch` leaves. -/
theorem answerBody_of_handleBody {locals : Locals} {type : UInt32} {buff respBuff resp : List UInt8}
    {respSize n : UInt64} {g' : Gossiper}
    (hok : handleBody fb env order d locals type buff respBuff respSize g = .ok (n, resp, g')) :
    ∃ answer, answerBody fb env order d locals type buff g = .ok (answer, g') := by
  rw [handleBody, Result.bind_eq_ok_iff] at hok
  obtain ⟨⟨answer, merged⟩, hanswer, hrest⟩ := hok
  dsimp only at hrest
  split at hrest
  · cases hrest
    exact ⟨answer, hanswer⟩
  · obtain ⟨mem, _, heq⟩ := Result.bind_eq_ok_iff.1 hrest
    cases heq
    exact ⟨answer, hanswer⟩

/-- Any other request is answered, and leaves the table alone. -/
theorem answerBody_of_ne_syncState {locals : Locals} {type : UInt32} {buff : List UInt8}
    (hsync : type ≠ typeSyncState) :
    Completes (answerBody fb env order d locals type buff g) ∧
      ∀ answer g', answerBody fb env order d locals type buff g = .ok (answer, g') → g' = g := by
  rw [answerBody]
  by_cases hping : type = typePing
  · rw [if_pos hping, completes_bind_iff]
    refine ⟨⟨completes_orFault_bufferTooLarge _, fun _ _ => completes_ok _⟩, ?_⟩
    intro answer g' hanswer
    obtain ⟨pong, _, heq⟩ := Result.bind_eq_ok_iff.1 hanswer
    cases heq
    rfl
  · rw [if_neg hping, if_neg hsync]
    refine ⟨completes_ok _, fun answer g' hanswer => ?_⟩
    cases hanswer
    rfl

/-- A table that has been copied is merged and answered. -/
theorem answerBody_of_keeps (h : Sendable g) (horder : ∀ l, (order l).Perm l) {locals : Locals}
    {buff : List UInt8} (hpresent : (fb.nodeStates.getRoot buff).Present)
    (hkeeps : d.Keeps 0 (fb.nodeStates.getRoot buff).readable) :
    Completes (answerBody fb env order d locals typeSyncState buff g) ∧
      ∀ answer g', answerBody fb env order d locals typeSyncState buff g = .ok (answer, g') →
        g' = mergeReadable env (some (fb.nodeStates.getRoot buff)) g := by
  have hmerge : mergeSection d env true (fb.nodeStates.getRoot buff) g =
      .ok (mergeReadable env (some (fb.nodeStates.getRoot buff)) g) :=
    mergeSection_of_keeps hpresent hkeeps
  have hmerged : Sendable (mergeReadable env (some (fb.nodeStates.getRoot buff)) g) :=
    h.merge true _
  rw [answerBody_of_syncState, hmerge, Result.ok_bind]
  constructor
  · rw [completes_bind_iff]
    exact ⟨completes_encodeLocalState hmerged horder, fun _ _ => completes_ok _⟩
  · intro answer g' hanswer
    obtain ⟨body, _, heq⟩ := Result.bind_eq_ok_iff.1 hanswer
    cases heq
    rfl

/-- The answer of the `switch` is the answer to the request. -/
theorem copyable_answer_iff {locals : Locals} {type : UInt32} {buff : List UInt8}
    {respSize : UInt64}
    (hread : type = typeSyncState → (fb.nodeStates.getRoot buff).Present ∧
      d.Keeps 0 (fb.nodeStates.getRoot buff).readable) :
    (∀ a g', answerBody fb env order d locals type buff g = .ok (a, g') → a.Copyable respSize) ↔
      Answerable fb env order d locals type buff respSize g := by
  by_cases hping : type = typePing
  · subst hping
    have hanswer : answerBody fb env order d locals typePing buff g = _ := if_pos rfl
    rw [hanswer]
    constructor
    · intro h
      refine ⟨fun _ pong hpong => h _ g ?_, fun hsync => absurd hsync (by decide),
        fun hne => absurd rfl hne⟩
      exact Result.bind_eq_ok_iff.2 ⟨pong, orFault_eq_ok_iff.2 hpong, rfl⟩
    · intro h a g' hok
      obtain ⟨pong, hpong, heq⟩ := Result.bind_eq_ok_iff.1 hok
      cases heq
      exact h.pong rfl pong (orFault_eq_ok_iff.1 hpong)
  · by_cases hsync : type = typeSyncState
    · subst hsync
      obtain ⟨hpresent, hkeeps⟩ := hread rfl
      rw [answerBody_of_syncState, mergeSection_of_keeps hpresent hkeeps, Result.ok_bind]
      constructor
      · intro h
        refine ⟨fun htype => absurd htype hping, fun _ body hbody => ?_,
          fun _ hne => absurd rfl hne⟩
        exact h _ _ (Result.bind_eq_ok_iff.2 ⟨body, hbody, rfl⟩)
      · intro h a g' hok
        obtain ⟨body, hbody, heq⟩ := Result.bind_eq_ok_iff.1 hok
        cases heq
        exact h.table rfl body hbody
    · rw [answerBody, if_neg hping, if_neg hsync]
      constructor
      · exact fun h => ⟨fun htype => absurd htype hping, fun htype => absurd htype hsync,
          fun _ _ => h locals g rfl⟩
      · intro h a g' hok
        cases hok
        exact h.other hping hsync

theorem handlesBody_iff (h : Sendable g) (horder : ∀ l, (order l).Perm l) {locals : Locals}
    {type : UInt32} {buff respBuff : List UInt8} {respSize : UInt64} :
    HandlesBody fb env order d locals type buff respBuff respSize g ↔
      (type = typeSyncState → (fb.nodeStates.getRoot buff).Present ∧
        d.Keeps 0 (fb.nodeStates.getRoot buff).readable) ∧
      Answerable fb env order d locals type buff respSize g := by
  rw [HandlesBody, completes_handleBody_iff, copiesSection_eq_readable_iff]
  constructor
  · rintro ⟨⟨-, hcopyable⟩, hkeeps, -⟩
    exact ⟨hkeeps, (copyable_answer_iff hkeeps).1 hcopyable⟩
  · rintro ⟨hkeeps, hanswerable⟩
    have hcopyable := (copyable_answer_iff hkeeps).2 hanswerable
    have hanswers : Completes (answerBody fb env order d locals type buff g) ∧
        ∀ a g', answerBody fb env order d locals type buff g = .ok (a, g') →
          g' = if type = typeSyncState then mergeReadable env (some (fb.nodeStates.getRoot buff)) g
            else g := by
      by_cases hsync : type = typeSyncState
      · subst hsync
        rw [if_pos rfl]
        exact answerBody_of_keeps h horder (hkeeps rfl).1 (hkeeps rfl).2
      · rw [if_neg hsync]
        exact answerBody_of_ne_syncState hsync
    refine ⟨⟨hanswers.1, hcopyable⟩, hkeeps, fun n resp g' hok => ?_⟩
    obtain ⟨answer, hanswer⟩ := answerBody_of_handleBody hok
    exact hanswers.2 answer g' hanswer

/-- The dead alert that the pong handler reads. -/
def alertRead (fb : FlatBuffers) (resp : List UInt8) (size : ℕ) : Option Message.NodeState :=
  (appendedAt (decodeHeader resp) size).map fun off => fb.nodeState.getRoot (resp.drop off)

theorem completes_handlePong_iff {resp : List UInt8} {size : ℕ} :
    Completes (handlePong fb env resp size g) ↔
      ((decodeHeader resp).type = typePong →
        ∀ alert ∈ alertRead fb resp size, ∃ node ∈ alert.node, node.name.isSome) := by
  have hpong : Completes (handlePong fb env resp size g) ↔ Completes (readPong fb resp size) := by
    rw [handlePong, completes_bind_iff]
    refine and_iff_left fun pong _ => ?_
    split
    · exact completes_ok _
    · exact completes_ok _
  rw [hpong, readPong, alertRead]
  by_cases htype : (decodeHeader resp).type = typePong
  · rw [if_neg (not_not_intro htype)]
    cases appendedAt (decodeHeader resp) size with
    | none => simp [completes_ok]
    | some off =>
      simp only [htype, true_implies, Option.map_some, Option.mem_some_iff, forall_eq']
      rw [completes_bind_iff, completes_orFault_absentField_iff]
      constructor
      · rintro ⟨hsome, hrest⟩
        obtain ⟨node, hnode⟩ := Option.isSome_iff_exists.1 hsome
        have hname := hrest node (by rw [hnode, orFault_some])
        rw [completes_bind_iff, completes_orFault_absentField_iff] at hname
        exact ⟨node, hnode, hname.1⟩
      · rintro ⟨node, hnode, hname⟩
        have hsome : (fb.nodeState.getRoot (resp.drop off)).node = some node := hnode
        refine ⟨by rw [hsome]; rfl, fun node' hok => ?_⟩
        rw [hsome, orFault_some] at hok
        cases hok
        rw [completes_bind_iff, completes_orFault_absentField_iff]
        exact ⟨hname, fun _ _ => completes_ok _⟩
  · rw [if_pos htype]
    simp [completes_ok, htype]

/-! ## The four handlers -/

/-- In every reachable state the handlers handle the messages that have the
fields which are read of them, as long as what they read of objects that are gone is
what these held, and no others. -/
theorem handled_iff (fb : FlatBuffers) (env : Env) (order : List NodeState → List NodeState)
    (horder : ∀ l, (order l).Perm l) (es : List Event) (hv : Valid env fresh es)
    (hes : Received es) (d : Destroyed) :
    let g := run (step env) fresh es
    (∀ nss needBc,
      HandlesStates d env needBc nss g ↔
        (∀ ns ∈ nss, ns.Present) ∧ d.Keeps 0 (nss.filterMap convert)) ∧
    (∀ buff size respBuff respSize,
      HandlesPacket fb env d buff size respBuff respSize g ↔
        ((decodeHeader buff).type = typePing →
          (fb.ping.getRoot (buff.drop 8)).from_.isSome ∧
            ∀ states ∈ gossipRead fb buff size, states.Present ∧ d.Keeps 0 states.readable)) ∧
    (∀ locals type buff respBuff respSize,
      HandlesBody fb env order d locals type buff respBuff respSize g ↔
        (type = typeSyncState → (fb.nodeStates.getRoot buff).Present ∧
          d.Keeps 0 (fb.nodeStates.getRoot buff).readable) ∧
        Answerable fb env order d locals type buff respSize g) ∧
    ∀ resp size,
      Completes (handlePong fb env resp size g) ↔
        ((decodeHeader resp).type = typePong →
          ∀ alert ∈ alertRead fb resp size, ∃ node ∈ alert.node, node.name.isSome) := by
  have h : Sendable (run (step env) fresh es) := sendable_run hv hes
  refine ⟨fun nss needBc => handlesStates_iff, fun buff size respBuff respSize => ?_,
    fun locals type buff respBuff respSize => ?_, fun resp size => completes_handlePong_iff⟩
  · exact handlesPacket_iff h
  · exact handlesBody_iff h horder

/-- A ping without gossip, as it is received. -/
def pingBytes (ping : Message.Ping) : List UInt8 :=
  let body := (reference.ping.finish ping).getD []
  encodeHeader { type := typePing, bodyLength := UInt32.ofNat body.length } ++ body

/-- A node that has joined handles a ping that names its sender. -/
theorem handled_of_ping :
    HandlesPacket reference sampleEnv .intact (pingBytes ⟨7, some "b:1"⟩)
      (pingBytes ⟨7, some "b:1"⟩).length [] 1460 (run (step sampleEnv) fresh [.join]) :=
  ((handled_iff reference sampleEnv id (fun l => List.Perm.refl l) [.join] (by decide)
    (by simp [Received]) .intact).2.1 _ _ [] 1460).2 (by decide)

/-- A node that has joined does not handle a ping that does not, does not merge a list
in which a record lacks its node, and does not merge a list that lacks nothing when
it cannot read what it copies. -/
theorem not_handled_of_absent :
    ¬ HandlesPacket reference sampleEnv .intact (pingBytes ⟨7, none⟩) (pingBytes ⟨7, none⟩).length
        [] 1460 (run (step sampleEnv) fresh [.join]) ∧
      ¬ HandlesStates .intact sampleEnv true
        [⟨none, 0, 1, some "", 0⟩, ⟨some ⟨some "b:1", some "b", 1⟩, 0, 1, some "", 0⟩]
        (run (step sampleEnv) fresh [.join]) ∧
      ¬ HandlesStates .lost sampleEnv true
        [⟨some ⟨some "b:1", some "b", 1⟩, 0, 1, some "", 0⟩]
        (run (step sampleEnv) fresh [.join]) := by
  refine ⟨?_, ?_, ?_⟩
  · have h : Sendable (run (step sampleEnv) fresh [.join]) :=
      sendable_run (by decide) (by simp [Received])
    rw [handlesPacket_iff h]
    decide
  · rw [handlesStates_iff]
    decide
  · rw [handlesStates_iff]
    decide

end Gossiper

end CppGossip
