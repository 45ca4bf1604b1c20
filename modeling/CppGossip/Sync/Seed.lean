import CppGossip.Gossiper.Handlers
import CppGossip.Text.Address

/-!
# The seed that a node joins

`Join` is told an address and exchanges tables with the node there, unless it is
its own: the first node of a cluster joins itself. It compares the port as text
with the text of the configured one, which has 16 bits and a sign. A port above
32767 is negative there, and such a node does not know itself.
-/

namespace CppGossip

open Collection Text Message

namespace Gossiper

/-- `Join`, given that many turns of the loop of `Split`: the host and the port
with which `syncState` is called, if it is called, and the state before that. -/
def joinPeer (env : Env) (fuel : ℕ) (peer : String) (g : Gossiper) :
    Option (Option (String × String) × Gossiper) :=
  (split fuel peer ":").map fun
    | [host, port] =>
        (if host ≠ env.conf.addr ∨ toString env.conf.port ≠ port then some (host, port) else none,
          g.join env)
    | _ => (none, g)

/-- The address of a host and a port, with the port in decimal. -/
def address (host : String) (port : ℕ) : String := host ++ ":" ++ toString port

/-- A host and a port that a node may have. -/
structure Reachable (host : String) (port : ℕ) : Prop where
  host_ne : host ≠ ""
  colon : ':' ∉ host.toList
  pos : 1 ≤ port
  le : port ≤ 65535

/-- A gossiper configured with an address joins at it without calling anyone. -/
def JoinsItself (host : String) (port : ℕ) : Prop :=
  ∃ c, Config.Constructed (address host port) c ∧ ∀ env : Env, env.conf = c → ∀ g : Gossiper, ∃ fuel,
    g.joinPeer env fuel (address host port) = some (none, g.join env)

/-- A gossiper configured with the first address calls the one at the second. -/
def JoinsOther (host : String) (port : ℕ) (host' : String) (port' : ℕ) : Prop :=
  ∃ c, Config.Constructed (address host port) c ∧ ∀ env : Env, env.conf = c → ∀ g : Gossiper, ∃ fuel,
    g.joinPeer env fuel (address host' port') =
      some (some (host', toString port'), g.join env)

variable {env : Env} {host host' : String} {port port' : ℕ} {g : Gossiper} {fuel : ℕ}

theorem toList_toString (n : ℕ) : (toString n).toList = Nat.toDigits 10 n := by
  rw [Nat.toString_eq_repr, Nat.toList_repr]

theorem Reachable.ipPort (h : Reachable host port) :
    Config.IpPort (address host port) host (toString port) := by
  have hread := toList_toString port
  refine ⟨rfl, h.host_ne, h.colon, fun hempty => ?_, ?_, ?_⟩
  · rw [hempty] at hread
    exact Nat.toDigits_ne_nil hread.symm
  · rw [hread]
    exact isDigit_of_mem_toDigits port
  · rw [hread, decimal_toDigits]
    exact h.le

/-- The texts of the configured port and of another are the same when the port
is not negative and the other is the same. -/
theorem toString_eq_iff (h : Reachable host port) (h' : Reachable host' port') :
    toString (Int16.ofInt port) = toString port' ↔ port ≤ 32767 ∧ port = port' := by
  have hle := h.le
  have hle' := h'.le
  have hpos' := h'.pos
  have hint : toString (Int16.ofInt port) = toString port' ↔ (Int16.ofInt port).toInt = port' := by
    constructor
    · intro heq
      have hread := stoi_toString (Int16.ofInt port)
      rw [heq, stoi_toString_nat (by omega)] at hread
      exact (Option.some.inj hread).symm
    · intro heq
      show toString (Int16.ofInt port).toInt = toString port'
      rw [heq]
      rfl
  have hmod := Config.toInt_ofInt_emod port
  have hlow := (Int16.ofInt port).le_toInt
  have hhigh := (Int16.ofInt port).toInt_lt
  rw [hint]
  constructor
  · intro heq
    omega
  · rintro ⟨hsmall, rfl⟩
    omega

/-! ## Joining -/

theorem joinPeer_unique {peer : String} {fuel' : ℕ} {a b : Option (String × String) × Gossiper}
    (ha : g.joinPeer env fuel peer = some a) (hb : g.joinPeer env fuel' peer = some b) : a = b := by
  obtain ⟨fields, hfields, rfl⟩ := Option.map_eq_some_iff.1 ha
  obtain ⟨fields', hfields', rfl⟩ := Option.map_eq_some_iff.1 hb
  rw [split_unique hfields hfields']

/-- An address is read as the host and the port that it is made of. -/
theorem joinPeer_address (env : Env) (h : Reachable host port)
    (hshort : host.length < 2 ^ 31 - 1) (g : Gossiper) :
    g.joinPeer env ([host.toList].length + 1) (address host port) =
      some (if host ≠ env.conf.addr ∨ toString env.conf.port ≠ toString port then
        some (host, toString port) else none, g.join env) := by
  rw [joinPeer, h.ipPort.split_eq hshort, Option.map_some]

/-- A node calls the one at an address, unless it is its own with a port that is
not taken for a negative one. -/
theorem joinPeer_configured (h : Reachable host port) (h' : Reachable host' port')
    (hshort' : host'.length < 2 ^ 31 - 1) {name : String}
    (henv : env.conf = { name := name, addr := host, port := Int16.ofInt port }) (g : Gossiper) :
    g.joinPeer env ([host'.toList].length + 1) (address host' port') =
      some (if host' = host ∧ port' = port ∧ port ≤ 32767 then none
        else some (host', toString port'), g.join env) := by
  have hcall : host' ≠ host ∨ toString (Int16.ofInt port) ≠ toString port' ↔
      ¬ (host' = host ∧ port' = port ∧ port ≤ 32767) := by
    rw [← not_and_or, toString_eq_iff h h', and_comm (a := port ≤ 32767), eq_comm (a := port)]
  rw [joinPeer_address env h' hshort' g, henv]
  simp only [hcall, ite_not]

/-- An address that is too long is not read, and nobody is called. -/
theorem joinPeer_of_far (h : Reachable host port) (hfar : 2 ^ 31 - 1 ≤ host.length)
    {a : Option (String × String) × Gossiper}
    (ha : g.joinPeer env fuel (address host port) = some a) : a.1 = none := by
  obtain ⟨fields, hfields, rfl⟩ := Option.map_eq_some_iff.1 ha
  split
  case h_1 x y => exact absurd hfields (Config.split_ne_of_far h.colon hfar x y)
  case h_2 => rfl

/-- An address configures a node if it is short enough. -/
theorem constructed_address_iff (h : Reachable host port) {c : Config} :
    Config.Constructed (address host port) c ↔ host.length < 2 ^ 31 - 1 ∧
      c = { name := address host port, addr := host, port := Int16.ofInt port } := by
  have hdecimal : decimal (toString port).toList = port := by
    rw [toList_toString, decimal_toDigits]
  rcases Nat.lt_or_ge host.length (2 ^ 31 - 1) with hshort | hfar
  · rw [h.ipPort.constructed hshort, hdecimal]
    exact (and_iff_right hshort).symm
  · exact iff_of_false (h.ipPort.not_constructed hfar) fun hand => absurd hand.1 (by omega)

/-- Whom the node calls, whatever else its state is. -/
theorem eq_of_joins (h : Reachable host port) (h' : Reachable host' port')
    (hshort' : host'.length < 2 ^ 31 - 1) {name : String} {call : Option (String × String)}
    (hjoins : ∀ env : Env, env.conf = { name := name, addr := host, port := Int16.ofInt port } →
      ∀ g : Gossiper, ∃ fuel, g.joinPeer env fuel (address host' port') = some (call, g.join env)) :
    (if host' = host ∧ port' = port ∧ port ≤ 32767 then none else some (host', toString port')) =
      call := by
  obtain ⟨fuel, hjoin⟩ := hjoins ⟨_, fun _ _ => 0, fun _ _ => none, 0, 0⟩ rfl fresh
  have hsame := joinPeer_unique (joinPeer_configured h h' hshort' rfl fresh) hjoin
  exact congrArg Prod.fst hsame

theorem joinsItself_iff (h : Reachable host port) :
    JoinsItself host port ↔ port ≤ 32767 ∧ host.length < 2 ^ 31 - 1 := by
  constructor
  · rintro ⟨c, hc, hjoins⟩
    obtain ⟨hshort, rfl⟩ := (constructed_address_iff h).1 hc
    have hcall := eq_of_joins h h hshort hjoins
    refine ⟨?_, hshort⟩
    by_contra hlarge
    rw [if_neg fun hown => hlarge hown.2.2] at hcall
    cases hcall
  · rintro ⟨hsmall, hshort⟩
    refine ⟨_, (constructed_address_iff h).2 ⟨hshort, rfl⟩, fun env henv g => ?_⟩
    have hjoin := joinPeer_configured h h hshort henv g
    rw [if_pos ⟨rfl, rfl, hsmall⟩] at hjoin
    exact ⟨_, hjoin⟩

theorem joinsOther_iff (h : Reachable host port) (h' : Reachable host' port') :
    JoinsOther host port host' port' ↔
      host.length < 2 ^ 31 - 1 ∧ host'.length < 2 ^ 31 - 1 ∧
        ¬ (host' = host ∧ port' = port ∧ port ≤ 32767) := by
  constructor
  · rintro ⟨c, hc, hjoins⟩
    obtain ⟨hshort, rfl⟩ := (constructed_address_iff h).1 hc
    have hshort' : host'.length < 2 ^ 31 - 1 := by
      obtain ⟨fuel, hjoin⟩ := hjoins ⟨_, fun _ _ => 0, fun _ _ => none, 0, 0⟩ rfl fresh
      refine Nat.lt_of_not_le fun hfar => ?_
      cases joinPeer_of_far h' hfar hjoin
    have hcall := eq_of_joins h h' hshort' hjoins
    refine ⟨hshort, hshort', fun hown => ?_⟩
    rw [if_pos hown] at hcall
    cases hcall
  · rintro ⟨hshort, hshort', hother⟩
    refine ⟨_, (constructed_address_iff h).2 ⟨hshort, rfl⟩, fun env henv g => ?_⟩
    have hjoin := joinPeer_configured h h' hshort' henv g
    rw [if_neg hother] at hjoin
    exact ⟨_, hjoin⟩

/-- A node told to join at an address calls the node there if and only if the
address is not its own, when both hosts are short enough to be found and its own
port is not taken for a negative one. -/
theorem joins_iff (h : Reachable host port) (h' : Reachable host' port') :
    ((host' = host ∧ port' = port → JoinsItself host port) ∧
        (¬ (host' = host ∧ port' = port) → JoinsOther host port host' port')) ↔
      host.length < 2 ^ 31 - 1 ∧ host'.length < 2 ^ 31 - 1 ∧
        (host' = host ∧ port' = port → port ≤ 32767) := by
  rw [joinsItself_iff h, joinsOther_iff h h']
  by_cases hsame : host' = host ∧ port' = port
  case pos =>
    constructor
    · rintro ⟨hself, -⟩
      obtain ⟨hsmall, hshort⟩ := hself hsame
      exact ⟨hshort, hsame.1 ▸ hshort, fun _ => hsmall⟩
    · rintro ⟨hshort, -, hsmall⟩
      exact ⟨fun _ => ⟨hsmall hsame, hshort⟩, fun hother => absurd hsame hother⟩
  case neg =>
    constructor
    · rintro ⟨-, hother⟩
      obtain ⟨hshort, hshort', -⟩ := hother hsame
      exact ⟨hshort, hshort', fun hself => absurd hself hsame⟩
    · rintro ⟨hshort, hshort', -⟩
      refine ⟨fun hself => absurd hself hsame, fun _ => ⟨hshort, hshort', fun hown => ?_⟩⟩
      exact hsame ⟨hown.1, hown.2.1⟩

theorem joins_of_small :
    JoinsItself "10.0.0.1" 80 ∧ JoinsOther "10.0.0.1" 80 "10.0.0.1" 40000 := by
  have hself : Reachable "10.0.0.1" 80 := ⟨by decide, by decide, by decide, by decide⟩
  have hother : Reachable "10.0.0.1" 40000 := ⟨by decide, by decide, by decide, by decide⟩
  exact ⟨((joins_iff hself hself).2 ⟨by decide, by decide, fun _ => by decide⟩).1 ⟨rfl, rfl⟩,
    ((joins_iff hself hother).2 ⟨by decide, by decide, fun hsame => absurd hsame.2 (by decide)⟩).2
      fun hsame => absurd hsame.2 (by decide)⟩

/-- The port 40000 is -25536 to the node itself, which calls itself. -/
theorem not_joinsItself_of_large :
    Reachable "10.0.0.1" 40000 ∧ ¬ JoinsItself "10.0.0.1" 40000 ∧
      JoinsOther "10.0.0.1" 40000 "10.0.0.1" 40000 := by
  have hself : Reachable "10.0.0.1" 40000 := ⟨by decide, by decide, by decide, by decide⟩
  refine ⟨hself, fun hjoins => ?_, (joinsOther_iff hself hself).2 ⟨by decide, by decide, ?_⟩⟩
  · have hle := ((joinsItself_iff hself).1 hjoins).1
    omega
  · omega

end Gossiper

end CppGossip
