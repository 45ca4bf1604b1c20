import CppGossip.Gossiper.State
import CppGossip.Message.Port
import CppGossip.Text.Split

/-!
# The address of a node

A node is configured with an address, `host:port`. The constructor splits it at
`:` and asks `std::stoi` for the port, which passes over blanks, takes a sign
and stops at the first character that is no digit; of the number it keeps 16
bits. `parsesExactly_iff` says which texts are taken for an address if and only
if they are one.
-/

namespace CppGossip

open Collection Text Message

namespace Config

/-- `config::config`, given that many turns of the loop of `Split`. `none` where
the process is terminated. -/
def new (fuel : ℕ) (addr : String) : Option Config := do
  let fields ← split fuel addr ":"
  match fields with
  | [host, text] => do
      let port ← stoi text
      some { name := addr, addr := host, port := Int16.ofInt port }
  | _ => none

/-- The constructor returns `c`. -/
def Constructed (addr : String) (c : Config) : Prop := ∃ fuel, new fuel addr = some c

/-- The text is `host:text`, where `text` is a port in decimal. -/
structure IpPort (addr host text : String) : Prop where
  eq : addr = host ++ ":" ++ text
  host_ne : host ≠ ""
  colon : ':' ∉ host.toList
  text_ne : text ≠ ""
  digits : ∀ c ∈ text.toList, c.isDigit
  le : decimal text.toList ≤ 65535

/-- The text is taken for an address if and only if it is one, and then for that. -/
def ParsesExactly (addr : String) : Prop :=
  ((∃ c, Constructed addr c) ↔ ∃ host text, IpPort addr host text) ∧
    ∀ c host text, Constructed addr c → IpPort addr host text →
      c.addr = host ∧ c.port.toInt % 65536 = decimal text.toList % 65536

/-- The texts that are not: some that are no address and are taken for one, and
one that is an address and is not. -/
inductive Misread : String → Prop
  /-- without a host, or with a number for a port that is more than its digits or too large -/
  | lenient (host text : String) (hhost : ':' ∉ host.toList) (htext : ':' ∉ text.toList)
      (hshort : host.length < 2 ^ 31 - 1) (hread : (stoi text).isSome)
      (hbad : host = "" ∨ (∃ c ∈ text.toList, c.isDigit = false) ∨ 65535 < decimal text.toList) :
      Misread (host ++ ":" ++ text)
  /-- with a second colon at the end -/
  | trailing (host text : String) (hhost : ':' ∉ host.toList) (htext : ':' ∉ text.toList)
      (hshort : host.length + text.length < 2 ^ 31 - 2) (hread : (stoi text).isSome) :
      Misread (host ++ ":" ++ text ++ ":")
  /-- with a second colon that an `int` does not find -/
  | wrapped (addr : String) (hlong : 2 ^ 31 ≤ addr.length) (hcolons : 2 ≤ addr.toList.count ':')
      (fuel : ℕ) (host text : String) (hsplit : split fuel addr ":" = some [host, text])
      (hread : (stoi text).isSome) : Misread addr
  /-- with a host so long that an `int` does not hold where it ends -/
  | far (addr host text : String) (h : IpPort addr host text) (hlong : 2 ^ 31 - 1 ≤ host.length) :
      Misread addr

/-! ## What is constructed -/

variable {addr host text : String} {c : Config} {fields : List String} {fuel : ℕ}

theorem Constructed.exists_split (h : Constructed addr c) :
    ∃ fuel host text port, split fuel addr ":" = some [host, text] ∧ stoi text = some port ∧
      c = { name := addr, addr := host, port := Int16.ofInt port } := by
  obtain ⟨fuel, hc⟩ := h
  simp only [new, Option.bind_eq_bind, Option.bind_eq_some_iff] at hc
  obtain ⟨fields, hsplit, hread⟩ := hc
  split at hread
  case h_1 host text =>
    obtain ⟨port, hport, heq⟩ := Option.bind_eq_some_iff.1 hread
    exact ⟨fuel, host, text, port, hsplit, hport, (Option.some.inj heq).symm⟩
  case h_2 => cases hread

/-- The fields that `Split` returns decide. -/
theorem constructed_iff (hsplit : split fuel addr ":" = some fields) :
    Constructed addr c ↔ ∃ host text port, fields = [host, text] ∧ stoi text = some port ∧
      c = { name := addr, addr := host, port := Int16.ofInt port } := by
  constructor
  · intro hc
    obtain ⟨fuel', host, text, port, hsplit', hport, heq⟩ := hc.exists_split
    exact ⟨host, text, port, split_unique hsplit hsplit', hport, heq⟩
  · rintro ⟨host, text, port, rfl, hport, rfl⟩
    exact ⟨fuel, by simp [new, hsplit, hport]⟩

/-- A text is read at its colons. -/
theorem split_of_scanned {fronts : List (List Char)} {last : List Char}
    (h : Scanned [':'] addr.toList fronts last) (hshort : addr.length < last.length + 2 ^ 31) :
    split (fronts.length + 1) addr ":" = some ((pieces fronts last).map String.ofList) := by
  have hloop : splitFrom addr.toList [':'] (fronts.length + 1) (Int32.ofNat 0) =
      some (pieces fronts last) :=
    splitFrom_of_scanned (by rwa [String.length_toList]) (Nat.zero_le _) h (Nat.lt_succ_self _)
  have hzero : Int32.ofNat 0 = 0 := rfl
  have hcolon : ":".toList = [':'] := rfl
  rw [split, hcolon, ← hzero, hloop, Option.map_some]

theorem scanned_of_colon (hhost : ':' ∉ host.toList) (htext : ':' ∉ text.toList) :
    Scanned [':'] (host ++ ":" ++ text).toList [host.toList] text.toList := by
  have hlast : ¬ [':'] <:+: text.toList := fun h => htext ((List.singleton_infix_iff _ _).1 h)
  have hscan := (Scanned.nil hlast).cons (closes_singleton_iff.2 hhost)
  rw [String.toList_append, String.toList_append]
  exact hscan

/-- A text with one colon that an `int` finds is split there. -/
theorem split_of_colon (hhost : ':' ∉ host.toList) (htext : ':' ∉ text.toList)
    (hshort : host.length < 2 ^ 31 - 1) :
    split ([host.toList].length + 1) (host ++ ":" ++ text) ":" =
      some ((pieces [host.toList] text.toList).map String.ofList) := by
  have hone : ":".length = 1 := rfl
  apply split_of_scanned (scanned_of_colon hhost htext)
  rw [String.length_append, String.length_append, String.length_toList, hone]
  omega

theorem constructed_of_colon (hhost : ':' ∉ host.toList) (htext : ':' ∉ text.toList)
    (hshort : host.length < 2 ^ 31 - 1) :
    Constructed (host ++ ":" ++ text) c ↔ ∃ port, stoi text = some port ∧
      c = { name := host ++ ":" ++ text, addr := host, port := Int16.ofInt port } := by
  rw [constructed_iff (split_of_colon hhost htext hshort), pieces]
  split
  case isTrue hempty =>
    have hnone : stoi text = none := by
      rw [stoi, hempty]
      rfl
    simp [hnone]
  case isFalse => simp

/-- A text whose first colon is too far away is not split in two there. -/
theorem split_ne_of_far (hhost : ':' ∉ host.toList) (hfar : 2 ^ 31 - 1 ≤ host.length)
    (a b : String) : split fuel (host ++ ":" ++ text) ":" ≠ some [a, b] := by
  intro hsplit
  obtain ⟨chars, hchars, hfields⟩ := Option.map_eq_some_iff.1 hsplit
  rw [String.toList_append, String.toList_append] at hchars
  have hne := splitFrom_ne_of_far (by rwa [String.length_toList]) (closes_singleton_iff.2 hhost)
    text.toList fuel
  have hlength := congrArg List.length hfields
  rw [List.length_map] at hlength
  obtain ⟨x, y, rfl⟩ := List.length_eq_two.1 hlength
  exact hne x y hchars

/-- Such a text is no address. -/
theorem not_constructed_of_far (hhost : ':' ∉ host.toList) (hfar : 2 ^ 31 - 1 ≤ host.length) :
    ¬ Constructed (host ++ ":" ++ text) c := by
  intro hc
  obtain ⟨fuel, a, b, port, hsplit, -⟩ := hc.exists_split
  exact split_ne_of_far hhost hfar a b hsplit

theorem scanned_of_trailing (hhost : ':' ∉ host.toList) (htext : ':' ∉ text.toList) :
    Scanned [':'] (host ++ ":" ++ text ++ ":").toList [host.toList, text.toList] [] := by
  have hlast : ¬ [':'] <:+: [] := fun h => List.not_mem_nil ((List.singleton_infix_iff _ _).1 h)
  have hscan := ((Scanned.nil hlast).cons (closes_singleton_iff.2 htext)).cons
    (closes_singleton_iff.2 hhost)
  have heq : (host ++ ":" ++ text ++ ":").toList =
      host.toList ++ [':'] ++ (text.toList ++ [':'] ++ []) := by simp
  rw [heq]
  exact hscan

/-- Nothing behind a second colon is like no second colon. -/
theorem constructed_of_trailing (hhost : ':' ∉ host.toList) (htext : ':' ∉ text.toList)
    (hshort : host.length + text.length < 2 ^ 31 - 2) :
    Constructed (host ++ ":" ++ text ++ ":") c ↔ ∃ port, stoi text = some port ∧
      c = { name := host ++ ":" ++ text ++ ":", addr := host, port := Int16.ofInt port } := by
  have hone : ":".length = 1 := rfl
  have hsplit := split_of_scanned (scanned_of_trailing hhost htext) (by
    simp only [String.length_append, hone, List.length_nil]
    omega)
  rw [constructed_iff hsplit, pieces, if_pos rfl]
  simp

/-! ## What is an address -/

namespace IpPort

theorem not_mem (h : IpPort addr host text) : ':' ∉ text.toList := fun hmem =>
  absurd (h.digits ':' hmem) (by decide)

theorem scanned (h : IpPort addr host text) :
    Scanned [':'] addr.toList [host.toList] text.toList :=
  h.eq ▸ scanned_of_colon h.colon h.not_mem

/-- The port is read as the number that its digits stand for. -/
theorem stoi_eq (h : IpPort addr host text) : stoi text = some (decimal text.toList) := by
  have hne : text.toList ≠ [] := fun hnil => h.text_ne (String.toList_inj.1 hnil)
  have hread := stoi_digits h.digits hne (Nat.le_trans h.le (by decide))
  rwa [String.ofList_toList] at hread

/-- The text is an address in one way. -/
theorem unique (h : IpPort addr host text) {fronts : List (List Char)} {last : List Char}
    (hscan : Scanned [':'] addr.toList fronts last) :
    fronts = [host.toList] ∧ last = text.toList := hscan.unique h.scanned

theorem split_eq (h : IpPort addr host text) (hshort : host.length < 2 ^ 31 - 1) :
    split ([host.toList].length + 1) addr ":" = some [host, text] := by
  have hne : text.toList ≠ [] := fun hnil => h.text_ne (String.toList_inj.1 hnil)
  rw [h.eq, split_of_colon h.colon h.not_mem hshort, pieces, if_neg hne]
  simp

theorem constructed (h : IpPort addr host text) (hshort : host.length < 2 ^ 31 - 1) :
    Constructed addr c ↔
      c = { name := addr, addr := host, port := Int16.ofInt (decimal text.toList) } := by
  rw [h.eq, constructed_of_colon h.colon h.not_mem hshort, h.stoi_eq]
  simp

theorem not_constructed (h : IpPort addr host text) (hfar : 2 ^ 31 - 1 ≤ host.length) :
    ¬ Constructed addr c := h.eq ▸ not_constructed_of_far h.colon hfar

end IpPort

/-- A text that is an address is taken for that address, if for any. -/
theorem eq_of_constructed (hc : Constructed addr c) (h : IpPort addr host text) :
    c = { name := addr, addr := host, port := Int16.ofInt (decimal text.toList) } := by
  rcases Nat.lt_or_ge host.length (2 ^ 31 - 1) with hshort | hfar
  · exact (h.constructed hshort).1 hc
  · exact absurd hc (h.not_constructed hfar)

theorem toInt_ofInt_emod (n : ℕ) : (Int16.ofInt n).toInt % 65536 = (n : Int) % 65536 := by
  rw [Int16.toInt_ofInt]
  exact Int.bmod_emod

/-! ## What is misread -/

theorem Misread.not_iff (h : Misread addr) :
    ¬ ((∃ c, Constructed addr c) ↔ ∃ host text, IpPort addr host text) := by
  intro hiff
  cases h with
  | lenient host text hhost htext hshort hread hbad =>
      obtain ⟨port, hport⟩ := Option.isSome_iff_exists.1 hread
      obtain ⟨host', text', hip⟩ := hiff.1
        ⟨_, (constructed_of_colon hhost htext hshort).2 ⟨port, hport, rfl⟩⟩
      obtain ⟨hhosts, htexts⟩ := hip.unique (scanned_of_colon hhost htext)
      obtain rfl : host = host' := String.toList_inj.1 (List.cons.inj hhosts).1
      obtain rfl : text = text' := String.toList_inj.1 htexts
      rcases hbad with hempty | ⟨d, hd, hdigit⟩ | hlarge
      · exact hip.host_ne hempty
      · exact absurd (hip.digits d hd) (by rw [hdigit]; decide)
      · exact absurd hip.le (Nat.not_le.2 hlarge)
  | trailing host text hhost htext hshort hread =>
      obtain ⟨port, hport⟩ := Option.isSome_iff_exists.1 hread
      obtain ⟨host', text', hip⟩ := hiff.1
        ⟨_, (constructed_of_trailing hhost htext hshort).2 ⟨port, hport, rfl⟩⟩
      obtain ⟨hhosts, -⟩ := hip.unique (scanned_of_trailing hhost htext)
      exact absurd (congrArg List.length hhosts) (by simp)
  | wrapped _ hlong hcolons fuel host text hsplit hread =>
      obtain ⟨port, hport⟩ := Option.isSome_iff_exists.1 hread
      obtain ⟨host', text', hip⟩ := hiff.1
        ⟨_, (constructed_iff hsplit).2 ⟨host, text, port, rfl, hport, rfl⟩⟩
      have hone : addr.toList.count ':' = 1 := by
        rw [hip.eq, String.toList_append, String.toList_append, List.count_append,
          List.count_append, List.count_eq_zero_of_not_mem hip.colon,
          List.count_eq_zero_of_not_mem hip.not_mem]
        rfl
      omega
  | far _ host text hip hlong =>
      obtain ⟨c, hc⟩ := hiff.2 ⟨host, text, hip⟩
      exact hip.not_constructed hlong hc

theorem exists_ipPort_of_colon (hnot : ¬ Misread (host ++ ":" ++ text))
    (hhost : ':' ∉ host.toList) (htext : ':' ∉ text.toList)
    (hc : Constructed (host ++ ":" ++ text) c) :
    ∃ host' text', IpPort (host ++ ":" ++ text) host' text' := by
  have hshort : host.length < 2 ^ 31 - 1 := by
    by_contra hfar
    exact not_constructed_of_far hhost (Nat.le_of_not_lt hfar) hc
  obtain ⟨port, hport, rfl⟩ := (constructed_of_colon hhost htext hshort).1 hc
  have hgood : ¬ (host = "" ∨ (∃ c ∈ text.toList, c.isDigit = false) ∨
      65535 < decimal text.toList) := fun hbad =>
    hnot (.lenient host text hhost htext hshort (Option.isSome_iff_exists.2 ⟨port, hport⟩) hbad)
  refine ⟨host, text, rfl, fun hempty => hgood (Or.inl hempty), hhost, ?_, fun d hd => ?_, ?_⟩
  · rintro rfl
    have hnone : stoi "" = none := by decide
    rw [hnone] at hport
    cases hport
  · by_contra hdigit
    exact hgood (Or.inr (Or.inl ⟨d, hd, Bool.eq_false_iff.2 hdigit⟩))
  · exact Nat.le_of_not_lt fun hlarge => hgood (Or.inr (Or.inr hlarge))

theorem eq_nil_of_pieces {a b : List Char} {fronts : List (List Char)} {last : List Char}
    {x y : String} (h : (pieces (a :: b :: fronts) last).map String.ofList = [x, y]) :
    fronts = [] ∧ last = [] := by
  have hlength := congrArg List.length h
  rw [List.length_map, pieces] at hlength
  split at hlength
  case isTrue hempty =>
    exact ⟨List.length_eq_zero_iff.1 (Nat.add_right_cancel (m := 2) hlength), hempty⟩
  case isFalse => simp at hlength

/-- A text with two colons or more is misread if it is taken for an address. -/
theorem misread_of_colons {front : List Char} {fronts : List (List Char)} {last : List Char}
    (hscan : Scanned [':'] addr.toList (host.toList :: front :: fronts) last)
    (hc : Constructed addr c) : Misread addr := by
  obtain ⟨text, rfl⟩ : ∃ text : String, front = text.toList :=
    ⟨String.ofList front, String.toList_ofList.symm⟩
  obtain ⟨fuel, host', text', port, hsplit, hport, -⟩ := hc.exists_split
  have hread := Option.isSome_iff_exists.2 ⟨port, hport⟩
  rcases Nat.lt_or_ge addr.length (2 ^ 31) with hshort | hlong
  · have hfields := split_unique (split_of_scanned hscan (by omega)) hsplit
    obtain ⟨rfl, rfl⟩ := eq_nil_of_pieces hfields
    obtain rfl : addr = host ++ ":" ++ text ++ ":" := by
      apply String.toList_inj.1
      rw [hscan.eq]
      simp
    have hone : ":".length = 1 := rfl
    simp only [String.length_append, hone] at hshort
    have htext : String.ofList text.toList = text' :=
      (List.cons.inj (List.cons.inj hfields).2).1
    rw [String.ofList_toList] at htext
    exact .trailing host text (closes_singleton_iff.1 hscan.head) (closes_singleton_iff.1
      (hscan.closes _ (List.mem_cons_of_mem _ List.mem_cons_self))) (by omega) (htext ▸ hread)
  · have hcolons : 2 ≤ addr.toList.count ':' := by
      rw [hscan.eq]
      simp only [List.map_cons, List.flatten_cons, List.count_append, List.count_singleton_self]
      omega
    exact .wrapped addr hlong hcolons fuel host' text' hsplit hread

/-- A text that is taken for an address and not misread is one. -/
theorem exists_ipPort (hnot : ¬ Misread addr) (hc : Constructed addr c) :
    ∃ host text, IpPort addr host text := by
  obtain ⟨fronts, last, hscan⟩ := exists_scanned (List.cons_ne_nil ':' []) addr.toList
  cases fronts with
  | nil =>
      have hlast : addr.toList = last := hscan.eq
      have hsplit := split_of_scanned hscan (by
        rw [← hlast, String.length_toList]
        omega)
      obtain ⟨host, text, port, hfields, -⟩ := (constructed_iff hsplit).1 hc
      rw [pieces] at hfields
      split at hfields
      · cases hfields
      · cases hfields
  | cons front fronts =>
      obtain ⟨host, rfl⟩ : ∃ host : String, front = host.toList :=
        ⟨String.ofList front, String.toList_ofList.symm⟩
      have hhost : ':' ∉ host.toList := closes_singleton_iff.1 hscan.head
      cases fronts with
      | nil =>
          obtain ⟨text, rfl⟩ : ∃ text : String, last = text.toList :=
            ⟨String.ofList last, String.toList_ofList.symm⟩
          have htext : ':' ∉ text.toList := fun hmem =>
            hscan.last ((List.singleton_infix_iff _ _).2 hmem)
          obtain rfl : addr = host ++ ":" ++ text := by
            apply String.toList_inj.1
            rw [hscan.eq]
            simp
          exact exists_ipPort_of_colon hnot hhost htext hc
      | cons front fronts => exact absurd (misread_of_colons hscan hc) hnot

/-- An address that is not misread is taken for one. -/
theorem exists_constructed (hnot : ¬ Misread addr) (h : IpPort addr host text) :
    ∃ c, Constructed addr c := by
  rcases Nat.lt_or_ge host.length (2 ^ 31 - 1) with hshort | hfar
  · exact ⟨_, (h.constructed hshort).2 rfl⟩
  · exact absurd (.far addr host text h hfar) hnot

theorem parsesExactly_iff : ParsesExactly addr ↔ ¬ Misread addr := by
  constructor
  · intro h hmisread
    exact hmisread.not_iff h.1
  · intro hnot
    refine ⟨⟨?_, ?_⟩, ?_⟩
    · rintro ⟨c, hc⟩
      exact exists_ipPort hnot hc
    · rintro ⟨host, text, h⟩
      exact exists_constructed hnot h
    · intro c host text hc h
      obtain rfl := eq_of_constructed hc h
      exact ⟨rfl, toInt_ofInt_emod _⟩

/-- Addresses with different ports are configured with different ones. -/
def KeepsApart (addr addr' : String) : Prop :=
  ∀ c c' host text host' text', Constructed addr c → Constructed addr' c' →
    IpPort addr host text → IpPort addr' host' text' → c.port = c'.port →
      decimal text.toList = decimal text'.toList

theorem keepsApart (addr addr' : String) : KeepsApart addr addr' := by
  intro c c' host text host' text' hc hc' h h' hport
  obtain rfl := eq_of_constructed hc h
  obtain rfl := eq_of_constructed hc' h'
  have hmod := congrArg (fun p => p.toInt % 65536) hport
  dsimp only at hmod
  rw [toInt_ofInt_emod, toInt_ofInt_emod] at hmod
  have hle := h.le
  have hle' := h'.le
  omega

/-- Two texts are taken for addresses exactly, and kept apart, when neither is misread. -/
theorem parses_iff (addr addr' : String) :
    ParsesExactly addr ∧ ParsesExactly addr' ∧ KeepsApart addr addr' ↔
      ¬ Misread addr ∧ ¬ Misread addr' := by
  rw [parsesExactly_iff, parsesExactly_iff]
  exact and_congr_right fun _ => and_iff_left (keepsApart addr addr')

/-- No host, a blank, a sign, more than digits, too large a number and a colon at
the end are all accepted, and the port 70000 is configured as 4464 is. -/
theorem not_parsesExactly_of_lenient :
    (∀ addr ∈ [":80", "h: 80", "h:+80", "h:80x", "h:70000", "h:80:"], ¬ ParsesExactly addr) ∧
      ∃ c c', Constructed "h:70000" c ∧ Constructed "h:4464" c' ∧ c.port = c'.port := by
  constructor
  · intro addr haddr
    rw [parsesExactly_iff, not_not]
    simp only [List.mem_cons, List.not_mem_nil, or_false] at haddr
    rcases haddr with rfl | rfl | rfl | rfl | rfl | rfl
    · exact .lenient "" "80" (by decide) (by decide) (by decide) (by decide)
        (Or.inl rfl)
    · exact .lenient "h" " 80" (by decide) (by decide) (by decide) (by decide)
        (Or.inr (Or.inl ⟨' ', by decide, by decide⟩))
    · exact .lenient "h" "+80" (by decide) (by decide) (by decide) (by decide)
        (Or.inr (Or.inl ⟨'+', by decide, by decide⟩))
    · exact .lenient "h" "80x" (by decide) (by decide) (by decide) (by decide)
        (Or.inr (Or.inl ⟨'x', by decide, by decide⟩))
    · exact .lenient "h" "70000" (by decide) (by decide) (by decide) (by decide)
        (Or.inr (Or.inr (by decide)))
    · exact .trailing "h" "80" (by decide) (by decide) (by decide) (by decide)
  · exact ⟨_, _, ⟨3, rfl⟩, ⟨3, rfl⟩, by decide⟩

end Config

end CppGossip
