import Mathlib.Algebra.Group.Nat.Defs
import Rollout.Proofs.Generation.Name
import Rollout.Proofs.State.Slots

/-!
# Proofs/State/Search — the search for a name ends

A free name is looked for by trying the names of the numbers from one on, and the numbers come from a
counter that is a word of 32 bits with a sign.  `NameSearch.turn` is one turn of that loop: it steps the
counter and only then tries a name, so the largest number of the word is never tried.  Each turn that tries a
used name moves on by one number (`turns_after`), and the first free name ends the search (`turns_of_free`).

The names are distinct, so `n` servers cannot use more than `n` of them, and the search for another one ends
within `n + 1` turns (`Backend.name_search_ends`).  The counter overflows exactly when the names of all the
numbers before the largest are used (`overflows_iff`).
-/

namespace Rollout

/-! ## Turn by turn -/

/-- **Where a search for a name stands.** -/
structure NameSearch where
  /-- The number whose name is tried next. -/
  counter : Int32 := 1
  /-- The names tried so far, in order. -/
  tried : List String := []
  deriving DecidableEq, Repr

namespace NameSearch

/-- **How a search ends**: with a free name, or with a counter that cannot step on. -/
inductive Outcome where
  | found (name : String)
  | overflowed
  deriving DecidableEq, Repr

/-- The number after another one; the largest has none. -/
def next? (c : Int32) : Option Int32 := if c = Int32.maxValue then none else some (c + 1)

/-- **One turn.**  The counter steps on from the number it holds, or overflows.  Then the name of that number
is tried: the search ends with the name if it is free. -/
def turn (used : List String) (s : NameSearch) : NameSearch × Option Outcome :=
  match next? s.counter with
  | none => (s, some .overflowed)
  | some c =>
    let name := serverName s.counter.toNatClampNeg
    ({ counter := c, tried := s.tried ++ [name] },
      if used.contains name then none else some (.found name))

/-- **A number of turns**, or fewer if the search ends before. -/
def turns (used : List String) : Nat → NameSearch → NameSearch × Option Outcome
  | 0, s => (s, none)
  | k + 1, s => if (s.turn used).2 = none then turns used k (s.turn used).1 else s.turn used

/-- The search that has tried the names of the numbers up to `k`. -/
def after (k : Nat) : NameSearch where
  counter := .ofNat (k + 1)
  tried := (List.range' 1 k).map serverName

variable {used : List String} {i k : Nat}

theorem next?_ofNat (hk : k + 1 < 2 ^ 31) : next? (.ofNat k) = some (.ofNat (k + 1)) := by
  have hmax : Int32.ofNat k ≠ Int32.maxValue := by
    rw [ne_eq, ← Int32.toInt_inj, Int32.toInt_ofNat_of_lt (by omega), Int32.toInt_maxValue]
    omega
  rw [next?, if_neg hmax, Int32.ofNat_add]
  rfl

/-- **A turn moves on by one number.** -/
theorem turn_after (hk : k + 2 < 2 ^ 31) : (after k).turn used = (after (k + 1),
    if used.contains (serverName (k + 1)) then none else some (.found (serverName (k + 1)))) := by
  have htried : (after k).tried ++ [serverName (k + 1)] = (after (k + 1)).tried := by
    rw [after, after, List.range'_1_concat, List.map_append, Nat.add_comm 1 k]
    rfl
  have hnext : next? (after k).counter = some (after (k + 1)).counter := next?_ofNat hk
  have hnumber : (after k).counter.toNatClampNeg = k + 1 :=
    Int32.toNatClampNeg_ofNat_of_lt (by omega)
  rw [turn, hnext, hnumber]
  exact congrArg (fun tried => (NameSearch.mk _ tried, _)) htried

/-- **The turn that reaches the largest number overflows**, before the name is tried. -/
theorem turn_after_last (hk : k + 2 = 2 ^ 31) :
    (after k).turn used = (after k, some .overflowed) := by
  have hcounter : (after k).counter = Int32.maxValue := by
    rw [after, ← Int32.toInt_inj, Int32.toInt_ofNat_of_lt (by omega), Int32.toInt_maxValue]
    omega
  rw [turn, hcounter, next?, if_pos rfl]

/-- **Used names are passed over**, one a turn. -/
theorem turns_after : ∀ {k m : Nat}, m + k + 1 < 2 ^ 31 →
    (∀ j, m < j → j ≤ m + k → serverName j ∈ used) → turns used k (after m) = (after (m + k), none)
  | 0, _, _, _ => rfl
  | k + 1, m, hfits, hused => by
      have hname := hused (m + 1) (Nat.lt_succ_self m) (by omega)
      have hturn : (after m).turn used = (after (m + 1), none) := by
        rw [turn_after (by omega), if_pos (List.contains_iff_mem.mpr hname)]
      rw [turns, hturn, if_pos rfl, Nat.add_comm k 1, ← Nat.add_assoc]
      exact turns_after (by omega) fun j hj hle => hused j (by omega) (by omega)

/-- Turns go on where others have not ended the search. -/
theorem turns_add : ∀ {k : Nat} {s s' : NameSearch}, turns used k s = (s', none) →
    ∀ m, turns used (k + m) s = turns used m s'
  | 0, _, _, h, m => by
      rw [Nat.zero_add, (Prod.mk.inj h).1]
  | k + 1, s, s', h, m => by
      rw [turns] at h
      rw [Nat.succ_add, turns]
      split_ifs at h ⊢ with hgoes
      · exact turns_add h m
      · exact absurd (congrArg Prod.snd h) hgoes

/-- Used names from one on are passed over. -/
theorem turns_of_used (hfits : i + 1 < 2 ^ 31)
    (hused : ∀ j, 0 < j → j ≤ i → serverName j ∈ used) : turns used i {} = (after i, none) := by
  have h : turns used i (after 0) = (after (0 + i), none) :=
    turns_after (by omega) fun j hj hle => hused j hj (by omega)
  rwa [Nat.zero_add] at h

/-- **The turn that ends the search is its last one.** -/
theorem turns_of_ends {s : NameSearch} {o : Outcome} (hfits : i + 1 < 2 ^ 31)
    (hused : ∀ j, 0 < j → j ≤ i → serverName j ∈ used)
    (hlast : (after i).turn used = (s, some o)) (hk : i < k) : turns used k {} = (s, some o) := by
  obtain ⟨m, rfl⟩ := Nat.exists_eq_add_of_lt hk
  rw [Nat.add_assoc, turns_add (turns_of_used hfits hused), turns, hlast,
    if_neg (Option.some_ne_none _)]

/-- **The first free name ends the search**, and no further turn changes that. -/
theorem turns_of_free (hfits : i + 2 < 2 ^ 31)
    (hused : ∀ j, 0 < j → j ≤ i → serverName j ∈ used) (hfree : serverName (i + 1) ∉ used)
    (hk : i < k) : turns used k {} = (after (i + 1), some (.found (serverName (i + 1)))) := by
  refine turns_of_ends (by omega) hused ?_ hk
  rw [turn_after hfits, if_neg fun h => hfree (List.contains_iff_mem.mp h)]

/-- **The search overflows if all names before that of the largest number are used.** -/
theorem turns_of_crowd (hused : ∀ j, 0 < j → j + 1 < 2 ^ 31 → serverName j ∈ used)
    (hk : 2 ^ 31 - 2 < k) : (turns used k {}).2 = some .overflowed := by
  rw [turns_of_ends (by omega) (fun j hj hle => hused j hj (by omega)) (turn_after_last (by omega)) hk]

/-! ## Where it ends -/

/-- **A search that ends with a name after `n` turns.** -/
structure EndsAfter (used : List String) (n : Nat) (name : String) : Prop where
  /-- Each of the turns finds a number in the counter: the one after those whose names were tried, and these
  are all from one on. -/
  goesOn : ∀ k < n, ∃ c : Int32, c.toInt = k + 1 ∧
    turns used k {} = ({ counter := c, tried := (List.range' 1 k).map serverName }, none)
  /-- The last one ends the search with the name, and leaves the number after it in the counter. -/
  ends : ∀ k ≥ n, ∃ c : Int32, c.toInt = n + 1 ∧
    turns used k {} = ({ counter := c, tried := (List.range' 1 n).map serverName }, some (.found name))

theorem toInt_counter_after (hk : k + 1 < 2 ^ 31) : (after k).counter.toInt = k + 1 :=
  Int32.toInt_ofNat_of_lt hk

/-- **A search ends at the least number with a free name**, if the counter can step on from it. -/
theorem endsAfter_of_isLeast (hfits : i + 1 < 2 ^ 31)
    (h : IsLeast {m | 0 < m ∧ serverName m ∉ used} i) : EndsAfter used i (serverName i) := by
  obtain ⟨⟨hpos, hfree⟩, hleast⟩ := h
  obtain ⟨n, rfl⟩ := Nat.exists_eq_succ_of_ne_zero hpos.ne'
  have hused (j : Nat) (hj : 0 < j) (hle : j ≤ n) : serverName j ∈ used := by
    by_contra hnot
    exact absurd (hleast ⟨hj, hnot⟩) (by omega)
  refine ⟨fun k hk => ⟨_, toInt_counter_after (by omega), ?_⟩,
    fun k hk => ⟨_, toInt_counter_after hfits, turns_of_free hfits hused hfree hk⟩⟩
  exact turns_of_used (by omega) fun j hj hle => hused j hj (by omega)

theorem EndsAfter.eq_found {n : Nat} {name : String} (h : EndsAfter used n name)
    (hk : n ≤ k) : (turns used k {}).2 = some (.found name) := by
  obtain ⟨c, -, hturns⟩ := h.ends k hk
  rw [hturns]

/-- **A search overflows exactly when the names of all numbers before the largest are used.** -/
theorem overflows_iff : (∃ k, (turns used k {}).2 = some .overflowed) ↔
    ∀ j, 0 < j → j + 1 < 2 ^ 31 → serverName j ∈ used := by
  refine ⟨?_, fun hused => ⟨2 ^ 31 - 1, turns_of_crowd hused (by omega)⟩⟩
  rintro ⟨k, hover⟩
  obtain ⟨i, -, -, hleast⟩ := freshName_isLeast used
  intro j hj hfits
  by_contra hfree
  have hends := endsAfter_of_isLeast (by have := hleast.2 ⟨hj, hfree⟩; omega) hleast
  rcases Nat.lt_or_ge k i with hlt | hge
  · obtain ⟨c, -, hturns⟩ := hends.goesOn k hlt
    rw [hturns] at hover
    exact nomatch hover
  · rw [hends.eq_found hge] at hover
    exact nomatch hover

/-- **The name a search ends with**, unless the counter overflows.  One of the first `used.length + 1` names
is free, so the search is over after as many turns. -/
def found? (used : List String) : Option String :=
  match (turns used (used.length + 1) {}).2 with
  | some (.found name) => some name
  | _ => none

/-- **A search finds the first free name if its number can be stepped on from.** -/
theorem found?_eq_some_iff {name : String} : found? used = some name ↔
    name = freshName used ∧ ∃ n, n + 1 < 2 ^ 31 ∧ name = serverName n := by
  obtain ⟨i, hle, hname, hleast⟩ := freshName_isLeast used
  rw [found?]
  by_cases hfits : i + 1 < 2 ^ 31
  · rw [(endsAfter_of_isLeast hfits hleast).eq_found hle, ← hname]
    refine ⟨fun h => ?_, fun h => congrArg some h.1.symm⟩
    obtain rfl := Option.some.inj h
    exact ⟨rfl, i, hfits, hname⟩
  · have hused (j : Nat) (hj : 0 < j) (hlast : j + 1 < 2 ^ 31) : serverName j ∈ used := by
      by_contra hnot
      exact hfits (Nat.lt_of_le_of_lt (Nat.succ_le_succ (hleast.2 ⟨hj, hnot⟩)) hlast)
    rw [turns_of_crowd hused (by omega)]
    constructor
    · exact nofun
    · rintro ⟨rfl, n, hn, heq⟩
      exact absurd (serverName_injective (hname.symm.trans heq) ▸ hn) hfits

end NameSearch

/-! ## The search of a backend -/

namespace Backend

/-- **The search for a name ends.**  In a backend with `n` servers, where `n + 2` fits a word of 32 bits with
a sign, it ends after at most `n + 1` turns, and the counter steps on at each of them.  The name is that of
the least number from one on whose name no server carries, so it is not the empty one. -/
theorem name_search_ends (b : Backend) (hfits : b.servers.length + 2 < 2 ^ 31) :
    ∃ i ≤ b.servers.length + 1,
      NameSearch.EndsAfter (b.servers.map (·.name)) i b.freshName ∧
      b.freshName = serverName i ∧ b.freshName ≠ "" ∧
      IsLeast {m | 0 < m ∧ serverName m ∉ b.servers.map (·.name)} i := by
  obtain ⟨i, hle, hname, hleast⟩ := freshName_isLeast (b.servers.map (·.name))
  rw [List.length_map] at hle
  have hname' : b.freshName = serverName i := hname
  refine ⟨i, hle, ?_, hname', ?_, hleast⟩
  · rw [hname']
    exact NameSearch.endsAfter_of_isLeast (by omega) hleast
  · rw [hname']
    exact (soundName_serverName i).ne_empty

/-- Two servers of one name, a gap behind them, and a name of another kind. -/
theorem name_search_ends_gap :
    let b : Backend :=
      { id := "web", servers := ["srv003", "srv001", "srv001", "blue"].map Server.emptySlot }
    b.servers.length + 2 < 2 ^ 31 ∧
      NameSearch.EndsAfter ["srv003", "srv001", "srv001", "blue"] 2 "srv002" := by
  intro b
  have hfits : b.servers.length + 2 < 2 ^ 31 := by decide
  obtain ⟨i, -, hends, hname, -, -⟩ := name_search_ends b hfits
  have hfound : b.freshName = serverName 2 := by decide
  obtain rfl := serverName_injective (hname.symm.trans hfound)
  exact ⟨hfits, hends⟩

/-- A backend whose servers carry the names of the first `n` numbers. -/
def crowded (n : Nat) : Backend :=
  { id := "web", servers := ((List.range' 1 n).map serverName).map Server.emptySlot }

theorem names_crowded (n : Nat) :
    (crowded n).servers.map (·.name) = (List.range' 1 n).map serverName := by
  rw [crowded, List.map_map]
  exact List.map_id _

theorem length_crowded (n : Nat) : (crowded n).servers.length = n := by
  rw [crowded, List.length_map, List.length_map, List.length_range']

theorem overflows_crowded {n : Nat} (hn : n + 2 = 2 ^ 31) :
    ∃ k, (NameSearch.turns ((crowded n).servers.map (·.name)) k {}).2 = some .overflowed := by
  rw [NameSearch.overflows_iff, names_crowded]
  exact fun j hj hlast => List.mem_map_of_mem (List.mem_range'_1.mpr ⟨hj, by omega⟩)

/-- **The bound cannot be any larger**: with one server more, the counter can overflow. -/
theorem crowded_search_overflows :
    (crowded 2147483646).servers.length + 1 < 2 ^ 31 ∧
      ∃ k, (NameSearch.turns ((crowded 2147483646).servers.map (·.name)) k {}).2
        = some .overflowed := by
  have hlength := length_crowded 2147483646
  exact ⟨by omega, overflows_crowded (by omega)⟩

end Backend

end Rollout
