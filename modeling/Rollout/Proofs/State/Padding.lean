import Rollout.Proofs.State.Search

/-!
# Proofs/State/Padding — padding once, twice and in machine words

Padding rounds the number of servers up to the least positive multiple of the increment
(`roundUp_isLeast`), so rounding up to a multiple of the increment afterwards makes no difference
(`roundUp_roundUp`).  Slots are appended one by one, each under a name that only the servers before it
decide (`appendSlots_add`); so neither does padding (`Backend.pad_pad`).

In machine words the number of servers is rounded up in 64 bits, which nothing overflows
(`roundUpWord?_eq`), and each slot takes the name that a search with a counter of 32 bits ends with.  So
padding overflows exactly where a slot would need the name of a number from which that counter cannot step on
(`Backend.padWord?_eq_some_iff`).
-/

namespace Rollout

variable {k m n : Nat}

/-! ## Rounding up -/

/-- **Rounding up gives the least positive multiple that is large enough.** -/
theorem roundUp_isLeast (hk : 0 < k) (n : Nat) :
    IsLeast {m | 0 < m ∧ k ∣ m ∧ n ≤ m} (roundUp k n) := by
  refine ⟨⟨roundUp_pos hk n, dvd_roundUp k n, le_roundUp hk n⟩, ?_⟩
  rintro m ⟨hpos, ⟨q, rfl⟩, hle⟩
  rw [roundUp]
  split_ifs with hn
  · exact Nat.le_mul_of_pos_right k (Nat.pos_of_mul_pos_left hpos)
  · have hq : (n + k - 1) / k ≤ q := by
      refine Nat.le_of_lt_succ ((Nat.div_lt_iff_lt_mul hk).mpr ?_)
      rw [Nat.succ_mul, Nat.mul_comm q k]
      omega
    rw [Nat.mul_comm k q]
    exact Nat.mul_le_mul_right k hq

/-- **What was rounded up is rounded up further** as if it had not been. -/
theorem roundUp_roundUp (hk : 0 < k) (hm : 0 < m) (h : k ∣ m) (n : Nat) :
    roundUp m (roundUp k n) = roundUp m n := by
  obtain ⟨⟨hpos, hdvd, hle⟩, hleast⟩ := roundUp_isLeast hm n
  have hbelow : roundUp k n ≤ roundUp m n :=
    (roundUp_isLeast hk n).2 ⟨hpos, Nat.dvd_trans h hdvd, hle⟩
  refine (roundUp_isLeast hm (roundUp k n)).unique ⟨⟨hpos, hdvd, hbelow⟩, ?_⟩
  rintro l ⟨hl, hml, hkl⟩
  exact hleast ⟨hl, hml, Nat.le_trans (le_roundUp hk n) hkl⟩

/-! ## New slots -/

/-- **The names of new slots are distinct, and no server carries one.** -/
theorem slotNames_fresh : ∀ (missing : Nat) (used : List String),
    (slotNames used missing).Nodup ∧ ∀ s ∈ slotNames used missing, s ∉ used
  | 0, _ => ⟨List.nodup_nil, nofun⟩
  | missing + 1, used => by
      obtain ⟨hnodup, hnew⟩ := slotNames_fresh missing (used ++ [freshName used])
      rw [slotNames]
      refine ⟨List.nodup_cons.mpr ⟨fun hmem => hnew _ hmem ?_, hnodup⟩, ?_⟩
      · exact List.mem_append_right _ (List.mem_singleton_self _)
      · refine List.forall_mem_cons.mpr ⟨freshName_not_mem used, fun s hs hused => hnew s hs ?_⟩
        exact List.mem_append_left _ hused

/-- The number of a new slot is at most the number of servers with it. -/
theorem exists_le_of_mem_slotNames : ∀ {missing : Nat} {used : List String} {s : String},
    s ∈ slotNames used missing → ∃ n, 0 < n ∧ n ≤ used.length + missing ∧ s = serverName n
  | missing + 1, used, s, h => by
      rcases List.mem_cons.mp h with rfl | h
      · obtain ⟨n, hle, heq, ⟨hpos, -⟩, -⟩ := freshName_isLeast used
        exact ⟨n, hpos, by omega, heq⟩
      · obtain ⟨n, hpos, hle, heq⟩ := exists_le_of_mem_slotNames h
        rw [List.length_append, List.length_singleton] at hle
        exact ⟨n, hpos, by omega, heq⟩

/-- **Appending some slots and then others** is appending all of them. -/
theorem appendSlots_add : ∀ (i j : Nat) (servers : List Server),
    appendSlots servers (i + j) = appendSlots (appendSlots servers i) j
  | 0, j, servers => by rw [Nat.zero_add, appendSlots]
  | i + 1, j, servers => by rw [Nat.succ_add, appendSlots, appendSlots, appendSlots_add i j]

/-- **What padding does to a backend**: it keeps everything, and appends empty slots under names that are
new and distinct, up to the least positive multiple of the increment.  The numbers in the names do not
exceed the number of servers. -/
structure Backend.IsPadding (increment : Nat) (b b' : Backend) : Prop where
  settings : b' = { b with servers := b'.servers }
  slots : ∃ names : List String, b'.servers = b.servers ++ names.map Server.emptySlot ∧
    names.Nodup ∧ (∀ name ∈ names, name ∉ b.servers.map (·.name)) ∧
    ∀ name ∈ names, ∃ n, 0 < n ∧ n ≤ b'.servers.length ∧ name = serverName n
  disabled : ∀ s ∈ b'.servers.drop b.servers.length, s.enabled = false
  length : IsLeast {n | 0 < n ∧ increment ∣ n ∧ b.servers.length ≤ n} b'.servers.length

namespace Backend

variable (b : Backend)

theorem pad_of_pos (hk : 0 < k) : b.pad k = { b with
    servers := appendSlots b.servers (roundUp k b.servers.length - b.servers.length) } :=
  if_neg hk.ne'

theorem pad_isPadding (hk : 0 < k) : IsPadding k b (b.pad k) := by
  have hservers := b.servers_pad k
  obtain ⟨hnodup, hnew⟩ := slotNames_fresh (b.missingSlots k) (b.servers.map (·.name))
  refine ⟨?_, ⟨_, hservers, hnodup, hnew, fun name hname => ?_⟩, fun s hs => ?_, ?_⟩
  · rw [pad_of_pos b hk]
  · obtain ⟨n, hpos, hle, rfl⟩ := exists_le_of_mem_slotNames hname
    refine ⟨n, hpos, ?_, rfl⟩
    rwa [hservers, List.length_append, List.length_map, length_slotNames, ← List.length_map]
  · rw [hservers, List.drop_left] at hs
    obtain ⟨name, -, rfl⟩ := List.mem_map.mp hs
    rfl
  · rw [length_pad b k hk]
    exact roundUp_isLeast hk _

/-- **Padding twice is padding to the larger increment**, if that is a multiple of the smaller one. -/
theorem pad_pad (hk : 0 < k) (hm : 0 < m) (h : k ∣ m) : (b.pad k).pad m = b.pad m := by
  have hround := roundUp_roundUp hk hm h b.servers.length
  have hle := le_roundUp hk b.servers.length
  have hle' := le_roundUp hm (roundUp k b.servers.length)
  rw [pad_of_pos _ hm, length_pad b k hk, hround, pad_of_pos b hk, pad_of_pos b hm,
    ← appendSlots_add]
  rw [hround] at hle'
  congr 2
  omega

end Backend

/-! ## In words -/

/-- A number as a word of 64 bits, unless it is too large for one. -/
def word? (n : Nat) : Option UInt64 := if n < UInt64.size then some (.ofNat n) else none

theorem word?_of_lt (h : n < UInt64.size) : word? n = some (.ofNat n) := if_pos h

theorem toNat_ofNat_of_lt (h : n < UInt64.size) : (UInt64.ofNat n).toNat = n :=
  Nat.mod_eq_of_lt h

theorem toNat_pos {k : UInt64} (hk : k ≠ 0) : 0 < k.toNat :=
  Nat.pos_of_ne_zero fun h => hk (UInt64.toNat_inj.mp h)

/-- **The number of servers to pad to, computed in words**: the quotient rounded up, times the increment.
There is none if a step overflows. -/
def roundUpWord? (increment n : UInt64) : Option UInt64 :=
  if n = 0 then some increment
  else do
    let quotient ← word? (n.toNat / increment.toNat
      + if n.toNat % increment.toNat = 0 then 0 else 1)
    word? (quotient.toNat * increment.toNat)

/-- Append `missing` empty slots, each under the name that a search for it ends with.  There are none if the
counter of a search overflows. -/
def appendSlotsWord? (servers : List Server) : (missing : Nat) → Option (List Server)
  | 0 => some servers
  | missing + 1 => do
    let name ← NameSearch.found? (servers.map (·.name))
    appendSlotsWord? (servers ++ [Server.emptySlot name]) missing

/-- **Padding in words**: servers are counted in 64 bits, numbers of names in 32 bits with a sign.  There is
no result if a step overflows. -/
def Backend.padWord? (increment : UInt64) (b : Backend) : Option Backend :=
  if increment = 0 then some b
  else do
    let target ← roundUpWord? increment (.ofNat b.servers.length)
    let servers ← appendSlotsWord? b.servers (target.toNat - b.servers.length)
    return { b with servers }

/-- Names of numbers from which the counter of a search can step on. -/
def NamesFit (names : List String) : Prop :=
  ∀ name ∈ names, ∃ n, n + 1 < 2 ^ 31 ∧ name = serverName n

theorem namesFit_append {names names' : List String} :
    NamesFit (names ++ names') ↔ NamesFit names ∧ NamesFit names' := List.forall_mem_append

/-- **No search overflows if and only if the names that the slots take fit.** -/
theorem appendSlotsWord?_eq_some_iff : ∀ {missing : Nat} {servers servers' : List Server},
    appendSlotsWord? servers missing = some servers' ↔
      servers' = appendSlots servers missing ∧
        NamesFit (slotNames (servers.map (·.name)) missing)
  | 0, servers, servers' => by
      rw [appendSlotsWord?, appendSlots, slotNames, Option.some_inj, eq_comm]
      exact (and_iff_left (List.forall_mem_nil _)).symm
  | missing + 1, servers, servers' => by
      rw [appendSlotsWord?, appendSlots, slotNames, NamesFit, List.forall_mem_cons]
      simp only [Option.bind_eq_bind, Option.bind_eq_some_iff, NameSearch.found?_eq_some_iff]
      constructor
      · rintro ⟨name, ⟨rfl, hfits⟩, hrest⟩
        obtain ⟨hservers, hnames⟩ := appendSlotsWord?_eq_some_iff.mp hrest
        rw [List.map_append] at hnames
        exact ⟨hservers, hfits, hnames⟩
      · rintro ⟨hservers, hfits, hnames⟩
        refine ⟨_, ⟨rfl, hfits⟩, appendSlotsWord?_eq_some_iff.mpr ⟨hservers, ?_⟩⟩
        rwa [List.map_append]

/-- The quotient rounded up, in two ways. -/
theorem div_add_eq_ceil (hk : 0 < k) (hn : 0 < n) :
    (n / k + if n % k = 0 then 0 else 1) = (n + k - 1) / k := by
  have hdiv := Nat.div_add_mod n k
  have hlt := Nat.mod_lt n hk
  split_ifs with hmod
  · refine (Nat.div_eq_of_lt_le ?_ ?_).symm
    · rw [Nat.add_zero, Nat.mul_comm]
      omega
    · rw [Nat.add_zero, Nat.succ_mul, Nat.mul_comm]
      omega
  · refine (Nat.div_eq_of_lt_le ?_ ?_).symm
    · rw [Nat.succ_mul, Nat.mul_comm]
      omega
    · rw [Nat.succ_mul, Nat.succ_mul, Nat.mul_comm]
      omega

/-- **Up to half of the words, rounding up gives a word** — either the increment itself, or less than twice
the number. -/
theorem roundUp_lt_size (hk : 0 < k) (hword : k < UInt64.size) (hn : n < 2 ^ 63) :
    roundUp k n < UInt64.size := by
  have hsize : UInt64.size = 2 ^ 63 + 2 ^ 63 := rfl
  by_cases hle : n ≤ k
  · exact Nat.lt_of_le_of_lt ((roundUp_isLeast hk n).2 ⟨hk, Nat.dvd_refl k, hle⟩) hword
  · rw [roundUp, if_neg (by omega)]
    have hmul := Nat.div_mul_le_self (n + k - 1) k
    omega

/-- **No step overflows if the result is a word.** -/
theorem roundUpWord?_eq {increment : UInt64} (hk : increment ≠ 0)
    (hfits : roundUp increment.toNat n < UInt64.size) :
    roundUpWord? increment (.ofNat n) = some (.ofNat (roundUp increment.toNat n)) := by
  have hpos := toNat_pos hk
  have hword : n < UInt64.size := Nat.lt_of_le_of_lt (le_roundUp hpos n) hfits
  rw [roundUpWord?]
  rw [roundUp] at hfits ⊢
  rcases Nat.eq_zero_or_pos n with rfl | hn
  · exact congrArg some UInt64.ofNat_toNat.symm
  have hne : UInt64.ofNat n ≠ 0 := fun h => hn.ne' (by
    rw [← toNat_ofNat_of_lt hword, h]
    rfl)
  rw [if_neg hn.ne'] at hfits
  have hquotient := Nat.lt_of_le_of_lt (Nat.le_mul_of_pos_right _ hpos) hfits
  rw [if_neg hne, if_neg hn.ne', toNat_ofNat_of_lt hword, div_add_eq_ceil hpos hn,
    word?_of_lt hquotient]
  change word? ((UInt64.ofNat _).toNat * _) = _
  rw [toNat_ofNat_of_lt hquotient, word?_of_lt hfits]

namespace Backend

variable {b b' : Backend} {k m : UInt64}

/-- **The new slots fit** if the counter of a search can step on from the number of each one's name. -/
def SlotsFit (b : Backend) (increment : Nat) : Prop :=
  NamesFit (slotNames (b.servers.map (·.name)) (b.missingSlots increment))

/-- **Padding overflows exactly where a new slot does not fit.** -/
theorem padWord?_eq_some_iff (hword : k ≠ 0 → roundUp k.toNat b.servers.length < UInt64.size) :
    b.padWord? k = some b' ↔ b' = b.pad k.toNat ∧ b.SlotsFit k.toNat := by
  rw [padWord?, SlotsFit, missingSlots]
  split_ifs with hk hk' hk'
  · subst hk
    rw [Option.some_inj, eq_comm]
    exact (and_iff_left (List.forall_mem_nil _)).symm
  · exact absurd (congrArg UInt64.toNat hk) hk'
  · exact absurd hk' (toNat_pos hk).ne'
  · rw [roundUpWord?_eq hk (hword hk), pad_of_pos b (toNat_pos hk)]
    simp only [Option.bind_eq_bind, Option.bind_some, toNat_ofNat_of_lt (hword hk),
      Option.bind_eq_some_iff, Option.pure_def, Option.some_inj, appendSlotsWord?_eq_some_iff]
    constructor
    · rintro ⟨_, ⟨rfl, hfits⟩, rfl⟩
      exact ⟨rfl, hfits⟩
    · rintro ⟨rfl, hfits⟩
      exact ⟨_, ⟨rfl, hfits⟩, rfl⟩

/-- **Short lists fit.** -/
theorem slotsFit_of_length {increment : Nat}
    (h : (b.pad increment).servers.length + 1 < 2 ^ 31) : b.SlotsFit increment := by
  intro name hname
  obtain ⟨n, -, hle, rfl⟩ := exists_le_of_mem_slotNames hname
  refine ⟨n, Nat.lt_of_le_of_lt (Nat.succ_le_succ hle) ?_, rfl⟩
  rwa [servers_pad, List.length_append, List.length_map, length_slotNames,
    ← List.length_map (·.name)] at h

/-- **The slots of the larger increment** are those of the smaller one, and those added to them. -/
theorem slotsFit_pad_pad {increment multiple : Nat} (hk : 0 < increment) (hm : 0 < multiple)
    (h : increment ∣ multiple) :
    b.SlotsFit multiple ↔ b.SlotsFit increment ∧ (b.pad increment).SlotsFit multiple := by
  have hnames := names_pad b multiple
  rw [← pad_pad b hk hm h, names_pad (b.pad increment), names_pad b increment,
    List.append_assoc] at hnames
  rw [SlotsFit, SlotsFit, SlotsFit, ← namesFit_append, names_pad b increment,
    List.append_cancel_left hnames]

/-- **Padding again is padding to the larger increment**, also where either overflows. -/
theorem padWord?_padWord? (hk : k ≠ 0) (hm : m ≠ 0) (hdvd : k.toNat ∣ m.toNat)
    (hlength : b.servers.length < 2 ^ 63) : (b.padWord? k).bind (·.padWord? m) = b.padWord? m := by
  have hpos := toNat_pos hk
  have hpos' := toNat_pos hm
  have hword := roundUp_lt_size hpos k.toNat_lt hlength
  have hword' := roundUp_lt_size hpos' m.toNat_lt hlength
  have hagain : roundUp m.toNat (b.pad k.toNat).servers.length < UInt64.size := by
    rwa [length_pad b _ hpos, roundUp_roundUp hpos hpos' hdvd]
  refine Option.ext fun b' => ?_
  rw [Option.bind_eq_some_iff, padWord?_eq_some_iff fun _ => hword',
    slotsFit_pad_pad hpos hpos' hdvd]
  simp only [padWord?_eq_some_iff fun _ => hword]
  constructor
  · rintro ⟨_, ⟨rfl, hfits⟩, hrest⟩
    obtain ⟨rfl, hfits'⟩ := (padWord?_eq_some_iff fun _ => hagain).mp hrest
    exact ⟨pad_pad b hpos hpos' hdvd, hfits, hfits'⟩
  · rintro ⟨rfl, hfits, hfits'⟩
    refine ⟨_, ⟨rfl, hfits⟩, (padWord?_eq_some_iff fun _ => hagain).mpr ⟨?_, hfits'⟩⟩
    exact (pad_pad b hpos hpos' hdvd).symm

/-- **The law of padding.**  Padding a list of less than `2 ^ 63` servers overflows only where a new slot
does not fit, so never up to `2 ^ 31 - 2` servers with the slots.  Increment zero leaves the backend alone,
any other one yields a padding.  Padding again with the same increment changes nothing, and padding again with
a multiple is padding with the multiple at once. -/
theorem padding_law (b : Backend) (increment : UInt64) (hlength : b.servers.length < 2 ^ 63) :
    (∀ b', b.padWord? increment = some b' ↔
      b' = b.pad increment.toNat ∧ b.SlotsFit increment.toNat) ∧
      ((b.pad increment.toNat).servers.length + 1 < 2 ^ 31 → b.SlotsFit increment.toNat) ∧
      (increment = 0 → b.padWord? increment = some b) ∧
      (increment ≠ 0 → IsPadding increment.toNat b (b.pad increment.toNat)) ∧
      (b.padWord? increment).bind (·.padWord? increment) = b.padWord? increment ∧
      ∀ multiple : UInt64, increment ≠ 0 → multiple ≠ 0 → increment.toNat ∣ multiple.toNat →
        (b.padWord? increment).bind (·.padWord? multiple) = b.padWord? multiple := by
  refine ⟨fun b' => padWord?_eq_some_iff fun hk => ?_, slotsFit_of_length, fun hk => if_pos hk,
    fun hk => pad_isPadding b (toNat_pos hk), ?_,
    fun multiple hk hm hdvd => padWord?_padWord? hk hm hdvd hlength⟩
  · exact roundUp_lt_size (toNat_pos hk) increment.toNat_lt hlength
  · by_cases hk : increment = 0
    · rw [padWord?, if_pos hk, Option.bind_some, padWord?, if_pos hk]
    · exact padWord?_padWord? hk hk (Nat.dvd_refl _) hlength

/-- Two servers, padded to four and then to eight. -/
theorem padding_law_eight :
    let b : Backend := { id := "web", servers := ["srv001", "srv003"].map Server.emptySlot }
    b.servers.length < 2 ^ 63 ∧
      (b.padWord? 4).map (·.servers.map (·.name)) = some ["srv001", "srv003", "srv002", "srv004"] ∧
      (b.padWord? 4).bind (·.padWord? 8) = b.padWord? 8 ∧ (b.padWord? 8).isSome := by
  intro b
  have hlength : b.servers.length < 2 ^ 63 := by decide
  obtain ⟨hfour, hfits, -, -, -, htwice⟩ := padding_law b 4 hlength
  obtain ⟨height, hfits', -⟩ := padding_law b 8 hlength
  have hpadded : b.padWord? 4 = some (b.pad 4) := (hfour _).mpr ⟨rfl, hfits (by decide)⟩
  have hpadded' : b.padWord? 8 = some (b.pad 8) := (height _).mpr ⟨rfl, hfits' (by decide)⟩
  have hnames : (b.pad 4).servers.map (·.name) = ["srv001", "srv003", "srv002", "srv004"] := by
    decide
  refine ⟨hlength, ?_, htwice 8 (by decide) (by decide) (by decide), ?_⟩
  · rw [hpadded]
    exact congrArg some hnames
  · rw [hpadded']
    rfl

/-! ### Where padding overflows -/

/-- After the names of the first numbers, new slots take those of the next ones. -/
theorem slotNames_crowded : ∀ (missing n : Nat),
    slotNames ((List.range' 1 n).map serverName) missing
      = (List.range' (1 + n) missing).map serverName
  | 0, _ => rfl
  | missing + 1, n => by
      obtain ⟨i, -, hname, ⟨hpos, hfree⟩, hleast⟩ :=
        freshName_isLeast ((List.range' 1 n).map serverName)
      have hbelow (j : Nat) : serverName j ∈ (List.range' 1 n).map serverName ↔ 0 < j ∧ j ≤ n := by
        rw [List.mem_map_of_injective serverName_injective, List.mem_range'_1]
        omega
      have hnot : 0 < n + 1 ∧ serverName (n + 1) ∉ (List.range' 1 n).map serverName :=
        ⟨Nat.succ_pos n, fun h => absurd ((hbelow _).mp h).2 (Nat.not_succ_le_self n)⟩
      have hi : i = 1 + n := by
        have := hleast hnot
        rw [hbelow] at hfree
        omega
      rw [slotNames, hname, hi, List.range'_succ, List.map_cons]
      have hmore : (List.range' 1 n).map serverName ++ [serverName (1 + n)]
          = (List.range' 1 (n + 1)).map serverName := by
        rw [List.range'_1_concat, List.map_append]
        rfl
      rw [hmore, slotNames_crowded missing (n + 1)]
      rfl

theorem slotNames_nil (missing : Nat) :
    slotNames [] missing = (List.range' 1 missing).map serverName := slotNames_crowded missing 0

/-- **An empty backend takes the names of all numbers up to the increment**, so the largest of them has to
fit. -/
theorem not_slotsFit_of_isEmpty {increment : Nat} (hempty : b.servers = [])
    (h : 2 ^ 31 ≤ increment + 1) : ¬b.SlotsFit increment := by
  intro hfits
  rw [SlotsFit, missingSlots, hempty, if_neg (by omega), List.map_nil, slotNames_nil] at hfits
  have hmem : increment ∈ List.range' 1 (roundUp increment 0 - 0) :=
    List.mem_range'_1.mpr ⟨by omega, by rw [roundUp, if_pos rfl]; omega⟩
  obtain ⟨n, hn, heq⟩ := hfits _ (List.mem_map_of_mem hmem)
  rw [serverName_injective heq] at h
  omega

/-- **The counter does not count to the largest increments**: the slots of an empty backend run out of
names. -/
theorem slots_run_out : ({ id := "web" } : Backend).padWord? 2147483647 = none := by
  refine Option.eq_none_iff_forall_ne_some.mpr fun b' h => ?_
  have hword : roundUp (2147483647 : UInt64).toNat 0 < UInt64.size := by decide
  exact not_slotsFit_of_isEmpty rfl (by decide) ((padWord?_eq_some_iff fun _ => hword).mp h).2

end Backend

end Rollout
