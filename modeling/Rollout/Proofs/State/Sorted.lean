import Mathlib.Data.Multiset.Defs
import Mathlib.Data.Prod.Lex
import Rollout.Generation.Compare
import Rollout.Proofs.State.Slots
import Rollout.Proofs.Text.Bytes
import Rollout.Proofs.Traversal

/-!
# Proofs/State/Sorted — the servers of a backend have one order

Servers are sorted by the address that their text spells, if it spells one, then by the text itself, since
one address has several texts, and then by port and name (`Server.Precedes`).  These parts make up a key in a
linear order (`Server.orderKey`), and the comparison that sorting uses is that of the keys, whatever the texts
are (`Server.before_iff`).  Servers with distinct names have distinct keys, so there is one way to put them in
order, and sorting finds it from wherever it starts (`Backend.sortServers_canonical`).
-/

namespace Rollout

/-! ## The order -/

/-- **An address comes before another one**: version 4 before version 6, and by number within a version. -/
def Address.Precedes : Address → Address → Prop
  | .v4 a, .v4 b => a < b
  | .v4 _, .v6 _ => True
  | .v6 _, .v4 _ => False
  | .v6 a, .v6 b => a < b

/-- **A server stands before another one**: by the addresses that their texts spell, where a text that spells
none comes first; then by the texts, then by the ports, then by the names.  Texts go byte by byte. -/
def Server.Precedes (s t : Server) : Prop :=
  Option.lt Address.Precedes (Address.parse s.ip) (Address.parse t.ip) ∨
    Address.parse s.ip = Address.parse t.ip ∧
      (Text.bytes s.ip < Text.bytes t.ip ∨ s.ip = t.ip ∧
        (s.port < t.port ∨ s.port = t.port ∧ Text.bytes s.name < Text.bytes t.name))

/-! ## Addresses and texts by rank -/

namespace Address

theorem rank_injective : Function.Injective rank := by
  rintro (a | a) (b | b) h <;> simp_all [rank, BitVec.toNat_inj]

theorem precedes_iff {a b : Address} : a.Precedes b ↔
    a.rank.1 < b.rank.1 ∨ a.rank.1 = b.rank.1 ∧ a.rank.2 < b.rank.2 := by
  cases a <;> cases b <;> simp [Precedes, rank, BitVec.lt_def]

/-- No address has the rank of a text that is none. -/
theorem rank_pos (a : Address) : 0 < a.rank.1 := by
  cases a <;> exact Nat.succ_pos _

variable {s t : String}

theorem rankOf_eq_iff : rankOf s = rankOf t ↔ parse s = parse t := by
  rw [rankOf, rankOf]
  cases parse s with
  | none =>
    cases parse t with
    | none => exact iff_of_true rfl rfl
    | some b => exact iff_of_false (fun h => (rank_pos b).ne (congrArg Prod.fst h)) nofun
  | some a =>
    cases parse t with
    | none => exact iff_of_false (fun h => (rank_pos a).ne' (congrArg Prod.fst h)) nofun
    | some b => exact rank_injective.eq_iff.trans (Option.some_inj).symm

theorem lt_parse_iff : Option.lt Precedes (parse s) (parse t) ↔
    (rankOf s).1 < (rankOf t).1 ∨ (rankOf s).1 = (rankOf t).1 ∧ (rankOf s).2 < (rankOf t).2 := by
  rw [rankOf, rankOf]
  cases parse s with
  | none =>
    cases parse t with
    | none => simp [Option.lt]
    | some b => exact iff_of_true trivial (Or.inl (rank_pos b))
  | some a =>
    cases parse t with
    | none => simp [Option.lt, (rank_pos a).ne']
    | some b => exact precedes_iff

end Address

/-! ## The key of a server -/

namespace Server

/-- **What a server is sorted by**: the rank of its address, its address text, its port and its name. -/
def orderKey (s : Server) : (ℕ ×ₗ ℕ) ×ₗ String ×ₗ ℕ ×ₗ String :=
  toLex (toLex (Address.rankOf s.ip), toLex (s.ip, toLex (s.port.toNat, s.name)))

variable {s t : Server}

theorem name_eq_of_orderKey_eq (h : s.orderKey = t.orderKey) : s.name = t.name :=
  congrArg (fun key => (ofLex (ofLex (ofLex key).2).2).2) h

/-- **The order is that of the keys.** -/
theorem precedes_iff : s.Precedes t ↔ s.orderKey < t.orderKey := by
  simp only [Precedes, Address.lt_parse_iff, ← Address.rankOf_eq_iff, Text.bytes_lt_iff, orderKey,
    Prod.Lex.toLex_lt_toLex, toLex_inj, UInt16.lt_iff_toNat_lt, UInt16.toNat_inj]

/-- A part decides where it differs, and leaves it to the rest otherwise. -/
theorem decides_iff {α : Type} [LT α] [Std.Irrefl (α := α) (· < ·)] [DecidableEq α] [DecidableLT α]
    {x y : α} {rest : Bool} :
    (if x ≠ y then decide (x < y) else rest) = true ↔ x < y ∨ x = y ∧ rest = true := by
  split_ifs with h
  · simp [h]
  · obtain rfl := not_not.mp h
    simp [Std.Irrefl.irrefl x]

/-- **Sorting compares keys.** -/
theorem before_iff : s.before t = true ↔ s.orderKey ≤ t.orderKey := by
  simp only [before, decides_iff, decide_eq_true_eq, orderKey, Prod.Lex.toLex_le_toLex,
    Prod.Lex.toLex_lt_toLex, toLex_inj, Prod.ext_iff, UInt16.toNat_inj, ← UInt16.lt_iff_toNat_lt]
  -- The rank of an address is one part of the key, but compared as two.
  simp only [and_or_left, or_assoc, and_assoc]

end Server

/-! ## Sorting -/

namespace Backend

variable {b c : Backend}

theorem sorted_sortServers (b : Backend) :
    b.sortServers.servers.Pairwise fun s t => s.before t = true :=
  pairwise_mergeSort_of_key (f := Server.orderKey) (fun _ _ => Server.before_iff) b.servers

/-- **Sorting puts servers with distinct names in order.** -/
theorem pairwise_sortServers (hnames : (b.servers.map (·.name)).Nodup) :
    b.sortServers.servers.Pairwise Server.Precedes := by
  have hne : b.sortServers.servers.Pairwise fun s t => s.name ≠ t.name :=
    List.pairwise_map.mp ((b.servers_sortServers_perm.map _).nodup_iff.mpr hnames)
  refine (b.sorted_sortServers.and hne).imp fun {s t} ⟨hbefore, hne⟩ => Server.precedes_iff.mpr ?_
  exact lt_of_le_of_ne (Server.before_iff.mp hbefore) fun h => hne (Server.name_eq_of_orderKey_eq h)

/-- **Servers with distinct names are sorted in one way.** -/
theorem servers_sortServers_eq_of_perm (hnames : (b.servers.map (·.name)).Nodup)
    (h : b.servers.Perm c.servers) : b.sortServers.servers = c.sortServers.servers := by
  have hnames' : (c.servers.map (·.name)).Nodup := (h.map _).nodup_iff.mp hnames
  refine List.Perm.eq_of_pairwise (fun s t _ _ hst hts => ?_) (pairwise_sortServers hnames)
    (pairwise_sortServers hnames')
    (b.servers_sortServers_perm.trans (h.trans c.servers_sortServers_perm.symm))
  exact absurd (Server.precedes_iff.mp hts) (lt_asymm (Server.precedes_iff.mp hst))

/-- **Sorting what is sorted changes nothing.** -/
theorem sortServers_sortServers (b : Backend) : b.sortServers.sortServers = b.sortServers :=
  congrArg (fun servers => { b with servers }) (List.mergeSort_of_pairwise b.sorted_sortServers)

theorem live_sortServers_perm (b : Backend) : b.sortServers.live.Perm b.live :=
  b.enabledServers_sortServers_perm.map Server.live

/-- **No comparison notices that a backend was sorted.** -/
theorem servesLike_sortServers (old : Generation) (b : Backend) :
    old.servesLike b.sortServers = old.servesLike b := by
  have hlive (c : Backend) : b.sortServers.live.isPerm c.live = b.live.isPerm c.live := by
    rw [Bool.eq_iff_iff, List.isPerm_iff, List.isPerm_iff]
    exact ⟨b.live_sortServers_perm.symm.trans, b.live_sortServers_perm.trans⟩
  rw [Generation.servesLike, Generation.servesLike, id_sortServers]
  simp only [hlive]
  rfl

/-- **Sorting is canonical.**  A backend whose servers have distinct names keeps them, and everything else, and
lists them in order afterwards; whatever order they were listed in before, the list is the same.  Sorting again
changes nothing.  The enabled servers, counted by address, port and weight, are those from before, so that no
comparison with another generation notices. -/
theorem sortServers_canonical (b : Backend) (hnames : (b.servers.map (·.name)).Nodup) :
    b.sortServers = { b with servers := b.sortServers.servers } ∧
    b.sortServers.servers.Perm b.servers ∧
    b.sortServers.servers.Pairwise Server.Precedes ∧
    (∀ c d : Backend, c.servers.Perm b.servers → d.servers.Perm b.servers →
      c.sortServers.servers = d.sortServers.servers) ∧
    b.sortServers.sortServers = b.sortServers ∧
    (b.sortServers.live : Multiset LiveServer) = b.live ∧
    ∀ old : Generation, old.servesLike b.sortServers = old.servesLike b := by
  refine ⟨rfl, b.servers_sortServers_perm, pairwise_sortServers hnames, fun c d hc hd => ?_,
    b.sortServers_sortServers, Multiset.coe_eq_coe.mpr b.live_sortServers_perm,
    fun old => servesLike_sortServers old b⟩
  exact servers_sortServers_eq_of_perm ((hc.map _).nodup_iff.mpr hnames) (hc.trans hd.symm)

/-- Six servers of which two have texts of one address, one has a text that spells none, two differ in their
ports only, and two have numbers that texts would put the other way round. -/
def mixedBackend : Backend where
  id := "web"
  servers := [
    { name := "srv001", ip := "::1", port := 80 },
    { name := "srv002", ip := "10.0.0.10", port := 8080 },
    { name := "srv003", ip := "10.0.0.9", port := 8080 },
    { name := "srv004", ip := "0:0:0:0:0:0:0:1", port := 80 },
    { name := "srv005", ip := "10.0.0.9", port := 80, enabled := false },
    { name := "srv006", ip := "db.local", port := 5432 }]

/-- Their order. -/
theorem sortServers_canonical_mixed : (mixedBackend.servers.map (·.name)).Nodup ∧
    mixedBackend.sortServers.servers.Pairwise Server.Precedes ∧
    mixedBackend.sortServers.servers.map (·.name)
      = ["srv006", "srv005", "srv003", "srv002", "srv004", "srv001"] ∧
    (mixedBackend.sortServers.live : Multiset LiveServer) = mixedBackend.live := by
  have hnames : (mixedBackend.servers.map (·.name)).Nodup := by decide
  obtain ⟨-, -, horder, hunique, -, hlive, -⟩ := sortServers_canonical mixedBackend hnames
  refine ⟨hnames, horder, ?_, hlive⟩
  let inOrder : Backend :=
    { mixedBackend with servers := [5, 4, 2, 1, 3, 0].filterMap (mixedBackend.servers[·]?) }
  have hsorted : inOrder.sortServers.servers = inOrder.servers :=
    List.mergeSort_of_pairwise (by decide +kernel)
  rw [hunique mixedBackend inOrder (.refl _) (by decide +kernel), hsorted]
  decide

end Backend

end Rollout
