import Mathlib.Data.String.Basic
import Rollout.Proofs.Json.Compact

/-!
# Proofs/Value/Canonical — fields are sorted once

A canonical value has the fields of its records sorted by name, each name once, all the way down
(`IsCanonical`).  Making a value canonical makes it that (`isCanonical_canonical`), changes nothing the
second time (`canonical_canonical`), and JSON carries it if it carried the value (`Carried.canonical`).
-/

namespace Rollout

namespace Value

/-- **Fields sorted by name**, each name once. -/
def SortedFields (fields : List (String × Value)) : Prop := fields.Pairwise fun f g => f.1 < g.1

/-- **A value whose records are sorted**, all the way down. -/
inductive IsCanonical : Value → Prop where
  | null : IsCanonical .null
  | bool (b : Bool) : IsCanonical (.bool b)
  | int (n : Int) : IsCanonical (.int n)
  | real (literal : String) : IsCanonical (.real literal)
  | text (s : String) : IsCanonical (.text s)
  | list {items : List Value} (each : ∀ v ∈ items, IsCanonical v) : IsCanonical (.list items)
  | record {fields : List (String × Value)} (sorted : SortedFields fields)
      (each : ∀ f ∈ fields, IsCanonical f.2) : IsCanonical (.record fields)

variable {name : String} {v : Value} {fields sorted : List (String × Value)} {f : String × Value}

/-! ## Entering a field -/

/-- What is there after a field was entered was there before, or is the field. -/
theorem mem_insertField (h : f ∈ insertField name v fields) : f = (name, v) ∨ f ∈ fields := by
  induction fields with
  | nil => exact .inl (List.mem_singleton.mp h)
  | cons g rest ih =>
    rw [insertField] at h
    split_ifs at h
    · exact List.mem_cons.mp h
    · exact (List.mem_cons.mp h).imp_right (List.mem_cons_of_mem _)
    · rcases List.mem_cons.mp h with rfl | h
      · exact .inr List.mem_cons_self
      · exact (ih h).imp_right (List.mem_cons_of_mem _)

/-- A field is entered where it belongs. -/
theorem SortedFields.insertField (h : SortedFields fields) :
    SortedFields (insertField name v fields) := by
  induction fields with
  | nil => exact List.pairwise_singleton _ _
  | cons g rest ih =>
    obtain ⟨hg, hrest⟩ := List.pairwise_cons.mp h
    rw [Value.insertField]
    split_ifs with hlt heq
    · exact List.pairwise_cons.mpr
        ⟨List.forall_mem_cons.mpr ⟨hlt, fun f hf => hlt.trans (hg f hf)⟩, h⟩
    · exact List.pairwise_cons.mpr ⟨fun f hf => heq ▸ hg f hf, hrest⟩
    · refine List.pairwise_cons.mpr ⟨fun f hf => ?_, ih hrest⟩
      rcases mem_insertField hf with rfl | hf
      · exact lt_of_le_of_ne (not_lt.mp hlt) (Ne.symm heq)
      · exact hg f hf

/-- A field behind all others is entered behind them. -/
theorem insertField_of_lt (h : ∀ f ∈ fields, f.1 < name) :
    insertField name v fields = fields ++ [(name, v)] := by
  induction fields with
  | nil => rfl
  | cons g rest ih =>
    obtain ⟨hg, hrest⟩ := List.forall_mem_cons.mp h
    rw [insertField, if_neg (lt_asymm hg), if_neg hg.ne', ih hrest, List.cons_append]

/-! ## Canonical values -/

theorem canonicalItems_eq_map : ∀ items : List Value, canonicalItems items = items.map canonical
  | [] => rfl
  | v :: vs => by rw [canonicalItems, canonicalItems_eq_map vs, List.map_cons]

/-- The values of sorted fields are made canonical. -/
theorem mem_canonicalFields :
    ∀ {fields sorted : List (String × Value)}, f ∈ canonicalFields fields sorted →
      f ∈ sorted ∨ ∃ g ∈ fields, f.2 = g.2.canonical
  | [], _, h => .inl h
  | (n, v) :: rest, sorted, h => by
      rw [canonicalFields] at h
      rcases mem_canonicalFields h with h | ⟨g, hg, heq⟩
      · rcases mem_insertField h with rfl | h
        · exact .inr ⟨(n, v), List.mem_cons_self, rfl⟩
        · exact .inl h
      · exact .inr ⟨g, List.mem_cons_of_mem _ hg, heq⟩

theorem SortedFields.canonicalFields :
    ∀ {fields sorted : List (String × Value)}, SortedFields sorted →
      SortedFields (Value.canonicalFields fields sorted)
  | [], _, h => h
  | (_, _) :: _, _, h => by
      rw [Value.canonicalFields]
      exact canonicalFields h.insertField

mutual

/-- **Making a value canonical makes it that.** -/
theorem isCanonical_canonical : ∀ v : Value, v.canonical.IsCanonical
  | .null => .null
  | .bool b => .bool b
  | .int n => .int n
  | .real literal => .real literal
  | .text s => .text s
  | .list items => .list (isCanonical_items items)
  | .record fields => .record (SortedFields.canonicalFields .nil) fun f hf => by
      obtain ⟨g, hg, heq⟩ := (mem_canonicalFields hf).resolve_left List.not_mem_nil
      rw [heq]
      exact isCanonical_fields fields g hg

/-- So it does with the items of a list. -/
theorem isCanonical_items : ∀ items : List Value, ∀ v ∈ canonicalItems items, v.IsCanonical
  | [] => nofun
  | v :: vs => List.forall_mem_cons.mpr ⟨isCanonical_canonical v, isCanonical_items vs⟩

/-- And with the fields of a record. -/
theorem isCanonical_fields : ∀ fields : List (String × Value), ∀ f ∈ fields, f.2.canonical.IsCanonical
  | [] => nofun
  | f :: fs => List.forall_mem_cons.mpr ⟨isCanonical_canonical f.2, isCanonical_fields fs⟩

end

/-- Sorted fields with canonical values stay as they are. -/
theorem canonicalFields_of_sorted :
    ∀ {fields sorted : List (String × Value)}, SortedFields (sorted ++ fields) →
      (∀ f ∈ fields, f.2.canonical = f.2) → canonicalFields fields sorted = sorted ++ fields
  | [], sorted, _, _ => (List.append_nil sorted).symm
  | (n, v) :: rest, sorted, hsorted, hvalues => by
      obtain ⟨hf, hrest⟩ := List.forall_mem_cons.mp hvalues
      have hlast : ∀ g ∈ sorted, g.1 < n := fun g hg =>
        (List.pairwise_append.mp hsorted).2.2 g hg (n, v) List.mem_cons_self
      rw [canonicalFields, hf, insertField_of_lt hlast, canonicalFields_of_sorted _ hrest,
        List.append_assoc, List.singleton_append]
      rwa [List.append_assoc, List.singleton_append]

theorem IsCanonical.canonical_eq (h : v.IsCanonical) : v.canonical = v := by
  induction h with
  | null | bool | int | real | text => rfl
  | @list items _ ih =>
    rw [canonical, canonicalItems_eq_map, List.map_congr_left ih, List.map_id']
  | @record fields sorted _ ih =>
    have hfields : canonicalFields fields [] = [] ++ fields := canonicalFields_of_sorted sorted ih
    exact congrArg Value.record hfields

/-- **The second time nothing changes.** -/
theorem canonical_canonical (v : Value) : v.canonical.canonical = v.canonical :=
  (isCanonical_canonical v).canonical_eq

end Value

/-- **What JSON carries, it carries sorted.** -/
theorem Json.Carried.canonical {depth : Nat} {v : Value} (h : Carried depth v) :
    Carried depth v.canonical := by
  induction h with
  | null => exact .null
  | bool b => exact .bool b
  | int low high => exact .int low high
  | real ne_nil digits finite => exact .real ne_nil digits finite
  | text s => exact .text s
  | list _ ih =>
    refine .list fun v hv => ?_
    rw [Value.canonicalItems_eq_map] at hv
    obtain ⟨u, hu, rfl⟩ := List.mem_map.mp hv
    exact ih u hu
  | record _ ih =>
    refine .record fun f hf => ?_
    obtain ⟨g, hg, heq⟩ := (Value.mem_canonicalFields hf).resolve_left List.not_mem_nil
    rw [heq]
    exact ih g hg

end Rollout
