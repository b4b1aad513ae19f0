import Mathlib.Data.List.Forall2
import Mathlib.Data.List.Nodup
import Mathlib.Data.List.Perm.Basic
import Rollout.Value.Source

/-!
# Proofs/Value/Respelled — spelling a value differently

A value that was written by one program may be edited before another one reads it: fields that say
the default are left out, fields are put in another order, and others are added that nobody asks for.
`RespelledRecord` says so for records, field by field, and `RespelledList` for lists, item by item.

A reader is `Faithful` to a writer up to such a spelling if it reads back what was written.  Readers of
records look fields up by their names.  `RespelledRecord.exists_known` tells what they find, and
`withDefault_eq`, `required_eq` and `maybe_eq` what each look-up comes to.
-/

namespace Rollout

/-! ## Spellings -/

/-- **Which values may stand for a value.** -/
abbrev Respelling := Value → Value → Prop

/-- What may become of the field of that name. -/
structure FieldRule where
  name : String
  /-- What may stand for its value. -/
  respelling : Respelling := Eq
  /-- The value with which it may be left out. -/
  default : Option Value := none

/-- **The fields of a record that are written**: each is there, respelled, or is left out with its
default value. -/
inductive Kept (rules : List FieldRule) :
    List (String × Value) → List (String × Value) → Prop where
  | nil : Kept rules [] []
  | keep {rule : FieldRule} {v w : Value} {fs kept : List (String × Value)} (mem : rule ∈ rules)
      (respelled : rule.respelling v w) (rest : Kept rules fs kept) :
      Kept rules ((rule.name, v) :: fs) ((rule.name, w) :: kept)
  | drop {rule : FieldRule} {v : Value} {fs kept : List (String × Value)} (mem : rule ∈ rules)
      (default : rule.default = some v) (rest : Kept rules fs kept) :
      Kept rules ((rule.name, v) :: fs) kept

/-- **A record with some fields left out and unknown ones added**, in any order. -/
inductive RespelledRecord (rules : List FieldRule) : Respelling where
  | mk {fs kept unknown gs : List (String × Value)} (fields : Kept rules fs kept)
      (names : ∀ f ∈ unknown, f.1 ∉ rules.map (·.name)) (order : gs.Perm (kept ++ unknown)) :
      RespelledRecord rules (.record fs) (.record gs)

/-- **A list with its items spelled differently.** -/
inductive RespelledList (r : Respelling) : Respelling where
  | mk {vs ws : List Value} (items : List.Forall₂ r vs ws) : RespelledList r (.list vs) (.list ws)

/-- A record is a spelling of itself if its fields are. -/
theorem RespelledRecord.refl {rules : List FieldRule} {fs : List (String × Value)}
    (h : ∀ f ∈ fs, ∃ rule ∈ rules, rule.name = f.1 ∧ rule.respelling f.2 f.2) :
    RespelledRecord rules (.record fs) (.record fs) := by
  have hkept : Kept rules fs fs := by
    induction fs with
    | nil => exact .nil
    | cons f fs ih =>
      obtain ⟨⟨rule, hrule, hname, hself⟩, hrest⟩ := List.forall_mem_cons.mp h
      rw [show f = (rule.name, f.2) from Prod.ext hname.symm rfl]
      exact .keep hrule hself (ih hrest)
  have hnone : ∀ f ∈ ([] : List (String × Value)), f.1 ∉ rules.map (·.name) := nofun
  exact .mk hkept hnone (by rw [List.append_nil])

/-! ## Known fields -/

/-- With names used once, a look-up finds what is in the list. -/
theorem lookup_eq_some_of_mem {l : List (String × Value)} {name : String} {v : Value}
    (hnames : (l.map Prod.fst).Nodup) (h : (name, v) ∈ l) : l.lookup name = some v := by
  obtain ⟨before, behind, rfl⟩ := List.append_of_mem h
  rw [List.map_append, List.map_cons] at hnames
  refine List.lookup_eq_some_iff.mpr ⟨before, behind, rfl, fun f hf => bne_iff_ne.mpr ?_⟩
  rintro rfl
  exact (List.nodup_append.mp hnames).2.2 _ (List.mem_map_of_mem hf) _ List.mem_cons_self rfl

/-- A look-up finds nothing under a name that is not there. -/
theorem lookup_eq_none_of_notMem {l : List (String × Value)} {name : String}
    (h : name ∉ l.map Prod.fst) : l.lookup name = none :=
  List.lookup_eq_none_iff.mpr fun _ hf => bne_iff_ne.mpr fun heq =>
    h (heq ▸ List.mem_map_of_mem hf)

namespace Kept

variable {rules : List FieldRule} {fs kept : List (String × Value)}

/-- No field gets another name. -/
theorem sublist (h : Kept rules fs kept) : (kept.map Prod.fst).Sublist (fs.map Prod.fst) := by
  induction h with
  | nil => exact .slnil
  | keep _ _ _ ih => exact ih.cons_cons _
  | drop _ _ _ ih => exact ih.cons _

/-- Every field has its rule. -/
theorem name_mem (h : Kept rules fs kept) : ∀ f ∈ kept, f.1 ∈ rules.map (·.name) := by
  induction h with
  | nil => exact fun _ hf => nomatch hf
  | keep mem _ _ ih => exact List.forall_mem_cons.mpr ⟨List.mem_map_of_mem mem, ih⟩
  | drop _ _ _ ih => exact ih

/-- **A field that was written is there or holds its default value.** -/
theorem mem_or (h : Kept rules fs kept) (hrules : (rules.map (·.name)).Nodup)
    (hfs : (fs.map Prod.fst).Nodup) {rule : FieldRule} (hrule : rule ∈ rules) {v : Value}
    (hv : (rule.name, v) ∈ fs) :
    (∃ w, (rule.name, w) ∈ kept ∧ rule.respelling v w) ∨
      rule.name ∉ kept.map Prod.fst ∧ rule.default = some v := by
  induction h with
  | nil => exact nomatch hv
  | @keep rule' v' w fs kept mem respelled rest ih =>
    obtain ⟨hnew, hfs⟩ := List.nodup_cons.mp hfs
    rcases List.mem_cons.mp hv with heq | hv
    · obtain ⟨hname, rfl⟩ := Prod.mk.inj heq
      obtain rfl := List.inj_on_of_nodup_map hrules hrule mem hname
      exact .inl ⟨w, List.mem_cons_self, respelled⟩
    · rcases ih hfs hv with ⟨w', hw', hrespelled⟩ | ⟨hnone, hdefault⟩
      · exact .inl ⟨w', List.mem_cons_of_mem _ hw', hrespelled⟩
      · refine .inr ⟨fun hmem => ?_, hdefault⟩
        rcases List.mem_cons.mp hmem with hname | hmem
        · exact hnew (hname ▸ List.mem_map_of_mem hv)
        · exact hnone hmem
  | @drop rule' v' fs kept mem default rest ih =>
    obtain ⟨hnew, hfs⟩ := List.nodup_cons.mp hfs
    rcases List.mem_cons.mp hv with heq | hv
    · obtain ⟨hname, rfl⟩ := Prod.mk.inj heq
      obtain rfl := List.inj_on_of_nodup_map hrules hrule mem hname
      exact .inr ⟨fun hmem => hnew (rest.sublist.subset hmem), default⟩
    · exact ih hfs hv

end Kept

/-- **What a reader finds under the names it knows.** -/
structure Known (rules : List FieldRule) (fs known : List (String × Value)) : Prop where
  /-- A field that was written is found, respelled, or has its default value. -/
  written : ∀ rule ∈ rules, ∀ v, (rule.name, v) ∈ fs →
    (∃ w, known.lookup rule.name = some w ∧ rule.respelling v w) ∨
      known.lookup rule.name = none ∧ rule.default = some v
  /-- A field that was not written is not found. -/
  unwritten : ∀ name, name ∉ fs.map Prod.fst → known.lookup name = none

/-- **A respelled record is read as a record**, and its fields are found. -/
theorem RespelledRecord.exists_known {rules : List FieldRule} {fs : List (String × Value)}
    {v : Value} (h : RespelledRecord rules (.record fs) v) (names : List String)
    (hnames : rules.map (·.name) = names) (hnodup : names.Nodup) (hfs : (fs.map Prod.fst).Nodup) :
    ∃ known, Value.source.fields names v = pure known ∧ Known rules fs known := by
  subst hnames
  cases h with
  | @mk _ kept unknown gs fields names order =>
    let asked := gs.filter fun f => (rules.map (·.name)).contains f.1
    have hkept : kept.filter (fun f => (rules.map (·.name)).contains f.1) = kept :=
      List.filter_eq_self.mpr fun f hf => List.contains_iff_mem.mpr (fields.name_mem f hf)
    have hunknown : unknown.filter (fun f => (rules.map (·.name)).contains f.1) = [] :=
      List.filter_eq_nil_iff.mpr fun f hf h => names f hf (List.contains_iff_mem.mp h)
    have hperm : asked.Perm kept := by
      have h := order.filter fun f => (rules.map (·.name)).contains f.1
      rwa [List.filter_append, hkept, hunknown, List.append_nil] at h
    have hasked : (asked.map Prod.fst).Nodup :=
      (hperm.map Prod.fst).nodup_iff.mpr (fields.sublist.nodup hfs)
    refine ⟨asked, if_pos hasked, ⟨fun rule hrule v hv => ?_, fun name hname => ?_⟩⟩
    · rcases fields.mem_or hnodup hfs hrule hv with ⟨w, hw, hrespelled⟩ | ⟨hnone, hdefault⟩
      · exact .inl ⟨w, lookup_eq_some_of_mem hasked (hperm.symm.subset hw), hrespelled⟩
      · refine .inr ⟨lookup_eq_none_of_notMem fun h => hnone ?_, hdefault⟩
        exact (hperm.map Prod.fst).subset h
    · refine lookup_eq_none_of_notMem fun h => hname ?_
      exact fields.sublist.subset ((hperm.map Prod.fst).subset h)

/-! ## Faithful readers -/

/-- **A reader takes every spelling of what was written for what was written.** -/
structure Faithful {α : Type} (write : α → Value) (read : Value → Reading α) (r : Respelling) :
    Prop where
  /-- What is written is a spelling of itself. -/
  refl : ∀ a, r (write a) (write a)
  reads : ∀ a v, r (write a) v → read v = pure a

namespace Faithful

variable {α : Type} {write : α → Value} {read : Value → Reading α} {r : Respelling}

/-- A reading yields one value. -/
theorem pure_inj {a b : α} (h : (pure a : Reading α) = pure b) : a = b :=
  (Prod.mk.inj (Option.some.inj (congrFun h 0))).1

/-- **Different things are written differently.** -/
theorem write_injective (h : Faithful write read r) {a b : α} (heq : write a = write b) : a = b :=
  pure_inj ((h.reads a _ (h.refl a)).symm.trans (h.reads b _ (heq ▸ h.refl b)))

/-- Items are read one by one. -/
theorem list (h : Faithful write read r) :
    Faithful (fun as => .list (as.map write)) (Value.source.each read) (RespelledList r) where
  refl as := .mk (List.forall₂_same.mpr fun v hv => by
    obtain ⟨a, -, rfl⟩ := List.mem_map.mp hv
    exact h.refl a)
  reads as v hv := by
    have hread : ∀ {as : List α} {vs : List Value}, List.Forall₂ r (as.map write) vs →
        vs.mapM read = pure as := by
      intro as vs hitems
      induction as generalizing vs with
      | nil =>
        obtain rfl := List.forall₂_nil_left_iff.mp hitems
        rfl
      | cons a as ih =>
        obtain ⟨v, vs, hv, hvs, rfl⟩ := List.forall₂_cons_left_iff.mp hitems
        rw [List.mapM_cons, h.reads a v hv, pure_bind, ih hvs, pure_bind]
    cases hv with
    | mk items => exact hread items

end Faithful

/-! ## Looking up -/

section Lookup

variable {α : Type} {write : α → Value} {read : Value → Reading α} {r : Respelling}
  {rules : List FieldRule} {fs known : List (String × Value)} {name : String} {a : α}

namespace Known

/-- **A field with a default value is read back**, there or not. -/
theorem withDefault_eq (h : Known rules fs known) (hread : Faithful write read r) {d : α}
    (hrule : ⟨name, r, some (write d)⟩ ∈ rules) (hfield : (name, write a) ∈ fs) :
    Source.withDefault known name read d = pure a := by
  rcases h.written _ hrule _ hfield with ⟨w, hw, hrespelled⟩ | ⟨hnone, hdefault⟩
  · rw [Source.withDefault, hw]
    exact hread.reads a w hrespelled
  · rw [Source.withDefault, hnone, hread.write_injective (Option.some.inj hdefault)]

/-- **A field without one is there and read back.** -/
theorem required_eq (h : Known rules fs known) (hread : Faithful write read r)
    (hrule : ⟨name, r, none⟩ ∈ rules) (hfield : (name, write a) ∈ fs) :
    Source.required known name read = pure a := by
  rcases h.written _ hrule _ hfield with ⟨w, hw, hrespelled⟩ | ⟨-, hdefault⟩
  · rw [Source.required, hw]
    exact hread.reads a w hrespelled
  · exact nomatch hdefault

/-- **A field that is written for a value that is there** is read back as that value, and its absence
as absence. -/
theorem maybe_eq (h : Known rules fs known) (hread : Faithful write read r)
    (hnull : read .null = failure) {o : Option α} (hrule : ⟨name, r, none⟩ ∈ rules)
    (hsome : ∀ a, o = some a → (name, write a) ∈ fs)
    (hnone : o = none → name ∉ fs.map Prod.fst) :
    Source.maybe Value.source known name read = pure o := by
  cases o with
  | none => rw [Source.maybe, Source.withDefault, h.unwritten name (hnone rfl)]
  | some a =>
    rcases h.written _ hrule _ (hsome a rfl) with ⟨w, hw, hrespelled⟩ | ⟨-, hdefault⟩
    · have hw' := hread.reads a w hrespelled
      have hoptional : Value.source.optional w = pure (some w) := by
        cases w with
        | null => exact nomatch congrFun (hnull.symm.trans hw') 0
        | bool | int | real | text | list | record => rfl
      rw [Source.maybe, Source.withDefault, hw]
      simp only [hoptional, pure_bind, hw', map_pure]
    · exact nomatch hdefault

end Known

end Lookup

end Rollout
