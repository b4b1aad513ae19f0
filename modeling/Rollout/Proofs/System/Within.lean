import Rollout.Proofs.System.Regular

/-!
# Proofs/System/Within — operations among files and directories
-/

namespace Rollout.FileTree

variable {t t' t'' : FileTree} {p q r : Place} {e : Entry} {ps qs : List Place}

/-! ## What is moved onto -/

theorem isBelow_iff : isBelow p q = true ↔ p <+: q ∧ p ≠ q := by
  rw [isBelow, Bool.and_eq_true, List.isPrefixOf_iff_prefix, bne_iff_ne]

/-- Nothing lies below a place without children. -/
theorem lookup_of_not_hasChildren (h : t.hasChildren p = false) (hr : isBelow p r = true) :
    t.lookup r = none := by
  have hne : r ≠ [] := by
    rintro rfl
    obtain ⟨hbegins, hne⟩ := isBelow_iff.mp hr
    exact hne (List.prefix_nil.mp hbegins)
  rw [lookup_of_ne_nil hne, List.lookup_eq_none_iff]
  intro x hx
  rw [hasChildren, List.any_eq_false] at h
  refine bne_iff_ne.mpr fun heq => h x hx ?_
  rwa [← heq]

/-- **What lies at a place gives way to what is moved there**: nothing lies below it, and it is a directory
only if the other one is. -/
structure GivesWay (t : FileTree) (p q : Place) : Prop where
  bare : ∀ r, isBelow q r = true → t.lookup r = none
  kind : t.lookup q = some .directory → t.lookup p = some .directory

/-- What is no directory gives way. -/
theorem Sound.givesWay (h : t.Sound) (hleaf : t.lookup q ≠ some .directory) : t.GivesWay p q :=
  ⟨fun _ hr => h.lookup_below hleaf hr, fun hdir => absurd hdir hleaf⟩

namespace GivesWay

variable (hway : t.GivesWay p q) (hpq : ¬ p <+: q) (hqp : ¬ q <+: p)
include hway hpq hqp

/-- A place that is not moved is kept, unless something is moved onto it. -/
theorem lookup_apart (hp : ¬ p <+: r) (hq : ¬ q <+: r) : (t.move p q).lookup r = t.lookup r := by
  rw [lookup_move hpq hqp hway.bare, if_neg hq, if_neg hp]

/-- What is moved lies below the new place. -/
theorem lookup_append (s : Place) : (t.move p q).lookup (q ++ s) = t.lookup (p ++ s) := by
  rw [lookup_move hpq hqp hway.bare, if_pos (List.prefix_append q s), List.drop_left]

/-- What is moved is gone. -/
theorem lookup_source : (t.move p q).lookup p = none := by
  rw [lookup_move hpq hqp hway.bare, if_neg hqp, if_pos (List.prefix_refl p)]

/-- Where a directory is that is not moved. -/
theorem directory (hp : ¬ p <+: r) (hr : t.lookup r = some .directory) :
    (t.move p q).lookup r = some .directory := by
  rcases eq_or_ne r q with rfl | hne
  · have happend := hway.lookup_append hpq hqp []
    rw [List.append_nil, List.append_nil] at happend
    rw [happend, hway.kind hr]
  · refine (hway.lookup_apart hpq hqp hp fun hq => ?_).trans hr
    rw [hway.bare r (isBelow_iff.mpr ⟨hq, hne.symm⟩)] at hr
    exact nomatch hr

end GivesWay

/-! ## Trees that stay regular -/

namespace Regular

variable (h : t.Regular)
include h

/-- **Something new in a directory**, in the place of no directory. -/
theorem insert (hd : t.lookup p.dropLast = some .directory) (hleaf : t.lookup p ≠ some .directory)
    (he : e = .directory ∨ ∃ content isPrivate, e = .file content isPrivate) :
    (t.insert p e).Regular := by
  have hp : p ≠ [] := fun hnil => hleaf (by rw [hnil, lookup_nil])
  have hother {r : Place} (hr : t.lookup r = some .directory) :
      (t.insert p e).lookup r = some .directory := by
    rwa [lookup_insert_of_ne]
    rintro rfl
    exact hleaf hr
  refine ⟨⟨hother h.sound.home, fun r name hsome => ?_⟩, fun r e' hr => ?_⟩
  · rcases eq_or_ne (r ++ [name]) p with rfl | hne
    · rw [List.dropLast_concat] at hd
      exact hother hd
    · rw [lookup_insert_of_ne hne] at hsome
      exact hother (h.sound.lodged r name hsome)
  · rcases eq_or_ne r p with rfl | hne
    · rw [lookup_insert_self hp] at hr
      exact Option.some.inj hr ▸ he
    · rw [lookup_insert_of_ne hne] at hr
      exact h.kind r e' hr

/-- **Something less**, that is no directory. -/
theorem erase (hleaf : t.lookup p ≠ some .directory) : (t.erase p).Regular := by
  have hp : p ≠ [] := fun hnil => hleaf (by rw [hnil, lookup_nil])
  have hother {r : Place} (hr : t.lookup r = some .directory) :
      (t.erase p).lookup r = some .directory := by
    rwa [lookup_erase_of_ne]
    rintro rfl
    exact hleaf hr
  have hthere {r : Place} {e : Entry} (hr : (t.erase p).lookup r = some e) : t.lookup r = some e := by
    rcases eq_or_ne r p with rfl | hne
    · rw [lookup_erase_self hp] at hr
      exact nomatch hr
    · rwa [lookup_erase_of_ne hne] at hr
  refine ⟨⟨hother h.sound.home, fun r name hsome => ?_⟩, fun r e hr => h.kind r e (hthere hr)⟩
  obtain ⟨e, he⟩ := Option.isSome_iff_exists.mp hsome
  exact hother (h.sound.lodged r name (by rw [hthere he]; rfl))

/-- **Something moved in a directory.** -/
theorem move (hpq : ¬ p <+: q) (hqp : ¬ q <+: p) (hway : t.GivesWay p q)
    (hd : t.lookup q.dropLast = some .directory) : (t.move p q).Regular := by
  have hcarry {r : Place} (hr : t.lookup r = some .directory) :
      (t.move p q).lookup (carry p q r) = some .directory := by
    by_cases hp : p <+: r
    · obtain ⟨s, rfl⟩ := hp
      rw [carry_append, hway.lookup_append hpq hqp, hr]
    · rw [carry_of_not_begins hp]
      exact hway.directory hpq hqp hp hr
  refine ⟨⟨hcarry h.sound.home, fun r name hsome => ?_⟩, fun r e hr => ?_⟩
  · rw [lookup_move hpq hqp hway.bare] at hsome
    split_ifs at hsome with hq hp
    · obtain ⟨s, hs⟩ := hq
      rcases List.eq_nil_or_concat s with rfl | ⟨s, last, rfl⟩
      · -- The place itself lies in a directory that is not moved.
        rw [List.append_nil] at hs
        rw [hs, List.dropLast_concat] at hd
        refine hway.directory hpq hqp (fun hp => hpq ?_) hd
        rw [hs]
        exact hp.trans (List.prefix_append r [name])
      · rw [List.concat_eq_append, ← List.append_assoc] at hs
        obtain ⟨rfl, hlast⟩ := List.append_inj' hs rfl
        rw [List.append_assoc, List.drop_left, ← List.append_assoc] at hsome
        rw [hway.lookup_append hpq hqp]
        exact h.sound.lodged _ _ hsome
    · exact nomatch hsome
    · exact hway.directory hpq hqp (fun hp' => hp (hp'.trans (List.prefix_append r [name])))
        (h.sound.lodged r name hsome)
  · rw [lookup_move hpq hqp hway.bare] at hr
    split_ifs at hr
    · exact h.kind _ e hr
    · exact h.kind _ e hr

end Regular

/-! ## Changes within some places -/

/-- **Nothing is different but at some places and below them.** -/
structure Within (ps : List Place) (t t' : FileTree) : Prop where
  same : ∀ q, (∀ p ∈ ps, ¬ p <+: q) → t'.lookup q = t.lookup q
  home : (∀ p ∈ ps, ¬ p <+: t.home) → t'.home = t.home

namespace Within

theorem refl (ps : List Place) (t : FileTree) : Within ps t t := ⟨fun _ _ => rfl, fun _ => rfl⟩

theorem trans (h : Within ps t t') (h' : Within ps t' t'') : Within ps t t'' :=
  ⟨fun q hq => (h'.same q hq).trans (h.same q hq), fun hhome =>
    (h'.home (h.home hhome ▸ hhome)).trans (h.home hhome)⟩

theorem mono (h : Within ps t t') (hsub : ps ⊆ qs) : Within qs t t' :=
  ⟨fun q hq => h.same q fun p hp => hq p (hsub hp), fun hhome => h.home fun p hp => hhome p (hsub hp)⟩

theorem insert (t : FileTree) (p : Place) (e : Entry) : Within [p] t (t.insert p e) :=
  ⟨fun _ hq => lookup_insert_of_ne fun heq =>
    hq p List.mem_cons_self (heq ▸ List.prefix_refl _), fun _ => rfl⟩

theorem erase (t : FileTree) (p : Place) : Within [p] t (t.erase p) :=
  ⟨fun _ hq => lookup_erase_of_ne fun heq =>
    hq p List.mem_cons_self (heq ▸ List.prefix_refl _), fun _ => rfl⟩

theorem move (hpq : ¬ p <+: q) (hqp : ¬ q <+: p) (hway : t.GivesWay p q) :
    Within [p, q] t (t.move p q) :=
  ⟨fun _ hr => hway.lookup_apart hpq hqp (hr p List.mem_cons_self)
    (hr q (List.mem_cons_of_mem _ List.mem_cons_self)), fun hhome =>
      carry_of_not_begins (hhome p List.mem_cons_self)⟩

/-- Where a path starts that starts at none of the places. -/
theorem startOf (h : Within ps t t') {path : String} (hstart : ∀ p ∈ ps, ¬ p <+: t.startOf path) :
    t'.startOf path = t.startOf path := by
  rw [FileTree.startOf, FileTree.startOf] at *
  split_ifs at *
  · rfl
  · exact h.home hstart

end Within

end Rollout.FileTree
