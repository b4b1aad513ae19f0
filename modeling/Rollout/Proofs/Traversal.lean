import Mathlib.Data.List.Forall2
import Mathlib.Order.Lattice

/-!
# Proofs/Traversal — steps in a row, and lists element by element

A step and what comes after it succeed together (`bind_eq_ok_iff`).  A check of every element passes
exactly if each of them does (`forM_eq_ok_iff`), and a list is mapped exactly if each element is, which
pairs the elements with their results (`mapM_eq_some_iff`, `mapM_eq_ok_iff`).  What the pairs share is
read off the pairing.  A comparison of keys sorts a list (`pairwise_mergeSort_of_key`).
-/

namespace Rollout

/-! ## Steps that succeed -/

section Steps

variable {ε α β : Type}

/-- **A step and what comes after it succeed together.** -/
theorem bind_eq_ok_iff {x : Except ε α} {f : α → Except ε β} {b : β} :
    (x >>= f) = .ok b ↔ ∃ a, x = .ok a ∧ f a = .ok b := by
  cases x <;> simp [bind, Except.bind]

/-- A check and what comes after it succeed together. -/
theorem check_bind_eq_ok_iff {x : Except ε Unit} {f : Unit → Except ε β} {b : β} :
    (x >>= f) = .ok b ↔ x = .ok () ∧ f () = .ok b :=
  bind_eq_ok_iff.trans ⟨fun ⟨_, hx⟩ => hx, fun hx => ⟨(), hx⟩⟩

/-- A step that does nothing else comes to what it is given. -/
theorem pure_eq_ok_iff {a b : α} : (pure a : Except ε α) = .ok b ↔ a = b :=
  ⟨Except.ok.inj, congrArg _⟩

/-- Another error makes no other success. -/
theorem mapError_eq_ok_iff {ε' : Type} {x : Except ε α} {f : ε → ε'} {a : α} :
    x.mapError f = .ok a ↔ x = .ok a := by
  cases x with
  | error e => exact ⟨nofun, nofun⟩
  | ok b => exact ⟨fun h => congrArg _ (Except.ok.inj h), fun h => congrArg _ (Except.ok.inj h)⟩

/-- A check of every element passes exactly if each of them does. -/
theorem forM_eq_ok_iff {f : α → Except ε Unit} : ∀ {as : List α},
    as.forM f = .ok () ↔ ∀ a ∈ as, f a = .ok ()
  | [] => by simp [List.forM, pure, Except.pure]
  | a :: as => by
      rw [List.forM, check_bind_eq_ok_iff, forM_eq_ok_iff, List.forall_mem_cons]

end Steps

/-! ## Pairings -/

section Pairings

variable {ε α β γ : Type} {R : α → β → Prop} {l : List α} {r : List β}

theorem forall₂_mem_left (h : List.Forall₂ R l r) : ∀ a ∈ l, ∃ b ∈ r, R a b := by
  induction h with
  | nil => exact nofun
  | cons hab _ ih =>
    exact List.forall_mem_cons.mpr ⟨⟨_, List.mem_cons_self, hab⟩, fun a ha =>
      let ⟨b, hb, hr⟩ := ih a ha
      ⟨b, List.mem_cons_of_mem _ hb, hr⟩⟩

theorem forall₂_mem_right (h : List.Forall₂ R l r) : ∀ b ∈ r, ∃ a ∈ l, R a b :=
  forall₂_mem_left (List.Forall₂.flip h)

theorem forall₂_getElem? (h : List.Forall₂ R l r) : ∀ {i : Nat} {a : α}, l[i]? = some a →
    ∃ b, r[i]? = some b ∧ R a b := by
  induction h with
  | nil => exact nofun
  | cons hab _ ih =>
    intro i a hi
    cases i with
    | zero => exact ⟨_, rfl, Option.some.inj hi ▸ hab⟩
    | succ i => exact ih hi

/-- Paired elements that agree under two maps make the images equal. -/
theorem map_eq_of_forall₂ {f : α → γ} {g : β → γ} (h : List.Forall₂ R l r)
    (heq : ∀ a b, R a b → g b = f a) : r.map g = l.map f := by
  induction h with
  | nil => rfl
  | cons hab _ ih => exact congrArg₂ List.cons (heq _ _ hab) ih

/-- Choosing for every element succeeds exactly when every choice does. -/
theorem mapM_eq_some_iff {f : α → Option β} : ∀ {l : List α} {r : List β},
    l.mapM f = some r ↔ List.Forall₂ (fun a b => f a = some b) l r
  | [], r => by simp [eq_comm]
  | a :: l, r => by
      simp only [List.mapM_cons, Option.bind_eq_bind, Option.bind_eq_some_iff, mapM_eq_some_iff,
        List.forall₂_cons_left_iff]
      constructor
      · rintro ⟨b, hb, bs, hbs, heq⟩
        exact ⟨b, bs, hb, hbs, (Option.some.inj heq).symm⟩
      · rintro ⟨b, bs, hb, hbs, rfl⟩
        exact ⟨b, hb, bs, hbs, rfl⟩

/-- **A step for every element succeeds exactly when each of the steps does.** -/
theorem mapM_eq_ok_iff {f : α → Except ε β} : ∀ {l : List α} {r : List β},
    l.mapM f = .ok r ↔ List.Forall₂ (fun a b => f a = .ok b) l r
  | [], r => by simp [pure, Except.pure, eq_comm]
  | a :: l, r => by
      simp only [List.mapM_cons, bind_eq_ok_iff, mapM_eq_ok_iff, List.forall₂_cons_left_iff, pure,
        Except.pure, Except.ok.injEq]
      constructor
      · rintro ⟨b, hb, bs, hbs, heq⟩
        exact ⟨b, bs, hb, hbs, heq.symm⟩
      · rintro ⟨b, bs, hb, hbs, rfl⟩
        exact ⟨b, hb, bs, hbs, rfl⟩

end Pairings

/-! ## Sorting -/

/-- **Comparing elements by a key sorts them**, as long as the order of the keys is linear. -/
theorem pairwise_mergeSort_of_key {α β : Type} [LinearOrder β] {le : α → α → Bool} {f : α → β}
    (h : ∀ a b, le a b = true ↔ f a ≤ f b) (l : List α) :
    (l.mergeSort le).Pairwise fun a b => le a b = true := by
  refine List.pairwise_mergeSort (fun a b c hab hbc => ?_) (fun a b => ?_) l
  · rw [h] at hab hbc ⊢
    exact le_trans hab hbc
  · rw [Bool.or_eq_true, h, h]
    exact le_total (f a) (f b)

end Rollout
