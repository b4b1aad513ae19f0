import Rollout.Render.Builtin
import Rollout.Render.Context
import Rollout.Template.Evaluate

/-!
# Proofs/Template/Fill — a template as the text it becomes

`Fills scope parts text` has one rule for each kind of part, so a template is filled in by naming its
parts from front to back.  What stands under a condition on an optional text appears once for the text
that there is to show (`shown`), what is repeated appears once for every item.
-/

namespace Rollout

/-- **Parts that can be filled in, and the text that they become.** -/
def Fills (scope : Scope) (parts : List Part) (text : String) : Prop :=
  evaluateParts scope parts = .ok text

/-- The text that a condition on an optional text lets through; the empty one does not count. -/
def shown : Option String → List String
  | some s => if s.isEmpty then [] else [s]
  | none => []

theorem shown_cases (o : Option String) : shown o = [] ∨ ∃ s, o = some s ∧ shown o = [s] := by
  cases o with
  | none => exact Or.inl rfl
  | some s =>
    rw [shown]
    split
    · exact Or.inl rfl
    · exact Or.inr ⟨s, rfl, rfl⟩

theorem eq_some_of_mem_shown {o : Option String} {s : String} (h : s ∈ shown o) : o = some s := by
  rcases shown_cases o with hnone | ⟨t, rfl, hsome⟩
  · exact absurd (hnone ▸ h) List.not_mem_nil
  · exact congrArg some (List.mem_singleton.mp (hsome ▸ h)).symm

@[simp] theorem Value.fill_nat (n : Nat) : (Value.nat n).fill = Text.decimal n := rfl

@[simp] theorem Value.fill_text (s : String) : (Value.text s).fill = s := by rw [Value.fill]

/-- A condition on an optional text asks whether there is one to show. -/
theorem isTrue_optionalText (o : Option String) :
    (optionalText o).isTrue = !(shown o).isEmpty := by
  cases o with
  | none => rfl
  | some s =>
    have htrue : (optionalText (some s)).isTrue = !s.isEmpty := rfl
    rw [htrue, shown]
    cases s.isEmpty <;> rfl

namespace Fills

variable {scope : Scope} {ps qs : List Part} {t u : String}

/-! ## Parts in a row -/

theorem nil : Fills scope [] "" := by rw [Fills, evaluateParts]

theorem congr (h : Fills scope ps t) (ht : t = u) : Fills scope ps u := ht ▸ h

/-- **Parts are filled in one behind the other.** -/
theorem cons {p : Part} (hp : p.evaluate scope = .ok t) (hps : Fills scope ps u) :
    Fills scope (p :: ps) (t ++ u) := by
  rw [Fills] at hps
  rw [Fills, evaluateParts, hp, hps]
  rfl

/-- The first part of a list that can be filled in. -/
theorem of_cons {p : Part} (h : Fills scope (p :: ps) t) :
    ∃ u v, p.evaluate scope = .ok u ∧ Fills scope ps v ∧ t = u ++ v := by
  rw [Fills, evaluateParts] at h
  cases hp : p.evaluate scope with
  | error e => simp [hp, bind, Except.bind] at h
  | ok u =>
    cases hps : evaluateParts scope ps with
    | error e => simp [hp, hps, bind, Except.bind] at h
    | ok v =>
      rw [hp, hps] at h
      exact ⟨u, v, rfl, hps, (Except.ok.inj h).symm⟩

theorem append (hqs : Fills scope qs u) : ∀ {ps : List Part} {t : String}, Fills scope ps t →
    Fills scope (ps ++ qs) (t ++ u)
  | [], t, hps => by
      obtain rfl : "" = t := Except.ok.inj (nil.symm.trans hps)
      rwa [List.nil_append, String.empty_append]
  | p :: ps, t, hps => by
      obtain ⟨v, w, hp, hrest, rfl⟩ := hps.of_cons
      rw [List.cons_append, String.append_assoc]
      exact cons hp (hqs.append hrest)

/-! ## Texts and values -/

theorem text {s : String} (h : Fills scope ps t) : Fills scope (.text s :: ps) (s ++ t) :=
  cons (by rw [Part.evaluate]) h

/-- **A value is filled in where it is found.** -/
theorem of {root : String} {fields : List String} {v : Value}
    (hv : (Expr.path root fields).eval scope = some v) (h : Fills scope ps t) :
    Fills scope (.of root fields :: ps) (v.fill ++ t) :=
  cons (by rw [Part.of, Part.evaluate, hv]) h

/-! ## Repetitions -/

variable {x root : String} {fields : List String} {body : List Part} {α : Type} {as : List α}
  {f : α → Value}

/-- **A repetition is filled in item by item**, each with its number. -/
theorem numbered {g : α → Nat → String}
    (has : (Expr.path root fields).eval scope = some (.list (as.map f)))
    (hbody : ∀ a i, Fills (("loop", loopValue as.length i) :: (x, f a) :: scope) body (g a i))
    (h : Fills scope ps t) :
    Fills scope (.repetition x (Builtin.field root fields) body :: ps)
      (String.join (as.zipIdx.map fun p => g p.1 p.2) ++ t) := by
  refine cons ?_ h
  have hfill : (fun p : α × Nat =>
      evaluateParts (("loop", loopValue as.length p.2) :: (x, f p.1) :: scope) body)
        = fun p => pure (g p.1 p.2) := funext fun p => hbody p.1 p.2
  rw [Builtin.field, Part.evaluate, has]
  simp only [Option.bind_some, Value.repeated?, List.length_map, List.zipIdx_map, List.mapM_map]
  exact congrArg (String.join <$> ·) ((congrArg (as.zipIdx.mapM ·) hfill).trans List.mapM_pure)

/-- A repetition that does not mention the number of the item. -/
theorem forEach {g : α → String}
    (has : (Expr.path root fields).eval scope = some (.list (as.map f)))
    (hbody : ∀ a v, Fills (("loop", v) :: (x, f a) :: scope) body (g a)) (h : Fills scope ps t) :
    Fills scope (.repetition x (Builtin.field root fields) body :: ps)
      (String.join (as.map g) ++ t) := by
  have hfst : as.zipIdx.map (fun p => g p.1) = as.map g :=
    (List.map_map ..).symm.trans (congrArg (List.map g) (List.zipIdx_map_fst 0 as))
  rw [← hfst]
  exact numbered has (fun a i => hbody a _) h

/-! ## Conditions -/

/-- **Parts about an optional text stand where there is one to show.** -/
theorem whenShown {o : Option String} {g : String → String}
    (ho : (Expr.path root fields).eval scope = some (optionalText o))
    (hbody : ∀ s, (Expr.path root fields).eval scope = some (.text s) → Fills scope body (g s))
    (h : Fills scope ps t) :
    Fills scope (Builtin.whenSet root fields body :: ps)
      (String.join ((shown o).map g) ++ t) := by
  refine cons ?_ h
  rw [Builtin.whenSet, Part.evaluate, Expr.holds, Builtin.field, ho, Option.any_some,
    isTrue_optionalText]
  rcases shown_cases o with hnone | ⟨s, rfl, hsome⟩
  · rw [hnone]
    exact (nil : Fills scope [] "")
  · rw [hsome, List.map_singleton, String.join_cons, String.join_nil, String.append_empty]
    exact hbody s ho

/-- **Parts about a list stand where it has an item.** -/
theorem whenAny {ss : List String}
    (hss : (Expr.path root fields).eval scope = some (.texts ss)) (hbody : Fills scope body u)
    (h : Fills scope ps t) :
    Fills scope (Builtin.whenSet root fields body :: ps) ((if ss.isEmpty then "" else u) ++ t) := by
  refine cons ?_ h
  rw [Builtin.whenSet, Part.evaluate, Expr.holds, Builtin.field, hss, Option.any_some]
  cases ss with
  | nil => exact (nil : Fills scope [] "")
  | cons s ss => exact hbody

end Fills

end Rollout
