import QueryTree.Evaluate.Error
import Mathlib.Data.List.Forall2

/-!
# Outcomes that may fail

When a sequence of steps that may fail succeeds, and how it fails.
-/

namespace QueryTree

section Success

variable {ε α β : Type}

theorem bind_eq_ok_iff {first : Except ε α} {next : α → Except ε β} {b : β} :
    first >>= next = .ok b ↔ ∃ a, first = .ok a ∧ next a = .ok b := by
  cases first with
  | error error => simp [bind, Except.bind]
  | ok a => simp [bind, Except.bind]

theorem map_eq_ok_iff {outcome : Except ε α} {f : α → β} {b : β} :
    outcome.map f = .ok b ↔ ∃ a, outcome = .ok a ∧ f a = b := by
  cases outcome with
  | error error => simp [Except.map]
  | ok a => simp [Except.map]

theorem bind_eq_error_iff {first : Except ε α} {next : α → Except ε β} {error : ε} :
    first >>= next = .error error ↔
      first = .error error ∨ ∃ a, first = .ok a ∧ next a = .error error := by
  cases first with
  | error error => simp [bind, Except.bind]
  | ok a => simp [bind, Except.bind]

theorem pure_eq_ok_iff {a b : α} : (pure a : Except ε α) = .ok b ↔ a = b := by
  simp [pure, Except.pure]

/-- An outcome of which something is known is one. -/
theorem exists_ok_of_any {outcome : Except ε α} {holds : α → Bool}
    (any : outcome.toOption.any holds = true) : ∃ a, outcome = .ok a ∧ holds a = true := by
  cases outcome with
  | error error => cases any
  | ok a => exact ⟨a, rfl, any⟩

/-- An outcome that is no value is an error. -/
theorem exists_error_of_isNone {outcome : Except ε α} (none : outcome.toOption.isNone = true) :
    ∃ error, outcome = .error error := by
  cases outcome with
  | error error => exact ⟨error, rfl⟩
  | ok a => cases none

end Success

section Sequence

variable {ε α β : Type} {f : α → Except ε β} {items : List α}

theorem mapM_eq_ok {g : α → β} (each : ∀ a ∈ items, f a = .ok (g a)) :
    items.mapM f = .ok (items.map g) := by
  induction items with
  | nil => rfl
  | cons a rest ih =>
      obtain ⟨head, tail⟩ := List.forall_mem_cons.mp each
      rw [List.mapM_cons, head, ih tail]
      rfl

theorem exists_mapM_eq_ok {related : α → β → Prop}
    (each : ∀ a ∈ items, ∃ b, f a = .ok b ∧ related a b) :
    ∃ bs, items.mapM f = .ok bs ∧ List.Forall₂ related items bs := by
  induction items with
  | nil => exact ⟨[], rfl, .nil⟩
  | cons a rest ih =>
      obtain ⟨⟨b, head, isRelated⟩, tail⟩ := List.forall_mem_cons.mp each
      obtain ⟨bs, mapped, areRelated⟩ := ih tail
      refine ⟨b :: bs, ?_, .cons isRelated areRelated⟩
      rw [List.mapM_cons, head, mapped]
      rfl

theorem forall₂_of_mapM_eq_ok {bs : List β} (mapped : items.mapM f = .ok bs) :
    List.Forall₂ (fun a b => f a = .ok b) items bs := by
  induction items generalizing bs with
  | nil =>
      obtain rfl := pure_eq_ok_iff.mp mapped
      exact .nil
  | cons a rest ih =>
      rw [List.mapM_cons] at mapped
      obtain ⟨b, head, mapped⟩ := bind_eq_ok_iff.mp mapped
      obtain ⟨others, tail, built⟩ := bind_eq_ok_iff.mp mapped
      obtain rfl := pure_eq_ok_iff.mp built
      exact .cons head (ih tail)

theorem mapM_eq_error {a : α} {error : ε} (isItem : a ∈ items) (fails : f a = .error error) :
    ∃ first, items.mapM f = .error first := by
  induction items with
  | nil => cases isItem
  | cons b rest ih =>
      rw [List.mapM_cons]
      cases head : f b with
      | error first => exact ⟨first, rfl⟩
      | ok b' =>
          have isLater : a ∈ rest := by
            obtain rfl | isLater := List.mem_cons.mp isItem
            · rw [head] at fails
              cases fails
            · exact isLater
          obtain ⟨first, failed⟩ := ih isLater
          exact ⟨first, by rw [failed]; rfl⟩

theorem filterM_eq_ok {f : α → Except ε Bool} {holds : α → Bool}
    (each : ∀ a ∈ items, f a = .ok (holds a)) : items.filterM f = .ok (items.filter holds) := by
  have kept (held : List α) :
      items.filterAuxM f held = .ok ((items.filter holds).reverse ++ held) := by
    induction items generalizing held with
    | nil => rfl
    | cons a rest ih =>
        obtain ⟨head, tail⟩ := List.forall_mem_cons.mp each
        rw [List.filterAuxM, head, List.filter_cons]
        refine (ih tail _).trans ?_
        cases holds a <;> simp
  rw [List.filterM, kept, List.append_nil]
  exact congrArg Except.ok (List.reverse_reverse _)

end Sequence

end QueryTree
