import QueryTree.Proofs.Membership.Operand

/-!
# Operands that change sides

Two operands are promoted in the same way on whichever side of an operator they stand, if all
signatures of the operator have one type on both sides.  The numbers of the parameters that the
operands make for themselves depend on which one is read first, so that an operand is followed up to
these numbers.
-/

namespace QueryTree

namespace Expr

variable {table : ClassTable} {mode : Promotion} {e e' : Expr}

/-- Two expressions are alike as operands: the same constant, or expressions of one type that are no
constants and have the same outcome whatever they are evaluated with. -/
inductive Twin : Expr → Expr → Prop where
  | same (e : Expr) : Twin e e
  | alike {e e' : Expr} (variable_left : e.isConstant = false)
      (variable_right : e'.isConstant = false) (type : e.type = e'.type)
      (outcome : e.evaluate = e'.evaluate) : Twin e e'

namespace Twin

theorem type_eq (twin : e.Twin e') : e.type = e'.type := by
  cases twin with
  | same => rfl
  | alike _ _ type _ => exact type

theorem evaluate_eq (twin : e.Twin e') : e.evaluate = e'.evaluate := by
  cases twin with
  | same => rfl
  | alike _ _ _ outcome => exact outcome

theorem value?_eq_none (isVariable : e.isConstant = false) : e.value? = none :=
  Option.isSome_eq_false_iff.mp isVariable |> Option.isNone_iff_eq_none.mp

theorem value?_eq (twin : e.Twin e') : e.value? = e'.value? := by
  cases twin with
  | same => rfl
  | alike variable_left variable_right _ _ =>
      rw [value?_eq_none variable_left, value?_eq_none variable_right]

theorem convert (type : Ty) (twin : e.Twin e') : (Expr.convert type e).Twin (.convert type e') :=
  .alike rfl rfl rfl (by funext ctx; simp only [evaluate, twin.evaluate_eq])

theorem promoteConstant?_eq_none (target : Ty) (isVariable : e.isConstant = false) :
    promoteConstant? target e = none := by
  cases e with
  | constant => cases isVariable
  | _ => rfl

/-- Expressions that are alike are promoted alike. -/
theorem promote? (target : Ty) (twin : e.Twin e') :
    Option.Rel Twin (e.promote? table mode target) (e'.promote? table mode target) := by
  cases twin with
  | same =>
      cases e.promote? table mode target with
      | none => exact .none
      | some promoted => exact .some (.same promoted)
  | alike variable_left variable_right type outcome =>
      have twin : e.Twin e' := .alike variable_left variable_right type outcome
      simp only [Expr.promote?, promoteByType?, promoteConstant?_eq_none _ variable_left,
        promoteConstant?_eq_none _ variable_right, type, Option.none_or, Option.orElse_eq_or,
        Option.orElse_eq_orElse]
      split
      next => exact .some twin
      next =>
        split
        next =>
          split
          next => exact .some (twin.convert target)
          next => exact .some twin
        next => exact .none

end Twin

/-- Two operands, and two that are like them with the sides changed. -/
def Crossed (first second : Expr × Expr) : Prop :=
  first.1.Twin second.2 ∧ first.2.Twin second.1

/-- Two arguments, and two that are like them with the sides changed. -/
inductive ChangeSides : List Expr → List Expr → Prop where
  | intro {a b a' b' : Expr} (left : a.Twin a') (right : b.Twin b') : ChangeSides [a, b] [b', a']

theorem promoteAll?_pair (t u : Ty) (a b : Expr) :
    promoteAll? table mode [t, u] [a, b] =
      (a.promote? table mode t).bind fun x => (b.promote? table mode u).map fun y => [x, y] := by
  simp only [promoteAll?, Option.bind_eq_bind]
  cases a.promote? table mode t with
  | none => rfl
  | some x => cases b.promote? table mode u <;> rfl

namespace ChangeSides

variable {es es' : List Expr}

theorem of_rel {x x' y y' : Option Expr} (left : Option.Rel Twin x x')
    (right : Option.Rel Twin y y') :
    Option.Rel ChangeSides (x.bind fun a => y.map fun b => [a, b])
      (y'.bind fun b => x'.map fun a => [b, a]) := by
  cases left with
  | none => cases right <;> exact .none
  | some left =>
      cases right with
      | none => exact .none
      | some right => exact .some (.intro left right)

theorem promoteAll? (sides : ChangeSides es es') (t : Ty) :
    Option.Rel ChangeSides (Expr.promoteAll? table mode [t, t] es)
      (Expr.promoteAll? table mode [t, t] es') := by
  obtain ⟨left, right⟩ := sides
  rw [promoteAll?_pair, promoteAll?_pair]
  exact of_rel (left.promote? t) (right.promote? t)

end ChangeSides

end Expr

namespace Resolution

open QueryTree.Expr (ChangeSides)

variable {α : Type} {table : ClassTable} {mode : Promotion} {es es' : List Expr}

/-- Arguments that change sides are converted to two types in the same order. -/
theorem isBetter_sides (sides : ChangeSides es es') (t u : Ty) :
    isBetter table es [t, t] [u, u] = isBetter table es' [t, t] [u, u] := by
  obtain @⟨a, b, a', b', left, right⟩ := sides
  simp only [isBetter, conversionOrders, left.type_eq, right.type_eq, List.all_cons, List.all_nil,
    List.any_cons, List.any_nil, Bool.and_true, Bool.or_false]
  rw [Bool.and_comm (compareConversions table a'.type t u != .gt),
    Bool.or_comm (compareConversions table a'.type t u == .lt)]

/-- One candidate with one type on both sides, applied to arguments that have changed sides. -/
structure Applicable.ChangesSides (a a' : Applicable α) : Prop where
  place : a.place = a'.place
  candidate : a.candidate = a'.candidate
  params : a.params = a'.params
  paired : ∃ t, a.params = [t, t]
  args : ChangeSides a.args a'.args

/-- Outcomes of a choice that differ in the sides of the arguments. -/
inductive ChangesSides : Resolution α → Resolution α → Prop where
  | found (candidate : α) {es es' : List Expr} (sides : ChangeSides es es') :
      ChangesSides (.found candidate es) (.found candidate es')
  | notFound : ChangesSides .notFound .notFound
  | ambiguous (count : Nat) : ChangesSides (.ambiguous count) (.ambiguous count)

/-- Each candidate has one type on both sides. -/
def Paired (candidates : List (α × List Ty)) : Prop :=
  ∀ candidate ∈ candidates, ∃ t, candidate.2 = [t, t]

theorem applicable_sides {candidates : List (α × List Ty)} (sides : ChangeSides es es')
    (paired : Paired candidates) :
    List.Forall₂ Applicable.ChangesSides (applicable table mode es candidates)
      (applicable table mode es' candidates) := by
  have alike : List.Forall₂ (fun c c' : (α × List Ty) × Nat => c = c' ∧ ∃ t, c.1.2 = [t, t])
      candidates.zipIdx candidates.zipIdx :=
    List.forall₂_same.mpr fun c member => ⟨rfl, paired c.1 (List.fst_mem_of_mem_zipIdx member)⟩
  refine List.rel_filterMap ?_ alike
  rintro ⟨⟨candidate, params⟩, place⟩ _ ⟨rfl, t, rfl⟩
  simp only
  generalize Expr.promoteAll? table mode [t, t] es = promoted,
    Expr.promoteAll? table mode [t, t] es' = promoted', sides.promoteAll? t = alike
  cases alike with
  | none => exact .none
  | some args => exact .some ⟨rfl, rfl, rfl, ⟨t, rfl⟩, args⟩

theorem isBest_sides {all all' : List (Applicable α)} {a a' : Applicable α}
    (sides : ChangeSides es es') (alike : List.Forall₂ Applicable.ChangesSides all all')
    (same : a.ChangesSides a') :
    isBest table es all a = isBest table es' all' a' := by
  induction alike with
  | nil => rfl
  | @cons other other' others others' first _ ih =>
      obtain ⟨t, a_params⟩ := same.paired
      obtain ⟨u, other_params⟩ := first.paired
      have better : isBetter table es a.params other.params =
          isBetter table es' a'.params other'.params := by
        rw [← same.params, ← first.params, a_params, other_params, isBetter_sides sides]
      simp only [isBest, List.all_cons] at ih ⊢
      rw [ih, better, same.place, first.place]

theorem pairsNullableGuid_sides (sides : ChangeSides es es') :
    pairsNullableGuid es = pairsNullableGuid es' := by
  obtain ⟨left, right⟩ := sides
  simp only [pairsNullableGuid, List.any_cons, List.any_nil, left.type_eq, right.type_eq]
  rw [Bool.or_false, Bool.or_false, Bool.or_comm]
  rfl

theorem ChangesSides.of_applicable {a a' : Applicable α} (same : a.ChangesSides a') :
    ChangesSides (.found a.candidate a.args) (.found a'.candidate a'.args) := by
  rw [same.candidate]
  exact .found _ same.args

/-- What is chosen where no applicable candidate is best. -/
def unresolved (es : List Expr) : List (Applicable α) → Resolution α
  | [] => .notFound
  | a :: others =>
    if pairsNullableGuid es then .found a.candidate a.args else .ambiguous (a :: others).length

theorem unresolved_sides {all all' : List (Applicable α)} (sides : ChangeSides es es')
    (alike : List.Forall₂ Applicable.ChangesSides all all') :
    ChangesSides (unresolved es all) (unresolved es' all') := by
  cases alike with
  | nil => exact .notFound
  | cons first others =>
      simp only [unresolved, List.length_cons, others.length_eq, pairsNullableGuid_sides sides]
      split
      next => exact .of_applicable first
      next => exact .ambiguous _

/-- The only one of some candidates, or another outcome. -/
def onlyOr (other : Resolution α) : List (Applicable α) → Resolution α
  | [best] => .found best.candidate best.args
  | _ => other

theorem onlyOr_sides {other other' : Resolution α} {bests bests' : List (Applicable α)}
    (same : ChangesSides other other')
    (alike : List.Forall₂ Applicable.ChangesSides bests bests') :
    ChangesSides (onlyOr other bests) (onlyOr other' bests') := by
  cases alike with
  | nil => exact same
  | cons first others =>
      cases others with
      | nil => exact .of_applicable first
      | cons => exact same

theorem choose_eq_onlyOr (es : List Expr) (candidates : List (α × List Ty)) :
    choose table mode es candidates =
      onlyOr (unresolved es (applicable table mode es candidates))
        ((applicable table mode es candidates).filter
          (isBest table es (applicable table mode es candidates))) := by
  rw [choose_eq]
  rfl

/-- The choice does not depend on the sides of the arguments. -/
theorem choose_sides {candidates : List (α × List Ty)} (sides : ChangeSides es es')
    (paired : Paired candidates) :
    ChangesSides (choose table mode es candidates) (choose table mode es' candidates) := by
  have alike : List.Forall₂ Applicable.ChangesSides (applicable table mode es candidates)
      (applicable table mode es' candidates) := applicable_sides sides paired
  rw [choose_eq_onlyOr, choose_eq_onlyOr]
  refine onlyOr_sides (unresolved_sides sides alike) (List.rel_filter ?_ alike)
  intro a a' same
  exact iff_of_eq (congrArg (· = true) (isBest_sides sides alike same))

end Resolution

namespace OperatorGroup

open QueryTree.Expr (Crossed)

variable {table : ClassTable} {group : OperatorGroup} {symbol symbol' : String}
  {position position' : Nat}

/-- The operators of a group accept operands of one type. -/
theorem operands_sides {a b a' b' : Expr}
    (paired : ∀ signature ∈ group.signatures, ∃ t, signature = [t, t]) (left : a.Twin a')
    (right : b.Twin b') :
    Option.Rel Crossed (group.operands table symbol position a b).toOption
      (group.operands table symbol' position' b' a').toOption := by
  have pairs : Resolution.Paired (group.signatures.map fun types => (types, types)) := by
    intro candidate member
    obtain ⟨signature, isSignature, rfl⟩ := List.mem_map.mp member
    exact paired signature isSignature
  have chosen : Resolution.ChangesSides (group.resolve table [a, b])
      (group.resolve table [b', a']) := Resolution.choose_sides (.intro left right) pairs
  unfold operands
  generalize group.resolve table [a, b] = first, group.resolve table [b', a'] = second at chosen
  cases chosen with
  | found _ sides =>
      obtain ⟨left, right⟩ := sides
      exact .some ⟨left, right⟩
  | notFound => exact .none
  | ambiguous => exact .none

end OperatorGroup

end QueryTree
