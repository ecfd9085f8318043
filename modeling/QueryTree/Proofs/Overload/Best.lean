import QueryTree.Proofs.Overload.Promotion
import Mathlib.Data.List.Perm.Basic

/-!
# The best candidate

Overload resolution finds the one candidate that is better than all others that accept the
arguments.  To be better is asymmetric, so that there is at most one such candidate, and which one
it is does not depend on the order of the candidates.
-/

namespace QueryTree

section Comparison

variable {table : ClassTable}

theorem Ty.isUnsignedIntegral_eq_false {t : Ty} (isSigned : t.isSignedIntegral = true) :
    t.isUnsignedIntegral = false := by
  unfold isSignedIntegral at isSigned
  unfold isUnsignedIntegral
  cases kind : t.intKind? with
  | none => rfl
  | some kind => simp_all

/-- Of two conversions each is compared to the other in the same way. -/
theorem compareConversions_swap (source first second : Ty) :
    (compareConversions table source first second).swap =
      compareConversions table source second first := by
  have symm : (second == first) = (first == second) := BEq.comm
  have unequal (toFirst : (source == first) = true) (toSecond : (source == second) = true) :
      (first == second) = true := BEq.trans (BEq.symm toFirst) toSecond
  have first_sign := @Ty.isUnsignedIntegral_eq_false first
  have second_sign := @Ty.isUnsignedIntegral_eq_false second
  simp only [compareConversions, symm]
  grind [Ordering.swap]

end Comparison

namespace Resolution

variable {α : Type} {table : ClassTable} {mode : Promotion} {args : List Expr}

theorem conversionOrders_swap (args : List Expr) (first second : List Ty) :
    (conversionOrders table args first second).map Ordering.swap =
      conversionOrders table args second first := by
  induction args generalizing first second with
  | nil => rfl
  | cons arg args ih =>
      cases first with
      | nil => cases second <;> rfl
      | cons t first =>
          cases second with
          | nil => rfl
          | cons u second =>
              simp only [conversionOrders, List.map_cons, compareConversions_swap, ih]

/-- No two lists of parameter types are each better than the other. -/
theorem isBetter_asymm {first second : List Ty}
    (better : isBetter table args first second = true) :
    isBetter table args second first = false := by
  obtain ⟨-, wins⟩ := (Bool.and_eq_true _ _).mp better
  obtain ⟨order, member, isLess⟩ := List.any_eq_true.mp wins
  obtain rfl := beq_iff_eq.mp isLess
  refine Bool.and_eq_false_imp.mpr fun noLoss => ?_
  have isLoss : Ordering.gt ∈ conversionOrders table args second first := by
    rw [← conversionOrders_swap]
    exact List.mem_map.mpr ⟨.lt, member, rfl⟩
  exact absurd (List.all_eq_true.mp noLoss _ isLoss) (by decide)

/-- Whether the parameters of a candidate accept the arguments: there are as many of them, and each
argument is promoted to the type of its parameter. -/
def accepts (table : ClassTable) (mode : Promotion) (args : List Expr) (params : List Ty) : Bool :=
  params.length == args.length &&
    (List.zipWith (Expr.promote? table mode) params args).all Option.isSome

/-- The arguments one by one, each promoted to the type of its parameter. -/
def Promoted (table : ClassTable) (mode : Promotion) (args : List Expr) (params : List Ty)
    (promoted : List Expr) : Prop :=
  params.length = args.length ∧
    List.zipWith (Expr.promote? table mode) params args = promoted.map some

/-- A candidate that accepts the arguments and whose parameters are better than those of all other
candidates that do. -/
def Best (table : ClassTable) (mode : Promotion) (args : List Expr)
    (candidates : List (α × List Ty)) (best : α × List Ty) : Prop :=
  accepts table mode args best.2 = true ∧
    ∃ others, candidates.Perm (best :: others) ∧
      ∀ other ∈ others, accepts table mode args other.2 = true →
        isBetter table args best.2 other.2 = true

theorem promoteAll?_eq_some_iff {params : List Ty} {promoted : List Expr} :
    Expr.promoteAll? table mode params args = some promoted ↔
      Promoted table mode args params promoted := by
  induction params generalizing args promoted with
  | nil =>
      cases args with
      | nil => cases promoted <;> simp [Expr.promoteAll?, Promoted]
      | cons => simp [Expr.promoteAll?, Promoted]
  | cons t params ih =>
      cases args with
      | nil => simp [Expr.promoteAll?, Promoted]
      | cons arg args =>
          simp only [Expr.promoteAll?, Option.bind_eq_bind, Option.bind_eq_some_iff, ih, Promoted,
            List.length_cons, Nat.add_right_cancel_iff, List.zipWith_cons_cons]
          constructor
          · rintro ⟨first, head, rest, ⟨arity, tail⟩, same⟩
            obtain rfl := Option.some.inj same
            exact ⟨arity, by rw [head, tail]; rfl⟩
          · rintro ⟨arity, each⟩
            obtain ⟨first, rest, rfl, head, tail⟩ := List.map_eq_cons_iff.mp each.symm
            exact ⟨first, head.symm, rest, ⟨arity, tail.symm⟩, rfl⟩

theorem all_isSome_iff {outcomes : List (Option Expr)} :
    outcomes.all Option.isSome = true ↔ ∃ promoted : List Expr, outcomes = promoted.map some := by
  induction outcomes with
  | nil => exact ⟨fun _ => ⟨[], rfl⟩, fun _ => rfl⟩
  | cons outcome outcomes ih =>
      rw [List.all_cons, Bool.and_eq_true, ih, Option.isSome_iff_exists]
      constructor
      · rintro ⟨⟨first, rfl⟩, rest, rfl⟩
        exact ⟨first :: rest, rfl⟩
      · rintro ⟨promoted, same⟩
        obtain ⟨first, rest, -, rfl, rfl⟩ := List.map_eq_cons_iff.mp same.symm
        exact ⟨⟨first, rfl⟩, rest, rfl⟩

theorem accepts_iff {params : List Ty} :
    accepts table mode args params = true ↔
      ∃ promoted, Expr.promoteAll? table mode params args = some promoted := by
  simp only [accepts, Bool.and_eq_true, beq_iff_eq, all_isSome_iff, promoteAll?_eq_some_iff,
    Promoted, exists_and_left]

section Applicable

variable {candidates : List (α × List Ty)}

theorem mem_applicable_iff {a : Applicable α} :
    a ∈ applicable table mode args candidates ↔
      candidates[a.place]? = some (a.candidate, a.params) ∧
        Expr.promoteAll? table mode a.params args = some a.args := by
  rw [applicable, List.mem_filterMap]
  constructor
  · rintro ⟨⟨⟨candidate, params⟩, place⟩, member, outcome⟩
    obtain ⟨promoted, fits, rfl⟩ := Option.map_eq_some_iff.mp outcome
    exact ⟨List.mem_zipIdx_iff_getElem?.mp member, fits⟩
  · rintro ⟨located, fits⟩
    refine ⟨((a.candidate, a.params), a.place), List.mem_zipIdx_iff_getElem?.mpr located, ?_⟩
    simp only [fits, Option.map_some]

/-- The applicable candidates are in different places. -/
theorem pairwise_place_applicable :
    (applicable table mode args candidates).Pairwise fun a b => a.place ≠ b.place := by
  refine List.pairwise_filterMap.mpr ?_
  have ordered : candidates.zipIdx.Pairwise fun x y => x.2 ≠ y.2 := by
    rw [← List.pairwise_map, List.zipIdx_map_snd]
    exact List.nodup_range'
  refine ordered.imp fun {x y} distinct a fits b fits' => ?_
  obtain ⟨_, -, rfl⟩ := Option.map_eq_some_iff.mp fits
  obtain ⟨_, -, rfl⟩ := Option.map_eq_some_iff.mp fits'
  exact distinct

theorem length_applicable :
    (applicable table mode args candidates).length =
      candidates.countP fun candidate => accepts table mode args candidate.2 := by
  have candidates_eq : candidates = candidates.zipIdx.map Prod.fst := by simp
  conv_rhs => rw [candidates_eq, List.countP_map]
  rw [applicable, List.length_filterMap_eq_countP]
  refine List.countP_congr fun ⟨⟨candidate, params⟩, place⟩ _ => ?_
  rw [Function.comp_apply, accepts_iff, Option.isSome_map, Option.isSome_iff_exists]

theorem applicable_eq_nil_iff :
    applicable table mode args candidates = [] ↔
      ∀ candidate ∈ candidates, accepts table mode args candidate.2 = false := by
  simp only [← List.length_eq_zero_iff, length_applicable, List.countP_eq_zero, Bool.not_eq_true]

end Applicable

section Choice

variable {all : List (Applicable α)} {best : Applicable α}

/-- No two candidates in different places can both be the best. -/
theorem place_eq_of_isBest {a b : Applicable α} (aMember : a ∈ all) (bMember : b ∈ all)
    (aIsBest : isBest table args all a = true) (bIsBest : isBest table args all b = true) :
    a.place = b.place := by
  by_contra apart
  have beats := List.all_eq_true.mp aIsBest b bMember
  have beaten := List.all_eq_true.mp bIsBest a aMember
  simp only [Bool.or_eq_true, beq_iff_eq, apart, Ne.symm apart, false_or] at beats beaten
  simp [isBetter_asymm beats] at beaten

theorem filter_isBest_eq_singleton_iff (distinct : all.Pairwise fun a b => a.place ≠ b.place) :
    all.filter (isBest table args all) = [best] ↔
      best ∈ all ∧ isBest table args all best = true := by
  refine Iff.trans ?_ List.mem_filter
  have unique {a b : Applicable α} (aChosen : a ∈ all.filter (isBest table args all))
      (bChosen : b ∈ all.filter (isBest table args all)) : a.place = b.place :=
    place_eq_of_isBest (List.mem_filter.mp aChosen).1 (List.mem_filter.mp bChosen).1
      (List.mem_filter.mp aChosen).2 (List.mem_filter.mp bChosen).2
  have apart := distinct.filter (isBest table args all)
  match chosen : all.filter (isBest table args all) with
  | [] => simp
  | [a] => simp [eq_comm]
  | a :: b :: _ =>
      rw [chosen] at apart unique
      have separate := (List.pairwise_cons.mp apart).1 b (by simp)
      exact absurd (unique (by simp) (by simp)) separate

end Choice

section Candidates

variable {candidates candidates' : List (α × List Ty)}

theorem choose_eq :
    choose table mode args candidates =
      match (applicable table mode args candidates).filter
        (isBest table args (applicable table mode args candidates)) with
      | [best] => .found best.candidate best.args
      | _ =>
        match applicable table mode args candidates with
        | [] => .notFound
        | a :: others =>
          if pairsNullableGuid args then .found a.candidate a.args
          else .ambiguous (a :: others).length := by
  match all : applicable table mode args candidates with
  | [] => simp [choose, all]
  | [a] => simp [choose, all, isBest]
  | a :: b :: others =>
      rewrite [choose, all]
      rfl

/-- The best applicable candidate, seen among all candidates. -/
theorem best_iff {best : α × List Ty} {promoted : List Expr}
    (fits : Promoted table mode args best.2 promoted) :
    Best table mode args candidates best ↔
      ∃ place, ⟨place, best.1, best.2, promoted⟩ ∈ applicable table mode args candidates ∧
        isBest table args (applicable table mode args candidates)
          ⟨place, best.1, best.2, promoted⟩ = true := by
  have fits := promoteAll?_eq_some_iff.mpr fits
  constructor
  · rintro ⟨-, others, rearranged, beats⟩
    obtain ⟨place, bound, located⟩ :=
      List.mem_iff_getElem.mp (rearranged.mem_iff.mpr (List.mem_cons_self ..))
    have erased : (candidates.eraseIdx place).Perm others := by
      have whole := List.getElem_cons_eraseIdx_perm bound
      rw [located] at whole
      exact (whole.trans rearranged).cons_inv
    refine ⟨place, mem_applicable_iff.mpr ⟨?_, fits⟩, List.all_eq_true.mpr fun other member => ?_⟩
    · exact (List.getElem?_eq_getElem bound).trans (congrArg some located)
    · obtain ⟨otherLocated, otherFits⟩ := mem_applicable_iff.mp member
      by_cases same : place = other.place
      · simp [same]
      · have isOther : (other.candidate, other.params) ∈ others :=
          erased.mem_iff.mp (List.mem_eraseIdx_iff_getElem?.mpr ⟨_, Ne.symm same, otherLocated⟩)
        have better := beats _ isOther (accepts_iff.mpr ⟨_, otherFits⟩)
        simp [better]
  · rintro ⟨place, member, isBest⟩
    obtain ⟨located, -⟩ := mem_applicable_iff.mp member
    obtain ⟨bound, located⟩ := List.getElem?_eq_some_iff.mp located
    have rearranged := (List.getElem_cons_eraseIdx_perm bound).symm
    rw [located] at rearranged
    refine ⟨accepts_iff.mpr ⟨promoted, fits⟩, _, rearranged, fun other isOther accepted => ?_⟩
    obtain ⟨otherPlace, apart, otherLocated⟩ := List.mem_eraseIdx_iff_getElem?.mp isOther
    obtain ⟨otherPromoted, otherFits⟩ := accepts_iff.mp accepted
    have beats := List.all_eq_true.mp isBest ⟨otherPlace, other.1, other.2, otherPromoted⟩
      (mem_applicable_iff.mpr ⟨otherLocated, otherFits⟩)
    simpa [Ne.symm apart] using beats

/-- The best candidate is chosen. -/
theorem Best.found {best : α × List Ty} {promoted : List Expr}
    (isBest : Best table mode args candidates best)
    (fits : Promoted table mode args best.2 promoted) :
    choose table mode args candidates = .found best.1 promoted := by
  obtain ⟨place, isBest⟩ := (best_iff fits).mp isBest
  rw [choose_eq, (filter_isBest_eq_singleton_iff pairwise_place_applicable).mpr isBest]

theorem choose_eq_found_iff (regular : pairsNullableGuid args = false) {candidate : α}
    {promoted : List Expr} :
    choose table mode args candidates = .found candidate promoted ↔
      ∃ params, Best table mode args candidates (candidate, params) ∧
        Promoted table mode args params promoted := by
  constructor
  · intro found
    simp only [choose_eq, regular, Bool.false_eq_true, if_false] at found
    split at found
    next best single =>
      obtain ⟨rfl, rfl⟩ := Resolution.found.inj found
      obtain ⟨member, isBest⟩ :=
        (filter_isBest_eq_singleton_iff pairwise_place_applicable).mp single
      have fits := promoteAll?_eq_some_iff.mp (mem_applicable_iff.mp member).2
      exact ⟨best.params, (best_iff fits).mpr ⟨best.place, member, isBest⟩, fits⟩
    next => split at found <;> cases found
  · rintro ⟨params, isBest, fits⟩
    exact isBest.found fits

theorem choose_eq_notFound_iff (regular : pairsNullableGuid args = false) :
    choose table mode args candidates = .notFound ↔
      ∀ candidate ∈ candidates, accepts table mode args candidate.2 = false := by
  rw [← applicable_eq_nil_iff]
  constructor
  · intro outcome
    simp only [choose_eq, regular, Bool.false_eq_true, if_false] at outcome
    split at outcome
    next => cases outcome
    next =>
      split at outcome
      next none => exact none
      next => cases outcome
  · intro none
    simp [choose_eq, none]

theorem choose_eq_ambiguous_iff (regular : pairsNullableGuid args = false) {count : Nat} :
    choose table mode args candidates = .ambiguous count ↔
      count = candidates.countP (fun candidate => accepts table mode args candidate.2) ∧
        (∃ candidate ∈ candidates, accepts table mode args candidate.2 = true) ∧
        ¬∃ best, Best table mode args candidates best := by
  constructor
  · intro outcome
    refine ⟨?_, ?_, ?_⟩
    · simp only [choose_eq, regular, Bool.false_eq_true, if_false] at outcome
      split at outcome
      next => cases outcome
      next =>
        split at outcome
        next => cases outcome
        next all =>
          rw [← length_applicable, all]
          exact (Resolution.ambiguous.inj outcome).symm
    · by_contra none
      have notFound := (choose_eq_notFound_iff regular).mpr fun candidate member =>
        Bool.eq_false_iff.mpr fun accepted => none ⟨candidate, member, accepted⟩
      cases notFound.symm.trans outcome
    · rintro ⟨best, isBest⟩
      obtain ⟨promoted, fits⟩ := accepts_iff.mp isBest.1
      have found := isBest.found (promoteAll?_eq_some_iff.mp fits)
      cases found.symm.trans outcome
  · rintro ⟨rfl, ⟨candidate, member, accepted⟩, unresolved⟩
    simp only [choose_eq, regular, Bool.false_eq_true, if_false]
    split
    next best single =>
      obtain ⟨isMember, isBest⟩ :=
        (filter_isBest_eq_singleton_iff pairwise_place_applicable).mp single
      have fits := promoteAll?_eq_some_iff.mp (mem_applicable_iff.mp isMember).2
      exact absurd ⟨(best.candidate, best.params),
        (best_iff fits).mpr ⟨best.place, isMember, isBest⟩⟩ unresolved
    next =>
      split
      next none => simp [applicable_eq_nil_iff.mp none candidate member] at accepted
      next all => rw [← all, length_applicable]

/-- At most one candidate is the best. -/
theorem Best.unique {best best' : α × List Ty} (isBest : Best table mode args candidates best)
    (isBest' : Best table mode args candidates best') : best = best' := by
  obtain ⟨promoted, fits⟩ := accepts_iff.mp isBest.1
  obtain ⟨promoted', fits'⟩ := accepts_iff.mp isBest'.1
  obtain ⟨place, member, isBest⟩ := (best_iff (promoteAll?_eq_some_iff.mp fits)).mp isBest
  obtain ⟨place', member', isBest'⟩ := (best_iff (promoteAll?_eq_some_iff.mp fits')).mp isBest'
  obtain rfl : place = place' := place_eq_of_isBest member member' isBest isBest'
  have located := (mem_applicable_iff.mp member).1
  rw [(mem_applicable_iff.mp member').1] at located
  exact (Option.some.inj located).symm

theorem Best.perm {best : α × List Ty} (rearranged : candidates'.Perm candidates) :
    Best table mode args candidates' best ↔ Best table mode args candidates best := by
  have others_iff (others : List (α × List Ty)) :
      candidates'.Perm (best :: others) ↔ candidates.Perm (best :: others) :=
    ⟨rearranged.symm.trans, rearranged.trans⟩
  simp only [Best, others_iff]

/-- The order of the candidates does not matter. -/
theorem choose_perm (regular : pairsNullableGuid args = false)
    (rearranged : candidates'.Perm candidates) :
    choose table mode args candidates' = choose table mode args candidates := by
  cases outcome : choose table mode args candidates with
  | found candidate promoted =>
      simpa only [choose_eq_found_iff regular, Best.perm rearranged] using outcome
  | notFound =>
      simpa only [choose_eq_notFound_iff regular, rearranged.mem_iff] using outcome
  | ambiguous count =>
      simpa only [choose_eq_ambiguous_iff regular, Best.perm rearranged, rearranged.mem_iff,
        rearranged.countP_eq] using outcome

/-- Overload resolution, where the exception for identifiers does not apply: it finds nothing if no
candidate accepts the arguments, it finds the best candidate with the promoted arguments if there
is one, and otherwise reports how many candidates accept them.  There is at most one best
candidate, since no two candidates are each better than the other, and the order of the candidates
does not matter. -/
theorem choose_resolves (candidates : List (α × List Ty))
    (regular : pairsNullableGuid args = false) :
    (choose table mode args candidates = .notFound ↔
        ∀ candidate ∈ candidates, accepts table mode args candidate.2 = false) ∧
      (∀ candidate promoted, choose table mode args candidates = .found candidate promoted ↔
        ∃ params, Best table mode args candidates (candidate, params) ∧
          Promoted table mode args params promoted) ∧
      (∀ count, choose table mode args candidates = .ambiguous count ↔
        count = candidates.countP (fun candidate => accepts table mode args candidate.2) ∧
          (∃ candidate ∈ candidates, accepts table mode args candidate.2 = true) ∧
          ¬∃ best, Best table mode args candidates best) ∧
      (∀ best best', Best table mode args candidates best →
        Best table mode args candidates best' → best = best') ∧
      (∀ first second, isBetter table args first second = true →
        isBetter table args second first = false) ∧
      (∀ candidates', candidates'.Perm candidates →
        choose table mode args candidates' = choose table mode args candidates) :=
  ⟨choose_eq_notFound_iff regular, fun _ _ => choose_eq_found_iff regular,
    fun _ => choose_eq_ambiguous_iff regular, fun _ _ isBest isBest' => isBest.unique isBest',
    fun _ _ => isBetter_asymm, fun _ => choose_perm regular⟩

end Candidates

section Exact

/-- Parameters of the very types of the arguments. -/
def Exact (args : List Expr) (params : List Ty) : Prop :=
  List.Forall₂ (fun arg param => (arg.type == param) = true) args params

variable {params other : List Ty}

theorem Exact.promoted (exact : Exact args params) : Promoted table mode args params args := by
  rw [← promoteAll?_eq_some_iff]
  induction exact with
  | nil => rfl
  | cons same _ ih => simp [Expr.promoteAll?, Expr.promote?, same, ih]

theorem compareConversions_exact {source first second : Ty} (same : (source == first) = true) :
    compareConversions table source first second = if first == second then .eq else .lt := by
  simp [compareConversions, same]

/-- Parameters of the very types of the arguments are better than all others. -/
theorem Exact.isBetter (exact : Exact args params) (arity : other.length = args.length)
    (differs : Ty.sameAll params other = false) : isBetter table args params other = true := by
  suffices wins : (conversionOrders table args params other).all (· != .gt) = true ∧
      (Ty.sameAll params other = false →
        (conversionOrders table args params other).any (· == .lt) = true) from
    (Bool.and_eq_true _ _).mpr ⟨wins.1, wins.2 differs⟩
  clear differs
  induction exact generalizing other with
  | nil =>
      obtain rfl := List.length_eq_zero_iff.mp arity
      exact ⟨rfl, by simp [Ty.sameAll]⟩
  | @cons arg t args params same _ ih =>
      obtain ⟨u, rest, rfl⟩ := List.exists_cons_of_length_eq_add_one arity
      obtain ⟨noLoss, win⟩ := ih (Nat.succ.inj arity)
      have head : Ty.same t u = (t == u) := rfl
      simp only [conversionOrders, compareConversions_exact same, Ty.sameAll, head, List.all_cons,
        List.any_cons]
      cases t == u with
      | true => exact ⟨noLoss, win⟩
      | false => exact ⟨noLoss, fun _ => rfl⟩

end Exact

/-- A signed and an unsigned long number as parameters. -/
def longForms : List (String × List Ty) := [("unsigned", [.integral .uint64]), ("signed", [.int64])]

/-- For a short unsigned number the signed form is the best one, whichever comes first. -/
theorem choose_resolves_longForms :
    let n := Expr.parameter ⟨0, "n", .integral .uint16⟩
    pairsNullableGuid [n] = false ∧
      (∃ params, Best .initial .argument [n] longForms ("signed", params)) ∧
      choose .initial .argument [n] longForms.reverse =
        .found "signed" [.convert .int64 n] := by
  intro n
  have regular : pairsNullableGuid [n] = false := rfl
  have found : choose .initial .argument [n] longForms =
      .found "signed" [.convert .int64 n] := rfl
  obtain ⟨-, found_iff, -, -, -, order⟩ :=
    @choose_resolves _ .initial .argument _ longForms regular
  obtain ⟨params, isBest, -⟩ := (found_iff _ _).mp found
  exact ⟨regular, ⟨params, isBest⟩, (order _ (List.reverse_perm _)).trans found⟩

end Resolution

end QueryTree
