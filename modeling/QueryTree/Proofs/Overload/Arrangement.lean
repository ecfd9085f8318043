import QueryTree.Proofs.Overload.Hiding

/-!
# The order of the candidates

Where one of two arguments is an identifier or null no call is ambiguous: the first candidate that
accepts the arguments is chosen if none is best.  So the order of the candidates matters there, and
it does so exactly if no candidate is best and two that accept the arguments mean different calls.
-/

namespace QueryTree.Resolution

variable {α : Type} {table : ClassTable} {mode : Promotion} {args promoted : List Expr}
  {candidates candidates' : List (α × List Ty)} {candidate : α}

/-- A candidate that accepts the arguments before all others that do. -/
def First (table : ClassTable) (mode : Promotion) (args : List Expr)
    (candidates : List (α × List Ty)) (first : α × List Ty) : Prop :=
  accepts table mode args first.2 = true ∧
    ∃ front back, candidates = front ++ first :: back ∧
      ∀ other ∈ front, accepts table mode args other.2 = false

theorem promoteAll?_eq_none_iff {params : List Ty} :
    Expr.promoteAll? table mode params args = none ↔ accepts table mode args params = false := by
  rw [← Bool.not_eq_true, accepts_iff, Option.eq_none_iff_forall_ne_some, not_exists]

theorem first?_eq_some_iff :
    first? table mode args candidates = some (candidate, promoted) ↔
      ∃ params, First table mode args candidates (candidate, params) ∧
        Promoted table mode args params promoted := by
  simp only [first?, List.findSome?_eq_some_iff, Option.map_eq_some_iff, Option.map_eq_none_iff,
    promoteAll?_eq_none_iff]
  constructor
  · rintro ⟨front, first, back, rfl, ⟨promoted', fits, same⟩, refused⟩
    obtain ⟨rfl, rfl⟩ := Prod.mk.inj same
    exact ⟨first.2, ⟨accepts_iff.mpr ⟨_, fits⟩, front, back, rfl, refused⟩,
      promoteAll?_eq_some_iff.mp fits⟩
  · rintro ⟨params, ⟨-, front, back, rfl, refused⟩, fits⟩
    exact ⟨front, (candidate, params), back, rfl, ⟨promoted, promoteAll?_eq_some_iff.mpr fits, rfl⟩,
      refused⟩

theorem first?_eq_none_iff :
    first? table mode args candidates = none ↔
      ∀ candidate ∈ candidates, accepts table mode args candidate.2 = false := by
  simp only [first?, List.findSome?_eq_none_iff, Option.map_eq_none_iff, promoteAll?_eq_none_iff]

/-- A candidate that accepts the arguments can be put first. -/
theorem exists_perm_first {first : α × List Ty} (member : first ∈ candidates)
    (accepted : accepts table mode args first.2 = true) :
    ∃ candidates', candidates'.Perm candidates ∧ First table mode args candidates' first := by
  obtain ⟨front, back, rfl⟩ := List.append_of_mem member
  exact ⟨first :: (front ++ back), List.perm_middle.symm, accepted, [], front ++ back, rfl, by simp⟩

/-- The candidates mean one call to the arguments. -/
def Agree (table : ClassTable) (mode : Promotion) (args : List Expr)
    (candidates : List (α × List Ty)) : Prop :=
  ∀ a ∈ candidates, ∀ b ∈ candidates, accepts table mode args a.2 = true →
    accepts table mode args b.2 = true →
    a.1 = b.1 ∧ Expr.promoteAll? table mode a.2 args = Expr.promoteAll? table mode b.2 args

theorem choose_perm_of_best {best : α × List Ty} (isBest : Best table mode args candidates best)
    (rearranged : candidates'.Perm candidates) :
    choose table mode args candidates' = choose table mode args candidates := by
  obtain ⟨promoted, fits⟩ := accepts_iff.mp isBest.1
  have fits := promoteAll?_eq_some_iff.mp fits
  rw [isBest.found fits, ((Best.perm rearranged).mpr isBest).found fits]

section Irregular

variable (irregular : pairsNullableGuid args = true)

include irregular

theorem choose_eq_found_iff_of_pairs :
    choose table mode args candidates = .found candidate promoted ↔
      (∃ params, Best table mode args candidates (candidate, params) ∧
          Promoted table mode args params promoted) ∨
        (¬∃ best, Best table mode args candidates best) ∧
          ∃ params, First table mode args candidates (candidate, params) ∧
            Promoted table mode args params promoted := by
  constructor
  · intro found
    obtain isBest | ⟨noBest, -, isFirst⟩ := best_or_first found
    · exact .inl isBest
    · exact .inr ⟨noBest, first?_eq_some_iff.mp isFirst⟩
  · rintro (⟨params, isBest, fits⟩ | ⟨noBest, isFirst⟩)
    · exact isBest.found fits
    · rw [choose_eq_first irregular noBest, first?_eq_some_iff.mpr isFirst]

/-- With an identifier or null among two arguments, nothing is found only if nothing accepts them,
and no call is ambiguous. -/
theorem choose_of_pairs :
    (∃ candidate promoted, choose table mode args candidates = .found candidate promoted) ∨
      choose table mode args candidates = .notFound ∧
        ∀ candidate ∈ candidates, accepts table mode args candidate.2 = false := by
  by_cases best : ∃ best, Best table mode args candidates best
  · obtain ⟨best, isBest⟩ := best
    obtain ⟨promoted, fits⟩ := accepts_iff.mp isBest.1
    exact .inl ⟨_, promoted, isBest.found (promoteAll?_eq_some_iff.mp fits)⟩
  · rw [choose_eq_first irregular best]
    cases isFirst : first? table mode args candidates with
    | some first => exact .inl ⟨first.1, first.2, rfl⟩
    | none => exact .inr ⟨rfl, first?_eq_none_iff.mp isFirst⟩

theorem choose_eq_notFound_iff_of_pairs :
    choose table mode args candidates = .notFound ↔
      ∀ candidate ∈ candidates, accepts table mode args candidate.2 = false := by
  constructor
  · intro notFound
    obtain ⟨_, _, found⟩ | ⟨-, refused⟩ := @choose_of_pairs _ table mode _ candidates irregular
    · cases notFound.symm.trans found
    · exact refused
  · intro refused
    obtain ⟨candidate, promoted, found⟩ | ⟨notFound, -⟩ := @choose_of_pairs _ table mode _ candidates irregular
    · obtain ⟨params, member, fits⟩ := choose_found found
      cases (accepts_iff.mpr ⟨_, fits⟩).symm.trans (refused _ member)
    · exact notFound

theorem choose_perm_of_agree (agree : Agree table mode args candidates)
    (rearranged : candidates'.Perm candidates) :
    choose table mode args candidates' = choose table mode args candidates := by
  obtain ⟨candidate, promoted, found⟩ | ⟨notFound, refused⟩ := @choose_of_pairs _ table mode _ candidates irregular
  · obtain ⟨candidate', promoted', found'⟩ | ⟨-, refused⟩ := @choose_of_pairs _ table mode _ candidates' irregular
    · obtain ⟨params, member, fits⟩ := choose_found found
      obtain ⟨params', member', fits'⟩ := choose_found found'
      obtain ⟨same, same_promoted⟩ := agree _ (rearranged.mem_iff.mp member') _ member
        (accepts_iff.mpr ⟨_, fits'⟩) (accepts_iff.mpr ⟨_, fits⟩)
      rw [fits, fits'] at same_promoted
      obtain rfl : candidate' = candidate := same
      rw [found, found', Option.some.inj same_promoted]
    · obtain ⟨params, member, fits⟩ := choose_found found
      cases (accepts_iff.mpr ⟨_, fits⟩).symm.trans (refused _ (rearranged.mem_iff.mpr member))
  · rw [notFound, choose_eq_notFound_iff_of_pairs irregular]
    exact fun candidate member => refused candidate (rearranged.mem_iff.mp member)

/-- Candidates whose order does not matter agree, unless one of them is best: each can be put
first. -/
theorem agree_of_choose_perm (noBest : ¬∃ best, Best table mode args candidates best)
    (order : ∀ candidates', candidates'.Perm candidates →
      choose table mode args candidates' = choose table mode args candidates) :
    Agree table mode args candidates := by
  have outcome {first : α × List Ty} (member : first ∈ candidates)
      (accepted : accepts table mode args first.2 = true) :
      ∃ promoted, Expr.promoteAll? table mode first.2 args = some promoted ∧
        choose table mode args candidates = .found first.1 promoted := by
    obtain ⟨candidates', rearranged, isFirst⟩ := exists_perm_first member accepted
    obtain ⟨promoted, fits⟩ := accepts_iff.mp accepted
    have noBest : ¬∃ best, Best table mode args candidates' best :=
      fun ⟨best, isBest⟩ => noBest ⟨best, (Best.perm rearranged).mp isBest⟩
    refine ⟨promoted, fits, (order candidates' rearranged).symm.trans ?_⟩
    exact (choose_eq_found_iff_of_pairs irregular).mpr
      (.inr ⟨noBest, first.2, isFirst, promoteAll?_eq_some_iff.mp fits⟩)
  intro a isCandidate b isCandidate' accepted accepted'
  obtain ⟨promoted, fits, found⟩ := outcome isCandidate accepted
  obtain ⟨promoted', fits', found'⟩ := outcome isCandidate' accepted'
  obtain ⟨same, rfl⟩ := Resolution.found.inj (found.symm.trans found')
  exact ⟨same, fits.trans fits'.symm⟩

end Irregular

/-- Overload resolution where one of two arguments is an identifier or null: a candidate is found
if and only if it is the best one, or none is best and it is the first one that accepts the
arguments.  Nothing is found only if nothing accepts them, and no call is ambiguous.  The order of
the candidates does not matter if and only if one is best, or all that accept the arguments mean one
call. -/
theorem pairs_resolves (table : ClassTable) (mode : Promotion) (candidates : List (α × List Ty))
    (irregular : pairsNullableGuid args = true) :
    (∀ candidate promoted, choose table mode args candidates = .found candidate promoted ↔
      (∃ params, Best table mode args candidates (candidate, params) ∧
          Promoted table mode args params promoted) ∨
        (¬∃ best, Best table mode args candidates best) ∧
          ∃ params, First table mode args candidates (candidate, params) ∧
            Promoted table mode args params promoted) ∧
      (choose table mode args candidates = .notFound ↔
        ∀ candidate ∈ candidates, accepts table mode args candidate.2 = false) ∧
      (∀ count, choose table mode args candidates ≠ .ambiguous count) ∧
      ((∀ candidates', candidates'.Perm candidates →
          choose table mode args candidates' = choose table mode args candidates) ↔
        (∃ best, Best table mode args candidates best) ∨ Agree table mode args candidates) := by
  refine ⟨fun _ _ => choose_eq_found_iff_of_pairs irregular,
    choose_eq_notFound_iff_of_pairs irregular, fun count ambiguous => ?_,
    fun order => ?_, ?_⟩
  · obtain ⟨_, _, found⟩ | ⟨notFound, -⟩ := @choose_of_pairs _ table mode _ candidates irregular
    · cases ambiguous.symm.trans found
    · cases ambiguous.symm.trans notFound
  · by_cases best : ∃ best, Best table mode args candidates best
    · exact .inl best
    · exact .inr (agree_of_choose_perm irregular best order)
  · rintro (⟨best, isBest⟩ | agree) candidates' rearranged
    · exact choose_perm_of_best isBest rearranged
    · exact choose_perm_of_agree irregular agree rearranged

section Example

/-- An identifier or null on either side, beside any value. -/
def sides : List (String × List Ty) :=
  [("left", [.object, .nullable .guid]), ("right", [.nullable .guid, .object])]

/-- With a form for two identifiers it is found wherever it stands. -/
theorem pairs_resolves_sides :
    let x := Expr.parameter ⟨0, "x", .nullable .guid⟩
    let y := Expr.parameter ⟨1, "y", .nullable .guid⟩
    let both := ("both", [Ty.nullable .guid, .nullable .guid])
    pairsNullableGuid [x, y] = true ∧
      Best .initial .argument [x, y] (sides ++ [both]) both ∧
      choose .initial .argument [x, y] (both :: sides) = .found "both" [x, y] := by
  intro x y both
  have irregular : pairsNullableGuid [x, y] = true := rfl
  have isBest : Best .initial .argument [x, y] (sides ++ [both]) both :=
    ⟨by decide +kernel, sides, List.perm_append_comm, by decide +kernel⟩
  obtain ⟨found_iff, -, -, order⟩ :=
    pairs_resolves .initial .argument (sides ++ [both]) irregular
  have found := (found_iff "both" [x, y]).mpr
    (.inl ⟨both.2, isBest, by rw [← promoteAll?_eq_some_iff]; rfl⟩)
  exact ⟨irregular, isBest,
    (order.mpr (.inl ⟨both, isBest⟩) (both :: sides)
      (@List.perm_append_comm _ [both] sides)).trans found⟩

/-- For two identifiers or null the form that comes first is found, though neither is better. -/
theorem sides_count :
    let x := Expr.parameter ⟨0, "x", .nullable .guid⟩
    let y := Expr.parameter ⟨1, "y", .nullable .guid⟩
    choose .initial .argument [x, y] sides = .found "left" [.convert .object x, y] ∧
      accepts .initial .argument [x, y] [.nullable .guid, .object] = true ∧
      isBetter .initial [x, y] [.object, .nullable .guid] [.nullable .guid, .object] = false ∧
      choose .initial .argument [x, y] sides.reverse =
        .found "right" [x, .convert .object y] := by
  exact ⟨rfl, by decide +kernel, by decide +kernel, rfl⟩

end Example

end QueryTree.Resolution
