import QueryTree.Proofs.Overload.Best
import QueryTree.Compile.Expression
import QueryTree.Proofs.Outcome

/-!
# Declarations behind others

The methods and indexers of a class stand in one list with those of its ancestors behind them, and
the best of all is called.  A declaration that repeats the parameters of another one is not hidden
by it: neither is better than the other, so that a call that would mean one of them means none.
-/

namespace QueryTree

namespace Resolution

variable {α : Type} {table : ClassTable} {mode : Promotion} {args : List Expr}

theorem isBetter_irrefl (types : List Ty) : isBetter table args types types = false := by
  cases better : isBetter table args types types with
  | false => rfl
  | true => exact better.symm.trans (isBetter_asymm better)

theorem Best.mem {candidates : List (α × List Ty)} {best : α × List Ty}
    (isBest : Best table mode args candidates best) : best ∈ candidates := by
  obtain ⟨-, others, rearranged, -⟩ := isBest
  exact rearranged.mem_iff.mpr List.mem_cons_self

/-- The best candidate is better than those before it and those behind it. -/
theorem Best.beats {front back : List (α × List Ty)} {best : α × List Ty}
    (isBest : Best table mode args (front ++ best :: back) best) :
    ∀ other ∈ front ++ back, accepts table mode args other.2 = true →
      isBetter table args best.2 other.2 = true := by
  obtain ⟨-, others, rearranged, beats⟩ := isBest
  have rest : (front ++ back).Perm others := (List.perm_middle.symm.trans rearranged).cons_inv
  exact fun other isOther => beats other (rest.mem_iff.mp isOther)

section Append

variable {own behind : List (α × List Ty)}
  (repeats : ∀ b ∈ behind, accepts table mode args b.2 = true → ∃ a ∈ own, a.2 = b.2)

include repeats

/-- Behind candidates whose parameters they repeat, further candidates are never the best one, and
only those that repeat the parameters of the best one prevent it from being so. -/
theorem best_append_iff {best : α × List Ty} :
    Best table mode args (own ++ behind) best ↔
      Best table mode args own best ∧ ∀ b ∈ behind, b.2 ≠ best.2 := by
  constructor
  · intro isBest
    have accepted := isBest.1
    obtain isOwn | isBehind := List.mem_append.mp isBest.mem
    · obtain ⟨front, back, rfl⟩ := List.append_of_mem isOwn
      rw [List.append_assoc, List.cons_append] at isBest
      refine ⟨⟨accepted, front ++ back, List.perm_middle, fun other isOther => ?_⟩,
        fun b isBehind same => ?_⟩
      · refine isBest.beats other ?_
        rw [← List.append_assoc]
        exact List.mem_append_left _ isOther
      · have better := isBest.beats b (List.mem_append_right _ (List.mem_append_right _ isBehind))
          (same ▸ accepted)
        rw [same, isBetter_irrefl] at better
        cases better
    · obtain ⟨a, isOwn, same⟩ := repeats best isBehind accepted
      obtain ⟨front, back, rfl⟩ := List.append_of_mem isBehind
      rw [← List.append_assoc] at isBest
      have better := isBest.beats a (List.mem_append_left _ (List.mem_append_left _ isOwn))
        (same ▸ accepted)
      rw [same, isBetter_irrefl] at better
      cases better
  · rintro ⟨⟨accepted, others, rearranged, beats⟩, apart⟩
    refine ⟨accepted, others ++ behind, rearranged.append_right behind,
      fun other isOther accepts => ?_⟩
    obtain isOther | isBehind := List.mem_append.mp isOther
    · exact beats other isOther accepts
    · obtain ⟨a, isOwn, same⟩ := repeats other isBehind accepts
      obtain rfl | isOther := List.mem_cons.mp (rearranged.mem_iff.mp isOwn)
      · exact absurd same.symm (apart other isBehind)
      · exact same ▸ beats a isOther (same ▸ accepts)

end Append

/-! ## Where no candidate is the best -/

/-- The first candidate that accepts the arguments, with the promoted arguments. -/
def first? (table : ClassTable) (mode : Promotion) (args : List Expr)
    (candidates : List (α × List Ty)) : Option (α × List Expr) :=
  candidates.findSome? fun candidate =>
    (Expr.promoteAll? table mode candidate.2 args).map fun promoted => (candidate.1, promoted)

section Candidates

variable {candidates : List (α × List Ty)}

theorem head?_applicable :
    (applicable table mode args candidates).head?.map (fun a => (a.candidate, a.args)) =
      first? table mode args candidates := by
  have candidates_eq : candidates = candidates.zipIdx.map Prod.fst := by simp
  conv_rhs => rw [candidates_eq, first?, List.findSome?_map]
  rw [applicable, List.head?_filterMap, List.map_findSome?]
  congr 1
  funext entry
  simp only [Function.comp_apply, Option.map_map]
  rfl

/-- Where one of two arguments is an identifier or null, the first candidate is chosen if none is
best. -/
theorem choose_eq_first (irregular : pairsNullableGuid args = true)
    (noBest : ¬∃ best, Best table mode args candidates best) :
    choose table mode args candidates =
      match first? table mode args candidates with
      | some (candidate, promoted) => .found candidate promoted
      | none => .notFound := by
  rw [← head?_applicable, choose_eq]
  split
  next best single =>
    obtain ⟨member, isBest⟩ :=
      (filter_isBest_eq_singleton_iff pairwise_place_applicable).mp single
    have fits := promoteAll?_eq_some_iff.mp (mem_applicable_iff.mp member).2
    exact absurd ⟨(best.candidate, best.params), (best_iff fits).mpr ⟨_, member, isBest⟩⟩ noBest
  next =>
    cases applicable table mode args candidates with
    | nil => rfl
    | cons a others => simp [irregular]

/-- What is found is the best candidate, or the first one if none is best. -/
theorem best_or_first {candidate : α} {promoted : List Expr}
    (found : choose table mode args candidates = .found candidate promoted) :
    (∃ params, Best table mode args candidates (candidate, params) ∧
        Promoted table mode args params promoted) ∨
      (¬∃ best, Best table mode args candidates best) ∧ pairsNullableGuid args = true ∧
        first? table mode args candidates = some (candidate, promoted) := by
  cases irregular : pairsNullableGuid args with
  | false => exact .inl ((choose_eq_found_iff irregular).mp found)
  | true =>
      by_cases noBest : ∃ best, Best table mode args candidates best
      · obtain ⟨best, isBest⟩ := noBest
        obtain ⟨promoted', fits⟩ := accepts_iff.mp isBest.1
        have fits := promoteAll?_eq_some_iff.mp fits
        obtain ⟨rfl, rfl⟩ := Resolution.found.inj ((isBest.found fits).symm.trans found)
        exact .inl ⟨best.2, isBest, fits⟩
      · refine .inr ⟨noBest, rfl, ?_⟩
        rw [choose_eq_first irregular noBest] at found
        split at found
        next isFirst =>
          obtain ⟨rfl, rfl⟩ := Resolution.found.inj found
          exact isFirst
        next => cases found

end Candidates

theorem first?_append {own behind : List (α × List Ty)} {first : α × List Expr}
    (isFirst : first? table mode args own = some first) :
    first? table mode args (own ++ behind) = some first := by
  rw [first?] at isFirst
  rw [first?, List.findSome?_append, isFirst]
  rfl

theorem exists_first {candidates : List (α × List Ty)} {best : α × List Ty}
    (isBest : Best table mode args candidates best) :
    ∃ first, first? table mode args candidates = some first := by
  obtain ⟨promoted, fits⟩ := accepts_iff.mp isBest.1
  cases none : first? table mode args candidates with
  | some first => exact ⟨first, rfl⟩
  | none =>
      have refused := List.findSome?_eq_none_iff.mp none best isBest.mem
      rw [fits] at refused
      cases refused

/-! ## A choice with further candidates behind -/

section Repeated

variable (params : α → List Ty)

/-- Candidates with their parameter types. -/
def withParams (candidates : List α) : List (α × List Ty) :=
  candidates.map fun candidate => (candidate, params candidate)

theorem mem_withParams {candidates : List α} {entry : α × List Ty} :
    entry ∈ withParams params candidates ↔ entry.1 ∈ candidates ∧ params entry.1 = entry.2 := by
  simp only [withParams, List.mem_map, Prod.ext_iff]
  constructor
  · rintro ⟨candidate, member, rfl, same⟩
    exact ⟨member, same⟩
  · rintro ⟨member, same⟩
    exact ⟨entry.1, member, rfl, same⟩

/-- The outcome of a choice that finds a candidate, if others that repeat the parameters of the
candidates are put behind them. -/
structure Repeated (table : ClassTable) (mode : Promotion) (args : List Expr) (own behind : List α)
    (found : α) (promoted : List Expr) (outcome : Resolution α) : Prop where
  /-- The outcome is the same if the parameters of the candidate itself are not repeated. -/
  kept : (∀ b ∈ behind, params b ≠ params found) → outcome = .found found promoted
  /-- If they are, then the choice is ambiguous, -/
  ambiguous : (∃ b ∈ behind, params b = params found) → pairsNullableGuid args = false →
    outcome = .ambiguous ((own ++ behind).countP fun c => accepts table mode args (params c))
  /-- or falls on the first candidate, where ambiguity is resolved so. -/
  first : (∃ b ∈ behind, params b = params found) → pairsNullableGuid args = true →
    ∃ candidate promoted', first? table mode args (withParams params own) =
      some (candidate, promoted') ∧ outcome = .found candidate promoted'

theorem repeated_of_found {own behind : List α} {found : α} {promoted : List Expr}
    (repeats : ∀ b ∈ behind, accepts table mode args (params b) = true →
      ∃ a ∈ own, params a = params b)
    (isFound : choose table mode args (withParams params own) = .found found promoted) :
    Repeated params table mode args own behind found promoted
      (choose table mode args (withParams params (own ++ behind))) := by
  have append : withParams params (own ++ behind) =
      withParams params own ++ withParams params behind := List.map_append
  have repeats : ∀ b ∈ withParams params behind, accepts table mode args b.2 = true →
      ∃ a ∈ withParams params own, a.2 = b.2 := by
    intro b isBehind accepted
    obtain ⟨member, same⟩ := (mem_withParams params).mp isBehind
    obtain ⟨a, isOwn, repeated⟩ := repeats b.1 member (same ▸ accepted)
    exact ⟨(a, params a), (mem_withParams params).mpr ⟨isOwn, rfl⟩, repeated.trans same⟩
  have best_iff {best : α × List Ty} :
      Best table mode args (withParams params own ++ withParams params behind) best ↔
        Best table mode args (withParams params own) best ∧
          ∀ b ∈ withParams params behind, b.2 ≠ best.2 :=
    best_append_iff repeats
  rw [append]
  obtain ⟨types, isBest, fits⟩ | ⟨noBest, irregular, isFirst⟩ := best_or_first isFound
  · have isMember : (found, types) ∈ withParams params own := isBest.mem
    obtain rfl : params found = types := ((mem_withParams params).mp isMember).2
    have noBest (isRepeated : ∃ b ∈ behind, params b = params found) :
        ¬∃ best, Best table mode args (withParams params own ++ withParams params behind) best := by
      rintro ⟨best, isBest'⟩
      obtain ⟨ownBest, apart⟩ := best_iff.mp isBest'
      obtain rfl := ownBest.unique isBest
      obtain ⟨b, isBehind, same⟩ := isRepeated
      exact apart (b, params b) ((mem_withParams params).mpr ⟨isBehind, rfl⟩) same
    refine ⟨fun apart => ?_, fun isRepeated regular => ?_, fun isRepeated irregular => ?_⟩
    · refine Best.found (best_iff.mpr ⟨isBest, fun b isBehind => ?_⟩) fits
      obtain ⟨member, same⟩ := (mem_withParams params).mp isBehind
      exact same ▸ apart b.1 member
    · refine (choose_eq_ambiguous_iff regular).mpr
        ⟨?_, ⟨_, List.mem_append_left _ isMember, isBest.1⟩, noBest isRepeated⟩
      rw [← append, withParams, List.countP_map]
      rfl
    · obtain ⟨⟨candidate, promoted'⟩, isFirst⟩ := exists_first isBest
      refine ⟨candidate, promoted', isFirst, ?_⟩
      rw [choose_eq_first irregular (noBest isRepeated), first?_append isFirst]
  · have outcome : choose table mode args (withParams params own ++ withParams params behind) =
        .found found promoted := by
      have noBest : ¬∃ best,
          Best table mode args (withParams params own ++ withParams params behind) best :=
        fun ⟨best, isBest⟩ => noBest ⟨best, (best_iff.mp isBest).1⟩
      rw [choose_eq_first irregular noBest, first?_append isFirst]
    exact ⟨fun _ => outcome, fun _ regular => by simp [irregular] at regular,
      fun _ _ => ⟨found, promoted, isFirst, outcome⟩⟩

end Repeated

end Resolution

/-! ## Methods and indexers of classes -/

/-- What the ancestors of a class declare, the nearest one first. -/
def ClassTable.fromBases {α : Type} (table : ClassTable) (part : ClassBody → List α)
    (c : ClassRef) : List α :=
  (table.ancestors c).flatMap fun base =>
    match base.class? with
    | some b => part (table.body b)
    | none => []

/-- The methods that a call by a name can mean, static ones or others. -/
def Method.called (name : String) (isStatic : Bool) (methods : List Method) : List Method :=
  methods.filter fun m => m.isStatic == isStatic && Ty.answersTo m name

namespace Ty

open Resolution

variable {table : ClassTable} {c : ClassRef} {name : String} {isStatic : Bool} {args : List Expr}

/-- What a class declares stands before what its ancestors declare, and the method that every type
has comes last. -/
theorem resolveMethod_cls :
    (cls c).resolveMethod table name isStatic args =
      choose table .argument args (withParams (·.params)
        (Method.called name isStatic (table.body c).methods ++
          Method.called name isStatic (table.fromBases (·.methods) c ++ [.toText]))) := by
  have methods_eq : (cls c).methods table =
      (table.body c).methods ++ (table.fromBases (·.methods) c ++ [.toText]) :=
    List.append_assoc ..
  rw [resolveMethod, methods_eq, List.filter_append]
  rfl

theorem resolveIndexer_cls :
    (cls c).resolveIndexer table args =
      choose table .argument args (withParams (·.params)
        ((table.body c).indexers ++ table.fromBases (·.indexers) c)) := rfl

/-- Without arguments only a method without parameters is called. -/
theorem params_of_found {own : List Method} {m : Method} {promoted : List Expr}
    (found : choose table .argument [] (withParams (·.params) own) = .found m promoted) :
    m ∈ own ∧ m.params = [] := by
  obtain ⟨params, member, fits⟩ := choose_found found
  obtain ⟨isOwn, same⟩ := (mem_withParams _).mp member
  refine ⟨isOwn, same.trans ?_⟩
  cases params with
  | nil => rfl
  | cons => cases fits

/-- Redeclared methods and indexers are not hidden.  Where the methods of a class alone resolve a
call and its ancestors only repeat parameters of them, the call has the same outcome if they do not
repeat the parameters of the very method that is called, and the method that every type has does not
either; but if they do, it is ambiguous.  So it is with indexers. -/
theorem redeclared_calls (table : ClassTable) (c : ClassRef) (args : List Expr) :
    (∀ name isStatic m promoted,
      choose table .argument args (withParams (·.params)
        (Method.called name isStatic (table.body c).methods)) = .found m promoted →
      (∀ b ∈ Method.called name isStatic (table.fromBases (·.methods) c),
        ∃ a ∈ Method.called name isStatic (table.body c).methods, a.params = b.params) →
      Repeated (·.params) table .argument args
        (Method.called name isStatic (table.body c).methods)
        (Method.called name isStatic (table.fromBases (·.methods) c ++ [.toText])) m promoted
        ((cls c).resolveMethod table name isStatic args)) ∧
    ∀ indexer promoted,
      choose table .argument args (withParams (·.params) (table.body c).indexers) =
        .found indexer promoted →
      (∀ b ∈ table.fromBases (·.indexers) c, ∃ a ∈ (table.body c).indexers, a.params = b.params) →
      Repeated (·.params) table .argument args (table.body c).indexers
        (table.fromBases (·.indexers) c) indexer promoted ((cls c).resolveIndexer table args) := by
  refine ⟨fun name isStatic m promoted found repeats => ?_,
    fun indexer promoted found repeats => ?_⟩
  · rw [resolveMethod_cls]
    refine repeated_of_found _ (fun b isBehind accepted => ?_) found
    rw [Method.called, List.filter_append] at isBehind
    obtain inherited | common := List.mem_append.mp isBehind
    · exact repeats b inherited
    · obtain rfl := List.mem_singleton.mp (List.mem_filter.mp common).1
      obtain ⟨promoted', fits⟩ := accepts_iff.mp accepted
      -- the method that every type has takes no arguments
      cases args with
      | nil => exact ⟨m, params_of_found found⟩
      | cons => cases fits
  · rw [resolveIndexer_cls]
    exact repeated_of_found _ (fun b isBehind _ => repeats b isBehind) found

end Ty

section Example

/-- A class of figures. -/
def figure : ClassRef := ⟨"Figure", none, false, 1⟩

/-- A class of figures of one kind. -/
def square : ClassRef := ⟨"Square", none, false, 2⟩

/-- The area of a figure. -/
def areaOf (c : ClassRef) : Method := .instanceMethod c.name "Area" [] .double

/-- The distance to a point, by its coordinates or by its name. -/
def distanceOf (c : ClassRef) (params : List Ty) : Method :=
  .instanceMethod c.name "Distance" params .double

/-- The bodies of both classes.  A square redeclares the area, the distance to a named point, the
text and the sides. -/
def figures : ClassTable :=
  #[some mathBody,
    some { ClassBody.empty with
      methods := [areaOf figure, distanceOf figure [.string]], indexers := [⟨[.int32], .double⟩] },
    some { ClassBody.empty with
      base := some (.cls figure)
      methods := [areaOf square, distanceOf square [.string],
        distanceOf square [.double, .double], .instanceMethod "Square" "ToString" [] .string]
      indexers := [⟨[.int32], .int32⟩] }]

/-- The distance of a square to a point by its coordinates is found as before, but its area is not,
and neither are its sides. -/
theorem redeclared_calls_square :
    let x := Expr.parameter ⟨0, "x", .double⟩
    let i := Expr.parameter ⟨1, "i", .int32⟩
    (∀ b ∈ Method.called "Distance" false (figures.fromBases (·.methods) square),
      ∃ a ∈ Method.called "Distance" false (figures.body square).methods, a.params = b.params) ∧
      (Ty.cls square).resolveMethod figures "Distance" false [x, x] =
        .found (distanceOf square [.double, .double]) [x, x] ∧
      (Ty.cls square).resolveMethod figures "Area" false [] = .ambiguous 2 ∧
      (Ty.cls square).resolveIndexer figures [i] = .ambiguous 2 := by
  intro x i
  have distances : Method.called "Distance" false (figures.fromBases (·.methods) square) =
      [distanceOf figure [.string]] := rfl
  have areas : Method.called "Area" false (figures.fromBases (·.methods) square) =
      [areaOf figure] := rfl
  have sides : figures.fromBases (·.indexers) square = [⟨[.int32], .double⟩] := rfl
  have repeated : ∀ b ∈ Method.called "Distance" false (figures.fromBases (·.methods) square),
      ∃ a ∈ Method.called "Distance" false (figures.body square).methods, a.params = b.params := by
    rw [distances]
    exact List.forall_mem_singleton.mpr ⟨distanceOf square [.string], List.mem_cons_self, rfl⟩
  have distance := (Ty.redeclared_calls figures square [x, x]).1 "Distance" false
    (distanceOf square [.double, .double]) [x, x] rfl repeated
  have area := (Ty.redeclared_calls figures square []).1 "Area" false (areaOf square) [] rfl (by
    rw [areas]
    exact List.forall_mem_singleton.mpr ⟨areaOf square, List.mem_cons_self, rfl⟩)
  have item := (Ty.redeclared_calls figures square [i]).2 ⟨[.int32], .int32⟩ [i] rfl (by
    rw [sides]
    exact List.forall_mem_singleton.mpr ⟨⟨[.int32], .int32⟩, List.mem_cons_self, rfl⟩)
  refine ⟨repeated, distance.kept fun b isBehind => ?_,
    area.ambiguous ⟨areaOf figure, List.mem_cons_self, rfl⟩ rfl,
    item.ambiguous ⟨⟨[.int32], .double⟩, List.mem_cons_self, rfl⟩ rfl⟩
  have behind : Method.called "Distance" false
      (figures.fromBases (·.methods) square ++ [.toText]) = [distanceOf figure [.string]] := rfl
  rw [behind] at isBehind
  obtain rfl := List.mem_singleton.mp isBehind
  exact fun same => nomatch same

/-- Neither the area of a square is called, nor its text, nor an item of it. -/
theorem redeclared_ambiguous :
    let compiles (text : String) : Bool :=
      (compileFunction (.of .initial (.ofCustom [.cls figure, .cls square]) figures)
        [⟨0, "f", .cls figure⟩, ⟨1, "s", .cls square⟩] none text [] ⟨.empty, 2⟩).1.toOption.isSome
    (compiles "f.Area()" = true ∧ compiles "s.Area()" = false) ∧
      (compiles "f.ToString()" = true ∧ compiles "s.ToString()" = false) ∧
      (compiles "f[0]" = true ∧ compiles "s[0]" = false) := by
  decide +kernel

end Example

end QueryTree
