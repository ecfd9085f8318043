import QueryTree.Proofs.Cutting.Ordering

/-!
# Sort keys alone and in a list

The sort keys of a list compile alone just as they do in the list, up to numbers, as long as no key
names a record type by its number and none is given a record type with other members in the list.
So a list of sort keys is the sequence of its keys.
-/

namespace QueryTree

/-! ## Numbers from a number on -/

/-- The numbers from a number on, moved up by an offset. -/
def shiftFrom (first offset n : Nat) : Nat := if n < first then n else n + offset

variable {first offset : Nat}

theorem shiftFrom_of_lt {n : Nat} (before : n < first) : shiftFrom first offset n = n :=
  if_pos before

theorem shiftFrom_injective : Function.Injective (shiftFrom first offset) := by
  intro m n same
  unfold shiftFrom at same
  split at same <;> split at same <;> omega

theorem shiftFrom_zero : shiftFrom first 0 = id := by
  funext n
  simp [shiftFrom]

/-- What is the same as a fresh result up to numbers is the same as any other such result. -/
theorem SameUpTo.of_fresh {number : Nat → Nat}
    {after other fresh : Except CompileError (List SortKey)} (same : SameUpTo number after fresh)
    (plain : SameUpTo id other fresh) : SameUpTo number after other := by
  have unnumbered (keys : List SortKey) : Numbered.renumbered number (Numbered.renumbered id keys) =
      Numbered.renumbered number keys := by
    change (keys.map _).map _ = keys.map _
    rw [List.map_map]
    refine List.map_congr_left fun key _ => ?_
    change SortKey.renumbered number (SortKey.renumbered id key) = SortKey.renumbered number key
    simp only [SortKey.renumbered, Expr.renumbered_renumbered, Function.comp_id]
  cases same with
  | errors =>
      cases plain
      exact .errors
  | @results _ keys twin =>
      cases plain with
      | @results made _ twin' =>
          refine .results ?_
          rw [twin, ← unnumbered keys, ← twin', unnumbered made]

/-- Of two results that are the same up to numbers both are one sort key or neither is. -/
theorem SameUpTo.single_iff {number : Nat → Nat}
    {outcome outcome' : Except CompileError (List SortKey)} (same : SameUpTo number outcome outcome') :
    (∃ made, outcome = .ok [made]) ↔ ∃ made, outcome' = .ok [made] := by
  cases same with
  | errors => simp
  | @results keys keys' twin =>
      have lengths := congrArg List.length twin
      change (keys.map _).length = (keys'.map _).length at lengths
      rw [List.length_map, List.length_map] at lengths
      simp [← List.length_eq_one_iff, lengths]

/-! ## Keys alone -/

section Alone

variable (env : Environment) (params : List Parameter) (args : List Argument) (continues : Bool)
  (store : Store)

/-- The record types that a text of sort keys makes where there are none. -/
def ownRecords (text : String) : RecordTypes :=
  (compileOrdering env params continues text args ⟨.empty, store.nextParameter⟩).2.records

/-- Texts that compile alone as in any other order: they name no record type by its number, and none
of the record types that there are before them, or that they make, stands in for one of another
text that has other members. -/
structure KeysApart (texts : List String) : Prop where
  paramsBefore : ∀ p ∈ params, p.id < store.nextParameter
  argsBefore : ∀ number : Nat → Nat, (∀ n < store.nextParameter, number n = n) →
    args.map (Argument.renumbered id) = args.map (Argument.renumbered number)
  silent : ∀ text ∈ texts, ∀ name, env.Reads text args name → mentionsRecord name = false
  clear : ∀ text ∈ texts,
    (ownRecords env params args continues store text).ClearOf store.records.shapes
  apart : texts.Pairwise fun text later =>
    (ownRecords env params args continues store later).ClearOf
      (ownRecords env params args continues store text).shapes

/-- A sort key in a list is the one that a text compiles to alone, up to numbers: those from before
the text are the same. -/
def SameAlone (text : String) (key : Expr × Bool) : Prop :=
  ∃ number : Nat → Nat, Function.Injective number ∧ (∀ n < store.nextParameter, number n = n) ∧
    SameUpTo number (.ok [⟨key.1, key.2, continues⟩])
      (compileOrdering env params continues text args store).1

end Alone

section Runs

variable {env : Environment} {params : List Parameter} {args : List Argument} {continues : Bool}
  {store now : Store} {text : String}

theorem RecordTypes.ClearOf.extend {records own : RecordTypes} {history : List RecordTypes.Shape}
    {after : RecordTypes} (clear : records.ClearOf history) (apart : records.ClearOf own.shapes)
    (beside : RecordTypes.Beside history after own) : records.ClearOf after.shapes := by
  intro held isHeld made isMade same
  obtain before | ⟨other, isOwn, alike⟩ := beside.origin held isHeld
  · exact clear held before made isMade same
  · have alike' := apart other isOwn made isMade (alike.symm.same.trans same)
    exact ⟨alike.1.trans alike'.1, alike.2.trans alike'.2⟩

/-- A text of sort keys compiles later on the configuration as it does at first. -/
theorem Repeats.compileOrdering_ends {number : Nat → Nat} {params' : List Parameter}
    {args' : List Argument} {fresh : Store}
    (repeats : Repeats number params params' args args' now fresh)
    (silent : ∀ name, env.Reads text args' name → mentionsRecord name = false)
    (clear : (compileOrdering env params' continues text args' fresh).2.records.ClearOf
      now.records.shapes) :
    SameUpTo number (compileOrdering env params continues text args now).1
        (compileOrdering env params' continues text args' fresh).1 ∧
      ∀ keys, (compileOrdering env params continues text args now).1 = .ok keys →
        RecordTypes.Beside now.records.shapes
          (compileOrdering env params continues text args now).2.records
          (compileOrdering env params' continues text args' fresh).2.records :=
  repeats.compileText_ends (fun _ _ context' contexts =>
    Rerun.ordering contexts (repeats.silent silent context')
      (fun _ _ isSymbol => Environment.Returns.of_symbols_expr context' isSymbol) continues) clear

/-- Parameters from before a number are the same when the ones from there on are moved. -/
theorem parameter_renumbered_shiftFrom {p : Parameter} {first offset : Nat}
    (before : p.id < first) : p.renumbered (shiftFrom first offset) = p.renumbered id := by
  rw [Parameter.renumbered, Parameter.renumbered, shiftFrom_of_lt before, id]

variable {texts : List String}

theorem KeysApart.repeats (keysApart : KeysApart env params args continues store texts)
    (later : store.nextParameter ≤ now.nextParameter) :
    Repeats (shiftFrom store.nextParameter (now.nextParameter - store.nextParameter)) params params
      args args now ⟨.empty, store.nextParameter⟩ where
  distinct := shiftFrom_injective
  params := List.map_congr_left fun p isParam =>
    (parameter_renumbered_shiftFrom (keysApart.paramsBefore p isParam)).symm
  args := keysApart.argsBefore _ fun _ before => shiftFrom_of_lt before
  made n := by
    rw [shiftFrom, if_neg (by simp)]
    simp only
    omega
  noRecords := rfl

/-- One of the texts compiles later on the configuration as it does alone. -/
theorem KeysApart.same_alone (keysApart : KeysApart env params args continues store texts)
    (isText : text ∈ texts) (later : store.nextParameter ≤ now.nextParameter)
    (clear : (ownRecords env params args continues store text).ClearOf now.records.shapes) :
    SameUpTo (shiftFrom store.nextParameter (now.nextParameter - store.nextParameter))
        (compileOrdering env params continues text args now).1
        (compileOrdering env params continues text args store).1 ∧
      ∀ keys, (compileOrdering env params continues text args now).1 = .ok keys →
        RecordTypes.Beside now.records.shapes
          (compileOrdering env params continues text args now).2.records
          (ownRecords env params args continues store text) := by
  have silent := keysApart.silent text isText
  obtain ⟨same, beside⟩ := (keysApart.repeats later).compileOrdering_ends silent clear
  refine ⟨same.of_fresh ?_, beside⟩
  have plain := ((keysApart.repeats (Nat.le_refl _)).compileOrdering_ends silent
    (keysApart.clear text isText)).1
  rwa [Nat.sub_self, shiftFrom_zero] at plain

/-- A sort key of a text continues an ordering if it is asked to. -/
theorem compileOrdering_continues {made : SortKey} {last : Store}
    (outcome : compileOrdering env params continues text args store = (.ok [made], last)) :
    made.continues = continues ∧ store.nextParameter ≤ last.nextParameter := by
  obtain ⟨ctx, -, read⟩ := compileOrdering_eq_ok_iff.mp outcome
  obtain ⟨key, single, same⟩ | ⟨_, more, _, _, others, -, -, further, same⟩ := read.cases
  · obtain ⟨rfl, -⟩ := List.cons.inj same
    obtain ⟨session, final, started, ran, -, rfl⟩ := single
    have follows := CompileContext.sortKey_follows (Session.endsWell_of_start started) ran
    have opened := (Session.start_eq_ok.mp started).2.2.2
    exact ⟨rfl, opened ▸ follows.parameters_le⟩
  · obtain ⟨-, rfl⟩ := List.cons.inj same
    obtain ⟨_, -, none⟩ | ⟨_, _, _, _, _, -, -, -, none⟩ := further.cases <;> cases none

/-- Texts that compile to one sort key each alone do so in turn, and the keys are the same. -/
theorem KeysApart.inTurn_iff (keysApart : KeysApart env params args continues store texts) :
    ((∀ text ∈ texts, ∃ made,
        (compileOrdering env params continues text args store).1 = .ok [made]) ↔
      ∃ keys last, KeysInTurn env params args continues texts store keys last) ∧
      ∀ keys last, KeysInTurn env params args continues texts store keys last →
        List.Forall₂ (SameAlone env params args continues store) texts keys := by
  have run (left : List String) (now : Store) (areTexts : left ⊆ texts)
      (apart : left.Pairwise fun text later =>
        (ownRecords env params args continues store later).ClearOf
          (ownRecords env params args continues store text).shapes)
      (later : store.nextParameter ≤ now.nextParameter)
      (clear : ∀ text ∈ left,
        (ownRecords env params args continues store text).ClearOf now.records.shapes) :
      ((∀ text ∈ left, ∃ made,
          (compileOrdering env params continues text args store).1 = .ok [made]) →
        ∃ keys last, KeysInTurn env params args continues left now keys last) ∧
        ∀ keys last, KeysInTurn env params args continues left now keys last →
          List.Forall₂ (SameAlone env params args continues store) left keys := by
    induction left generalizing now with
    | nil =>
        refine ⟨fun _ => ⟨[], now, .nil⟩, fun keys last inTurn => ?_⟩
        cases inTurn
        exact .nil
    | cons text left ih =>
        obtain ⟨clearHere, clearBehind⟩ := List.forall_mem_cons.mp clear
        obtain ⟨apartHere, apartBehind⟩ := List.pairwise_cons.mp apart
        obtain ⟨same, beside⟩ :=
          keysApart.same_alone (areTexts List.mem_cons_self) later clearHere
        -- What holds before the text holds behind it as well.
        have behind {made : SortKey} {middle : Store}
            (outcome : compileOrdering env params continues text args now = (.ok [made], middle)) :=
          ih middle (fun _ isLeft => areTexts (List.mem_cons_of_mem _ isLeft)) apartBehind
            (Nat.le_trans later (compileOrdering_continues outcome).2) fun other isLeft =>
              (clearBehind other isLeft).extend (apartHere other isLeft) (by
                have beside := beside [made] (congrArg Prod.fst outcome)
                rwa [outcome] at beside)
        constructor
        · intro alone
          obtain ⟨aloneHere, aloneBehind⟩ := List.forall_mem_cons.mp alone
          obtain ⟨made, single⟩ := same.single_iff.mpr aloneHere
          have outcome : compileOrdering env params continues text args now =
              (.ok [made], (compileOrdering env params continues text args now).2) :=
            Prod.ext single rfl
          obtain ⟨keys, last, inTurn⟩ := (behind outcome).1 aloneBehind
          refine ⟨(made.selector, made.ascending) :: keys, last, .cons (outcome.trans ?_) inTurn⟩
          rw [← (compileOrdering_continues outcome).1]
        · intro keys last inTurn
          obtain _ | ⟨outcome, others⟩ := inTurn
          rw [outcome] at same
          exact .cons ⟨_, shiftFrom_injective, fun _ before => shiftFrom_of_lt before, same⟩
            ((behind outcome).2 _ _ others)
  obtain ⟨goes, comes⟩ := run texts store (List.Subset.refl _) keysApart.apart (Nat.le_refl _)
    keysApart.clear
  refine ⟨⟨goes, ?_⟩, comes⟩
  rintro ⟨keys, last, inTurn⟩ text isText
  obtain ⟨place, inside, rfl⟩ := List.getElem_of_mem isText
  have each := comes keys last inTurn
  obtain ⟨number, -, -, same⟩ := each.get inside (each.length_eq ▸ inside)
  exact same.single_iff.mp ⟨_, rfl⟩

end Runs

/-! ## Lists -/

section List

/-- A list of sort keys is the sequence of its keys.  Texts that compile to one sort key each, one
after another, are joined to a text of all of these keys, and each text of sort keys comes apart at
commas into such texts.  If the texts are apart from each other, it does not matter whether they
compile one after another or all of them on the same configuration.  All keys but the first one
continue the ordering. -/
theorem compileOrdering_keys (env : Environment) (params : List Parameter) (args : List Argument)
    (continues : Bool) (store : Store) :
    (∀ texts keys last, texts ≠ [] →
      KeysInTurn env params args continues texts store keys last →
        compileOrdering env params continues (", ".intercalate texts) args store =
          (.ok (SortKey.inOneList continues keys), last)) ∧
      (∀ texts, texts ≠ [] → KeysApart env params args continues store texts →
        (∀ text ∈ texts, ∃ made,
          (compileOrdering env params continues text args store).1 = .ok [made]) →
          ∃ keys last, compileOrdering env params continues (", ".intercalate texts) args store =
              (.ok (SortKey.inOneList continues keys), last) ∧
            List.Forall₂ (SameAlone env params args continues store) texts keys) ∧
      (∀ text made last, compileOrdering env params continues text args store = (.ok made, last) →
        ∃ texts keys, texts ≠ [] ∧ text = ",".intercalate texts ∧
          made = SortKey.inOneList continues keys ∧
          KeysInTurn env params args continues texts store keys last ∧
          (KeysApart env params args continues store texts →
            List.Forall₂ (SameAlone env params args continues store) texts keys)) ∧
      ∀ (keys : List (Expr × Bool)) place key, keys[place]? = some key →
        ∃ made, (SortKey.inOneList continues keys)[place]? = some made ∧
          made.selector = key.1 ∧ made.ascending = key.2 ∧
          made.methodName = (if continues = true ∨ 0 < place then "ThenBy" else "OrderBy") ++
            (if key.2 then "" else "Descending") := by
  have joined (texts : List String) (keys : List (Expr × Bool)) (last : Store)
      (nonempty : texts ≠ [])
      (inTurn : KeysInTurn env params args continues texts store keys last) :
      compileOrdering env params continues (", ".intercalate texts) args store =
        (.ok (SortKey.inOneList continues keys), last) := by
    obtain ⟨text, texts, rfl⟩ := List.exists_cons_of_ne_nil nonempty
    have alone := inTurn
    obtain _ | ⟨alone, -⟩ := alone
    obtain ⟨ctx, context, -⟩ := compileOrdering_eq_ok_iff.mp alone
    exact compileOrdering_eq_ok_iff.mpr ⟨ctx, context, inTurn.readsKeys context continues 0⟩
  refine ⟨joined, ?_, ?_, fun keys place key => SortKey.inOneList_methodName⟩
  · intro texts nonempty keysApart alone
    obtain ⟨goes, comes⟩ := keysApart.inTurn_iff
    obtain ⟨keys, last, inTurn⟩ := goes.mp alone
    exact ⟨keys, last, joined texts keys last nonempty inTurn, comes keys last inTurn⟩
  · intro text made last outcome
    obtain ⟨ctx, context, read⟩ := compileOrdering_eq_ok_iff.mp outcome
    obtain ⟨texts, keys, nonempty, text_eq, inTurn, rfl⟩ :=
      @CompileContext.ReadsKeys.inTurn env params args continues _ _ _ _ _ _ _ context read
    exact ⟨texts, keys, nonempty, String.toList_inj.mp text_eq, rfl, inTurn,
      fun keysApart => keysApart.inTurn_iff.2 keys last inTurn⟩

/-- Two keys over projections, the second one in descending order. -/
def projectedKeys : List String :=
  ["xs.Select(new(it as A)).Count()", "xs.Select(new(it as B)).Max(B) desc"]

/-- Keys over different projections compile in a list as they do alone. -/
theorem compileOrdering_keys_projected :
    projectedKeys ≠ [] ∧
      KeysApart freshEnvironment [projectedParam 0] [] false freshStore projectedKeys ∧
      (∀ text ∈ projectedKeys, ∃ made,
        (compileOrdering freshEnvironment [projectedParam 0] false text [] freshStore).1 =
          .ok [made]) ∧
      ∃ keys last,
        compileOrdering freshEnvironment [projectedParam 0] false
            "xs.Select(new(it as A)).Count(), xs.Select(new(it as B)).Max(B) desc" [] freshStore =
          (.ok (SortKey.inOneList false keys), last) ∧
        List.Forall₂ (SameAlone freshEnvironment [projectedParam 0] [] false freshStore)
          projectedKeys keys := by
  have nonempty : projectedKeys ≠ [] := by simp [projectedKeys]
  have keysApart : KeysApart freshEnvironment [projectedParam 0] [] false freshStore
      projectedKeys := {
    paramsBefore := by decide
    argsBefore := fun _ _ => rfl
    silent := List.forall_mem_cons.mpr ⟨freshEnvironment_silent (by decide +kernel),
      List.forall_mem_singleton.mpr (freshEnvironment_silent (by decide +kernel))⟩
    clear := fun _ _ held isHeld => nomatch isHeld
    apart := by
      refine List.pairwise_pair.mpr fun held isHeld made isMade same => ?_
      have first : (ownRecords freshEnvironment [projectedParam 0] [] false freshStore
          "xs.Select(new(it as A)).Count()").shapes.all (·.1 == ["A"]) = true := by decide +kernel
      have second : (ownRecords freshEnvironment [projectedParam 0] [] false freshStore
          "xs.Select(new(it as B)).Max(B) desc").shapes.all (·.1 == ["B"]) = true := by
        decide +kernel
      have names := beq_iff_eq.mp (List.all_eq_true.mp first held isHeld)
      have names' := beq_iff_eq.mp (List.all_eq_true.mp second made isMade)
      rw [RecordTypes.Shape.Same, names, names'] at same
      simp at same }
  have alone : ∀ text ∈ projectedKeys, ∃ made,
      (compileOrdering freshEnvironment [projectedParam 0] false text [] freshStore).1 =
        .ok [made] := by
    have single {text : String} (any : (compileOrdering freshEnvironment [projectedParam 0] false
        text [] freshStore).1.toOption.any (·.length == 1) = true) :
        ∃ made, (compileOrdering freshEnvironment [projectedParam 0] false text [] freshStore).1 =
          .ok [made] := by
      obtain ⟨keys, compiled, one⟩ := exists_ok_of_any any
      obtain ⟨made, rfl⟩ := List.length_eq_one_iff.mp (beq_iff_eq.mp one)
      exact ⟨made, compiled⟩
    exact List.forall_mem_cons.mpr ⟨single (by decide +kernel),
      List.forall_mem_singleton.mpr (single (by decide +kernel))⟩
  refine ⟨nonempty, keysApart, alone, ?_⟩
  have listed := (compileOrdering_keys freshEnvironment [projectedParam 0] [] false freshStore).2.1
    projectedKeys nonempty keysApart alone
  exact listed

/-- A key that names the record type of another one by its number compiles alone, and not behind
a key that makes a record type. -/
theorem numbered_key_alone :
    let compiled := fun text =>
      (compileOrdering freshEnvironment [projectedParam 0] false text [] freshStore).1
    (compiled "xs.Select(new(it as B)).Count()").isOk = true ∧
      (compiled "xs.Select(new(it as A)).Select(new DynamicClass1(it)).Count()").isOk = true ∧
      (compiled ("xs.Select(new(it as B)).Count(), " ++
        "xs.Select(new(it as A)).Select(new DynamicClass1(it)).Count()")).isOk = false := by
  decide +kernel

end List

end QueryTree
