import QueryTree.Evaluate.Expression
import QueryTree.Proofs.Integral.Shift

/-!
# Positions in texts

The length of a text, the positions at which a text is found in another one, the parts that are cut
out of it and its single characters are all counted in characters, and they agree with each other:
a text is found where the part of its length is the text.
-/

namespace QueryTree

/-! ## The first occurrence -/

namespace Text

variable {pattern cs : List Char} {k : Nat}

/-- A pattern is found at the least place at which it is the beginning of what is left, and nowhere
if there is no such place. -/
theorem indexOf?_cases (pattern cs : List Char) :
    (indexOf? pattern cs = none ∧ ∀ k ≤ cs.length, ¬ pattern <+: cs.drop k) ∨
      ∃ k ≤ cs.length, indexOf? pattern cs = some k ∧ pattern <+: cs.drop k ∧
        ∀ j < k, ¬ pattern <+: cs.drop j := by
  have noneBefore (cs : List Char) : ∀ j < 0, ¬ pattern <+: cs.drop j :=
    fun j before => absurd before (Nat.not_lt_zero j)
  induction cs with
  | nil =>
      rw [indexOf?, offsetOf?]
      cases pattern with
      | nil => exact .inr ⟨0, Nat.le_refl 0, rfl, List.nil_prefix, noneBefore []⟩
      | cons d pattern =>
          refine .inl ⟨rfl, fun k _ begins => ?_⟩
          rw [List.drop_nil, List.prefix_nil] at begins
          cases begins
  | cons c rest ih =>
      by_cases starts : pattern <+: c :: rest
      · refine .inr ⟨0, Nat.zero_le _, ?_, starts, noneBefore (c :: rest)⟩
        exact indexOf?_of_prefix (List.isPrefixOf_iff_prefix.mpr starts)
      · have later := indexOf?_of_not_prefix (mt List.isPrefixOf_iff_prefix.mp starts)
        rcases ih with ⟨missing, nowhere⟩ | ⟨k, within, found, isThere, least⟩
        · refine .inl ⟨by rw [later, missing, Option.map_none], fun k bound => ?_⟩
          cases k with
          | zero => exact starts
          | succ k => exact nowhere k (Nat.le_of_succ_le_succ bound)
        · refine .inr ⟨k + 1, Nat.succ_le_succ within, ?_, isThere, fun j before => ?_⟩
          · rw [later, found, Option.map_some]
          · cases j with
            | zero => exact starts
            | succ j => exact least j (Nat.lt_of_succ_lt_succ before)

end Text

/-! ## Parts of a text -/

namespace Value

variable {s t : String} {i n : Int}

theorem substring_eq_ok (start : 0 ≤ i) (count : 0 ≤ n) (within : i + n ≤ s.length) :
    substring s i n =
      .ok (string (String.ofList ((s.toList.drop i.toNat).take n.toNat))) := by
  have inside :
      (decide (i < 0) || decide (n < 0) || decide ((s.length : Int) < i + n)) = false := by
    simp only [Bool.or_eq_false_iff, decide_eq_false_iff_not]
    omega
  rw [substring, inside]
  rfl

theorem substring_eq_error (outside : ¬ (0 ≤ i ∧ 0 ≤ n ∧ i + n ≤ s.length)) :
    substring s i n = .error (.indexOutOfRange (i + n)) := by
  have beyond : (decide (i < 0) || decide (n < 0) || decide ((s.length : Int) < i + n)) = true := by
    simp only [Bool.or_eq_true, decide_eq_true_eq]
    omega
  rw [substring, beyond]
  rfl

/-- A part of the length of a text is the text where what is left begins with it. -/
theorem substring_length_iff : substring s i t.length = .ok (string t) ↔
    0 ≤ i ∧ i ≤ s.length ∧ t.toList <+: s.toList.drop i.toNat := by
  have size : s.toList.length = s.length := String.length_toList
  have size' : t.toList.length = t.length := String.length_toList
  constructor
  · intro cut
    by_cases inside : 0 ≤ i ∧ 0 ≤ (t.length : Int) ∧ i + t.length ≤ s.length
    · rw [substring_eq_ok inside.1 inside.2.1 inside.2.2] at cut
      have same : String.ofList ((s.toList.drop i.toNat).take t.length) = t :=
        string.inj (Except.ok.inj cut)
      refine ⟨inside.1, by omega, List.prefix_iff_eq_take.mpr ?_⟩
      rw [size', ← String.toList_ofList (l := (s.toList.drop i.toNat).take t.length), same]
    · rw [substring_eq_error inside] at cut
      cases cut
  · rintro ⟨start, within, begins⟩
    have bound := begins.length_le
    rw [List.length_drop, size, size'] at bound
    rw [substring_eq_ok start (Int.natCast_nonneg _) (by omega), Int.toNat_natCast, ← size',
      ← List.prefix_iff_eq_take.mp begins, String.ofList_toList]

/-- An item at a place in the list. -/
theorem itemAt_eq_ok {α : Type} {items : List α} {a : α} {j : Nat} (found : items[j]? = some a) :
    itemAt items j = .ok a := by
  rw [itemAt, if_neg (Int.not_lt.mpr (Int.natCast_nonneg j)), Int.toNat_natCast, found]
  rfl

theorem itemAt_eq_error {α : Type} {items : List α} (outside : ¬ (0 ≤ i ∧ i < items.length)) :
    itemAt items i = .error (.indexOutOfRange i) := by
  have missing : (if i < 0 then none else items[i.toNat]?) = none := by
    split
    next => rfl
    next => exact List.getElem?_eq_none (by omega)
  rw [itemAt, missing]
  rfl

theorem int32_eq (inRange : IntKind.int32.min ≤ n ∧ n ≤ IntKind.int32.max) :
    int32 n = integral ⟨.int32, n, inRange⟩ := by
  have kept : IntKind.int32.wrapInt n = n := IntKind.wrapInt_of_inRange inRange
  simp only [int32, ofInteger, Integer.wrap, kept]

/-- A number of characters that is not too large is an integer of 32 bits. -/
theorem count_eq_ok {what : String} (inRange : IntKind.int32.min ≤ n ∧ n ≤ IntKind.int32.max) :
    count what n = .ok (integral ⟨.int32, n, inRange⟩) := by
  rw [count, Integer.ofInt?, dif_pos inRange]
  rfl

end Value

/-! ## Expressions over texts -/

namespace Expr

/-- The call of a method of texts. -/
def textCall (name : String) (params : List Ty) (result : Ty) (target : Expr) (args : List Expr) :
    Expr :=
  methodCall result (.instanceMethod "String" name params result) target args

/-- The number of characters of a text. -/
def textLength (target : Expr) : Expr := member .int32 target "Length"

/-- Whether a text is found in a text. -/
def textContains (target pattern : Expr) : Expr :=
  textCall "Contains" [.string] .boolean target [pattern]

/-- The first position at which a text is found in a text. -/
def textIndexOf (target pattern : Expr) : Expr :=
  textCall "IndexOf" [.string] .int32 target [pattern]

/-- A part of a text, from a position on and of some length. -/
def textPart (target start length : Expr) : Expr :=
  textCall "Substring" [.int32, .int32] .string target [start, length]

/-- The part of a text from a position on. -/
def textRest (target start : Expr) : Expr := textCall "Substring" [.int32] .string target [start]

/-- The character of a text at a position. -/
def textChar (target place : Expr) : Expr := index .char target [place]

/-- The value of an expression stands for an integer. -/
def HasInteger (ctx : EvalContext) (e : Expr) (n : Int) : Prop :=
  ∃ v, e.evaluate ctx = .ok v ∧ v.toInt? = some n

variable {ctx : EvalContext} {target pattern start length place : Expr} {s t : String} {i n : Int}

theorem evaluate_textLength (isText : target.evaluate ctx = .ok (.string s))
    (short : (s.length : Int) ≤ IntKind.int32.max) :
    ∃ inRange, (textLength target).evaluate ctx = .ok (.integral ⟨.int32, s.length, inRange⟩) := by
  have inRange : IntKind.int32.min ≤ (s.length : Int) ∧ (s.length : Int) ≤ IntKind.int32.max :=
    ⟨Int.le_trans (by decide) (Int.natCast_nonneg _), short⟩
  refine ⟨inRange, ?_⟩
  have own : (Value.string s).ofMember target.type "Length" = Value.count "Length" s.length := by
    rw [Value.ofMember]
    simp [Value.ofOwnMember]
  rw [textLength, evaluate, isText]
  exact own.trans (Value.count_eq_ok inRange)

theorem evaluate_textCall {name : String} {params : List Ty} {result : Ty} {args : List Expr}
    {values : List Value} (other : name ≠ "ToString")
    (isText : target.evaluate ctx = .ok (.string s))
    (isValues : evaluateAll args ctx = .ok values) :
    (textCall name params result target args).evaluate ctx =
      Value.callTextMethod name s values := by
  rw [textCall, evaluate, isText]
  change (do Value.callMethod _ (some (.string s)) (← evaluateAll args ctx)) = _
  rw [isValues]
  change Value.callMethod _ (some (.string s)) values = _
  have named : (Method.instanceMethod "String" name params result).name ≠ "ToString" := other
  unfold Value.callMethod
  rw [if_neg named]
  rfl

theorem evaluate_textPart (isText : target.evaluate ctx = .ok (.string s))
    (hasStart : HasInteger ctx start i) (hasLength : HasInteger ctx length n) :
    (textPart target start length).evaluate ctx = Value.substring s i n := by
  obtain ⟨v, start_eq, v_eq⟩ := hasStart
  obtain ⟨w, length_eq, w_eq⟩ := hasLength
  have args : evaluateAll [start, length] ctx = .ok [v, w] := by
    simp only [evaluateAll, start_eq, length_eq]
    rfl
  have first : Value.integerArgument [v, w] 0 = .ok i := congrArg (Evaluation.require _) v_eq
  have second : Value.integerArgument [v, w] 1 = .ok n := congrArg (Evaluation.require _) w_eq
  rw [textPart, evaluate_textCall (by decide) isText args, Value.callTextMethod, first]
  change (do Value.substring s i (← Value.integerArgument [v, w] 1)) = _
  rw [second]
  rfl

theorem evaluate_textRest (isText : target.evaluate ctx = .ok (.string s))
    (hasStart : HasInteger ctx start i) :
    (textRest target start).evaluate ctx = Value.substring s i (s.length - i) := by
  obtain ⟨v, start_eq, v_eq⟩ := hasStart
  have args : evaluateAll [start] ctx = .ok [v] := by
    simp only [evaluateAll, start_eq]
    rfl
  have first : Value.integerArgument [v] 0 = .ok i := congrArg (Evaluation.require _) v_eq
  rw [textRest, evaluate_textCall (by decide) isText args, Value.callTextMethod, first]
  rfl

theorem evaluate_textChar (isText : target.evaluate ctx = .ok (.string s))
    (hasPlace : HasInteger ctx place i) :
    (textChar target place).evaluate ctx =
      (do return .char (← Value.itemAt s.toList i)) := by
  obtain ⟨v, place_eq, v_eq⟩ := hasPlace
  have args : evaluateAll [place] ctx = .ok [v] := by
    simp only [evaluateAll, place_eq]
    rfl
  have position : Value.position v = .ok i := congrArg (Evaluation.require _) v_eq
  rw [textChar, evaluate, isText]
  change (do (Value.string s).atIndex (← evaluateAll [place] ctx)) = _
  rw [args]
  change (do return Value.char (← Value.itemAt s.toList (← Value.position v))) = _
  rw [position]
  rfl

/-- The places of a text are those before its end. -/
theorem textChar_cases (isText : target.evaluate ctx = .ok (.string s))
    (hasPlace : HasInteger ctx place i) :
    (∃ (j : Nat) (c : Char), i = j ∧ s.toList[j]? = some c ∧
        (textChar target place).evaluate ctx = .ok (.char c)) ∨
      ¬ (0 ≤ i ∧ i < s.length) ∧
        (textChar target place).evaluate ctx = .error (.indexOutOfRange i) := by
  have size : s.toList.length = s.length := String.length_toList
  rw [evaluate_textChar isText hasPlace]
  by_cases inside : 0 ≤ i ∧ i < s.length
  · obtain ⟨j, rfl⟩ := Int.eq_ofNat_of_zero_le inside.1
    have bound : j < s.toList.length := by omega
    have found : s.toList[j]? = some s.toList[j] := List.getElem?_eq_getElem bound
    refine .inl ⟨j, _, rfl, found, ?_⟩
    rw [Value.itemAt_eq_ok found]
    rfl
  · refine .inr ⟨inside, ?_⟩
    rw [Value.itemAt_eq_error (by rw [size]; exact inside)]
    rfl

/-- Where a text is found in a text, and at which position. -/
theorem evaluate_textContains (isText : target.evaluate ctx = .ok (.string s))
    (isPattern : pattern.evaluate ctx = .ok (.string t)) :
    (textContains target pattern).evaluate ctx =
        .ok (.boolean (Text.indexOf? t.toList s.toList).isSome) ∧
      (textIndexOf target pattern).evaluate ctx =
        .ok (.int32 (match Text.indexOf? t.toList s.toList with
          | some place => (place : Int)
          | none => -1)) := by
  have args : evaluateAll [pattern] ctx = .ok [.string t] := by
    simp only [evaluateAll, isPattern]
    rfl
  have first : Value.textArgument [.string t] 0 = .ok t := rfl
  constructor
  · rw [← Text.containsText_eq, textContains, evaluate_textCall (by decide) isText args,
      Value.callTextMethod, first]
    rfl
  · rw [textIndexOf, evaluate_textCall (by decide) isText args, Value.callTextMethod, first]
    rfl

/-! ## All positions together -/

/-- The length of a text, its characters and its parts are counted in characters. -/
structure CountsCharacters (ctx : EvalContext) (target : Expr) (s : String) : Prop where
  length : ∃ inRange,
    (textLength target).evaluate ctx = .ok (.integral ⟨.int32, s.length, inRange⟩)
  char : ∀ place i, HasInteger ctx place i → 0 ≤ i ∧ i < s.length →
    ∃ c, (textChar target place).evaluate ctx = .ok (.char c)
  noChar : ∀ place i, HasInteger ctx place i → ¬ (0 ≤ i ∧ i < s.length) →
    (textChar target place).evaluate ctx = .error (.indexOutOfRange i)
  part : ∀ start length i n, HasInteger ctx start i → HasInteger ctx length n →
    0 ≤ i ∧ 0 ≤ n ∧ i + n ≤ s.length →
      ∃ cut : String, (textPart target start length).evaluate ctx = .ok (.string cut) ∧
        cut.length = n ∧
        ∀ place place' j, HasInteger ctx place j → HasInteger ctx place' (i + j) → 0 ≤ j → j < n →
          ∃ c, (textChar (textPart target start length) place).evaluate ctx = .ok (.char c) ∧
            (textChar target place').evaluate ctx = .ok (.char c)
  noPart : ∀ start length i n, HasInteger ctx start i → HasInteger ctx length n →
    ¬ (0 ≤ i ∧ 0 ≤ n ∧ i + n ≤ s.length) →
      (textPart target start length).evaluate ctx = .error (.indexOutOfRange (i + n))
  rest : ∀ start length i, HasInteger ctx start i → HasInteger ctx length (s.length - i) →
    (textRest target start).evaluate ctx = (textPart target start length).evaluate ctx
  halves : ∀ zero middle i, HasInteger ctx zero 0 → HasInteger ctx middle i →
    0 ≤ i ∧ i ≤ s.length →
      ∃ front back, (textPart target zero middle).evaluate ctx = .ok (.string front) ∧
        (textRest target middle).evaluate ctx = .ok (.string back) ∧ front ++ back = s

/-- A text is found at the least position at which the part of its length is the text, and where it
is not contained there is no such position. -/
structure FindsFirst (ctx : EvalContext) (target pattern : Expr) (t : String) : Prop where
  found : ∃ isFound place inRange,
    (textContains target pattern).evaluate ctx = .ok (.boolean isFound) ∧
      (textIndexOf target pattern).evaluate ctx = .ok (.integral ⟨.int32, place, inRange⟩) ∧
      (place = -1 ↔ isFound = false) ∧
      (isFound = true → ∀ start, HasInteger ctx start place →
        (textPart target start (textLength pattern)).evaluate ctx = .ok (.string t)) ∧
      ∀ start i, HasInteger ctx start i →
        (textPart target start (textLength pattern)).evaluate ctx = .ok (.string t) →
          isFound = true ∧ place ≤ i

theorem countsCharacters (isText : target.evaluate ctx = .ok (.string s))
    (short : (s.length : Int) ≤ IntKind.int32.max) : CountsCharacters ctx target s where
  length := evaluate_textLength isText short
  char place i hasPlace inside := by
    rcases textChar_cases isText hasPlace with ⟨j, c, -, -, outcome⟩ | ⟨outside, -⟩
    · exact ⟨c, outcome⟩
    · exact absurd inside outside
  noChar place i hasPlace outside := by
    rcases textChar_cases isText hasPlace with ⟨j, c, rfl, found, -⟩ | ⟨-, outcome⟩
    · have bound : j < s.toList.length := (List.getElem?_eq_some_iff.mp found).1
      rw [String.length_toList] at bound
      exact absurd ⟨Int.natCast_nonneg j, Int.ofNat_lt.mpr bound⟩ outside
    · exact outcome
  part start length i n hasStart hasLength inside := by
    obtain ⟨first, count, within⟩ := inside
    let cut := String.ofList ((s.toList.drop i.toNat).take n.toNat)
    have isCut : (textPart target start length).evaluate ctx = .ok (.string cut) := by
      rw [evaluate_textPart isText hasStart hasLength, Value.substring_eq_ok first count within]
    have size : s.toList.length = s.length := String.length_toList
    refine ⟨cut, isCut, ?_, fun place place' j hasPlace hasPlace' least before => ?_⟩
    · have length_eq : cut.length = n.toNat := by
        rw [String.length_ofList, List.length_take, List.length_drop]
        omega
      rw [length_eq, Int.toNat_of_nonneg count]
    · rcases textChar_cases isText hasPlace' with ⟨k, c, place_eq, found, outcome⟩ | ⟨outside, -⟩
      · have same : cut.toList[j.toNat]? = some c := by
          rw [String.toList_ofList, List.getElem?_take_of_lt (by omega), List.getElem?_drop,
            ← found]
          congr 1
          omega
        refine ⟨c, ?_, outcome⟩
        rw [evaluate_textChar isCut hasPlace, ← Int.toNat_of_nonneg least, Value.itemAt_eq_ok same]
        rfl
      · omega
  noPart start length i n hasStart hasLength outside := by
    rw [evaluate_textPart isText hasStart hasLength, Value.substring_eq_error outside]
  rest start length i hasStart hasLength := by
    rw [evaluate_textRest isText hasStart, evaluate_textPart isText hasStart hasLength]
  halves zero middle i hasZero hasMiddle inside := by
    have size : s.toList.length = s.length := String.length_toList
    have front := Value.substring_eq_ok (s := s) (Int.le_refl 0) inside.1 (by omega)
    have back := Value.substring_eq_ok (s := s) inside.1 (n := s.length - i) (by omega) (by omega)
    refine ⟨_, _, (evaluate_textPart isText hasZero hasMiddle).trans front,
      (evaluate_textRest isText hasMiddle).trans back, ?_⟩
    have all : (s.toList.drop i.toNat).take (s.length - i).toNat = s.toList.drop i.toNat :=
      List.take_of_length_le (by rw [List.length_drop]; omega)
    rw [all, ← String.ofList_append, Int.toNat_zero, List.drop_zero, List.take_append_drop,
      String.ofList_toList]

theorem findsFirst (isText : target.evaluate ctx = .ok (.string s))
    (isPattern : pattern.evaluate ctx = .ok (.string t))
    (short : (s.length : Int) ≤ IntKind.int32.max) (short' : (t.length : Int) ≤ IntKind.int32.max) :
    FindsFirst ctx target pattern t where
  found := by
    have size : s.toList.length = s.length := String.length_toList
    obtain ⟨inRange', length_eq⟩ := evaluate_textLength isPattern short'
    have part (start : Expr) (i : Int) (hasStart : HasInteger ctx start i) :
        (textPart target start (textLength pattern)).evaluate ctx = .ok (.string t) ↔
          0 ≤ i ∧ i ≤ s.length ∧ t.toList <+: s.toList.drop i.toNat := by
      rw [evaluate_textPart isText hasStart ⟨_, length_eq, rfl⟩, Value.substring_length_iff]
    obtain ⟨contains, indexOf⟩ := evaluate_textContains isText isPattern
    rcases Text.indexOf?_cases t.toList s.toList with
      ⟨missing, nowhere⟩ | ⟨k, within, first, isThere, least⟩
    · rw [missing] at contains indexOf
      refine ⟨false, -1, by decide, contains, indexOf.trans rfl, by decide, nofun, ?_⟩
      intro start i hasStart cut
      obtain ⟨positive, bound, begins⟩ := (part start i hasStart).mp cut
      exact absurd begins (nowhere i.toNat (by omega))
    · rw [first] at contains indexOf
      have inRange : IntKind.int32.min ≤ (k : Int) ∧ (k : Int) ≤ IntKind.int32.max :=
        ⟨Int.le_trans (by decide) (Int.natCast_nonneg k), by omega⟩
      have noPlace : (k : Int) = -1 ↔ true = false := by
        simp only [Bool.true_eq_false, iff_false]
        omega
      refine ⟨true, k, inRange, contains, indexOf.trans (congrArg _ (Value.int32_eq inRange)),
        noPlace, ?_, ?_⟩
      · intro _ start hasStart
        exact (part start k hasStart).mpr ⟨Int.natCast_nonneg k, by omega, isThere⟩
      · intro start i hasStart cut
        obtain ⟨positive, bound, begins⟩ := (part start i hasStart).mp cut
        refine ⟨rfl, Int.not_lt.mp fun before => ?_⟩
        exact least i.toNat (by omega) begins

/-- The length of a text, its characters, its parts and the position of a text in it are counted in
characters, as long as 32 bits suffice for them. -/
theorem text_positions (isText : target.evaluate ctx = .ok (.string s))
    (isPattern : pattern.evaluate ctx = .ok (.string t))
    (short : (s.length : Int) ≤ IntKind.int32.max) (short' : (t.length : Int) ≤ IntKind.int32.max) :
    CountsCharacters ctx target s ∧ FindsFirst ctx target pattern t :=
  ⟨countsCharacters isText short, findsFirst isText isPattern short short'⟩

section Example

/-- Characters of one, two and three bytes. -/
def mixedBytes : Expr := ofValue .string (.string "añb€")

/-- The second and the third one of them. -/
def innerBytes : Expr := ofValue .string (.string "ñb")

theorem text_positions_bytes :
    let ctx := EvalContext.initial .minValue
    CountsCharacters ctx mixedBytes "añb€" ∧ FindsFirst ctx mixedBytes innerBytes "ñb" ∧
      (textLength mixedBytes).evaluate ctx = .ok (.int32 4) ∧
      (textIndexOf mixedBytes innerBytes).evaluate ctx = .ok (.int32 1) := by
  intro ctx
  have isText : mixedBytes.evaluate ctx = .ok (.string "añb€") := rfl
  have isPattern : innerBytes.evaluate ctx = .ok (.string "ñb") := rfl
  obtain ⟨counts, finds⟩ := text_positions isText isPattern (by decide +kernel) (by decide +kernel)
  exact ⟨counts, finds, rfl, rfl⟩

end Example

end Expr

end QueryTree
