import QueryTree.Evaluate.Expression
import QueryTree.Proofs.Model.Conformance
import QueryTree.Proofs.Order.Key

/-!
# Consistent comparison of sort keys

When the comparison that sorting is given is a total preorder on the keys.  Keys that have no order
count as equal, so that keys of one kind are compared consistently, but an incomparable key next to
two that differ makes both of them equal to it and not to each other.
-/

namespace QueryTree

/-- Keys that are all null or of one kind, or of which no two differ but from null. -/
def Uniform (keys : List Value) : Prop :=
  (∃ kind : KeyKind, ∀ key ∈ keys, (kind.rank? key).isSome = true) ∨
    ∀ v ∈ keys, ∀ w ∈ keys, v.isNull = false → w.isNull = false →
      Value.directedOrder true v w = .eq

namespace Value

variable {keys : List Value} {v w : Value}

theorem directedOrder_descending (v w : Value) :
    directedOrder false v w = (directedOrder true v w).swap := rfl

theorem directedOrder_eq_of_none (ascending : Bool) (unordered : v.compare? w = none) :
    directedOrder ascending v w = .eq := by
  cases ascending <;> simp [directedOrder, unordered]

/-- What is consistent ascending is consistent in either direction. -/
theorem consistent_of_ascending (consistent : ConsistentOn (directedOrder true) keys)
    (ascending : Bool) : ConsistentOn (directedOrder ascending) keys := by
  cases ascending with
  | true => exact consistent
  | false => exact consistent.reversed

/-- Keys of one kind are compared consistently. -/
theorem consistent_of_kind (kind : KeyKind) (ofKind : ∀ key ∈ keys, (kind.rank? key).isSome = true)
    (ascending : Bool) : ConsistentOn (directedOrder ascending) keys := by
  refine consistent_of_ascending (.of_rank (fun v => (kind.rank? v).getD ⊥) fun v hv w hw => ?_) _
  obtain ⟨p, isLeft⟩ := Option.isSome_iff_exists.mp (ofKind v hv)
  obtain ⟨q, isRight⟩ := Option.isSome_iff_exists.mp (ofKind w hw)
  rw [directedOrder, compare?_rank isLeft isRight, isLeft, isRight]
  rfl

/-- Keys of which no two differ but from null are compared consistently. -/
theorem consistent_of_equal
    (equal : ∀ v ∈ keys, ∀ w ∈ keys, v.isNull = false → w.isNull = false →
      directedOrder true v w = .eq) (ascending : Bool) :
    ConsistentOn (directedOrder ascending) keys := by
  refine consistent_of_ascending (.of_rank (fun v => !v.isNull) fun v hv w hw => ?_) _
  cases leftNull : v.isNull with
  | true =>
      obtain rfl := eq_null_of_isNull leftNull
      cases rightNull : w.isNull with
      | true =>
          obtain rfl := eq_null_of_isNull rightNull
          rfl
      | false =>
          rw [directedOrder, compare?_null_left rightNull]
          rfl
  | false =>
      cases rightNull : w.isNull with
      | true =>
          obtain rfl := eq_null_of_isNull rightNull
          rw [directedOrder, compare?_null_right leftNull]
          rfl
      | false =>
          rw [equal v hv w hw leftNull rightNull]
          rfl

/-- Values other than null have an order if and only if they are of one kind, unless an exact number
is compared with a binary one. -/
theorem compare?_ne_none_iff (leftNonnull : v.isNull = false) (rightNonnull : w.isNull = false)
    (leftHeld : v.isHeld = true) (rightHeld : w.isHeld = true)
    (unmixed : ¬ (v.kind? = some .exact ∧ w.kind? = some .real) ∧
      ¬ (v.kind? = some .real ∧ w.kind? = some .exact)) :
    v.compare? w ≠ none ↔
      ∃ kind : KeyKind, (kind.valueRank? v).isSome = true ∧ (kind.valueRank? w).isSome = true := by
  constructor
  · intro ordered
    obtain ⟨order, ordered⟩ := Option.ne_none_iff_exists'.mp ordered
    obtain ⟨kind, leftKind, rightKind⟩ :=
      kind?_of_compare? leftNonnull rightNonnull unmixed ordered
    by_cases isReal : kind = .real
    · subst isReal
      obtain ⟨x, isLeft⟩ := real?_of_kind? leftKind
      obtain ⟨y, isRight⟩ := real?_of_kind? rightKind
      rw [compare?_numbers (.inr leftKind) (.inr rightKind), compareNumbers?_real isLeft isRight]
        at ordered
      obtain ⟨p, leftRank, ordered⟩ := Option.bind_eq_some_iff.mp ordered
      obtain ⟨q, rightRank, -⟩ := Option.map_eq_some_iff.mp ordered
      have leftReal : KeyKind.real.valueRank? v = some p :=
        Option.bind_eq_some_iff.mpr ⟨x, isLeft, leftRank⟩
      have rightReal : KeyKind.real.valueRank? w = some q :=
        Option.bind_eq_some_iff.mpr ⟨y, isRight, rightRank⟩
      exact ⟨.real, Option.isSome_of_eq_some leftReal, Option.isSome_of_eq_some rightReal⟩
    · exact ⟨kind, valueRank_of_kind? leftKind leftHeld isReal,
        valueRank_of_kind? rightKind rightHeld isReal⟩
  · rintro ⟨kind, isLeft, isRight⟩
    obtain ⟨p, isLeft⟩ := Option.isSome_iff_exists.mp isLeft
    obtain ⟨q, isRight⟩ := Option.isSome_iff_exists.mp isRight
    simp [compare?_valueRank isLeft isRight]

/-- Next to two keys that differ, all keys of a consistent comparison are of the kind of these. -/
theorem exists_kind_of_consistent (consistent : ConsistentOn (directedOrder true) keys)
    (held : ∀ key ∈ keys, key.isHeld = true)
    (unmixed : ∀ v ∈ keys, ∀ w ∈ keys, ¬ (v.kind? = some .exact ∧ w.kind? = some .real))
    (hv : v ∈ keys) (hw : w ∈ keys) (leftNonnull : v.isNull = false)
    (rightNonnull : w.isNull = false) (differ : directedOrder true v w ≠ .eq) :
    ∃ kind : KeyKind, ∀ key ∈ keys, (kind.rank? key).isSome = true := by
  have pair {v w : Value} (hv : v ∈ keys) (hw : w ∈ keys) :
      ¬ (v.kind? = some .exact ∧ w.kind? = some .real) ∧
        ¬ (v.kind? = some .real ∧ w.kind? = some .exact) :=
    ⟨unmixed v hv w hw, fun swapped => unmixed w hw v hv swapped.symm⟩
  have ordered : v.compare? w ≠ none := fun unordered =>
    differ (directedOrder_eq_of_none true unordered)
  obtain ⟨kind, leftRank, rightRank⟩ := (compare?_ne_none_iff leftNonnull rightNonnull
    (held v hv) (held w hw) (pair hv hw)).mp ordered
  refine ⟨kind, fun key hkey => ?_⟩
  by_cases isNull : key.isNull = true
  · rw [KeyKind.rank?, if_pos isNull]
    rfl
  have nonnull : key.isNull = false := Bool.eq_false_iff.mpr isNull
  rw [KeyKind.rank?, if_neg isNull, Option.isSome_map]
  by_contra other
  -- a key of another kind is equal to both
  have unordered {u : Value} (hu : u ∈ keys) (uNonnull : u.isNull = false)
      (ranked : (kind.valueRank? u).isSome = true) : u.compare? key = none := by
    by_contra ordered
    obtain ⟨second, isLeft, isRight⟩ := (compare?_ne_none_iff uNonnull nonnull (held u hu)
      (held key hkey) (pair hu hkey)).mp ordered
    obtain ⟨p, ranked⟩ := Option.isSome_iff_exists.mp ranked
    obtain ⟨q, isLeft⟩ := Option.isSome_iff_exists.mp isLeft
    have same : kind = second :=
      Option.some.inj ((kind?_of_valueRank? ranked).symm.trans (kind?_of_valueRank? isLeft))
    exact other (same ▸ isRight)
  have first := directedOrder_eq_of_none true
    (unordered hv leftNonnull leftRank)
  have second := directedOrder_eq_of_none true
    (unordered hw rightNonnull rightRank)
  exact differ (consistent.eq_trans v hv key hkey w hw first (consistent.eq_symm hw hkey second))

end Value

namespace Ty

/-- The kind that the values of a type other than null belong to, if they belong to one. -/
def keyKind? : Ty → Option KeyKind
  | string => some .text
  | boolean => some .truth
  | dateTime => some .moment
  | timeSpan => some .duration
  | guid => some .identifier
  | integral _ | char | decimal | enum _ => some .exact
  | single | double => some .real
  | _ => none

theorem keyKind?_same {t u : Ty} (same : (t == u) = true) : t.keyKind? = u.keyKind? := by
  cases t with
  | atom a => rw [eq_atom_of_beq same]
  | _ => cases u <;> first | rfl | cases same

end Ty

namespace Value

variable {keys : List Value} {v : Value} {table : ClassTable} {type : Ty}

theorem kind?_eq_keyKind? (nonnull : v.isNull = false) : v.kind? = v.naturalType.keyKind? := by
  cases v with
  | null => cases nonnull
  | array items =>
      obtain ⟨element, natural⟩ := naturalType_array items
      rw [natural]
      rfl
  | _ => rfl

/-- A value of a type other than that of all values is of the kind of the type. -/
theorem kind?_of_isOf (isOf : v.isOf table type = true) (nonnull : v.isNull = false)
    (notObject : type.core ≠ .object) : v.kind? = type.core.keyKind? := by
  have other : (type.core == .object) = false :=
    Bool.eq_false_iff.mpr fun same => notObject (Ty.eq_atom_of_beq (BEq.symm same))
  have plain (natural : v.naturalType == type.core) : v.kind? = type.core.keyKind? :=
    (kind?_eq_keyKind? nonnull).trans (Ty.keyKind?_same natural)
  unfold Value.isOf at isOf
  split at isOf
  next => cases nonnull
  next =>
    rw [other, Bool.false_or] at isOf
    cases core_eq : type.core with
    | atom a => cases a <;> first | rfl | simp [core_eq, Ty.item?, Ty.element?] at isOf
    | enum e => simp [core_eq, Ty.item?, Ty.element?] at isOf
    | _ => rfl
  next =>
    rw [other, Bool.false_or] at isOf
    cases core_eq : type.core with
    | atom a => cases a <;> first | rfl | simp [core_eq, Ty.hasParts] at isOf
    | enum e => simp [core_eq, Ty.hasParts] at isOf
    | _ => rfl
  next =>
    rw [other, Bool.false_or] at isOf
    exact plain isOf

/-- Keys of one static type are uniform, unless it is that of all values or one of binary
numbers. -/
theorem uniform_of_isOf (held : ∀ key ∈ keys, key.isHeld = true)
    (typed : ∀ key ∈ keys, key.isOf table type = true) (notObject : type.core ≠ .object)
    (notReal : type.core.keyKind? ≠ some .real) : Uniform keys := by
  cases isKind : type.core.keyKind? with
  | some kind =>
      refine .inl ⟨kind, fun key hkey => ?_⟩
      rw [KeyKind.rank?]
      split
      next => rfl
      next notNull =>
        have ofKind := kind?_of_isOf (typed key hkey) (Bool.eq_false_iff.mpr notNull) notObject
        rw [Option.isSome_map]
        exact valueRank_of_kind? (ofKind.trans isKind) (held key hkey)
          fun isReal => notReal (isReal ▸ isKind)
  | none =>
      refine .inr fun v hv w hw leftNonnull rightNonnull => directedOrder_eq_of_none true ?_
      have left := (kind?_of_isOf (typed v hv) leftNonnull notObject).trans isKind
      by_contra ordered
      obtain ⟨order, ordered⟩ := Option.ne_none_iff_exists'.mp ordered
      obtain ⟨kind, isLeft, -⟩ :=
        kind?_of_compare? leftNonnull rightNonnull (by simp [left]) ordered
      rw [left] at isLeft
      cases isLeft

end Value

/-- The order that sort keys give two items. -/
def itemOrder (value : SortKey → Value → Value) (keys : List SortKey) (a b : Value) : Ordering :=
  Value.orderKeys (keys.map (·.ascending)) (keys.map (value · a)) (keys.map (value · b))

/-- The comparison of one sort key, and of others where it does not decide. -/
theorem itemOrder_cons (value : SortKey → Value → Value) (key : SortKey) (rest : List SortKey)
    (a b : Value) :
    itemOrder value (key :: rest) a b =
      (Value.directedOrder key.ascending (value key a) (value key b)).then
        (itemOrder value rest a b) := rfl

/-- Several keys are compared consistently if each of them is. -/
theorem itemOrder_consistent {keys : List SortKey} {items : List Value}
    {value : SortKey → Value → Value}
    (each : ∀ key ∈ keys,
      ConsistentOn (Value.directedOrder key.ascending) (items.map (value key))) :
    ConsistentOn (itemOrder value keys) items := by
  induction keys with
  | nil =>
      exact ⟨fun _ _ => rfl, fun _ _ _ _ => rfl, fun _ _ _ _ _ _ ab _ => ab,
        fun _ _ _ _ _ _ ab _ => ab⟩
  | cons key rest ih =>
      obtain ⟨first, others⟩ := List.forall_mem_cons.mp each
      exact (first.comap (value key)).andThen (ih others)

theorem Uniform.consistent {keys : List Value} (uniform : Uniform keys) (ascending : Bool) :
    ConsistentOn (Value.directedOrder ascending) keys := by
  obtain ⟨kind, ofKind⟩ | equal := uniform
  · exact Value.consistent_of_kind kind ofKind ascending
  · exact Value.consistent_of_equal equal ascending

/-- The keys of a consistent comparison are uniform, exact numbers not being compared with binary
ones. -/
theorem uniform_of_consistent {keys : List Value} {ascending : Bool}
    (consistent : ConsistentOn (Value.directedOrder ascending) keys)
    (held : ∀ key ∈ keys, key.isHeld = true)
    (unmixed : ∀ v ∈ keys, ∀ w ∈ keys, ¬ (v.kind? = some .exact ∧ w.kind? = some .real)) :
    Uniform keys := by
  have upward : ConsistentOn (Value.directedOrder true) keys := by
    cases ascending with
    | true => exact consistent
    | false => exact consistent.reversed.congr fun v _ w _ => by simp [Value.directedOrder]
  refine or_iff_not_imp_right.mpr fun differ => ?_
  push Not at differ
  obtain ⟨v, hv, w, hw, leftNonnull, rightNonnull, differ⟩ := differ
  exact Value.exists_kind_of_consistent upward held unmixed hv hw leftNonnull rightNonnull differ

/-- The comparison that sorting is given is a total preorder where the keys are uniform, and for one
key only there, unless exact numbers are compared with binary ones.  Keys of a static type are
uniform, unless it is that of all values or one of binary numbers. -/
theorem sortKeys_consistent_iff {keys : List SortKey} {items : List Value}
    {value : SortKey → Value → Value}
    (held : ∀ key ∈ keys, ∀ item ∈ items, (value key item).isHeld = true) :
    (∀ key ∈ keys,
      (∀ a ∈ items, ∀ b ∈ items,
        ¬ ((value key a).kind? = some .exact ∧ (value key b).kind? = some .real)) →
      (ConsistentOn (Value.directedOrder key.ascending) (items.map (value key)) ↔
        Uniform (items.map (value key)))) ∧
    ((∀ key ∈ keys, Uniform (items.map (value key))) → ConsistentOn (itemOrder value keys) items) ∧
    ∀ key ∈ keys, ∀ table type, type.core ≠ .object → type.core.keyKind? ≠ some .real →
      (∀ item ∈ items, (value key item).isOf table type = true) →
        Uniform (items.map (value key)) := by
  refine ⟨fun key isKey unmixed => ?_, fun uniform => ?_,
    fun key isKey table type notObject notReal typed => ?_⟩
  · refine ⟨fun consistent => uniform_of_consistent consistent
      (List.forall_mem_map.mpr (held key isKey)) ?_, fun uniform => uniform.consistent _⟩
    exact List.forall_mem_map.mpr fun a ha => List.forall_mem_map.mpr (unmixed a ha)
  · exact itemOrder_consistent fun key isKey => (uniform key isKey).consistent _
  · exact Value.uniform_of_isOf (List.forall_mem_map.mpr (held key isKey))
      (List.forall_mem_map.mpr typed) notObject notReal

/-- The element that sort keys are read from. -/
def sortElement : Parameter := ⟨0, "", .object⟩

/-- Items in the order of themselves. -/
def ownKey : SortKey := ⟨.parameter sortElement, true, false⟩

/-- Every item is its own key. -/
def ownValue (_ : SortKey) (item : Value) : Value := item

/-- Numbers and null. -/
def readings : List Value := [.int32 2, .null, .int32 1]

theorem sortKeys_consistent_iff_readings :
    (∀ key ∈ [ownKey], ∀ item ∈ readings, (ownValue key item).isHeld = true) ∧
      Uniform readings ∧ ConsistentOn (itemOrder ownValue [ownKey]) readings := by
  have held : ∀ key ∈ [ownKey], ∀ item ∈ readings, (ownValue key item).isHeld = true := by
    simp [readings, ownValue, Value.isHeld, Value.int32, Value.ofInteger]
  obtain ⟨-, severalKeys, typed⟩ := sortKeys_consistent_iff held
  have uniform : ∀ key ∈ [ownKey], Uniform (readings.map (ownValue key)) := by
    refine fun key isKey => typed key isKey .initial (.nullable .int32) nofun nofun ?_
    simp only [readings, List.forall_mem_cons]
    exact ⟨rfl, rfl, rfl, nofun⟩
  exact ⟨held, uniform ownKey (by simp), severalKeys uniform⟩

/-- A text is equal to two numbers that differ. -/
theorem object_keys_inconsistent :
    ¬ ConsistentOn (Value.directedOrder true) [.int32 2, .string "a", .int32 1] := by
  intro consistent
  have equal := consistent.eq_trans (.int32 2) (by simp) (.string "a") (by simp) (.int32 1)
    (by simp) rfl rfl
  revert equal
  decide

/-- Numbers on both sides of a text stay where they are. -/
example :
    sortItems .minValue sortElement [ownKey] [.int32 2, .string "a", .int32 1] =
      .ok [.int32 2, .string "a", .int32 1] := by
  rfl

end QueryTree
