import QueryTree.Proofs.Safety.Operand
import QueryTree.Proofs.Type.Hierarchy

/-!
# Implicit conversions in a row

Where no class declares a conversion, a value that converts implicitly from one type to another and
on to a third one converts to the third one at once, but for one kind of conversion: a class that
inherits from an enumerable class converts to it, but not to a sequence of its elements.
-/

namespace QueryTree

namespace Atom

/-- The types without parts, each once. -/
def vocabulary : List Atom :=
  [object, boolean, char, string, integral .sbyte, integral .byte, integral .int16,
    integral .uint16, integral .int32, integral .uint32, integral .int64, integral .uint64, single,
    double, decimal, dateTime, timeSpan, guid, type, dynamic]

theorem mem_vocabulary (a : Atom) : a ∈ vocabulary := by
  cases a with
  | integral kind => cases kind <;> decide
  | _ => decide

theorem widensTo_trans {a b c : Atom} (first : a.widensTo b = true) (second : b.widensTo c = true) :
    a.widensTo c = true := by
  have table : vocabulary.all (fun a => vocabulary.all fun b => !a.widensTo b ||
      vocabulary.all fun c => !b.widensTo c || a.widensTo c) = true := by decide +kernel
  have row := List.all_eq_true.mp (List.all_eq_true.mp table a (mem_vocabulary a)) b
    (mem_vocabulary b)
  simp only [first, Bool.not_true, Bool.false_or] at row
  simpa [second] using List.all_eq_true.mp row c (mem_vocabulary c)

theorem isValue_of_isNumeric {a : Atom} (isNumber : a.isNumeric = true) : a.isValue = true := by
  cases a <;> first | rfl | cases isNumber

end Atom

namespace Ty

variable {table : ClassTable} {s t u : Ty}

/-- The parts of a type that conversions look at are made of declared classes, and only value types
are widened by null, at most once. -/
def Over (isDeclared : ClassRef → Prop) : Ty → Prop
  | cls c => isDeclared c
  | nullable inner => inner.isValue = true ∧ inner.isNullable = false ∧ Over isDeclared inner
  | array element | list element | sequence element => Over isDeclared element
  | grouping key element => Over isDeclared key ∧ Over isDeclared element
  | _ => True

end Ty

/-- The classes of an object model.  Each is known by its name, and what it is built from belongs to
the model as well. -/
structure ClassTable.Describes (table : ClassTable) (isDeclared : ClassRef → Prop) : Prop where
  named : ∀ {c d}, isDeclared c → isDeclared d → c.same d = true → c.index = d.index
  base : ∀ {c t}, isDeclared c → (table.body c).base = some t → t.Over isDeclared
  element : ∀ {c t}, isDeclared c → (table.body c).element = some t → t.Over isDeclared

namespace Ty

variable {table : ClassTable} {isDeclared : ClassRef → Prop} {s t u : Ty}

theorem widensTo_trans (first : s.widensTo t = true) (second : t.widensTo u = true) :
    s.widensTo u = true := by
  obtain same | ⟨a, b, rfl, rfl, widens⟩ := widensTo_iff.mp first
  · obtain same' | ⟨a, b, rfl, rfl, widens⟩ := widensTo_iff.mp second
    · exact widensTo_iff.mpr (.inl (BEq.trans same same'))
    · obtain rfl := eq_of_same rfl same
      exact second
  · obtain same | ⟨_, c, isAtom, rfl, widens'⟩ := widensTo_iff.mp second
    · obtain rfl := eq_atom_of_beq same
      exact first
    · obtain rfl := atom.inj isAtom
      exact Atom.widensTo_trans widens widens'

theorem exists_eq_cls {c : ClassRef} (same : (cls c == t) = true) :
    ∃ d, t = cls d ∧ c.same d = true := by
  change Ty.same (cls c) t = true at same
  cases t <;> simp_all [Ty.same]

theorem exists_eq_sequence (same : (sequence s == t) = true) :
    ∃ u, t = sequence u ∧ (s == u) = true := by
  change Ty.same (sequence s) t = true at same
  cases t <;> simp_all [Ty.same]
  exact same

theorem exists_eq_record {id : Nat} {names : List String} {types : List Ty}
    (same : (record id names types == t) = true) : ∃ id names types, t = record id names types := by
  change Ty.same (record id names types) t = true at same
  cases t <;> simp_all [Ty.same]

/-- A value type is assignable only to the top type, or as a class. -/
theorem eq_cls_of_isAssignable (isValue : t.isValue = true) (isReference : u.isValue = false)
    (assignable : isAssignable table u t = true) : u = .object ∨ ∃ c, t = .cls c := by
  cases isAssignable_iff.mp assignable with
  | same same =>
      rw [isValue_same same, isValue] at isReference
      cases isReference
  | object => exact .inl rfl
  | @ancestor b c => exact .inr ⟨c, rfl⟩
  | dynamic => cases isValue
  | sequence elements =>
      cases t with
      | atom a =>
          cases a with
          | string => cases isValue
          | _ => cases elements
      | cls c => exact .inr ⟨c, rfl⟩
      | nullable | enum => cases elements
      | _ => cases isValue

theorem core_isValue (known : u.Over isDeclared) (isValue : u.isValue = true) :
    u.core.isValue = true := by
  cases u with
  | nullable inner => exact known.1
  | _ => exact isValue

/-- A reference type widens to no value type. -/
theorem widensTo_of_isReference (known : u.Over isDeclared) (isReference : t.isValue = false)
    (isValue : u.isValue = true) : t.core.widensTo u.core = false := by
  by_contra widens
  rw [Bool.not_eq_false] at widens
  have core_eq : t.core = t := by
    cases t with
    | nullable inner => cases isReference
    | _ => rfl
  have core_value := core_isValue known isValue
  rw [core_eq] at widens
  obtain same | ⟨a, b, rfl, u_core, widens⟩ := widensTo_iff.mp widens
  · rw [isValue_same same, core_value] at isReference
    cases isReference
  · obtain rfl | ⟨isNumber, -⟩ := Atom.widensTo_isNumeric widens
    · rw [u_core] at core_value
      exact absurd (core_value.symm.trans isReference) (by decide)
    · exact absurd ((Atom.isValue_of_isNumeric isNumber).symm.trans isReference) (by decide)

/-- What is assignable to a type is assignable to the same type. -/
theorem isAssignable_same_target {t u s : Ty} (same : (t == u) = true)
    (assignable : isAssignable table t s = true) : isAssignable table u s = true := by
  rw [isAssignable_iff]
  cases isAssignable_iff.mp assignable with
  | same same' => exact .same (BEq.trans (BEq.symm same) same')
  | object =>
      obtain rfl := eq_atom_of_beq same
      exact .object s
  | ancestor isAncestor same' =>
      obtain ⟨b, rfl, -⟩ := exists_eq_cls same
      exact .ancestor isAncestor (BEq.trans same' same)
  | dynamic =>
      obtain rfl := eq_atom_of_beq same
      exact .dynamic ..
  | sequence elements covers =>
      obtain ⟨wanted, rfl, same_wanted⟩ := exists_eq_sequence same
      refine .sequence elements ?_
      obtain same' | ⟨isReference, assignable⟩ := covers
      · exact .inl (BEq.trans same' same_wanted)
      · exact .inr ⟨isReference, isAssignable_same_target same_wanted assignable⟩

section Congruence

variable (model : table.Describes isDeclared)

include model

theorem element?_over (known : s.Over isDeclared) {e : Ty} (elements : s.element? table = some e) :
    e.Over isDeclared := by
  cases s with
  | atom a =>
      cases a <;> cases elements
      trivial
  | array | list | sequence =>
      obtain rfl := Option.some.inj elements
      exact known
  | grouping =>
      obtain rfl := Option.some.inj elements
      exact known.2
  | cls c => exact model.element known elements
  | _ => cases elements

/-- The same types have the same elements. -/
theorem element?_same (known : s.Over isDeclared) (known' : t.Over isDeclared)
    (same : (s == t) = true) {e : Ty} (elements : t.element? table = some e) :
    ∃ e', s.element? table = some e' ∧ (e' == e) = true := by
  cases t with
  | atom =>
      obtain rfl := eq_of_same rfl same
      exact ⟨e, elements, BEq.rfl⟩
  | array t | list t | sequence t =>
      obtain rfl := Option.some.inj elements
      change Ty.same s _ = true at same
      cases s <;> simp only [Ty.same, Bool.false_eq_true] at same
      exact ⟨_, rfl, same⟩
  | grouping key t =>
      obtain rfl := Option.some.inj elements
      change Ty.same s _ = true at same
      cases s <;> simp only [Ty.same, Bool.false_eq_true, Bool.and_eq_true] at same
      exact ⟨_, rfl, same.2⟩
  | cls d =>
      obtain ⟨c, rfl, named⟩ := exists_eq_cls (BEq.symm same)
      have same_body : table.body d = table.body c :=
        ClassTable.body_congr (model.named known' known named)
      exact ⟨e, by rwa [element?, ← same_body], BEq.rfl⟩
  | _ => cases elements

/-- What a type is assignable to the same type is assignable to. -/
theorem isAssignable_same_source {u t s : Ty} (known : s.Over isDeclared)
    (known' : t.Over isDeclared) (same : (s == t) = true)
    (assignable : isAssignable table u t = true) : isAssignable table u s = true := by
  rw [isAssignable_iff]
  cases isAssignable_iff.mp assignable with
  | same same' => exact .same (BEq.trans same' (BEq.symm same))
  | object => exact .object s
  | ancestor isAncestor same' =>
      obtain ⟨c, rfl, named⟩ := exists_eq_cls (BEq.symm same)
      rw [ClassTable.ancestors_congr (model.named known' known named)] at isAncestor
      exact .ancestor isAncestor same'
  | dynamic =>
      obtain ⟨id, names, types, rfl⟩ := exists_eq_record (BEq.symm same)
      exact .dynamic ..
  | sequence elements covers =>
      obtain ⟨element', elements', same_element⟩ := element?_same model known known' same elements
      refine .sequence elements' ?_
      obtain same' | ⟨isReference, assignable⟩ := covers
      · exact .inl (BEq.trans same_element same')
      · refine .inr ⟨(isValue_same same_element).trans isReference, ?_⟩
        exact isAssignable_same_source (element?_over model known elements')
          (element?_over model known' elements) same_element assignable

theorem baseAt?_over {n : Nat} {c : ClassRef} (declared : isDeclared c)
    (isBase : table.baseAt? n c = some t) : t.Over isDeclared := by
  induction n generalizing c with
  | zero => exact model.base declared isBase
  | succ n ih =>
      obtain ⟨parent, isParent, above⟩ := Option.bind_eq_some_iff.mp isBase
      obtain ⟨u, base, isClass⟩ := Option.bind_eq_some_iff.mp isParent
      obtain rfl := eq_cls_of_class? isClass
      exact ih (model.base declared base) above

theorem ancestor_over {c : ClassRef} (declared : isDeclared c)
    (isAncestor : t ∈ table.ancestors c) : t.Over isDeclared := by
  obtain ⟨n, isBase⟩ := ClassTable.mem_ancestors_iff.mp isAncestor
  exact baseAt?_over model declared isBase

/-- An ancestor that is the same as a class is declared in the place of that class. -/
theorem exists_ancestor {b c : ClassRef} {base : Ty} (known : isDeclared b) (known' : isDeclared c)
    (isAncestor : base ∈ table.ancestors c) (same : (base == cls b) = true) :
    ∃ b', .cls b' ∈ table.ancestors c ∧ b'.index = b.index ∧ b'.isValue = b.isValue := by
  obtain ⟨b', rfl, named⟩ := exists_eq_cls (BEq.symm same)
  have declared : isDeclared b' := ancestor_over model known' isAncestor
  have same_kind := isValue_same same
  exact ⟨b', isAncestor, (model.named known declared named).symm, same_kind⟩

/-- The bases of what an ancestor is the same as are bases as well. -/
theorem Assigns.ancestor_trans {b c d : ClassRef} {base base' : Ty} (known : isDeclared b)
    (known' : isDeclared c) (isAncestor : base ∈ table.ancestors c)
    (same : (base == cls b) = true) (isAncestor' : base' ∈ table.ancestors b)
    (same' : (base' == cls d) = true) : Assigns table (cls d) (cls c) := by
  obtain ⟨b', isAncestor, same_index, -⟩ := exists_ancestor model known known' isAncestor same
  rw [← ClassTable.ancestors_congr same_index] at isAncestor'
  exact .ancestor (ClassTable.mem_ancestors_trans isAncestor isAncestor') same'

end Congruence

end Ty

/-- The values of each class are values of all sequences that its ancestors are sequences of by
their own declaration. -/
def ClassTable.PassesElements (table : ClassTable) (isDeclared : ClassRef → Prop) : Prop :=
  ∀ c b e, isDeclared c → .cls b ∈ table.ancestors c → b.isValue = false →
    (table.body b).element = some e → Ty.isAssignable table (.sequence e) (.cls c) = true

/-- Each class converts to all sequences that its ancestors convert to by their own declaration. -/
def ClassTable.InheritsElements (table : ClassTable) (isDeclared : ClassRef → Prop) : Prop :=
  ∀ c b e, isDeclared c → .cls b ∈ table.ancestors c → b.isValue = false →
    (table.body b).element = some e → Ty.isCompatible table (.cls c) (.sequence e) = true

namespace Ty

variable {table : ClassTable} {isDeclared : ClassRef → Prop} {s t u : Ty}

section Transitivity

variable (model : table.Describes isDeclared)

include model

/-- What is assignable to an enumerable reference type has elements for its elements. -/
theorem element?_of_isAssignable (passes : table.PassesElements isDeclared)
    (known : s.Over isDeclared) (known' : t.Over isDeclared) (isReference : t.isValue = false)
    (assignable : isAssignable table t s = true) {e : Ty} (elements : t.element? table = some e) :
    ∃ e', s.element? table = some e' ∧ Covers table e e' := by
  cases isAssignable_iff.mp assignable with
  | same same =>
      obtain ⟨e', elements', same'⟩ := element?_same model known known' (BEq.symm same) elements
      exact ⟨e', elements', .inl same'⟩
  | object | dynamic => cases elements
  | @ancestor b c _ isAncestor same =>
      obtain ⟨b', isAncestor', same_index, same_kind⟩ :=
        exists_ancestor model known' known isAncestor same
      have element : (table.body b').element = some e := by
        rw [ClassTable.body_congr same_index]
        exact elements
      have assignable := passes c b' e known isAncestor' (same_kind.trans isReference) element
      cases isAssignable_iff.mp assignable with
      | same same => cases same
      | sequence elements' covers => exact ⟨_, elements', covers⟩
  | sequence elements' covers =>
      obtain rfl := Option.some.inj elements
      exact ⟨_, elements', covers⟩

/-- Assignability is transitive through reference types, but to a sequence only if classes pass on
their elements. -/
theorem isAssignable_trans {u t s : Ty}
    (passes : (∃ wanted, u = .sequence wanted) → table.PassesElements isDeclared)
    (known : s.Over isDeclared) (known' : t.Over isDeclared) (isReference : t.isValue = false)
    (first : isAssignable table t s = true) (second : isAssignable table u t = true) :
    isAssignable table u s = true := by
  cases isAssignable_iff.mp second with
  | same same => exact isAssignable_same_target (BEq.symm same) first
  | object => exact isAssignable_iff.mpr (.object s)
  | ancestor isAncestor' same' =>
      cases isAssignable_iff.mp first with
      | same same => exact isAssignable_same_source model known known' (BEq.symm same) second
      | ancestor isAncestor same =>
          exact isAssignable_iff.mpr
            (.ancestor_trans model known' known isAncestor same isAncestor' same')
  | dynamic =>
      cases isAssignable_iff.mp first with
      | same same => exact isAssignable_same_source model known known' (BEq.symm same) second
  | @sequence wanted element _ elements covers =>
      have passes := passes ⟨wanted, rfl⟩
      obtain ⟨element', elements', covers'⟩ :=
        element?_of_isAssignable model passes known known' isReference first elements
      have element_over := element?_over model known' elements
      have element_over' := element?_over model known elements'
      refine isAssignable_iff.mpr (.sequence elements' ?_)
      obtain same | ⟨isReference, assignable⟩ := covers
      · obtain same' | ⟨isReference', assignable'⟩ := covers'
        · exact .inl (BEq.trans same' same)
        · exact .inr ⟨isReference', isAssignable_same_target same assignable'⟩
      · obtain same' | ⟨isReference', assignable'⟩ := covers'
        · exact .inr ⟨(isValue_same same').trans isReference,
            isAssignable_same_source model element_over' element_over same' assignable⟩
        · exact .inr ⟨isReference', isAssignable_trans (fun _ => passes) element_over'
            element_over isReference assignable' assignable⟩

/-- Undeclared conversions do not tell the same types apart. -/
theorem convertsUndeclared_congr {s' t' : Ty} (known : s.Over isDeclared)
    (known' : s'.Over isDeclared) (same : (s' == s) = true) (same' : (t == t') = true)
    (converts : s.convertsUndeclared table t = true) :
    s'.convertsUndeclared table t' = true := by
  rw [convertsUndeclared_iff] at converts ⊢
  obtain same'' | ⟨isReference, assignable⟩ | ⟨isValue, lifts, widens⟩ := converts
  · exact .inl (BEq.trans (BEq.trans same same'') same')
  · exact .inr (.inl ⟨(isValue_same same').symm.trans isReference, isAssignable_same_target same'
      (isAssignable_same_source model known' known same assignable)⟩)
  · refine .inr (.inr ⟨(isValue_same same').symm.trans isValue, ?_, ?_⟩)
    · rw [isNullable_same same, ← isNullable_same same']
      exact lifts
    · refine widensTo_trans (widensTo_iff.mpr (.inl (core_same same))) ?_
      exact widensTo_trans widens (widensTo_iff.mpr (.inl (core_same same')))

/-- Undeclared conversions are transitive, those to a sequence if classes pass on their elements. -/
theorem convertsUndeclared_trans
    (passes : (∃ wanted, u = .sequence wanted) → table.PassesElements isDeclared)
    (known : s.Over isDeclared) (known' : t.Over isDeclared) (known'' : u.Over isDeclared)
    (first : s.convertsUndeclared table t = true) (second : t.convertsUndeclared table u = true) :
    s.convertsUndeclared table u = true := by
  rw [convertsUndeclared_iff] at first second ⊢
  obtain same | ⟨isReference, assignable⟩ | ⟨isValue, lifts, widens⟩ := first
  · obtain same' | ⟨isReference, assignable⟩ | ⟨isValue, lifts, widens⟩ := second
    · exact .inl (BEq.trans same same')
    · exact .inr (.inl ⟨isReference, isAssignable_same_source model known known' same assignable⟩)
    · refine .inr (.inr ⟨isValue, isNullable_same same ▸ lifts, ?_⟩)
      exact widensTo_trans (widensTo_iff.mpr (.inl (core_same same))) widens
  · obtain same' | ⟨isReference', assignable'⟩ | ⟨isValue', -, widens⟩ := second
    · exact .inr (.inl ⟨isValue_same same' ▸ isReference,
        isAssignable_same_target same' assignable⟩)
    · exact .inr (.inl ⟨isReference', isAssignable_trans model passes known known' isReference
        assignable assignable'⟩)
    · simp [widensTo_of_isReference known'' isReference isValue'] at widens
  · obtain same' | ⟨isReference', assignable'⟩ | ⟨isValue', lifts', widens'⟩ := second
    · refine .inr (.inr ⟨isValue_same same' ▸ isValue, isNullable_same same' ▸ lifts, ?_⟩)
      exact widensTo_trans widens (widensTo_iff.mpr (.inl (core_same same')))
    · refine .inr (.inl ⟨isReference', ?_⟩)
      obtain rfl | ⟨c, rfl⟩ := eq_cls_of_isAssignable isValue isReference' assignable'
      · exact isAssignable_iff.mpr (.object s)
      · have same : (s == cls c) = true := by
          have isPlain : s.isNullable = false := by
            simpa [isNullable] using lifts
          rw [core_eq_self isPlain] at widens
          obtain same | ⟨_, _, -, isAtom, -⟩ := widensTo_iff.mp widens
          · exact same
          · cases isAtom
        exact isAssignable_same_source model known known' same assignable'
    · exact .inr (.inr ⟨isValue', fun isNullable => lifts' (lifts isNullable),
        widensTo_trans widens widens'⟩)

end Transitivity

theorem isCompatible_iff (plain : table.DeclaresNoConversion) :
    isCompatible table s t = true ↔
      (s == t) = true ∨ (t.isValue = false ∧ isAssignable table t s = true) ∨
        (t.isValue = true ∧ (s.isNullable = true → t.isNullable = true) ∧
          s.core.widensTo t.core = true) :=
  isCompatible_iff_of_undeclared (hasDeclaredConversion_eq_false plain s t false)

theorem passesElements_of_inherits (plain : table.DeclaresNoConversion)
    (inherits : table.InheritsElements isDeclared) : table.PassesElements isDeclared := by
  intro c b e declared isAncestor isReference element
  obtain same | ⟨-, assignable⟩ | ⟨isValue, -⟩ :=
    (isCompatible_iff plain).mp (inherits c b e declared isAncestor isReference element)
  · cases same
  · exact assignable
  · cases isValue

theorem isCompatible_trans (model : table.Describes isDeclared)
    (plain : table.DeclaresNoConversion)
    (inherits : (∃ wanted, u = .sequence wanted) → table.InheritsElements isDeclared)
    (known : s.Over isDeclared) (known' : t.Over isDeclared) (known'' : u.Over isDeclared)
    (first : isCompatible table s t = true) (second : isCompatible table t u = true) :
    isCompatible table s u = true := by
  have undeclared := hasDeclaredConversion_eq_false plain
  rw [isCompatible_of_undeclared (undeclared _ _ false)] at first second ⊢
  exact convertsUndeclared_trans model
    (fun isSequence => passesElements_of_inherits plain (inherits isSequence)) known known' known''
    first second

/-- Where no class declares a conversion, implicit conversion is reflexive, and transitive to all
types but sequences.  It is transitive if and only if classes inherit the elements of their
ancestors. -/
theorem isCompatible_preorder (model : table.Describes isDeclared)
    (plain : table.DeclaresNoConversion) :
    (∀ t, isCompatible table t t = true) ∧
      (∀ s t u, s.Over isDeclared → t.Over isDeclared → u.Over isDeclared →
        (∀ wanted, u ≠ .sequence wanted) → isCompatible table s t = true →
        isCompatible table t u = true → isCompatible table s u = true) ∧
      ((∀ s t u, s.Over isDeclared → t.Over isDeclared → u.Over isDeclared →
          isCompatible table s t = true → isCompatible table t u = true →
          isCompatible table s u = true) ↔
        table.InheritsElements isDeclared) := by
  refine ⟨fun t => (isCompatible_iff plain).mpr (.inl BEq.rfl), ?_, ?_, ?_⟩
  · intro s t u known known' known'' other
    have noSequence : (∃ wanted, u = .sequence wanted) → table.InheritsElements isDeclared :=
      fun ⟨wanted, isSequence⟩ => absurd isSequence (other wanted)
    exact isCompatible_trans model plain noSequence known known' known''
  · intro transitive c b e declared isAncestor isReference element
    have known : Over isDeclared (cls b) := ancestor_over model declared isAncestor
    have toAncestor : isCompatible table (cls c) (cls b) = true :=
      (isCompatible_iff plain).mpr (.inr (.inl ⟨isReference,
        isAssignable_iff.mpr (.ancestor isAncestor BEq.rfl)⟩))
    have toSequence : isCompatible table (cls b) (sequence e) = true :=
      (isCompatible_iff plain).mpr (.inr (.inl ⟨rfl,
        isAssignable_iff.mpr (.sequence element (.inl BEq.rfl))⟩))
    have elementOver : e.Over isDeclared := model.element known element
    exact transitive _ _ _ declared known elementOver toAncestor toSequence
  · intro inherits s t u known known' known''
    exact isCompatible_trans model plain (fun _ => inherits) known known' known''

/-! ### Cycles

From a sequence conversions lead only to sequences and to the type of all values, and from there
nowhere.  So a cycle that passes a sequence passes nothing else, and is one of their elements.  This
is why there is none, although conversions to sequences need not be transitive.
-/

/-- A relation that leads from a sequence only to sequences and to the type of all values, and from
there nowhere. -/
structure KeepsSequences (r : Ty → Ty → Prop) : Prop where
  sequence {a u : Ty} : r (.sequence a) u → u = .object ∨ ∃ b, u = .sequence b
  object {u : Ty} : ¬ r .object u

/-- A relation among types that are no sequences. -/
def BesidesSequences (r : Ty → Ty → Prop) (t u : Ty) : Prop :=
  (∀ e, t ≠ .sequence e) ∧ (∀ e, u ≠ .sequence e) ∧ r t u

namespace KeepsSequences

variable {r : Ty → Ty → Prop} {a : Ty} (keeps : KeepsSequences r)

include keeps

theorem chain_from_sequence (chain : Relation.TransGen r (.sequence a) u) :
    u = .object ∨ ∃ b, u = .sequence b ∧
      Relation.TransGen (fun a b => r (.sequence a) (.sequence b)) a b := by
  induction chain with
  | single step =>
      obtain rfl | ⟨b, rfl⟩ := keeps.sequence step
      · exact .inl rfl
      · exact .inr ⟨b, rfl, .single step⟩
  | tail _ step ih =>
      obtain rfl | ⟨b, rfl, chain⟩ := ih
      · exact absurd step keeps.object
      · obtain rfl | ⟨c, rfl⟩ := keeps.sequence step
        · exact .inl rfl
        · exact .inr ⟨c, rfl, .tail chain step⟩

theorem chain_from_other (other : ∀ e, t ≠ .sequence e) (chain : Relation.TransGen r t u) :
    u = .object ∨ (∃ b, u = .sequence b) ∨
      ((∀ e, u ≠ .sequence e) ∧ Relation.TransGen (BesidesSequences r) t u) := by
  induction chain with
  | @single u step =>
      by_cases isSequence : ∃ b, u = .sequence b
      · exact .inr (.inl isSequence)
      · have other' := not_exists.mp isSequence
        exact .inr (.inr ⟨other', .single ⟨other, other', step⟩⟩)
  | @tail u v _ step ih =>
      obtain rfl | ⟨b, rfl⟩ | ⟨other', chain⟩ := ih
      · exact absurd step keeps.object
      · exact (keeps.sequence step).imp_right .inl
      · by_cases isSequence : ∃ b, v = .sequence b
        · exact .inr (.inl isSequence)
        · have other'' := not_exists.mp isSequence
          exact .inr (.inr ⟨other'', .tail chain ⟨other', other'', step⟩⟩)

theorem cycle (cycle : Relation.TransGen r t t) :
    (∃ a, t = .sequence a ∧
      Relation.TransGen (fun a b => r (.sequence a) (.sequence b)) a a) ∨
    Relation.TransGen (BesidesSequences r) t t := by
  by_cases isSequence : ∃ a, t = .sequence a
  · obtain ⟨a, rfl⟩ := isSequence
    obtain isObject | ⟨b, same, inner⟩ := keeps.chain_from_sequence cycle
    · cases isObject
    · obtain rfl := sequence.inj same
      exact .inl ⟨a, rfl, inner⟩
  · obtain rfl | again | ⟨-, chain⟩ := keeps.chain_from_other (not_exists.mp isSequence) cycle
    · obtain ⟨u, step, -⟩ := Relation.TransGen.head'_iff.mp cycle
      exact absurd step keeps.object
    · exact absurd again isSequence
    · exact .inr chain

end KeepsSequences

/-- Without a declared conversion a reference type converts only to what it can be taken for as an
element. -/
theorem covers_of_convertsUndeclared (known : u.Over isDeclared) (isReference : t.isValue = false)
    (converts : t.convertsUndeclared table u = true) : Covers table u t := by
  obtain same | ⟨-, assignable⟩ | ⟨isValue, -, widens⟩ := convertsUndeclared_iff.mp converts
  · exact .inl same
  · exact .inr ⟨isReference, assignable⟩
  · cases (widensTo_of_isReference known isReference isValue).symm.trans widens

theorem eq_of_covers_sequence {a : Ty} (covers : Covers table u (.sequence a)) :
    u = .object ∨ ∃ b, u = .sequence b := by
  obtain same | ⟨-, assignable⟩ := covers
  · obtain ⟨b, rfl, -⟩ := exists_eq_sequence same
    exact .inr ⟨b, rfl⟩
  · cases isAssignable_iff.mp assignable with
    | same same =>
        obtain ⟨b, rfl, -⟩ := exists_eq_sequence (BEq.symm same)
        exact .inr ⟨b, rfl⟩
    | object => exact .inl rfl
    | sequence => exact .inr ⟨_, rfl⟩

theorem eq_of_covers_object (covers : Covers table u .object) : u = .object := by
  obtain same | ⟨-, assignable⟩ := covers
  · exact eq_of_same rfl (BEq.symm same)
  · cases isAssignable_iff.mp assignable with
    | same same => exact eq_of_same rfl same
    | object => rfl
    | sequence elements => cases elements

theorem covers_sequence_iff {a b : Ty} :
    Covers table (.sequence b) (.sequence a) ↔ Covers table b a := by
  constructor
  · rintro (same | ⟨-, assignable⟩)
    · exact .inl same
    · cases isAssignable_iff.mp assignable with
      | same same => exact .inl (BEq.symm (show (b == a) = true from same))
      | sequence elements covers =>
          obtain rfl := Option.some.inj elements
          exact covers
  · exact fun covers => .inr ⟨rfl, isAssignable_iff.mpr (.sequence rfl covers)⟩

/-- The elements of a type can be taken for those of another one, but not the other way around. -/
def Below (table : ClassTable) (t u : Ty) : Prop := Covers table u t ∧ ¬ Covers table t u

theorem keepsSequences_below : KeepsSequences (Below table) where
  sequence step := eq_of_covers_sequence step.1
  object := by
    rintro u ⟨covers, back⟩
    exact back (eq_of_covers_object covers ▸ .inl BEq.rfl)

section Cycles

variable (model : table.Describes isDeclared)

include model

theorem covers_trans (other : ∀ e, u ≠ .sequence e) (known : s.Over isDeclared)
    (known' : t.Over isDeclared) (first : Covers table t s) (second : Covers table u t) :
    Covers table u s := by
  obtain same | ⟨isReference, assignable⟩ := first
  · obtain same' | ⟨isReference, assignable⟩ := second
    · exact .inl (BEq.trans same same')
    · exact .inr ⟨(isValue_same same).trans isReference,
        isAssignable_same_source model known known' same assignable⟩
  · obtain same' | ⟨isReference', assignable'⟩ := second
    · exact .inr ⟨isReference, isAssignable_same_target same' assignable⟩
    · have noSequence : (∃ wanted, u = .sequence wanted) → table.PassesElements isDeclared :=
        fun ⟨wanted, isSequence⟩ => absurd isSequence (other wanted)
      exact .inr ⟨isReference, isAssignable_trans model noSequence known known' isReference'
        assignable assignable'⟩

/-- A chain of types each below the next is never closed. -/
theorem no_cycle_below (t : Ty) :
    ¬ Relation.TransGen
      (fun t u => t.Over isDeclared ∧ u.Over isDeclared ∧ Below table t u) t t := by
  intro cycle
  have keeps : KeepsSequences
      fun t u => t.Over isDeclared ∧ u.Over isDeclared ∧ Below table t u :=
    ⟨fun step => keepsSequences_below.sequence step.2.2,
      fun step => keepsSequences_below.object step.2.2⟩
  obtain ⟨a, rfl, inner⟩ | others := keeps.cycle cycle
  · refine no_cycle_below a (Relation.TransGen.mono ?_ a a inner)
    rintro a b ⟨known, known', covers, back⟩
    exact ⟨known, known', covers_sequence_iff.mp covers, mt covers_sequence_iff.mpr back⟩
  · -- among the other types each is below those that come later in a chain
    have below {u : Ty} (chain : Relation.TransGen (BesidesSequences fun t u =>
        t.Over isDeclared ∧ u.Over isDeclared ∧ Below table t u) t u) :
        t.Over isDeclared ∧ Below table t u := by
      induction chain with
      | single step => exact ⟨step.2.2.1, step.2.2.2.2⟩
      | tail _ step ih =>
          obtain ⟨known, covers, back⟩ := ih
          obtain ⟨other', other'', known', known'', covers', back'⟩ := step
          refine ⟨known, covers_trans model other'' known known' covers covers', fun closes => ?_⟩
          exact back' (covers_trans model other' known'' known closes covers)
    exact (below others).2.2 (.inl BEq.rfl)

end Cycles

section Example

/-- A class that is enumerable. -/
def numbersClass : ClassRef := ⟨"Numbers", none, false, 0⟩

/-- A class that extends an enumerable class. -/
def moreNumbersClass : ClassRef := ⟨"MoreNumbers", none, false, 1⟩

/-- An enumerable class and one that extends it. -/
def numbersTable : ClassTable :=
  #[some { ClassBody.empty with element := some .int32 },
    some { ClassBody.empty with base := some (.cls numbersClass) }]

/-- A class that extends an enumerable class is converted to it, but not to a sequence of its
elements. -/
theorem moreNumbers_not_sequence :
    isCompatible numbersTable (cls moreNumbersClass) (cls numbersClass) = true ∧
      isCompatible numbersTable (cls numbersClass) (sequence .int32) = true ∧
      isCompatible numbersTable (cls moreNumbersClass) (sequence .int32) = false := by
  decide

theorem numbersTable_body (c : ClassRef) :
    (c.index = 0 ∧ numbersTable.body c = { ClassBody.empty with element := some .int32 }) ∨
      (c.index = 1 ∧
        numbersTable.body c = { ClassBody.empty with base := some (.cls numbersClass) }) ∨
      numbersTable.body c = .empty := by
  unfold ClassTable.body
  match c.index with
  | 0 => exact .inl ⟨rfl, rfl⟩
  | 1 => exact .inr (.inl ⟨rfl, rfl⟩)
  | n + 2 => exact .inr (.inr rfl)

theorem numbersTable_describes :
    numbersTable.Describes fun c => c ∈ [numbersClass, moreNumbersClass] where
  named := by
    intro c d c_declared d_declared
    obtain rfl | rfl := List.mem_pair.mp c_declared <;>
      obtain rfl | rfl := List.mem_pair.mp d_declared <;> decide
  base := by
    intro c t _ base
    obtain ⟨-, body⟩ | ⟨-, body⟩ | body := numbersTable_body c <;> rw [body] at base <;>
      cases base
    exact List.mem_cons_self ..
  element := by
    intro c t _ element
    obtain ⟨-, body⟩ | ⟨-, body⟩ | body := numbersTable_body c <;> rw [body] at element <;>
      cases element
    trivial

theorem isCompatible_preorder_numbers :
    numbersTable.Describes (fun c => c ∈ [numbersClass, moreNumbersClass]) ∧
      numbersTable.DeclaresNoConversion ∧
      (∀ t, isCompatible numbersTable t t = true) ∧
      ¬ numbersTable.InheritsElements (fun c => c ∈ [numbersClass, moreNumbersClass]) := by
  have plain : numbersTable.DeclaresNoConversion := fun c m isOperator => by
    obtain ⟨-, body⟩ | ⟨-, body⟩ | body := numbersTable_body c <;>
      simp [body, ClassBody.empty] at isOperator
  obtain ⟨reflexive, -, transitive_iff⟩ := isCompatible_preorder numbersTable_describes plain
  refine ⟨numbersTable_describes, plain, reflexive, fun inherits => ?_⟩
  obtain ⟨toAncestor, toSequence, missing⟩ := moreNumbers_not_sequence
  have converts := transitive_iff.mpr inherits (cls moreNumbersClass) (cls numbersClass)
    (sequence .int32) (List.mem_cons_of_mem _ (List.mem_cons_self ..)) (List.mem_cons_self ..)
    trivial toAncestor toSequence
  simp [missing] at converts

end Example

end Ty

end QueryTree
