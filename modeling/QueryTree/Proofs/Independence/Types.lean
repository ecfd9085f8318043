import Mathlib.Logic.Basic
import Mathlib.Data.List.Infix
import QueryTree.Config.Keyword
import QueryTree.Proofs.Type.Equality
import QueryTree.Type.Conversion

/-!
# Types without numbers

The number of a record type tells only when it was made.  Types that differ in no more than such
numbers are the same, have members and conversions that differ in no more, and are used alike.
-/

namespace QueryTree

namespace Ty

mutual

/-- A type in which the record types have lost their numbers. -/
def unnumbered : Ty → Ty
  | atom a => atom a
  | nullable inner => nullable inner.unnumbered
  | array element => array element.unnumbered
  | list element => list element.unnumbered
  | sequence element => sequence element.unnumbered
  | grouping key element => grouping key.unnumbered element.unnumbered
  | lambda params result => lambda (unnumberedAll params) result.unnumbered
  | enum e => enum e
  | cls c => cls c
  | record _ names types => record 0 names (unnumberedAll types)

/-- Types in which the record types have lost their numbers. -/
def unnumberedAll : List Ty → List Ty
  | [] => []
  | t :: rest => t.unnumbered :: unnumberedAll rest

end

@[simp] theorem unnumberedAll_eq_map (types : List Ty) :
    unnumberedAll types = types.map unnumbered := by
  induction types with
  | nil => rfl
  | cons t rest ih => rw [unnumberedAll, ih, List.map_cons]

mutual

theorem unnumbered_unnumbered : ∀ t : Ty, t.unnumbered.unnumbered = t.unnumbered
  | atom _ | enum _ | cls _ => rfl
  | nullable inner => congrArg nullable (unnumbered_unnumbered inner)
  | array element => congrArg array (unnumbered_unnumbered element)
  | list element => congrArg list (unnumbered_unnumbered element)
  | sequence element => congrArg sequence (unnumbered_unnumbered element)
  | grouping key element =>
    congrArg₂ grouping (unnumbered_unnumbered key) (unnumbered_unnumbered element)
  | lambda params result =>
    congrArg₂ lambda (unnumberedAll_unnumberedAll params) (unnumbered_unnumbered result)
  | record _ names types => congrArg (record 0 names) (unnumberedAll_unnumberedAll types)

theorem unnumberedAll_unnumberedAll : ∀ ts : List Ty,
    unnumberedAll (unnumberedAll ts) = unnumberedAll ts
  | [] => rfl
  | t :: rest =>
    congrArg₂ List.cons (unnumbered_unnumbered t) (unnumberedAll_unnumberedAll rest)

/-- A type is the same without the numbers. -/
theorem same_unnumbered : ∀ t : Ty, same t.unnumbered t = true
  | atom _ => beq_self_eq_true _
  | nullable inner => same_unnumbered inner
  | array element => same_unnumbered element
  | list element => same_unnumbered element
  | sequence element => same_unnumbered element
  | grouping key element => by simp [unnumbered, same, same_unnumbered key, same_unnumbered element]
  | lambda params result => by
    simp [unnumbered, same, sameAll_unnumbered params, same_unnumbered result,
      -unnumberedAll_eq_map]
  | enum e => same_refl (enum e)
  | cls c => same_refl (cls c)
  | record _ names types => by
    simp [unnumbered, same, sameAll_unnumbered types, -unnumberedAll_eq_map]

theorem sameAll_unnumbered : ∀ ts : List Ty, sameAll (unnumberedAll ts) ts = true
  | [] => rfl
  | t :: rest => by simp [unnumberedAll, sameAll, same_unnumbered t, sameAll_unnumbered rest,
      -unnumberedAll_eq_map]

end

theorem unnumbered_beq (t : Ty) : (t.unnumbered == t) = true := same_unnumbered t

@[simp] theorem unnumbered_beq_left (s t : Ty) : (s.unnumbered == t) = (s == t) :=
  BEq.congr_left (unnumbered_beq s)

@[simp] theorem unnumbered_beq_right (s t : Ty) : (s == t.unnumbered) = (s == t) :=
  BEq.congr_right (unnumbered_beq t)

/-- A type is that of a function if it is one without the numbers. -/
theorem eq_lambda_of_unnumbered {t : Ty} {params : List Ty} {result : Ty}
    (alike : t.unnumbered = lambda params result) :
    ∃ params' result', t = lambda params' result' := by
  cases t with
  | lambda params' result' => exact ⟨params', result', rfl⟩
  | _ => cases alike

theorem sameAll_congr {as as' bs bs' : List Ty} (left : as.map unnumbered = as'.map unnumbered)
    (right : bs.map unnumbered = bs'.map unnumbered) : sameAll as bs = sameAll as' bs' := by
  have same {ts ts' : List Ty} (alike : ts.map unnumbered = ts'.map unnumbered) :
      sameAll ts ts' = true := by
    have first := sameAll_unnumbered ts
    have second := sameAll_unnumbered ts'
    rw [unnumberedAll_eq_map] at first second
    rw [← alike] at second
    exact sameAll_trans (sameAll_symm first) second
  rw [Bool.eq_iff_iff]
  constructor
  · intro holds
    exact sameAll_trans (sameAll_symm (same left)) (sameAll_trans holds (same right))
  · intro holds
    exact sameAll_trans (same left) (sameAll_trans holds (sameAll_symm (same right)))

/-! ## Parts and kinds -/

section Kinds

variable (t : Ty)

@[simp] theorem isValue_unnumbered : t.unnumbered.isValue = t.isValue := by cases t <;> rfl

@[simp] theorem isNullable_unnumbered : t.unnumbered.isNullable = t.isNullable := by
  cases t <;> rfl

@[simp] theorem core_unnumbered : t.unnumbered.core = t.core.unnumbered := by cases t <;> rfl

@[simp] theorem lift_unnumbered : t.unnumbered.lift = t.lift.unnumbered := by
  unfold lift
  rw [isNullable_unnumbered, isValue_unnumbered]
  split <;> rfl

@[simp] theorem admitsNull_unnumbered : t.unnumbered.admitsNull = t.admitsNull := by
  simp [admitsNull]

@[simp] theorem enum?_unnumbered : t.unnumbered.enum? = t.enum? := by
  simp only [enum?, core_unnumbered]
  cases t.core <;> rfl

@[simp] theorem isEnum_unnumbered : t.unnumbered.isEnum = t.isEnum := by simp [isEnum]

@[simp] theorem class?_unnumbered : t.unnumbered.class? = t.class? := by cases t <;> rfl

@[simp] theorem intKind?_unnumbered : t.unnumbered.intKind? = t.intKind? := by
  simp only [intKind?, core_unnumbered]
  cases t.core <;> rfl

@[simp] theorem isIntegral_unnumbered : t.unnumbered.isIntegral = t.isIntegral := by
  simp [isIntegral]

@[simp] theorem isSignedIntegral_unnumbered :
    t.unnumbered.isSignedIntegral = t.isSignedIntegral := by
  simp [isSignedIntegral]

@[simp] theorem isUnsignedIntegral_unnumbered :
    t.unnumbered.isUnsignedIntegral = t.isUnsignedIntegral := by
  simp [isUnsignedIntegral]

@[simp] theorem isNumeric_unnumbered : t.unnumbered.isNumeric = t.isNumeric := by
  simp only [isNumeric, core_unnumbered]
  cases t.core <;> rfl

@[simp] theorem isString_unnumbered : t.unnumbered.isString = t.isString := by
  cases t <;> rfl

@[simp] theorem isNumberLike_unnumbered : t.unnumbered.isNumberLike = t.isNumberLike := by
  simp [isNumberLike]

end Kinds

end Ty

/-! ## Declarations -/

/-- A member whose type has lost the numbers. -/
def Member.unnumbered (m : Member) : Member := { m with type := m.type.unnumbered }

/-- A method whose types have lost the numbers. -/
def Method.unnumbered (m : Method) : Method :=
  { m with params := m.params.map Ty.unnumbered, result := m.result.map Ty.unnumbered }

/-- An indexer whose types have lost the numbers. -/
def Indexer.unnumbered (i : Indexer) : Indexer := ⟨i.params.map Ty.unnumbered, i.type.unnumbered⟩

/-- The body of a class in which all types have lost the numbers. -/
def ClassBody.unnumbered (body : ClassBody) : ClassBody where
  base := body.base.map Ty.unnumbered
  members := body.members.map Member.unnumbered
  methods := body.methods.map Method.unnumbered
  constructors := body.constructors.map (·.map Ty.unnumbered)
  indexers := body.indexers.map Indexer.unnumbered
  operators := body.operators.map Method.unnumbered
  element := body.element.map Ty.unnumbered

namespace ClassTable

/-- The class bodies with all types without the numbers. -/
def unnumbered (table : ClassTable) : ClassTable := table.map (·.map ClassBody.unnumbered)

variable (table : ClassTable) (c : ClassRef)

@[simp] theorem size_unnumbered : table.unnumbered.size = table.size := Array.size_map

@[simp] theorem body_unnumbered : table.unnumbered.body c = (table.body c).unnumbered := by
  simp only [body, unnumbered, Array.getElem?_map]
  cases table[c.index]? with
  | none => rfl
  | some body? => cases body? <;> rfl

theorem chain_unnumbered (fuel : Nat) (base? : Option Ty) :
    table.unnumbered.chain fuel (base?.map Ty.unnumbered)
      = (table.chain fuel base?).map Ty.unnumbered := by
  induction fuel generalizing base? with
  | zero => cases base? <;> rfl
  | succ fuel ih =>
      cases base? with
      | none => rfl
      | some base =>
          have next : (base.unnumbered.class?.bind fun c => (table.unnumbered.body c).base)
              = (base.class?.bind fun c => (table.body c).base).map Ty.unnumbered := by
            rw [Ty.class?_unnumbered]
            cases base.class? with
            | none => rfl
            | some b => exact congrArg ClassBody.base (table.body_unnumbered b)
          simp only [Option.map_some, chain, next, ih, List.map_cons]

@[simp] theorem ancestors_unnumbered :
    table.unnumbered.ancestors c = (table.ancestors c).map Ty.unnumbered := by
  rw [ancestors, size_unnumbered, body_unnumbered]
  exact table.chain_unnumbered _ _

theorem inherited_unnumbered {α : Type} {part : ClassBody → List α} {change : α → α}
    (parts : ∀ body : ClassBody, part body.unnumbered = (part body).map change) :
    table.unnumbered.inherited part c = (table.inherited part c).map change := by
  simp only [inherited, body_unnumbered, ancestors_unnumbered, parts, List.map_append,
    List.map_flatMap, List.flatMap_map]
  refine congrArg _ (congrArg (List.flatMap · _) (funext fun base => ?_))
  rw [Ty.class?_unnumbered]
  cases base.class? <;> rfl

end ClassTable

namespace Ty

variable (table : ClassTable) (s t : Ty)

@[simp] theorem members_unnumbered :
    t.unnumbered.members table.unnumbered = (t.members table).map Member.unnumbered := by
  cases t with
  | atom a => cases a <;> simp [unnumbered, members, Member.unnumbered, Member.property,
      Member.constant, apply_ite (List.map Member.unnumbered)]
  | cls c => exact table.inherited_unnumbered c fun _ => rfl
  | record id names types =>
      simp only [unnumbered, members, unnumberedAll_eq_map, List.map_zipWith, List.zipWith_map_right]
      rfl
  | _ => rfl

@[simp] theorem methods_unnumbered :
    t.unnumbered.methods table.unnumbered = (t.methods table).map Method.unnumbered := by
  cases t with
  | atom a => cases a <;> rfl
  | cls c =>
      have own := @ClassTable.inherited_unnumbered table c _ ClassBody.methods Method.unnumbered
        fun _ => rfl
      simp only [unnumbered, methods, own, List.map_append]
      rfl
  | _ => rfl

@[simp] theorem operators_unnumbered :
    t.unnumbered.operators table.unnumbered = (t.operators table).map Method.unnumbered := by
  simp only [operators, core_unnumbered]
  cases t.core with
  | cls c => exact table.inherited_unnumbered c fun _ => rfl
  | _ => rfl

@[simp] theorem indexers_unnumbered :
    t.unnumbered.indexers table.unnumbered = (t.indexers table).map Indexer.unnumbered := by
  cases t with
  | atom a => cases a <;> rfl
  | cls c => exact table.inherited_unnumbered c fun _ => rfl
  | _ => rfl

@[simp] theorem constructors_unnumbered :
    t.unnumbered.constructors table.unnumbered
      = (t.constructors table).map (·.map Ty.unnumbered) := by
  cases t with
  | cls c => exact congrArg ClassBody.constructors (table.body_unnumbered c)
  | _ => rfl

@[simp] theorem element?_unnumbered :
    t.unnumbered.element? table.unnumbered = (t.element? table).map Ty.unnumbered := by
  cases t with
  | atom a => cases a <;> rfl
  | cls c => exact congrArg ClassBody.element (table.body_unnumbered c)
  | _ => rfl

/-! ## Conversions -/

@[simp] theorem widensTo_unnumbered : s.unnumbered.widensTo t.unnumbered = s.widensTo t := by
  have same : (s.unnumbered == t.unnumbered) = (s == t) := by simp
  cases s <;> cases t <;> first | rfl | exact same

@[simp] theorem isAssignable_unnumbered (t s : Ty) :
    isAssignable table.unnumbered t.unnumbered s.unnumbered = isAssignable table t s := by
  have same : (t.unnumbered == s.unnumbered) = (t == s) := by simp
  match t with
  | sequence wanted =>
      have elements (element : Ty) := isAssignable_unnumbered wanted element
      rw [unnumbered] at same ⊢
      rw [isAssignable, isAssignable, same, element?_unnumbered]
      cases s.element? table with
      | none => rfl
      | some element =>
          simp only [Option.map_some, unnumbered_beq_left, unnumbered_beq_right,
            isValue_unnumbered, elements]
          rfl
  | cls c =>
      rw [unnumbered] at same ⊢
      rw [isAssignable.eq_def, isAssignable.eq_def, same]
      cases s with
      | cls b => simp [unnumbered, Function.comp_def]
      | _ => rfl
  | atom a =>
      rw [unnumbered] at same ⊢
      rw [isAssignable.eq_def, isAssignable.eq_def, same]
      cases a <;> cases s <;> rfl
  | enum _ =>
      rw [unnumbered] at same ⊢
      rw [isAssignable.eq_def, isAssignable.eq_def, same]
  | nullable _ | array _ | list _ | grouping _ _ | lambda _ _ | record _ _ _ =>
      rw [unnumbered] at same ⊢
      rw [isAssignable.eq_def, isAssignable.eq_def, same]
      rfl

@[simp] theorem hasDeclaredConversion_unnumbered (explicit : Bool) :
    hasDeclaredConversion table.unnumbered s.unnumbered t.unnumbered explicit
      = hasDeclaredConversion table s t explicit := by
  simp only [hasDeclaredConversion, operators_unnumbered, ← List.map_append, List.any_map]
  refine congrArg (List.any _) (funext fun m => ?_)
  obtain ⟨name, declaringType, params, result, isStatic⟩ := m
  match params, result with
  | [], some _ | [_], some _ | _ :: _ :: _, some _ | [], none | [_], none | _ :: _ :: _, none =>
    simp [Method.unnumbered]

@[simp] theorem isCompatible_unnumbered :
    isCompatible table.unnumbered s.unnumbered t.unnumbered = isCompatible table s t := by
  simp [isCompatible]

@[simp] theorem isConvertible_unnumbered :
    isConvertible table.unnumbered s.unnumbered t.unnumbered = isConvertible table s t := by
  simp [isConvertible]

end Ty

end QueryTree

/-!
## Names of record types

A record type is shown by a name that ends in its number.  A name in which no such name occurs
resolves to the same type of a scope whatever the numbers of its record types are.
-/

namespace QueryTree

/-! ### Names that mention a record type -/

/-- Whether what stands at the start of a text is the name of a record type. -/
def startsRecordName (cs : List Char) : Bool :=
  "DynamicClass".toList.isPrefixOf cs && (cs.drop 12).head?.any Char.isDigit

/-- Whether the name of a record type occurs in a name. -/
def mentionsRecord (name : String) : Bool := name.toList.tails.any startsRecordName

theorem startsRecordName_iff {cs : List Char} :
    startsRecordName cs = true ↔ ∃ digit behind, digit.isDigit = true
      ∧ cs = "DynamicClass".toList ++ digit :: behind := by
  rw [startsRecordName, Bool.and_eq_true, List.isPrefixOf_iff_prefix]
  constructor
  · rintro ⟨⟨rest, rfl⟩, isNumber⟩
    rw [show 12 = "DynamicClass".toList.length from rfl, List.drop_left] at isNumber
    cases rest with
    | nil => cases isNumber
    | cons digit behind => exact ⟨digit, behind, isNumber, rfl⟩
  · rintro ⟨digit, behind, isDigit, rfl⟩
    exact ⟨List.prefix_append _ _, isDigit⟩

theorem mentionsRecord_iff {name : String} :
    mentionsRecord name = true ↔ ∃ front digit behind, digit.isDigit = true
      ∧ name.toList = front ++ ("DynamicClass".toList ++ digit :: behind) := by
  simp only [mentionsRecord, List.any_eq_true, List.mem_tails, startsRecordName_iff]
  constructor
  · rintro ⟨_, ⟨front, split⟩, digit, behind, isDigit, rfl⟩
    exact ⟨front, digit, behind, isDigit, split.symm⟩
  · rintro ⟨front, digit, behind, isDigit, split⟩
    exact ⟨_, ⟨front, split.symm⟩, digit, behind, isDigit, rfl⟩

theorem mentionsRecord_append {name : String} (mentions : mentionsRecord name = true)
    (before behind : String) : mentionsRecord (before ++ name ++ behind) = true := by
  obtain ⟨front, digit, rest, isDigit, split⟩ := mentionsRecord_iff.mp mentions
  refine mentionsRecord_iff.mpr ⟨before.toList ++ front, digit, rest ++ behind.toList, isDigit, ?_⟩
  simp [String.toList_append, split]

/-- What occurs around a character that is no part of it occurs on one side of the character. -/
theorem exists_append_of_not_mem {α : Type} {c : α} {part left right front behind : List α}
    (apart : c ∉ part) (nonempty : part ≠ [])
    (split : left ++ c :: right = front ++ (part ++ behind)) :
    (∃ front behind, left = front ++ (part ++ behind))
      ∨ ∃ front behind, right = front ++ (part ++ behind) := by
  obtain ⟨past, -, split⟩ | ⟨inside, rfl, rest⟩ := List.append_eq_append_iff.mp split
  · cases past with
    | nil =>
        obtain ⟨d, part, rfl⟩ := List.exists_cons_of_ne_nil nonempty
        obtain ⟨rfl, -⟩ := List.cons.inj split
        exact absurd List.mem_cons_self apart
    | cons d past => exact .inr ⟨past, behind, (List.cons.inj split).2⟩
  · obtain ⟨past, rfl, -⟩ | ⟨later, rfl, ends⟩ := List.append_eq_append_iff.mp rest
    · exact .inl ⟨front, past, rfl⟩
    · cases later with
      | nil => exact .inl ⟨front, [], by simp⟩
      | cons d later =>
          obtain ⟨rfl, -⟩ := List.cons.inj ends
          exact absurd (by simp) apart

/-- Parts that are joined by a character mention a record type only if one of them does, unless the
character can stand in the name of a record type. -/
theorem mentionsRecord_join {left right : String} {joint : Char}
    (isForeign : joint ∉ "DynamicClass".toList) (noDigit : joint.isDigit = false)
    (leftSilent : mentionsRecord left = false) (rightSilent : mentionsRecord right = false) :
    mentionsRecord (left ++ String.singleton joint ++ right) = false := by
  rw [Bool.eq_false_iff]
  intro mentions
  obtain ⟨front, digit, behind, isDigit, split⟩ := mentionsRecord_iff.mp mentions
  have apart : joint ∉ "DynamicClass".toList ++ [digit] := by
    have isOther : joint ≠ digit := by
      rintro rfl
      rw [isDigit] at noDigit
      cases noDigit
    simpa [isOther] using isForeign
  have around : left.toList ++ joint :: right.toList
      = front ++ (("DynamicClass".toList ++ [digit]) ++ behind) := by
    rw [String.toList_append, String.toList_append, String.toList_singleton, List.append_assoc]
      at split
    rw [List.append_assoc]
    exact split
  have mention {name : String}
      (occurs : ∃ front behind, name.toList
        = front ++ (("DynamicClass".toList ++ [digit]) ++ behind)) :
      mentionsRecord name = true := by
    obtain ⟨front, behind, split⟩ := occurs
    exact mentionsRecord_iff.mpr ⟨front, digit, behind, isDigit, by rw [split, List.append_assoc]; rfl⟩
  obtain inLeft | inRight := exists_append_of_not_mem apart (by simp) around
  · rw [mention inLeft] at leftSilent
    cases leftSilent
  · rw [mention inRight] at rightSilent
    cases rightSilent

theorem mentionsRecord_dot {left right : String} (leftSilent : mentionsRecord left = false)
    (rightSilent : mentionsRecord right = false) :
    mentionsRecord (left ++ "." ++ right) = false :=
  @mentionsRecord_join left right '.' (by decide) (by decide) leftSilent rightSilent

theorem mentionsRecord_minus {text : String} (silent : mentionsRecord text = false) :
    mentionsRecord ("-" ++ text) = false :=
  @mentionsRecord_join "" text '-' (by decide) (by decide) (by decide) silent

/-! ### Texts of types -/

namespace Ty

theorem mentionsRecord_display_record (id : Nat) (names : List String) (types : List Ty) :
    mentionsRecord (record id names types).display = true := by
  obtain ⟨digit, behind, digits⟩ := List.exists_cons_of_ne_nil (@Nat.toDigits_ne_nil id 10)
  have isDigit : digit.isDigit = true :=
    Nat.isDigit_of_mem_toDigits (by decide) (by decide) (digits ▸ List.mem_cons_self)
  refine mentionsRecord_iff.mpr ⟨[], digit, behind, isDigit, ?_⟩
  rw [display, String.toList_append, ← digits]
  simp [toString, Nat.repr]

/-- With every numbering the text of a type mentions a record type. -/
def Mentions (t : Ty) : Prop :=
  mentionsRecord t.display = true ∧ mentionsRecord t.unnumbered.display = true

/-- Texts that mention a record type mention it inside of other texts as well. -/
theorem mentions_around {inner inner' : String}
    (mentions : mentionsRecord inner = true ∧ mentionsRecord inner' = true)
    (before before' behind behind' : String) :
    mentionsRecord (before ++ inner ++ behind) = true
      ∧ mentionsRecord (before' ++ inner' ++ behind') = true :=
  ⟨mentionsRecord_append mentions.1 _ _, mentionsRecord_append mentions.2 _ _⟩

mutual

/-- A type has no record types in it, or else its text mentions one with every numbering. -/
theorem unnumbered_or_mentions : ∀ t : Ty, t.unnumbered = t ∨ t.Mentions
  | atom _ | enum _ | cls _ => .inl rfl
  | nullable inner => by
    refine (unnumbered_or_mentions inner).imp (congrArg nullable) fun mentions => ?_
    simpa [Mentions, unnumbered, display] using mentions_around mentions "" "" "?" "?"
  | array element => by
    refine (unnumbered_or_mentions element).imp (congrArg array) fun mentions => ?_
    simpa [Mentions, unnumbered, display] using mentions_around mentions "" "" "[]" "[]"
  | list element =>
    (unnumbered_or_mentions element).imp (congrArg list) fun mentions =>
      mentions_around mentions _ _ _ _
  | sequence element =>
    (unnumbered_or_mentions element).imp (congrArg sequence) fun mentions =>
      mentions_around mentions _ _ _ _
  | grouping key element => by
    obtain sameElement | mentions := unnumbered_or_mentions element
    · refine (unnumbered_or_mentions key).imp (fun same => congrArg₂ grouping same sameElement)
        fun mentions => ?_
      rw [Mentions, unnumbered, display, display]
      simp only [String.append_assoc]
      simpa only [String.append_assoc] using mentions_around mentions "IGrouping<" "IGrouping<"
        (", " ++ element.display ++ ">") (", " ++ element.unnumbered.display ++ ">")
    · exact .inr (mentions_around mentions _ _ _ _)
  | lambda params result => by
    obtain sameResult | mentions := unnumbered_or_mentions result
    · refine (unnumberedAll_or_mentions params).imp
        (fun same => congrArg₂ lambda same sameResult) fun mentions => ?_
      rw [Mentions, unnumbered, display, display]
      simpa only [String.append_assoc] using mentions_around mentions "Func<" "Func<"
        (result.display ++ ">") (result.unnumbered.display ++ ">")
    · exact .inr (mentions_around mentions _ _ _ _)
  | record _ _ _ => .inr ⟨mentionsRecord_display_record _ _ _, mentionsRecord_display_record _ _ _⟩

theorem unnumberedAll_or_mentions : ∀ ts : List Ty, unnumberedAll ts = ts
    ∨ (mentionsRecord (displayParams ts) = true
      ∧ mentionsRecord (displayParams (unnumberedAll ts)) = true)
  | [] => .inl rfl
  | t :: rest => by
    rw [unnumberedAll, displayParams, displayParams]
    obtain sameRest | mentions := unnumberedAll_or_mentions rest
    · refine (unnumbered_or_mentions t).imp (fun same => congrArg₂ List.cons same sameRest)
        fun mentions => ?_
      simpa [String.append_assoc] using mentions_around mentions "" ""
        (", " ++ displayParams rest) (", " ++ displayParams (unnumberedAll rest))
    · refine .inr ?_
      simpa using mentions_around mentions (t.display ++ ", ") (t.unnumbered.display ++ ", ") "" ""

end

variable {name : String} (silent : mentionsRecord name = false) (t : Ty)

include silent

theorem display_unnumbered_beq : (t.unnumbered.display == name) = (t.display == name) := by
  obtain same | ⟨mentions, mentions'⟩ := t.unnumbered_or_mentions
  · rw [same]
  · have other {text : String} (mentions : mentionsRecord text = true) : (text == name) = false := by
      rw [beq_eq_false_iff_ne]
      rintro rfl
      rw [silent] at mentions
      cases mentions
    rw [other mentions, other mentions']

theorem simpleName_unnumbered_beq : (t.unnumbered.simpleName == name) = (t.simpleName == name) := by
  cases t with
  | record id names types => exact display_unnumbered_beq silent (record id names types)
  | _ => rfl

theorem fullName_unnumbered_beq : (t.unnumbered.fullName == name) = (t.fullName == name) := by
  have shown := display_unnumbered_beq silent t
  cases t <;> first | rfl | exact shown

end Ty

/-- A name that mentions no record type resolves alike among types that differ in no more than the
numbers of record types. -/
theorem Environment.resolveType?_congr (env : Environment) {name : String}
    (silent : mentionsRecord name = false) {scope scope' : List Ty} (anyType : Bool)
    (alike : scope.map Ty.unnumbered = scope'.map Ty.unnumbered) :
    (env.resolveType? name scope anyType).map Ty.unnumbered
      = (env.resolveType? name scope' anyType).map Ty.unnumbered := by
  have found {shown : Ty → String}
      (shows : ∀ t : Ty, (shown t.unnumbered == name) = (shown t == name)) (types : List Ty) :
      (types.find? (shown · == name)).map Ty.unnumbered
        = (types.map Ty.unnumbered).find? (shown · == name) := by
    simp only [List.find?_map, Function.comp_def, shows]
  have simple (types : List Ty) := found (Ty.simpleName_unnumbered_beq silent) types
  have full (types : List Ty) := found (Ty.fullName_unnumbered_beq silent) types
  unfold resolveType?
  split
  next => rfl
  next =>
    simp only [Option.orElse_eq_orElse, Option.orElse_eq_or, Option.map_or, simple, full, alike]

end QueryTree
