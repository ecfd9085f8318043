import QueryTree.Proofs.Model.Loading
import QueryTree.Proofs.Print.Word
import QueryTree.Type.Basic
import Mathlib.Data.List.DropRight

/-!
# Names of types

The text of a type that can be written in a schema names that type, whatever blanks stand around the
names in it; and a type that some text names has a text that names it.
-/

namespace QueryTree

/-! ## Texts with blanks around them -/

namespace Text

/-- Some characters with blanks before and after them. -/
def Padded (cs text : List Char) : Prop :=
  ∃ before after, (∀ c ∈ before, isBlank c = true) ∧ (∀ c ∈ after, isBlank c = true) ∧
    text = before ++ (cs ++ after)

variable {cs text before after : List Char} {c : Char}

theorem Padded.refl (cs : List Char) : Padded cs cs :=
  ⟨[], [], nofun, nofun, by simp⟩

theorem Padded.length_le (padded : Padded cs text) : cs.length ≤ text.length := by
  obtain ⟨before, after, -, -, rfl⟩ := padded
  simp only [List.length_append]
  omega

theorem trimStart_append (visible : isBlank c = false) :
    trimStart (cs ++ c :: after) = trimStart cs ++ c :: after := by
  unfold trimStart
  rw [List.dropWhile_append]
  split
  next empty => simp [List.isEmpty_iff.mp empty, visible]
  next => rfl

theorem trimChars_concat (visible : isBlank c = false) :
    trimChars (cs ++ [c]) = trimStart cs ++ [c] := by
  rw [trimChars, trimStart_append visible]
  exact List.rdropWhile_concat_neg _ _ _ (by simp [visible])

theorem trimChars_trimStart (cs : List Char) : trimChars (trimStart cs) = trimChars cs := by
  have again : trimStart (trimStart cs) = trimStart cs := List.dropWhile_idempotent isBlank cs
  rw [trimChars, again, trimChars]

theorem trimChars_append_blank (blank : ∀ c ∈ after, isBlank c = true) :
    trimChars (cs ++ after) = trimChars cs := by
  simp only [trimChars, trimStart, List.dropWhile_append]
  split
  next empty => simp [List.isEmpty_iff.mp empty, List.dropWhile_eq_nil_iff.mpr blank]
  next => rw [List.reverse_append, List.dropWhile_append_of_pos (by simpa using blank)]

theorem Padded.trimChars_eq (padded : Padded cs text) : trimChars text = trimChars cs := by
  obtain ⟨before, after, blankBefore, blankAfter, rfl⟩ := padded
  have start : trimStart (before ++ (cs ++ after)) = trimStart (cs ++ after) :=
    List.dropWhile_append_of_pos blankBefore
  rw [← trimChars_trimStart, start, trimChars_trimStart, trimChars_append_blank blankAfter]

/-- What is left of a text between its blanks has no blanks at its ends. -/
theorem trimChars_idempotent (cs : List Char) : trimChars (trimChars cs) = trimChars cs := by
  have start : trimStart (trimChars cs) = trimChars cs := by
    refine List.dropWhile_eq_self_iff.mpr fun nonempty => ?_
    have initial : trimChars cs <+: trimStart cs := List.rdropWhile_prefix isBlank (trimStart cs)
    have inside : 0 < (trimStart cs).length := Nat.lt_of_lt_of_le nonempty initial.length_le
    rw [initial.getElem nonempty]
    exact List.dropWhile_eq_self_iff.mp (List.dropWhile_idempotent isBlank cs) inside
  rw [trimChars, start]
  exact List.rdropWhile_idempotent isBlank (trimStart cs)

end Text

open Text (Padded isBlank trimChars trimStart)

/-! ## Types and their texts -/

namespace Ty

/-- The types that arise from some types by widening with null those that can be, and by taking
arrays, lists and sequences. -/
inductive BuiltFrom (leaf : Ty → Prop) : Ty → Prop
  | leaf {type : Ty} (isLeaf : leaf type) : BuiltFrom leaf type
  | nullable {inner : Ty} (built : BuiltFrom leaf inner) (isValue : inner.isValue = true)
      (notNullable : inner.isNullable = false) : BuiltFrom leaf (.nullable inner)
  | array {element : Ty} (built : BuiltFrom leaf element) : BuiltFrom leaf (.array element)
  | list {element : Ty} (built : BuiltFrom leaf element) : BuiltFrom leaf (.list element)
  | sequence {element : Ty} (built : BuiltFrom leaf element) : BuiltFrom leaf (.sequence element)

/-- The text of a type, with blanks around any of the names in it. -/
def Spaced : Ty → List Char → Prop
  | nullable inner, cs => ∃ text, inner.Spaced text ∧ Padded (text ++ ['?']) cs
  | array element, cs => ∃ text, element.Spaced text ∧ Padded (text ++ ['[', ']']) cs
  | list element, cs => ∃ name text, Padded "List".toList name ∧ element.Spaced text ∧
      Padded (name ++ '<' :: (text ++ ['>'])) cs
  | sequence element, cs => ∃ name text, Padded "IEnumerable".toList name ∧ element.Spaced text ∧
      Padded (name ++ '<' :: (text ++ ['>'])) cs
  | t, cs => Padded t.display.toList cs

/-- Whether a type has neither a mark nor an argument in its text. -/
def isPlain : Ty → Bool
  | atom _ | enum _ | cls _ => true
  | _ => false

variable {leaf other : Ty → Prop} {type : Ty} {cs : List Char}

theorem BuiltFrom.mono (built : BuiltFrom leaf type) (within : ∀ t, leaf t → other t) :
    BuiltFrom other type := by
  induction built with
  | leaf isLeaf => exact .leaf (within _ isLeaf)
  | nullable _ isValue notNullable ih => exact .nullable ih isValue notNullable
  | array _ ih => exact .array ih
  | list _ ih => exact .list ih
  | sequence _ ih => exact .sequence ih

theorem spaced_iff_of_isPlain (plain : type.isPlain = true) :
    type.Spaced cs ↔ Padded type.display.toList cs := by
  cases type with
  | atom | enum | cls => simp only [Spaced]
  | _ => cases plain

/-- The text itself is one of the texts with blanks. -/
theorem BuiltFrom.spaced_display (built : BuiltFrom leaf type)
    (plain : ∀ t, leaf t → t.isPlain = true) : type.Spaced type.display.toList := by
  induction built with
  | leaf isLeaf => exact (spaced_iff_of_isPlain (plain _ isLeaf)).mpr (.refl _)
  | nullable _ _ _ ih =>
      refine ⟨_, ih, ?_⟩
      rw [display, String.toList_append]
      exact .refl _
  | array _ ih =>
      refine ⟨_, ih, ?_⟩
      rw [display, String.toList_append]
      exact .refl _
  | list _ ih | sequence _ ih =>
      refine ⟨_, _, .refl _, ih, ?_⟩
      simp only [display, String.toList_append]
      simpa using Padded.refl _

end Ty

namespace NamedTypes

/-! ## Marks of a text -/

/-- Characters that are the name of a type as they stand: nothing is trimmed or taken off. -/
structure IsName (cs : List Char) : Prop where
  trimmed : trimChars cs = cs
  notNullable : before? ['?'] cs = none
  notArray : before? ['[', ']'] cs = none
  notGeneric : splitArguments? cs = none

instance (cs : List Char) : Decidable (IsName cs) :=
  decidable_of_iff (trimChars cs = cs ∧ before? ['?'] cs = none ∧ before? ['[', ']'] cs = none ∧
    splitArguments? cs = none)
    ⟨fun ⟨trimmed, notNullable, notArray, notGeneric⟩ =>
        ⟨trimmed, notNullable, notArray, notGeneric⟩,
      fun name => ⟨name.trimmed, name.notNullable, name.notArray, name.notGeneric⟩⟩

theorem before?_append (front suffix : List Char) :
    before? suffix (front ++ suffix) = some front := by
  simp [before?]

/-- A text does not end with a mark of which it lacks the last character. -/
theorem before?_eq_none {suffix cs : List Char} {c : Char} (last : suffix.getLast? = some c)
    (missing : c ∉ cs) : before? suffix cs = none := by
  refine if_neg fun isSuffix => missing ?_
  exact (List.isSuffixOf_iff_suffix.mp isSuffix).subset (List.mem_of_getLast? last)

theorem before?_concat {suffix cs : List Char} {c d : Char} (last : suffix.getLast? = some c)
    (other : c ≠ d) : before? suffix (cs ++ [d]) = none := by
  refine if_neg fun isSuffix => other ?_
  obtain ⟨front, same⟩ := List.isSuffixOf_iff_suffix.mp isSuffix
  have ends := congrArg List.getLast? same
  rw [List.getLast?_append, last] at ends
  simpa using ends

theorem splitArguments?_append {front rest : List Char} (missing : '<' ∉ front) :
    splitArguments? (front ++ '<' :: rest) = some (front, rest) := by
  have each : front.all (· != '<') = true := by
    simpa using fun c member => ne_of_mem_of_not_mem member missing
  obtain ⟨word, following⟩ := Text.span_append each (show ∀ c ∈ ('<' :: rest).head?, _ by simp)
  rw [splitArguments?, word, following]

theorem splitArguments?_eq_none {cs : List Char} (missing : '<' ∉ cs) :
    splitArguments? cs = none := by
  have dropped : cs.dropWhile (· != '<') = [] :=
    List.dropWhile_eq_nil_iff.mpr
      (by simpa using fun c member => ne_of_mem_of_not_mem member missing)
  rw [splitArguments?, dropped]

/-! ## Reading what is displayed -/

variable {types : NamedTypes} {fuel : Nat} {cs text : List Char} {type element : Ty}

theorem readFrom_of_trimChars_eq {other : List Char} (same : trimChars cs = trimChars other) :
    readFrom types (fuel + 1) cs = readFrom types (fuel + 1) other := by
  simp only [readFrom, same]

theorem readFrom_trimStart (within : cs.length < fuel) :
    readFrom types fuel (trimStart cs) = readFrom types fuel cs := by
  obtain ⟨fuel, rfl⟩ := Nat.exists_eq_add_of_lt within
  exact readFrom_of_trimChars_eq (Text.trimChars_trimStart cs)

theorem readFrom_name (name : IsName cs) :
    readFrom types (fuel + 1) cs = types.named (String.ofList cs) := by
  simp only [readFrom, name.trimmed, name.notNullable, name.notArray, name.notGeneric]

theorem readFrom_nullable (within : text.length < fuel) (read : readFrom types fuel text = .ok type)
    (isValue : type.isValue = true) (notNullable : type.isNullable = false) :
    readFrom types (fuel + 1) (text ++ ['?']) = .ok (.nullable type) := by
  have trimmed : trimChars (text ++ ['?']) = trimStart text ++ ['?'] :=
    Text.trimChars_concat (by decide)
  simp only [readFrom, trimmed, before?_append, readFrom_trimStart within, read]
  simp [widened, isValue, notNullable, bind, Except.bind]

theorem readFrom_array (within : text.length < fuel) (read : readFrom types fuel text = .ok type) :
    readFrom types (fuel + 1) (text ++ ['[', ']']) = .ok (.array type) := by
  have trimmed : trimChars (text ++ ['[', ']']) = trimStart text ++ ['[', ']'] := by
    rw [List.append_cons, Text.trimChars_concat (by decide), Text.trimStart_append (by decide),
      ← List.append_cons]
  have notNullable : before? ['?'] (trimStart text ++ ['[', ']']) = none := by
    rw [List.append_cons]
    exact before?_concat rfl (by decide)
  simp only [readFrom, trimmed, notNullable, before?_append, readFrom_trimStart within, read]
  rfl

/-- The name before the argument of a type is read without the blanks around it. -/
theorem readFrom_generic {c : Char} {outer name : List Char} (padded : Padded (c :: outer) name)
    (visible : isBlank c = false) (trimmed : trimChars (c :: outer) = c :: outer)
    (missing : '<' ∉ c :: outer) (read : readFrom types fuel text = .ok element)
    (known : generic (String.ofList (c :: outer)) element = .ok type) :
    readFrom types (fuel + 1) (name ++ '<' :: (text ++ ['>'])) = .ok type := by
  obtain ⟨before, after, blankBefore, blankAfter, rfl⟩ := padded
  let whole : List Char := (c :: outer ++ after) ++ '<' :: (text ++ ['>'])
  have padded : Padded whole (before ++ (c :: outer ++ after) ++ '<' :: (text ++ ['>'])) :=
    ⟨before, [], blankBefore, nofun, by simp [whole]⟩
  have ends : whole = (c :: (outer ++ after ++ '<' :: text)) ++ ['>'] := by simp [whole]
  have kept : trimChars whole = whole := by
    rw [ends, Text.trimChars_concat (by decide), trimStart, List.dropWhile_cons_of_neg]
    simp [visible]
  have notNullable : before? ['?'] whole = none := ends ▸ before?_concat rfl (by decide)
  have notArray : before? ['[', ']'] whole = none := ends ▸ before?_concat rfl (by decide)
  have notBlank : '<' ∉ after := fun member => absurd (blankAfter _ member) (by decide)
  have split : splitArguments? whole = some (c :: outer ++ after, text ++ ['>']) :=
    splitArguments?_append (by simp_all)
  rw [readFrom_of_trimChars_eq padded.trimChars_eq]
  simp only [readFrom, kept, notNullable, notArray, split, before?_append, read,
    Text.trimChars_append_blank blankAfter, trimmed]
  exact known

/-- A type that its text names as it stands. -/
structure NamesItself (types : NamedTypes) (type : Ty) : Prop where
  plain : type.isPlain = true
  name : IsName type.display.toList
  named : types.named type.display = .ok type

/-- A type that is built from types that name themselves is read from its text, with or without
blanks. -/
theorem readFrom_spaced (built : Ty.BuiltFrom types.NamesItself type) (spaced : type.Spaced cs)
    (within : cs.length < fuel) : readFrom types fuel cs = .ok type := by
  induction built generalizing cs fuel with
  | leaf isLeaf =>
      obtain ⟨fuel, rfl⟩ := Nat.exists_eq_add_of_lt within
      have padded := (Ty.spaced_iff_of_isPlain isLeaf.plain).mp spaced
      rw [readFrom_of_trimChars_eq padded.trimChars_eq, readFrom_name isLeaf.name,
        String.ofList_toList, isLeaf.named]
  | nullable _ isValue notNullable ih =>
      obtain ⟨text, spaced, padded⟩ := spaced
      obtain _ | fuel := fuel
      · cases within
      · have shorter := padded.length_le
        rw [List.length_append, List.length_singleton] at shorter
        rw [readFrom_of_trimChars_eq padded.trimChars_eq]
        exact readFrom_nullable (by omega) (ih spaced (by omega)) isValue notNullable
  | array _ ih =>
      obtain ⟨text, spaced, padded⟩ := spaced
      obtain _ | fuel := fuel
      · cases within
      · have shorter := padded.length_le
        simp only [List.length_append, List.length_cons] at shorter
        rw [readFrom_of_trimChars_eq padded.trimChars_eq]
        exact readFrom_array (by omega) (ih spaced (by omega))
  | list _ ih | sequence _ ih =>
      obtain ⟨name, text, outer, spaced, padded⟩ := spaced
      obtain _ | fuel := fuel
      · cases within
      · have shorter := padded.length_le
        simp only [List.length_append, List.length_cons] at shorter
        rw [readFrom_of_trimChars_eq padded.trimChars_eq]
        exact readFrom_generic outer (by decide) (by decide) (by decide)
          (ih spaced (by omega)) rfl

/-! ## Displaying what is read -/

theorem lookup_name {a : Atom} (named : a ≠ .type) : atoms.lookup a.name = some (.atom a) := by
  cases a with
  | integral kind => cases kind <;> rfl
  | type => exact absurd rfl named
  | _ => rfl

theorem isName_name (a : Atom) : IsName a.name.toList := by
  cases a with
  | integral kind => cases kind <;> decide
  | _ => decide

theorem exists_atom_of_mem_atoms {name : String} (known : (name, type) ∈ atoms) :
    ∃ a, a ≠ .type ∧ type = .atom a := by
  have each : ∀ entry ∈ atoms, ∃ a, a ≠ .type ∧ entry.2 = .atom a := by
    simp [atoms, Ty.object, Ty.boolean, Ty.char, Ty.string, Ty.integral, Ty.int32, Ty.int64,
      Ty.single, Ty.double, Ty.decimal, Ty.dateTime, Ty.timeSpan, Ty.guid, Ty.dynamic]
  exact each _ known

/-- A primitive type has one of its names in its text. -/
theorem namesItself_of_mem_atoms (types : NamedTypes) {name : String}
    (known : (name, type) ∈ atoms) : types.NamesItself type := by
  obtain ⟨a, notType, rfl⟩ := exists_atom_of_mem_atoms known
  refine ⟨rfl, isName_name a, ?_⟩
  rw [named, Ty.display, lookup_name notType]
  rfl

/-- A type that some text names is built from types that name themselves. -/
theorem readFrom_eq_ok (declared : ∀ name type, (name, type) ∈ types →
      type.isPlain = true ∧ type.display = name)
    (ok : readFrom types fuel cs = .ok type) : Ty.BuiltFrom types.NamesItself type := by
  induction fuel generalizing cs type with
  | zero => cases ok
  | succ fuel ih =>
      cases typeText ok with
      | nullable read isValue notNullable => exact .nullable (ih read) isValue notNullable
      | array read => exact .array (ih read)
      | list read => exact .list (ih read)
      | sequence read => exact .sequence (ih read)
      | name notNullable notArray notGeneric isNamed =>
          refine .leaf ?_
          obtain atomic | ⟨-, known⟩ := named_eq_ok.mp isNamed
          · exact namesItself_of_mem_atoms types (mem_of_lookup atomic)
          · obtain ⟨plain, same⟩ := declared _ _ (mem_of_lookup known)
            refine ⟨plain, ?_, same ▸ isNamed⟩
            rw [same, String.toList_ofList]
            exact ⟨Text.trimChars_idempotent cs, notNullable, notArray, notGeneric⟩

/-! ## Identifiers -/

/-- An identifier: a character that identifiers may start with and others that may follow. -/
def IsIdentifier (name : String) : Prop :=
  ∃ c cs, name.toList = c :: cs ∧ Lexeme.startsIdentifier c = true ∧
    cs.all Lexeme.continuesIdentifier = true

theorem isName_of_forall (each : ∀ c ∈ cs, isBlank c = false ∧ c ≠ '<' ∧ c ≠ '?' ∧ c ≠ ']') :
    IsName cs := by
  have kept {cs : List Char} (visible : ∀ c ∈ cs, isBlank c = false) : trimStart cs = cs := by
    cases cs with
    | nil => rfl
    | cons c cs => exact List.dropWhile_cons_of_neg (by simp [visible c])
  refine ⟨?_, before?_eq_none rfl fun member => (each _ member).2.2.1 rfl,
    before?_eq_none rfl fun member => (each _ member).2.2.2 rfl,
    splitArguments?_eq_none fun member => (each _ member).2.1 rfl⟩
  have visible : ∀ c ∈ cs, isBlank c = false := fun c member => (each c member).1
  rw [trimChars, kept visible, kept (by simpa using visible), List.reverse_reverse]

theorem IsIdentifier.isName {name : String} (identifier : IsIdentifier name) :
    IsName name.toList := by
  obtain ⟨c, cs, same, starts, continues⟩ := identifier
  rw [same]
  refine isName_of_forall (List.forall_mem_cons.mpr ⟨⟨?_, ?_⟩, fun d member => ⟨?_, ?_⟩⟩)
  · exact Word.isBlank_of_startsIdentifier starts
  · refine ⟨?_, ?_, ?_⟩ <;> rintro rfl <;> cases starts
  · by_contra blank
    have ends := List.all_eq_true.mp continues d member
    simp [Lexeme.isBlank_excludes (Bool.not_eq_false _ ▸ blank)] at ends
  · have continues := List.all_eq_true.mp continues d member
    refine ⟨?_, ?_, ?_⟩ <;> rintro rfl <;> cases continues

/-- The types that have a name without any declaration. -/
def IsPrimitive (type : Ty) : Prop := ∃ name, (name, type) ∈ atoms

/-- The types that are declared under an identifier that names no primitive type. -/
def IsDeclared (types : NamedTypes) (type : Ty) : Prop :=
  ∃ name, (name, type) ∈ types ∧ IsIdentifier name ∧ name ∉ atoms.map (·.1)

end NamedTypes

namespace Model

open NamedTypes (IsPrimitive IsDeclared)

variable {schema : Schema} {model : Model}

/-- The declared types of a model have neither marks nor arguments, and the text of each is the name
under which it is declared. -/
theorem types_display (loaded : ofSchema schema = .ok model) :
    (∀ name type, (name, type) ∈ model.types → type.isPlain = true ∧ type.display = name) ∧
      (model.types.map (·.1)).Nodup := by
  obtain ⟨declared, sound, same, -⟩ := ofSchema_eq_ok loaded
  rw [same]
  refine ⟨fun name type member => ?_, sound.names⟩
  cases sound.entries name type member with
  | enum e => exact ⟨rfl, rfl⟩
  | cls c definition known named => exact ⟨rfl, rfl⟩

/-- The names of types round-trip: a type that is built from primitive types and from declared ones
is read from its text, with blanks around any name in it or without; and every type that is read
from a text is read again from its own text. -/
theorem typeName_roundTrip (loaded : ofSchema schema = .ok model) :
    (∀ type, Ty.BuiltFrom (fun t => IsPrimitive t ∨ IsDeclared model.types t) type →
      model.types.read type.display = .ok type ∧
      ∀ text : String, type.Spaced text.toList → model.types.read text = .ok type) ∧
    ∀ text type, model.types.read text = .ok type →
      model.types.read type.display = .ok type := by
  obtain ⟨displayed, names⟩ := types_display loaded
  have reads {type : Ty} (built : Ty.BuiltFrom model.types.NamesItself type) {text : String}
      (spaced : type.Spaced text.toList) : model.types.read text = .ok type :=
    NamedTypes.readFrom_spaced built spaced (Nat.lt_succ_self _)
  have readsDisplay {type : Ty} (built : Ty.BuiltFrom model.types.NamesItself type) :
      model.types.read type.display = .ok type :=
    reads built (built.spaced_display fun _ itself => itself.plain)
  refine ⟨fun type built => ?_, fun text type ok => ?_⟩
  · have built : Ty.BuiltFrom model.types.NamesItself type := built.mono fun t isLeaf => by
      obtain ⟨name, primitive⟩ | ⟨name, declared, identifier, free⟩ := isLeaf
      · exact NamedTypes.namesItself_of_mem_atoms model.types primitive
      · obtain ⟨plain, rfl⟩ := displayed name t declared
        refine ⟨plain, identifier.isName, ?_⟩
        have notAtom : NamedTypes.atoms.lookup t.display = none :=
          NamedTypes.lookup_eq_none_iff.mpr free
        rw [NamedTypes.named, notAtom, NamedTypes.lookup_of_mem names declared]
        rfl
    exact ⟨readsDisplay built, fun text spaced => reads built spaced⟩
  · exact readsDisplay (NamedTypes.readFrom_eq_ok displayed ok)

/-- A schema with an enumeration and nothing else. -/
def colorSchema : Schema :=
  ⟨none, .initial, [.enum ⟨"Color", none, none, [⟨"Red", none⟩]⟩]⟩

theorem typeName_roundTrip_color :
    ∃ model, ofSchema colorSchema = .ok model ∧
      ∃ color, color.display = "Color" ∧
        model.types.read "List<Color?[]>" = .ok (.list (.array (.nullable color))) ∧
        model.types.read " List\t< Color ?[] > " = .ok (.list (.array (.nullable color))) := by
  let color : Ty := .enum ⟨"Color", none, .int32, false, [("Red", 0)]⟩
  let model : Model := ⟨colorSchema.options, none, [("Color", color)], ClassTable.initial⟩
  have loaded : ofSchema colorSchema = .ok model := rfl
  have isColor : IsDeclared model.types color :=
    ⟨"Color", .head _, ⟨'C', "olor".toList, rfl, by decide, by decide⟩, by decide⟩
  obtain ⟨alone, spaced⟩ := (typeName_roundTrip loaded).1 (.list (.array (.nullable color)))
    (.list (.array (.nullable (.leaf (.inr isColor)) rfl rfl)))
  refine ⟨model, loaded, color, rfl, alone, spaced _ ?_⟩
  have blank : ∀ c ∈ [' '], Text.isBlank c = true := List.forall_mem_singleton.mpr rfl
  exact ⟨" List\t".toList, " Color ?[] ".toList,
    ⟨[' '], ['\t'], blank, List.forall_mem_singleton.mpr rfl, rfl⟩,
    ⟨" Color ?".toList, ⟨" Color ".toList, ⟨[' '], [' '], blank, blank, by simp [color, Ty.display]⟩,
      ⟨[], [], nofun, nofun, rfl⟩⟩, ⟨[], [' '], nofun, blank, rfl⟩⟩,
    ⟨[], [' '], nofun, blank, rfl⟩⟩

end Model

end QueryTree
