import QueryTree.Compile.Expression
import QueryTree.Proofs.Binding.Tree
import QueryTree.Proofs.Print.Outline
import QueryTree.Proofs.Text.Numeral

/-!
# Lines of printed trees

The text of a tree is the outline of the nodes that are shown below each other, one line for each
node unless a name or an unquoted text in it has a line break.
-/

/-!
## Texts without line breaks

Numbers, moments, durations and identifiers are written without line breaks, and so is everything
between quotes.  Types, enumerations and compound values show some texts as they are.
-/

namespace QueryTree

open Text (OneLine)

theorem Text.oneLine_intercalate {separator : String} {all : List String}
    (isOne : OneLine separator) :
    OneLine (separator.intercalate all) ↔ ∀ text ∈ all, OneLine text := by
  induction all with
  | nil => simp [OneLine]
  | cons text rest ih =>
      cases rest with
      | nil => simp
      | cons next rest =>
          rw [String.intercalate_cons_cons, oneLine_append, oneLine_append, ih,
            List.forall_mem_cons]
          simp [isOne]

theorem Text.not_mem_toDigits {base : Nat} (isBase : 1 < base) (small : base ≤ 16) (n : Nat) :
    '\n' ∉ Nat.toDigits base n := by
  have digits : ∀ d < 16, '\n' ≠ d.digitChar := by decide
  induction n using Nat.strongRecOn with
  | ind n ih =>
      rw [Nat.toDigits_eq_if isBase]
      split
      next isDigit => simp [digits n (by omega)]
      next large =>
        have earlier := ih (n / base) (Nat.div_lt_self (by omega) isBase)
        have last := digits (n % base) (Nat.lt_of_lt_of_le (Nat.mod_lt n (by omega)) small)
        simp [earlier, last]

theorem Text.oneLine_natRepr (n : Nat) : OneLine n.repr := by
  simp [OneLine, not_mem_toDigits]

theorem Text.oneLine_intRepr (z : Int) : OneLine z.repr := by
  have characters := Numeral.toList_toString z
  rw [Int.toString_eq_repr] at characters
  rw [OneLine, characters]
  split <;> simp [not_mem_toDigits]

/-- Between quotes a line break is written as an escape. -/
theorem Text.oneLine_quotedChar (quote c : Char) : OneLine (quotedChar quote c) := by
  unfold quotedChar
  split_ifs with isNull isTab isReturn isBreak isEscaped isShown
  any_goals decide
  · simpa [OneLine, eq_comm] using isBreak
  · simpa [OneLine, eq_comm] using isBreak
  · simp [OneLine, hexText, not_mem_toDigits]

theorem Text.oneLine_quoteText (text : String) : OneLine (quoteText text) := by
  have each : OneLine (String.join (text.toList.map (quotedChar '"'))) := by
    rw [OneLine, String.toList_join, List.mem_flatMap]
    rintro ⟨shown, isShown, isBreak⟩
    obtain ⟨c, -, rfl⟩ := List.mem_map.mp isShown
    exact oneLine_quotedChar _ c isBreak
  have quote : OneLine "\"" := by decide
  simp [quoteText, each, quote]

theorem Text.oneLine_quoteChar (c : Char) : OneLine (quoteChar c) := by
  have quote : OneLine "'" := by decide
  simp [quoteChar, oneLine_quotedChar, quote]

namespace RealLayout

theorem oneLine_positionalText (keepsDecimal : Bool) {digits : List Char} (point : Int)
    (isOne : '\n' ∉ digits) : OneLine (positionalText keepsDecimal digits point) := by
  have front : '\n' ∉ digits.take point.toNat := fun inFront => isOne (List.mem_of_mem_take inFront)
  have back : '\n' ∉ digits.drop point.toNat := fun inBack => isOne (List.mem_of_mem_drop inBack)
  unfold positionalText
  simp only
  split_ifs <;> simp [OneLine, isOne, front, back]

theorem oneLine_codeText (format : BinaryFormat) (negative : Bool) (code : Nat) :
    OneLine (plain.codeText format negative code) := by
  have sign : OneLine (if negative = true then "-" else "") := by split <;> decide
  unfold codeText
  simp only
  split
  next =>
    split
    · decide
    · simpa [sign] using by decide
  next => simpa [sign, plain] using by decide
  next =>
    simp only [text, plain, Text.oneLine_append, sign, true_and]
    exact oneLine_positionalText _ _ (Text.not_mem_toDigits (by decide) (by decide) _)

end RealLayout

theorem Decimal.oneLine_text (d : Decimal) : OneLine d.text := by
  rw [text_eq, Text.oneLine_ofList, List.mem_append]
  rintro (sign | figure)
  · split at sign <;> simp at sign
  · obtain isDigit | isPoint := of_mem_unsigned figure
    · exact absurd isDigit (by decide)
    · exact absurd isPoint (by decide)

theorem Guid.oneLine_text (id : Guid) : OneLine id.text := by
  intro isBreak
  obtain figure | isHyphen := of_mem_text isBreak
  · exact absurd (List.all_eq_true.mp id.all_isHexDigit_figures _ figure) (by decide)
  · exact absurd isHyphen (by decide)

theorem TimeSpan.oneLine_text (span : TimeSpan) : OneLine span.text := by
  have dropped (isZero : Char → Bool) (cs : List Char) (isOne : '\n' ∉ cs) :
      '\n' ∉ cs.dropWhile isZero := fun isBreak =>
    isOne ((List.dropWhile_sublist _).subset isBreak)
  unfold TimeSpan.text
  simp only
  split_ifs <;> simp [OneLine, Text.not_mem_toDigits, dropped]

theorem DateTime.oneLine_text (moment : DateTime) : OneLine moment.text := by
  have number (width n : Nat) : OneLine (padded width n) := by
    simp [padded, Text.not_mem_toDigits]
  have year : OneLine (yearText moment.date.year) := by
    unfold yearText
    split_ifs <;> simp [number] <;> decide
  simp only [text, Text.oneLine_append, number, year]
  decide

namespace Ty

mutual

/-- The names of enumerations and classes that the text of a type shows. -/
def shownNames : Ty → List String
  | atom _ | record _ _ _ => []
  | nullable t | array t | list t | sequence t => t.shownNames
  | grouping key element => key.shownNames ++ element.shownNames
  | lambda params result => shownNamesAll params ++ result.shownNames
  | enum e => [e.name]
  | cls c => [c.name]

/-- The names that the texts of types show. -/
def shownNamesAll : List Ty → List String
  | [] => []
  | t :: rest => t.shownNames ++ shownNamesAll rest

end

theorem oneLine_atom (a : Atom) : OneLine a.name := by
  cases a with
  | integral kind => cases kind <;> decide
  | _ => decide

mutual

theorem oneLine_display_iff : ∀ t : Ty, OneLine t.display ↔ ∀ name ∈ t.shownNames, OneLine name
  | atom a => by simp [display, shownNames, oneLine_atom]
  | record id _ _ => by
      have word : OneLine "DynamicClass" := by decide
      simp [display, shownNames, word, Text.oneLine_natRepr]
  | nullable t | array t | list t | sequence t => by
      have word : OneLine "?" ∧ OneLine "[]" ∧ OneLine "List<" ∧ OneLine "IEnumerable<" ∧
        OneLine ">" := by decide
      simp [display, shownNames, word, oneLine_display_iff t]
  | grouping key element => by
      have word : OneLine "IGrouping<" ∧ OneLine ", " ∧ OneLine ">" := by decide
      simp [display, shownNames, word, oneLine_display_iff key, oneLine_display_iff element,
        or_imp, forall_and]
  | lambda params result => by
      have word : OneLine "Func<" ∧ OneLine ">" := by decide
      simp [display, shownNames, word, oneLine_displayParams_iff params, oneLine_display_iff result,
        or_imp, forall_and]
  | enum e => by simp [display, shownNames]
  | cls c => by simp [display, shownNames]

theorem oneLine_displayParams_iff :
    ∀ all : List Ty, OneLine (displayParams all) ↔ ∀ name ∈ shownNamesAll all, OneLine name
  | [] => by simp [displayParams, shownNamesAll, OneLine]
  | t :: rest => by
      have word : OneLine ", " := by decide
      simp [displayParams, shownNamesAll, word, oneLine_display_iff t,
        oneLine_displayParams_iff rest, or_imp, forall_and]

end

end Ty

namespace Value

mutual

/-- The texts that the text of a value shows as they are: names, and texts and characters, which
only a constant shows in quotes. -/
def bareTexts : Value → List String
  | null | boolean _ | integral _ | single _ | double _ | decimal _ | dateTime _ | timeSpan _
  | guid _ => []
  | char c => [String.singleton c]
  | string s => [s]
  | enum e n => (e.nameOf? n).toList
  | type t => t.shownNames
  | array items => bareItemTexts items
  | object members => bareMemberTexts members

/-- The texts that the texts of items show as they are. -/
def bareItemTexts : List Value → List String
  | [] => []
  | item :: rest => item.bareTexts ++ bareItemTexts rest

/-- The texts that the texts of named members show as they are. -/
def bareMemberTexts : List (String × Value) → List String
  | [] => []
  | (name, value) :: rest => name :: (value.bareTexts ++ bareMemberTexts rest)

end

mutual

theorem oneLine_text_iff : ∀ v : Value, OneLine v.text ↔ ∀ bare ∈ v.bareTexts, OneLine bare
  | null => by simp [text, bareTexts]; decide
  | boolean b => by cases b <;> simp [text, bareTexts] <;> decide
  | char c => by simp [text, bareTexts]
  | string s => by simp [text, bareTexts]
  | integral n => by simp [text, bareTexts, Text.oneLine_intRepr]
  | single x => by simp [text, bareTexts, RealLayout.singleText, RealLayout.oneLine_codeText]
  | double x => by simp [text, bareTexts, RealLayout.doubleText, RealLayout.oneLine_codeText]
  | decimal d => by simp [text, bareTexts, Decimal.oneLine_text]
  | dateTime moment => by simp [text, bareTexts, DateTime.oneLine_text]
  | timeSpan span => by simp [text, bareTexts, TimeSpan.oneLine_text]
  | guid id => by simp [text, bareTexts, Guid.oneLine_text]
  | enum e n => by
      cases named : e.nameOf? n <;> simp [text, bareTexts, named, Text.oneLine_intRepr]
  | type t => by simp [text, bareTexts, Ty.oneLine_display_iff]
  | array items => by
      have word : OneLine "[" ∧ OneLine ", " ∧ OneLine "]" := by decide
      simp [text, bareTexts, word, Text.oneLine_intercalate, oneLine_itemTexts_iff items]
  | object members => by
      have word : OneLine "\x7b" ∧ OneLine ", " ∧ OneLine "\x7d" := by decide
      simp [text, bareTexts, word, Text.oneLine_intercalate, oneLine_memberTexts_iff members]

theorem oneLine_itemTexts_iff : ∀ items : List Value,
    (∀ text ∈ itemTexts items, OneLine text) ↔ ∀ bare ∈ bareItemTexts items, OneLine bare
  | [] => by simp [itemTexts, bareItemTexts]
  | item :: rest => by
      simp [itemTexts, bareItemTexts, oneLine_text_iff item, oneLine_itemTexts_iff rest, or_imp,
        forall_and]

theorem oneLine_memberTexts_iff : ∀ members : List (String × Value),
    (∀ text ∈ memberTexts members, OneLine text) ↔ ∀ bare ∈ bareMemberTexts members, OneLine bare
  | [] => by simp [memberTexts, bareMemberTexts]
  | (name, value) :: rest => by
      have word : OneLine " = " := by decide
      simp [memberTexts, bareMemberTexts, word, oneLine_text_iff value,
        oneLine_memberTexts_iff rest, or_imp, forall_and, and_assoc]

end

end Value

/-!
## Nodes and their lines
-/

namespace Expr

/-- The subtrees that stand below a node, with the titles before them.  Below a chain of members
stands nothing. -/
def shown : Expr → List (String × Expr)
  | member _ target _ => if target.path?.isSome then [] else [("", target)]
  | record _ _ members => members.map fun member => (member.1 ++ " = ", member.2)
  | e => e.children.map ("", ·)

theorem mem_children_of_shown {e child : Expr} {title : String}
    (isShown : (title, child) ∈ e.shown) : child ∈ e.children := by
  unfold shown at isShown
  split at isShown
  next =>
    split at isShown
    next => cases isShown
    next => simp_all [children]
  next =>
    obtain ⟨member, isMember, same⟩ := List.mem_map.mp isShown
    exact List.mem_map.mpr ⟨member, isMember, congrArg Prod.snd same⟩
  next =>
    obtain ⟨_, isChild, same⟩ := List.mem_map.mp isShown
    obtain rfl := congrArg Prod.snd same
    exact isChild

/-- A node with a title, and the nodes that are shown below it. -/
def outlineFrom (title : String) (e : Expr) : Outline (String × Expr) :=
  .node (title, e) (e.shown.attach.map fun ⟨(title, child), _⟩ => outlineFrom title child)
termination_by sizeOf e
decreasing_by exact sizeOf_child (mem_children_of_shown ‹_›)

/-- The nodes of a tree that are shown, with their titles. -/
def outline (e : Expr) : Outline (String × Expr) := outlineFrom "" e

theorem outlineFrom_eq (title : String) (e : Expr) :
    outlineFrom title e =
      .node (title, e) (e.shown.map fun below => outlineFrom below.1 below.2) := by
  rw [outlineFrom]
  congr 1
  exact List.attach_map_val (l := e.shown) (f := fun below => outlineFrom below.1 below.2)

/-- What stands on the line of a node. -/
def heading (style : TreeStyle) (node : String × Expr) : String := node.1 ++ node.2.label style

/-- The lines of titled subtrees after an indentation. -/
def hangAll (style : TreeStyle) (indent : String) : List (String × Expr) → List String
  | [] => []
  | (title, e) :: rest =>
    hang style indent rest.isEmpty title e (childLines style e) ++ hangAll style indent rest

section

variable (style : TreeStyle) (indent : String)

theorem listLines_eq (all : List Expr) :
    listLines style all indent = hangAll style indent (all.map ("", ·)) := by
  induction all with
  | nil => rfl
  | cons e rest ih => simp [listLines, hangAll, ih]

theorem memberLines_eq (members : List (String × Expr)) :
    memberLines style members indent =
      hangAll style indent (members.map fun member => (member.1 ++ " = ", member.2)) := by
  induction members with
  | nil => rfl
  | cons member rest ih => simp [memberLines, hangAll, ih]

theorem childLines_eq (e : Expr) :
    childLines style e indent = hangAll style indent e.shown := by
  cases e with
  | member type target name =>
      rw [childLines, shown]
      split <;> simp [hangAll]
  | record type form members => exact memberLines_eq style indent members
  | _ => simp [childLines, shown, children, hangAll, listLines_eq]

end

/-- The outline of a titled node as lines. -/
def lineOutline (style : TreeStyle) (node : String × Expr) : Outline String :=
  (outlineFrom node.1 node.2).map (heading style)

theorem lineOutline_eq (style : TreeStyle) (node : String × Expr) :
    lineOutline style node =
      .node (heading style node) (node.2.shown.map (lineOutline style)) := by
  rw [lineOutline, outlineFrom_eq, Outline.map, Outline.mapAll_eq_map, List.map_map]
  rfl

/-- The lines below a node are those of the outlines of what is shown below it. -/
theorem childLines_entries (style : TreeStyle) (e : Expr) (indent : String) :
    childLines style e indent =
      (Outline.entriesBelow (e.shown.map (lineOutline style))).map (indent ++ Outline.line ·) := by
  rw [childLines_eq]
  have each : ∀ node ∈ e.shown, ∀ indent, childLines style node.2 indent =
      (Outline.entriesBelow (node.2.shown.map (lineOutline style))).map
        (indent ++ Outline.line ·) :=
    fun node isShown indent => childLines_entries style node.2 indent
  generalize e.shown = all at each
  induction all with
  | nil => rfl
  | cons node rest ih =>
      obtain ⟨first, others⟩ := List.forall_mem_cons.mp each
      have inner : (Outline.entriesBelow (node.2.shown.map (lineOutline style))).map
            (fun entry => indent ++ Outline.line (entry.inside rest.isEmpty)) =
          childLines style node.2 (indent ++ belowBranch rest.isEmpty) := by
        rw [first]
        refine List.map_congr_left fun entry isEntry => ?_
        rw [Outline.line_inside _ (Outline.place_ne_nil isEntry), String.append_assoc]
      have root : indent ++ branch rest.isEmpty ++ node.1 ++ node.2.label style =
          indent ++ Outline.line ⟨[rest.isEmpty], heading style node⟩ := by
        simp [Outline.line, Outline.front, heading, String.append_assoc]
      rw [hangAll, ih others, hang, root, ← inner, List.map_cons, Outline.entriesBelow,
        List.isEmpty_map, lineOutline_eq, Outline.entries, List.map_append, List.map_cons,
        List.map_cons, List.map_map]
      rfl
termination_by sizeOf e
decreasing_by exact sizeOf_child (mem_children_of_shown isShown)

/-- A tree is printed as the outline of what it shows. -/
theorem tree_eq (style : TreeStyle) (e : Expr) :
    e.tree style = (e.outline.map (heading style)).text := by
  have whole : e.outline.map (heading style) = lineOutline style ("", e) := rfl
  have title : heading style ("", e) = e.label style := String.empty_append
  have root : Outline.line ⟨[], e.label style⟩ = e.label style := String.empty_append
  rw [whole, tree, childLines_entries, lineOutline_eq, Outline.text, Outline.entries, List.map_cons,
    title, root]
  simp only [String.empty_append]

/-!
## Line breaks in a line
-/

/-- The names in a chain of members. -/
def pathNames : Expr → List String
  | parameter p => [p.name]
  | staticMember _ name => [name]
  | member _ target name => target.pathNames ++ [name]
  | _ => []

/-- The texts that the line of a node shows as they are, besides the names in its type. -/
def bareDetails : Expr → List String
  | constant _ (.string _) _ | constant _ (.char _) _ => []
  | constant _ value _ => value.bareTexts
  | parameter p => [p.name]
  | staticMember _ name => [name]
  | member _ target name => (if target.path?.isSome then target.pathNames else []) ++ [name]
  | staticCall _ method _ | methodCall _ method _ _ => [method.name]
  | binary _ _ _ _ method? => method?.toList
  | lambda params _ => params.map (·.name)
  | typeTest _ _ wanted _ => wanted.shownNames
  | _ => []

/-- The texts that the line of a node shows as they are. -/
def bareTexts (style : TreeStyle) (e : Expr) : List String :=
  e.bareDetails ++ if style.showsTypes then e.type.shownNames else []

theorem oneLine_shownName (p : Parameter) : OneLine p.shownName ↔ OneLine p.name := by
  unfold Parameter.shownName
  split
  next isEmpty =>
    have unnamed : p.name = "" := by simpa using isEmpty
    rw [unnamed]
    decide
  next => rfl

theorem oneLine_path {e : Expr} {path : String} (isPath : e.path? = some path) :
    OneLine path ↔ ∀ name ∈ e.pathNames, OneLine name := by
  induction e using path?.induct generalizing path with
  | case1 p =>
      obtain rfl := Option.some.inj isPath
      simp [pathNames, oneLine_shownName]
  | case2 type name =>
      obtain rfl := Option.some.inj isPath
      simp [pathNames]
  | case3 type target name ih =>
      obtain ⟨inner, isInner, rfl⟩ := Option.map_eq_some_iff.mp isPath
      have point : OneLine "." := by decide
      simp [pathNames, ih isInner, point, or_imp, forall_and]
  | case4 => simp_all [path?]

theorem oneLine_detail_iff (e : Expr) :
    OneLine e.detail ↔ ∀ bare ∈ e.bareDetails, OneLine bare := by
  cases e with
  | constant type value literal? =>
      cases value with
      | string s => simp [detail, constantText, bareDetails, Text.oneLine_quoteText]
      | char c => simp [detail, constantText, bareDetails, Text.oneLine_quoteChar]
      | _ => exact Value.oneLine_text_iff _
  | parameter p => simp [detail, bareDetails, oneLine_shownName]
  | staticMember type name => simp [detail, bareDetails]
  | member type target name =>
      have point : OneLine "." := by decide
      cases isPath : target.path? with
      | none => simp [detail, path?, bareDetails, isPath, point]
      | some path =>
          simp [detail, path?, bareDetails, isPath, point, oneLine_path isPath, or_imp, forall_and]
  | staticCall | methodCall => simp [detail, bareDetails]
  | aggregate type operation source typeArgs args =>
      have named : OneLine operation.name := by cases operation <;> decide
      simp [detail, bareDetails, named]
  | binary type op left right method? =>
      have named : OneLine op.name ∧ OneLine " via " := by cases op <;> decide
      cases method? <;> simp [detail, bareDetails, named]
  | lambda params body =>
      have between : OneLine ", " ∧ OneLine " =>" := by decide
      simp [detail, bareDetails, between, Text.oneLine_intercalate, oneLine_shownName]
  | record type form members => cases form <;> simp [detail, bareDetails] <;> decide
  | typeTest type target wanted test =>
      have named : OneLine test.word ∧ OneLine " " := by cases test <;> decide
      simp [detail, bareDetails, named, Ty.oneLine_display_iff]
  | _ => simp [detail, bareDetails]; decide

/-- A label is one line if what it shows as it is has no line breaks. -/
theorem oneLine_label_iff (style : TreeStyle) (e : Expr) :
    OneLine (e.label style) ↔ ∀ bare ∈ e.bareTexts style, OneLine bare := by
  have kind : OneLine e.kindName := by unfold kindName; split <;> decide
  have around : OneLine "(" ∧ OneLine ": " ∧ OneLine ")" := by decide
  have detail_iff := oneLine_detail_iff e
  have type_iff := Ty.oneLine_display_iff e.type
  unfold label bareTexts
  simp only
  split
  next isEmpty types =>
    have noDetail : e.detail = "" := by simpa using isEmpty
    have isOne : OneLine e.detail := by rw [noDetail]; decide
    have details := detail_iff.mp isOne
    simpa [kind, around, types, type_iff, or_imp, forall_and] using fun _ => details
  next isEmpty types =>
    have noDetail : e.detail = "" := by simpa using isEmpty
    have isOne : OneLine e.detail := by rw [noDetail]; decide
    simpa [kind, types] using detail_iff.mp isOne
  next types => simp [kind, around, types, detail_iff, type_iff, or_imp, forall_and]
  next types => simp [kind, around, types, detail_iff]

/-- No title of a node that is shown, and no text that its line shows as it is, has a line break. -/
def ShownInLines (style : TreeStyle) (e : Expr) : Prop :=
  ∀ node ∈ e.outline.items, OneLine node.1 ∧ ∀ bare ∈ node.2.bareTexts style, OneLine bare

theorem shownInLines_iff {style : TreeStyle} {e : Expr} : e.ShownInLines style ↔
    ∀ item ∈ (e.outline.map (heading style)).items, OneLine item := by
  rw [Outline.items_map, List.forall_mem_map]
  exact forall₂_congr fun node _ => by
    rw [heading, Text.oneLine_append, oneLine_label_iff]

/-- The printed text of a tree shows the nodes in depth-first order, each after four characters for
every step to it, of which the last four tell whether it is the last of its siblings.  The text has
one line for each node, and the nesting is read back from it, if and only if no title and no text
that is shown without quotes has a line break. -/
theorem tree_lines (style : TreeStyle) (e : Expr) :
    (∀ title node, (outlineFrom title node).items =
      (title, node) :: node.shown.flatMap fun below => (outlineFrom below.1 below.2).items) ∧
    e.tree style = joinLines (e.outline.entries.map fun entry =>
      Outline.front entry.place ++ heading style entry.item) ∧
    (∀ place, (Outline.front place).length = 4 * place.length) ∧
    (∀ place isLast, Outline.front (place ++ [isLast]) =
      String.join (place.map belowBranch) ++ branch isLast) ∧
    ((Text.lines (e.tree style)).length = e.outline.items.length ↔ e.ShownInLines style) ∧
    (Outline.read (e.tree style) = some (e.outline.map (heading style)) ↔
      e.ShownInLines style) := by
  have count : (e.outline.map (heading style)).entries.length = e.outline.items.length := by
    rw [Outline.entries_map, List.length_map, Outline.items, List.length_map]
  refine ⟨fun title node => ?_, ?_, Outline.length_front, Outline.front_append, ?_, ?_⟩
  · rw [outlineFrom_eq, Outline.items_node, List.flatMap_map]
  · rw [tree_eq, Outline.text, Outline.entries_map, List.map_map]
    rfl
  · rw [tree_eq, shownInLines_iff, ← Outline.oneLine_lines, ← Text.length_lines_joinLines_eq_iff,
      List.length_map, count, Outline.text]
  · rw [tree_eq, shownInLines_iff, Outline.read_text_iff]

end Expr

section Example

/-- An unnamed parameter that is a bag of values. -/
def bagParam : List Parameter := [⟨0, "", .dynamic⟩]

/-- The tree of a function of a bag, compiled on its own. -/
def bagTree? (text : String) : Option Expr :=
  (compileFunction (.of .initial .empty .initial) bagParam none text [] ⟨.empty, 1⟩).1.toOption

/-- A member of a projection that takes its name from a text with a line break is shown on two
lines. -/
theorem inferred_title_broken :
    (bagTree? "new(it[\"a\\nb\"])").map (fun e =>
      ((Text.lines (e.tree ⟨true⟩)).length, e.outline.items.length)) = some (6, 5) := by
  decide +kernel

/-- Such a name passes for a member with another name and the beginning of a second one, so that
trees of different numbers of nodes are printed alike. -/
theorem inferred_title_forged :
    let forged := bagTree? "new(it[\"a = Parameter(it: DynamicClass)\\n    ├── b\"], it as c)"
    let plain :=
      bagTree? "new(it as a, it[\"a = Parameter(it: DynamicClass)\\n    ├── b\"] as b, it as c)"
    forged.map (·.tree ⟨true⟩) = plain.map (·.tree ⟨true⟩) ∧
      forged.map (·.outline.items.length) = some 6 ∧
      plain.map (·.outline.items.length) = some 7 := by
  decide +kernel

end Example

end QueryTree
