import QueryTree.Expr.Tree
import Mathlib.Data.List.TakeWhile

/-!
# Outlines

Trees of texts as indented lines, each item before the ones below it, with branches in front that
show how deep an item stands and whether it and the items above it are the last ones of theirs.
Such a tree is read back from its lines exactly if each of its items is one line.
-/

namespace QueryTree

/-!
## Lines of a text
-/

namespace Text

/-- The lines of a text in which each line is ended. -/
def lines (text : String) : List (List Char) := (text.toList.splitOn '\n').dropLast

/-- A text has no line break. -/
def OneLine (text : String) : Prop := '\n' ∉ text.toList

instance (text : String) : Decidable (OneLine text) := inferInstanceAs (Decidable (_ ∉ _))

variable {s t : String} {cs : List Char}

@[simp] theorem oneLine_append : OneLine (s ++ t) ↔ OneLine s ∧ OneLine t := by
  simp [OneLine]

@[simp] theorem oneLine_ofList : OneLine (String.ofList cs) ↔ '\n' ∉ cs := by
  simp [OneLine]

theorem length_splitOn (cs : List Char) : (cs.splitOn '\n').length = cs.count '\n' + 1 := by
  induction cs with
  | nil => rfl
  | cons c rest ih =>
      rw [List.splitOn_cons_eq_if_modifyHead]
      split <;> simp_all

theorem not_mem_of_mem_splitOn {line : List Char} (isLine : line ∈ cs.splitOn '\n') :
    '\n' ∉ line := by
  induction cs generalizing line with
  | nil =>
      obtain rfl : line = [] := by simpa using isLine
      exact List.not_mem_nil
  | cons c rest ih =>
      rw [List.splitOn_cons_eq_if_modifyHead] at isLine
      split at isLine
      next =>
        obtain rfl | later := List.mem_cons.mp isLine
        · exact List.not_mem_nil
        · exact ih later
      next differs =>
        cases split : rest.splitOn '\n' with
        | nil => exact absurd split (List.splitOn_ne_nil _ _)
        | cons first others =>
            rw [split] at isLine ih
            obtain rfl | later := List.mem_cons.mp isLine
            · have apart : '\n' ≠ c := fun same => differs (same ▸ beq_self_eq_true '\n')
              simpa [apart] using ih List.mem_cons_self
            · exact ih (List.mem_cons_of_mem _ later)

/-- Joined lines are the lines that each of them is. -/
theorem lines_joinLines (all : List String) :
    lines (Expr.joinLines all) = all.flatMap fun line => line.toList.splitOn '\n' := by
  have each : (Expr.joinLines all).toList.splitOn '\n' =
      (all.flatMap fun line => line.toList.splitOn '\n') ++ [[]] := by
    rw [Expr.joinLines, String.toList_join]
    induction all with
    | nil => rfl
    | cons line rest ih =>
        rw [List.map_cons, List.flatMap_cons, List.flatMap_cons, String.toList_append,
          List.append_assoc, List.append_assoc, ← ih]
        exact List.splitOn_append_cons_self ..
  rw [lines, each, List.dropLast_concat]

theorem lines_joinLines_eq_iff {all : List String} :
    lines (Expr.joinLines all) = all.map String.toList ↔ ∀ line ∈ all, OneLine line := by
  rw [lines_joinLines]
  refine ⟨fun same line isLine => ?_, fun each => ?_⟩
  · have isPiece : line.toList ∈ all.flatMap fun line => line.toList.splitOn '\n' :=
      same ▸ List.mem_map_of_mem isLine
    obtain ⟨other, -, isPiece⟩ := List.mem_flatMap.mp isPiece
    exact not_mem_of_mem_splitOn isPiece
  · induction all with
    | nil => rfl
    | cons line rest ih =>
        obtain ⟨isOne, others⟩ := List.forall_mem_cons.mp each
        rw [List.flatMap_cons, ih others, List.splitOn_eq_singleton isOne]
        rfl

theorem length_lines_joinLines (all : List String) :
    (lines (Expr.joinLines all)).length =
      all.length + (all.flatMap String.toList).count '\n' := by
  rw [lines_joinLines]
  induction all with
  | nil => rfl
  | cons line rest ih =>
      simp only [List.flatMap_cons, List.length_append, ih, length_splitOn, List.length_cons,
        List.count_append]
      omega

theorem length_lines_joinLines_eq_iff {all : List String} :
    (lines (Expr.joinLines all)).length = all.length ↔ ∀ line ∈ all, OneLine line := by
  rw [length_lines_joinLines, Nat.add_eq_left, List.count_eq_zero]
  simp [OneLine]

end Text

/-!
## Items of an outline
-/

/-- A tree of items. -/
inductive Outline (α : Type) where
  | node (item : α) (below : List (Outline α))

/-- An item where it stands in an outline: of every step that leads to it from the root, whether it
leads to the last subtree. -/
structure Entry (α : Type) where
  place : List Bool
  item : α

namespace Entry

variable {α β : Type}

/-- An entry of a subtree as an entry of the tree. -/
def inside (isLast : Bool) (entry : Entry α) : Entry α :=
  { entry with place := isLast :: entry.place }

/-- An entry with another item. -/
def map (f : α → β) (entry : Entry α) : Entry β := ⟨entry.place, f entry.item⟩

/-- How deep an entry stands below a node of some depth, and its item. -/
def leveled (above : Nat) (entry : Entry α) : Nat × α := (above + entry.place.length, entry.item)

theorem leveled_inside (above : Nat) (isLast : Bool) (entry : Entry α) :
    (entry.inside isLast).leveled above = entry.leveled (above + 1) := by
  simp [inside, leveled, Nat.add_assoc, Nat.add_comm 1]

end Entry

namespace Outline

variable {α β : Type}

/-- What holds of a tree if it holds of the trees below its root holds of all trees. -/
theorem of_below {rule : Outline α → Prop}
    (step : ∀ item below, (∀ o ∈ below, rule o) → rule (node item below)) :
    ∀ o, rule o
  | node item below => step item below fun o _ => of_below step o

mutual

/-- The items of a tree, each before the ones below it. -/
def entries : Outline α → List (Entry α)
  | node item below => ⟨[], item⟩ :: entriesBelow below

/-- The items of the trees below one node. -/
def entriesBelow : List (Outline α) → List (Entry α)
  | [] => []
  | o :: rest => o.entries.map (Entry.inside rest.isEmpty) ++ entriesBelow rest

end

mutual

/-- A tree with other items. -/
def map (f : α → β) : Outline α → Outline β
  | node item below => node (f item) (mapAll f below)

/-- Trees with other items. -/
def mapAll (f : α → β) : List (Outline α) → List (Outline β)
  | [] => []
  | o :: rest => o.map f :: mapAll f rest

end

/-- The items of a tree in order. -/
def items (o : Outline α) : List α := o.entries.map (·.item)

/-- Inner nodes have places. -/
theorem place_ne_nil {below : List (Outline α)} {entry : Entry α}
    (isEntry : entry ∈ entriesBelow below) : entry.place ≠ [] := by
  induction below with
  | nil => cases isEntry
  | cons o rest ih =>
      obtain here | later := List.mem_append.mp isEntry
      · obtain ⟨inner, -, rfl⟩ := List.mem_map.mp here
        exact List.cons_ne_nil _ _
      · exact ih later

theorem items_node (item : α) (below : List (Outline α)) :
    (node item below).items = item :: below.flatMap items := by
  have each : (entriesBelow below).map (·.item) = below.flatMap items := by
    induction below with
    | nil => rfl
    | cons o rest ih =>
        rw [entriesBelow, List.map_append, ih, List.map_map]
        rfl
  rw [items, entries, List.map_cons, each]

theorem mapAll_eq_map (f : α → β) (all : List (Outline α)) : mapAll f all = all.map (map f) := by
  induction all with
  | nil => rfl
  | cons o rest ih => rw [mapAll, ih, List.map_cons]

theorem entries_map (f : α → β) (o : Outline α) :
    (o.map f).entries = o.entries.map (Entry.map f) := by
  induction o using of_below with
  | step item below ih =>
      have each : entriesBelow (mapAll f below) = (entriesBelow below).map (Entry.map f) := by
        induction below with
        | nil => rfl
        | cons o rest ih' =>
            obtain ⟨first, others⟩ := List.forall_mem_cons.mp ih
            have same : (mapAll f rest).isEmpty = rest.isEmpty := by
              rw [mapAll_eq_map, List.isEmpty_map]
            rw [mapAll, entriesBelow, entriesBelow, List.map_append, first, ih' others, same,
              List.map_map, List.map_map]
            rfl
      rw [map, entries, entries, each]
      rfl

theorem items_map (f : α → β) (o : Outline α) : (o.map f).items = o.items.map f := by
  rw [items, entries_map, items, List.map_map, List.map_map]
  rfl

/-!
## Lines of an outline
-/

open QueryTree.Expr (branch belowBranch joinLines)

/-- What stands in front of an item: four characters for each step to it. -/
def front : List Bool → String
  | [] => ""
  | [isLast] => branch isLast
  | isLast :: next :: place => belowBranch isLast ++ front (next :: place)

/-- The line of an item. -/
def line (entry : Entry String) : String := front entry.place ++ entry.item

/-- The text of an outline. -/
def text (o : Outline String) : String := joinLines (o.entries.map line)

/-- In front of an inner node of a subtree stands what belongs below the branch of the subtree. -/
theorem line_inside {entry : Entry String} (isLast : Bool) (isInner : entry.place ≠ []) :
    line (entry.inside isLast) = belowBranch isLast ++ line entry := by
  obtain ⟨place, item⟩ := entry
  cases place with
  | nil => exact absurd rfl isInner
  | cons next place => exact String.append_assoc

theorem length_front (place : List Bool) : (front place).length = 4 * place.length := by
  induction place using front.induct with
  | case1 => rfl
  | case2 isLast => cases isLast <;> rfl
  | case3 isLast next place ih =>
      have four : (belowBranch isLast).length = 4 := by cases isLast <;> rfl
      rw [front, String.length_append, four, ih, List.length_cons (a := isLast)]
      omega

/-- The last step to an item chooses the branch, the ones before it what stands below theirs. -/
theorem front_append (place : List Bool) (isLast : Bool) :
    front (place ++ [isLast]) = String.join (place.map belowBranch) ++ branch isLast := by
  induction place with
  | nil => simp [front]
  | cons step place ih =>
      have later : front (step :: (place ++ [isLast])) =
          belowBranch step ++ front (place ++ [isLast]) := by
        cases place <;> rfl
      rw [List.cons_append, later, ih, List.map_cons, String.join_cons, String.append_assoc]

theorem oneLine_front (place : List Bool) : Text.OneLine (front place) := by
  induction place using front.induct with
  | case1 => decide
  | case2 isLast => cases isLast <;> decide
  | case3 isLast next place ih =>
      have below : Text.OneLine (belowBranch isLast) := by cases isLast <;> decide
      exact Text.oneLine_append.mpr ⟨below, ih⟩

theorem oneLine_line {entry : Entry String} :
    Text.OneLine (line entry) ↔ Text.OneLine entry.item := by
  simp [line, oneLine_front]

theorem oneLine_lines {o : Outline String} :
    (∀ shown ∈ o.entries.map line, Text.OneLine shown) ↔ ∀ item ∈ o.items, Text.OneLine item := by
  simp [items, oneLine_line]

/-!
## Outlines from lines
-/

/-- The place and the item of a line that begins with a branch. -/
def readEntry : List Char → Entry String
  | a :: b :: c :: d :: rest =>
    if [a, b, c, d] = (belowBranch true).toList then (readEntry rest).inside true
    else if [a, b, c, d] = (belowBranch false).toList then (readEntry rest).inside false
    else if [a, b, c, d] = (branch true).toList then ⟨[true], String.ofList rest⟩
    else if [a, b, c, d] = (branch false).toList then ⟨[false], String.ofList rest⟩
    else ⟨[], String.ofList (a :: b :: c :: d :: rest)⟩
  | short => ⟨[], String.ofList short⟩

/-- The places and the items of the lines of a text, of which the first has no branch. -/
def readEntries (text : String) : List (Entry String) :=
  match Text.lines text with
  | [] => []
  | root :: rest => ⟨[], String.ofList root⟩ :: rest.map readEntry

/-- An item before trees that stand in some depth.  The ones that stand deeper than it are below it,
up to the first one that does not. -/
def plant (first : Nat × α) (grown : List (Nat × Outline α)) : List (Nat × Outline α) :=
  (first.1, node first.2 ((grown.takeWhile (first.1 < ·.1)).map (·.2)))
    :: grown.dropWhile (first.1 < ·.1)

/-- The tree that a text shows. -/
def read (text : String) : Option (Outline String) :=
  match ((readEntries text).map (Entry.leveled 0)).foldr plant [] with
  | [(_, o)] => some o
  | _ => none

theorem readEntry_front {place : List Bool} (isInside : place ≠ []) (item : String) :
    readEntry (front place ++ item).toList = ⟨place, item⟩ := by
  induction place using front.induct with
  | case1 => exact absurd rfl isInside
  | case2 isLast =>
      cases isLast <;> simp [front, branch, belowBranch, readEntry]
  | case3 isLast next place ih =>
      have later := ih (List.cons_ne_nil _ _)
      rw [String.toList_append] at later
      cases isLast <;> simp [front, belowBranch, readEntry, later, Entry.inside]

/-- The entries of a tree of lines are read back. -/
theorem readEntries_text {o : Outline String} (each : ∀ item ∈ o.items, Text.OneLine item) :
    readEntries o.text = o.entries := by
  rw [readEntries, text, Text.lines_joinLines_eq_iff.mpr (oneLine_lines.mpr each)]
  cases o with
  | node item below =>
      have inner : (entriesBelow below).map (fun entry => readEntry (line entry).toList) =
          (entriesBelow below).map id :=
        List.map_congr_left fun entry isEntry => readEntry_front (place_ne_nil isEntry) entry.item
      simp only [entries, List.map_cons, List.map_map, Function.comp_def, inner, List.map_id]
      simp [line, front]

/-- The trees that stand deeper than an item, up to the first one that does not, come below it. -/
theorem plant_append (depth : Nat) (item : α) {deep after : List (Nat × Outline α)}
    (deeper : ∀ x ∈ deep, depth < x.1) (shallow : ∀ x ∈ after.head?, x.1 ≤ depth) :
    plant (depth, item) (deep ++ after) = (depth, node item (deep.map (·.2))) :: after := by
  have deeper : ∀ x ∈ deep, decide (depth < x.1) = true := by simpa using deeper
  have stays : after.takeWhile (depth < ·.1) = [] ∧ after.dropWhile (depth < ·.1) = after := by
    cases after with
    | nil => exact ⟨rfl, rfl⟩
    | cons x rest => simpa using shallow
  rw [plant, List.takeWhile_append_of_pos deeper, List.dropWhile_append_of_pos deeper, stays.1,
    stays.2, List.append_nil]

/-- Planting the items of a tree grows the tree before what stands no deeper. -/
theorem foldr_plant_entries (o : Outline α) (depth : Nat) {after : List (Nat × Outline α)}
    (shallow : ∀ x ∈ after.head?, x.1 ≤ depth) :
    (o.entries.map (Entry.leveled depth)).foldr plant after = (depth, o) :: after := by
  induction o using of_below generalizing depth after with
  | step item below ih =>
      have inner (after : List (Nat × Outline α)) (shallow : ∀ x ∈ after.head?, x.1 ≤ depth + 1) :
          ((entriesBelow below).map (Entry.leveled depth)).foldr plant after =
            below.map (depth + 1, ·) ++ after := by
        induction below with
        | nil => rfl
        | cons o rest ih' =>
            obtain ⟨first, others⟩ := List.forall_mem_cons.mp ih
            have next : ∀ x ∈ (rest.map (depth + 1, ·) ++ after).head?, x.1 ≤ depth + 1 := by
              cases rest with
              | nil => exact shallow
              | cons next rest => simp
            rw [entriesBelow, List.map_append, List.foldr_append, ih' others, List.map_map]
            simp only [Function.comp_def, Entry.leveled_inside]
            exact first (depth + 1) next
      have deeper : ∀ x ∈ below.map (depth + 1, ·), depth < x.1 := by simp
      have planted := plant_append depth item deeper shallow
      rw [List.map_map, Function.comp_def, List.map_id'] at planted
      rw [entries, List.map_cons, List.foldr_cons,
        inner after fun x isFirst => Nat.le_succ_of_le (shallow x isFirst)]
      exact planted

/-- Planting keeps all items in their order. -/
theorem items_foldr_plant (all : List (Nat × α)) :
    (all.foldr plant []).flatMap (·.2.items) = all.map (·.2) := by
  induction all with
  | nil => rfl
  | cons first rest ih =>
      have parts := List.takeWhile_append_dropWhile (p := fun x => first.1 < x.1)
        (l := rest.foldr plant [])
      rw [List.foldr_cons, plant, List.flatMap_cons, items_node, List.flatMap_map, List.map_cons,
        ← ih, List.cons_append, ← List.flatMap_append, parts]

theorem oneLine_readEntry {cs : List Char} (isOne : '\n' ∉ cs) :
    Text.OneLine (readEntry cs).item := by
  have rest_isOne {a b c d : Char} {rest : List Char} (isOne : '\n' ∉ a :: b :: c :: d :: rest) :
      '\n' ∉ rest := fun inRest => isOne (by simp [inRest])
  induction cs using readEntry.induct with
  | case1 a b c d rest isBlank ih =>
      rw [readEntry, if_pos isBlank]
      exact ih (rest_isOne isOne)
  | case2 a b c d rest noBlank isBar ih =>
      rw [readEntry, if_neg noBlank, if_pos isBar]
      exact ih (rest_isOne isOne)
  | case3 a b c d rest noBlank noBar isLast =>
      rw [readEntry, if_neg noBlank, if_neg noBar, if_pos isLast]
      exact Text.oneLine_ofList.mpr (rest_isOne isOne)
  | case4 a b c d rest noBlank noBar notLast isFork =>
      rw [readEntry, if_neg noBlank, if_neg noBar, if_neg notLast, if_pos isFork]
      exact Text.oneLine_ofList.mpr (rest_isOne isOne)
  | case5 a b c d rest noBlank noBar notLast noFork =>
      rw [readEntry, if_neg noBlank, if_neg noBar, if_neg notLast, if_neg noFork]
      exact Text.oneLine_ofList.mpr isOne
  | case6 short isShort =>
      rw [readEntry]
      · exact Text.oneLine_ofList.mpr isOne
      · exact isShort

/-- What a text shows has no line breaks in its items. -/
theorem oneLine_of_read {text : String} {o : Outline String} (reads : read text = some o) :
    ∀ item ∈ o.items, Text.OneLine item := by
  have each : ∀ entry ∈ readEntries text, Text.OneLine entry.item := by
    unfold readEntries
    cases split : Text.lines text with
    | nil => simp
    | cons root rest =>
        have isOne : ∀ line ∈ Text.lines text, '\n' ∉ line := fun line isLine =>
          Text.not_mem_of_mem_splitOn (List.dropLast_subset _ isLine)
        rw [split] at isOne
        obtain ⟨root_isOne, rest_isOne⟩ := List.forall_mem_cons.mp isOne
        refine List.forall_mem_cons.mpr ⟨Text.oneLine_ofList.mpr root_isOne, ?_⟩
        exact List.forall_mem_map.mpr fun line isLine => oneLine_readEntry (rest_isOne line isLine)
  unfold read at reads
  split at reads
  next depth o' grown =>
    obtain rfl := Option.some.inj reads
    have same := items_foldr_plant ((readEntries text).map (Entry.leveled 0))
    rw [grown, List.flatMap_singleton, List.map_map] at same
    rw [same]
    exact List.forall_mem_map.mpr each
  next => cases reads

/-- An outline is read back from its text if and only if its items have no line breaks. -/
theorem read_text_iff {o : Outline String} :
    read o.text = some o ↔ ∀ item ∈ o.items, Text.OneLine item := by
  refine ⟨oneLine_of_read, fun each => ?_⟩
  rw [read, readEntries_text each, foldr_plant_entries o 0 (by simp)]

end Outline

end QueryTree
