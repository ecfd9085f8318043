import QueryTree.Config.Options
import Mathlib.Data.List.Basic

/-!
# Folded names

The lower case of a character that is no letter is the character itself, so that a folded name
begins with such a character only if the name does.  Names that are equal but for the case of ASCII
letters have the same folded form where case does not count.
-/

namespace QueryTree

namespace Text

variable {c d : Char} {left right text : String}

/-- To lower an ASCII character changes only letters, to letters, and once. -/
theorem lower_ascii (ascii : c.toNat < 128) :
    (c.toLower.toNat < 65 → c.toLower = c) ∧ (c.toNat < 65 → c.toLower = c) ∧
      lowerChar c.toLower = lowerChar c := by
  have all : ∀ code < 128, ((Char.ofNat code).toLower.toNat < 65 →
      (Char.ofNat code).toLower = Char.ofNat code) ∧
      ((Char.ofNat code).toNat < 65 → (Char.ofNat code).toLower = Char.ofNat code) ∧
      lowerChar (Char.ofNat code).toLower = lowerChar (Char.ofNat code) := by
    decide +kernel
  have here := all c.toNat ascii
  rwa [Char.ofNat_toNat] at here

theorem lowerExpansions_lookup {code : Nat} {codes : List Nat}
    (found : lowerExpansions.lookup code = some codes) : codes = [105, 775] := by
  rw [lowerExpansions, List.lookup_cons] at found
  split at found
  next => exact (Option.some.inj found).symm
  next => cases found

theorem lowerRuns_valid : ∀ run ∈ lowerRuns,
    65 ≤ (run.first : Int) + run.shift ∧ ((run.last : Int) + run.shift < 0xd800 ∨
      0xdfff < (run.first : Int) + run.shift ∧ (run.last : Int) + run.shift < 0x110000) := by
  decide +kernel

/-- The lower case of a character begins with an earlier one than the letters only if this is the
character itself. -/
theorem eq_of_lowerChar_head (first : (lowerChar c).head? = some d) (early : d.toNat < 65) :
    d = c := by
  unfold lowerChar at first
  split at first
  next ascii =>
    obtain rfl : c.toLower = d := Option.some.inj first
    exact (lower_ascii ascii).1 early
  next =>
    unfold mapCase at first
    split at first
    next codes found =>
      rw [lowerExpansions_lookup found] at first
      obtain rfl : 'i' = d := Option.some.inj first
      exact absurd early (by simp)
    next =>
      split at first
      next run found =>
        obtain rfl := Option.some.inj first
        obtain ⟨behind, valid⟩ := lowerRuns_valid run (List.mem_of_find?_eq_some found)
        have covers := List.find?_some found
        simp only [CaseRun.covers, Bool.and_eq_true, decide_eq_true_eq] at covers
        obtain ⟨⟨after, before⟩, -⟩ := covers
        have valid : ((c.toNat : Int) + run.shift).toNat.isValidChar := by
          unfold Nat.isValidChar
          omega
        have code : (Char.ofNat ((c.toNat : Int) + run.shift).toNat).toNat
            = ((c.toNat : Int) + run.shift).toNat := by
          rw [Char.ofNat, dif_pos valid]
          rfl
        omega
      next => exact (Option.some.inj first).symm

theorem lowerChar_ne_nil (c : Char) : lowerChar c ≠ [] := by
  unfold lowerChar
  split
  next => simp
  next =>
    unfold mapCase
    split
    next codes found => simp [lowerExpansions_lookup found]
    next => split <;> simp

/-- Folding keeps the first character of a text if it stands before the letters, and puts none in
front. -/
theorem head_foldCase (early : d.toNat < 65) :
    (foldCase text).toList.head? = some d ↔ text.toList.head? = some d := by
  rw [foldCase, String.toList_ofList]
  cases text.toList with
  | nil => simp
  | cons c rest =>
      rw [List.flatMap_cons, List.head?_append_of_ne_nil _ (lowerChar_ne_nil c), List.head?_cons]
      constructor
      · exact fun first => (congrArg some (eq_of_lowerChar_head first early)).symm
      · rintro ⟨rfl⟩
        rw [lowerChar, if_pos (by omega)]
        exact congrArg some ((lower_ascii (by omega)).2.1 early)

/-! ## Letters of ASCII -/

theorem lowerChar_toLower (c : Char) : lowerChar c.toLower = lowerChar c := by
  by_cases ascii : c.toNat < 128
  · exact (lower_ascii ascii).2.2
  · have same : c.toLower = c := by
      unfold Char.toLower
      rw [dif_neg]
      rintro ⟨-, upper⟩
      have code : c.toNat ≤ 90 := UInt32.le_iff_toNat_le.mp upper
      omega
    rw [same]

theorem foldCase_foldAscii (text : String) : foldCase (foldAscii text) = foldCase text := by
  rw [foldCase, foldAscii, String.toList_ofList, List.flatMap_map, foldCase]
  exact congrArg String.ofList (congrArg (List.flatMap · text.toList) (funext lowerChar_toLower))

theorem foldCase_eq_of_sameIgnoringAsciiCase (same : sameIgnoringAsciiCase left right = true) :
    foldCase left = foldCase right := by
  rw [← foldCase_foldAscii left, ← foldCase_foldAscii right, eq_of_beq same]

end Text

namespace Options

variable {options : Options} {d : Char} {name other : String}

theorem head_fold (early : d.toNat < 65) :
    (options.fold name).toList.head? = some d ↔ name.toList.head? = some d := by
  rw [fold]
  split
  next => exact Iff.rfl
  next => exact Text.head_foldCase early

theorem fold_marked : options.fold ("@" ++ name) = "@" ++ options.fold name := by
  unfold fold
  split
  next => rfl
  next =>
    rw [Text.foldCase, String.toList_append, List.flatMap_append, String.ofList_append]
    exact congrArg (· ++ _) rfl

/-- To ignore the case of ASCII letters is less than what the options say, exactly if case does not
count. -/
theorem sameName_of_ascii_iff :
    (∀ left right, Text.sameIgnoringAsciiCase left right = true →
      options.sameName left right = true) ↔ options.caseSensitive = false := by
  constructor
  · intro all
    cases sensitive : options.caseSensitive with
    | false => rfl
    | true =>
        have same := all "a" "A" (by decide +kernel)
        simp [sameName, fold, sensitive] at same
  · intro insensitive left right same
    simp [sameName, fold, insensitive, Text.foldCase_eq_of_sameIgnoringAsciiCase same]

/-- To ignore the case of ASCII letters is more than what the options say, exactly if case counts. -/
theorem ascii_of_sameName_iff :
    (∀ left right, options.sameName left right = true →
      Text.sameIgnoringAsciiCase left right = true) ↔ options.caseSensitive = true := by
  constructor
  · intro all
    cases sensitive : options.caseSensitive with
    | true => rfl
    | false =>
        have same : options.sameName "ä" "Ä" = true := by
          simp only [sameName, fold, sensitive]
          decide +kernel
        exact absurd (all _ _ same) (by decide +kernel)
  · intro sensitive left right same
    have equal : left = right := by simpa [sameName, fold, sensitive] using same
    rw [equal, Text.sameIgnoringAsciiCase, beq_self_eq_true]

end Options

end QueryTree
