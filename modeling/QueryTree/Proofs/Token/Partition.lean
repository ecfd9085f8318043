import QueryTree.Proofs.Token.Lexeme

/-!
# The tokens of a text and what is between them

A cursor moves over a text, one token at a time.  Its tokens cover the text but for blanks, up to
the end of the text or up to what is no token.
-/

namespace QueryTree

open Text (isBlank)

namespace Token

variable {cs : List Char} {tokens : List Token}

/-- The position behind the characters of a token. -/
def stop (token : Token) : Nat := token.position + token.text.length

/-- Whether a position is one of a token. -/
def Covers (token : Token) (index : Nat) : Prop := token.position ≤ index ∧ index < token.stop

/-- Tokens that cover the characters up to a position but for blanks, in the order of the text. -/
structure Partition (cs : List Char) (tokens : List Token) (stop : Nat) : Prop where
  notFinish : ∀ token ∈ tokens, token.kind ≠ .finish
  nonempty : ∀ token ∈ tokens, token.text ≠ ""
  slice : ∀ token ∈ tokens, token.text.toList = cs.extract token.position token.stop
  increasing : tokens.Pairwise fun earlier later => earlier.position < later.position
  disjoint : tokens.Pairwise fun earlier later => earlier.stop ≤ later.position
  inside : ∀ token ∈ tokens, token.stop ≤ stop
  blank : ∀ index c, cs[index]? = some c → index < stop →
    (∀ token ∈ tokens, ¬ token.Covers index) → isBlank c = true

/-- Tokens with blanks before each of them, from a position on.  Behind the last one and some more
blanks, at the position `stop`, there are characters left. -/
inductive Layout : Nat → List Char → List Token → Nat → List Char → Prop where
  | nil {position : Nat} {blanks left : List Char} (blank : ∀ c ∈ blanks, isBlank c = true) :
      Layout position (blanks ++ left) [] (position + blanks.length) left
  | cons {position stop : Nat} {blanks rest left : List Char} {token : Token} {tokens : List Token}
      (blank : ∀ c ∈ blanks, isBlank c = true) (notFinish : token.kind ≠ .finish)
      (nonempty : token.text ≠ "") (starts : token.position = position + blanks.length)
      (layout : Layout token.stop rest tokens stop left) :
      Layout position (blanks ++ (token.text.toList ++ rest)) (token :: tokens) stop left

namespace Layout

variable {position stop : Nat} {left : List Char}

theorem stop_add_length (layout : Layout position cs tokens stop left) :
    stop + left.length = position + cs.length := by
  induction layout with
  | nil =>
      rw [List.length_append]
      omega
  | cons _ _ _ starts _ ih =>
      rw [Token.stop, starts] at ih
      simp only [List.length_append, String.length_toList]
      omega

theorem left_suffix (layout : Layout position cs tokens stop left) : left <:+ cs := by
  induction layout with
  | nil => exact List.suffix_append ..
  | cons _ _ _ _ _ ih =>
      exact ih.trans ((List.suffix_append ..).trans (List.suffix_append ..))

theorem notFinish (layout : Layout position cs tokens stop left) :
    ∀ token ∈ tokens, token.kind ≠ .finish := by
  induction layout with
  | nil => simp
  | cons _ notFinish _ _ _ ih => exact List.forall_mem_cons.mpr ⟨notFinish, ih⟩

theorem nonempty (layout : Layout position cs tokens stop left) :
    ∀ token ∈ tokens, token.text ≠ "" := by
  induction layout with
  | nil => simp
  | cons _ _ nonempty _ _ ih => exact List.forall_mem_cons.mpr ⟨nonempty, ih⟩

theorem le_stop (layout : Layout position cs tokens stop left) : position ≤ stop := by
  induction layout with
  | nil => omega
  | cons _ _ _ starts _ ih =>
      rw [Token.stop, starts] at ih
      omega

/-- The tokens are behind the start and before the stop. -/
theorem bounds (layout : Layout position cs tokens stop left) :
    ∀ token ∈ tokens, position ≤ token.position ∧ token.stop ≤ stop := by
  induction layout with
  | nil => simp
  | @cons position stop blanks rest left token tokens _ _ _ starts layout ih =>
      refine List.forall_mem_cons.mpr ⟨⟨by omega, layout.le_stop⟩, fun later member => ?_⟩
      have start_le : position ≤ token.stop := by
        rw [Token.stop]
        omega
      exact ⟨start_le.trans (ih later member).1, (ih later member).2⟩

theorem slice (layout : Layout position cs tokens stop left) {before : List Char}
    (start : before.length = position) : ∀ token ∈ tokens,
      token.text.toList = (before ++ cs).extract token.position token.stop := by
  induction layout generalizing before with
  | nil => simp
  | @cons position stop blanks rest left token tokens _ _ _ starts layout ih =>
      have reached : (before ++ blanks).length = token.position := by simp [start, starts]
      have whole : before ++ (blanks ++ (token.text.toList ++ rest)) =
          (before ++ blanks) ++ (token.text.toList ++ rest) := by simp
      rw [List.forall_mem_cons, whole]
      constructor
      · rw [List.extract_eq_take_drop, ← reached, List.drop_left, reached, Token.stop,
          Nat.add_sub_cancel_left, ← String.length_toList, List.take_left]
      · rw [← List.append_assoc]
        refine ih ?_
        rw [List.length_append, reached, String.length_toList, Token.stop]

theorem pairwise_stop_le (layout : Layout position cs tokens stop left) :
    tokens.Pairwise fun earlier later => earlier.stop ≤ later.position := by
  induction layout with
  | nil => exact .nil
  | cons _ _ _ _ layout ih => exact .cons (fun later member => (layout.bounds later member).1) ih

theorem pairwise_position_lt (layout : Layout position cs tokens stop left) :
    tokens.Pairwise fun earlier later => earlier.position < later.position := by
  refine layout.pairwise_stop_le.imp_of_mem fun {earlier later} member _ disjoint => ?_
  have width : earlier.text.length ≠ 0 :=
    fun none => layout.nonempty earlier member (String.length_eq_zero_iff.mp none)
  rw [Token.stop] at disjoint
  omega

/-- A character before the stop that no token covers is a blank. -/
theorem isBlank_of_not_covers (layout : Layout position cs tokens stop left) {index : Nat}
    {c : Char} (found : cs[index]? = some c) (inside : position + index < stop)
    (uncovered : ∀ token ∈ tokens, ¬ token.Covers (position + index)) : isBlank c = true := by
  induction layout generalizing index with
  | @nil position blanks left blank =>
      rw [List.getElem?_append_left (by omega)] at found
      exact blank c (List.mem_of_getElem? found)
  | @cons position stop blanks rest left token tokens blank _ _ starts layout ih =>
      have stop_eq : token.stop = position + blanks.length + token.text.length := by
        rw [Token.stop, starts]
      obtain ⟨outside, uncovered⟩ := List.forall_mem_cons.mp uncovered
      rcases Nat.lt_or_ge index blanks.length with before | behind
      · rw [List.getElem?_append_left before] at found
        exact blank c (List.mem_of_getElem? found)
      · have passed : blanks.length + token.text.length ≤ index := by
          by_contra within
          exact outside ⟨by omega, by omega⟩
        have same :
            token.stop + (index - blanks.length - token.text.length) = position + index := by omega
        rw [List.getElem?_append_right behind,
          List.getElem?_append_right (by rw [String.length_toList]; omega), String.length_toList]
          at found
        exact ih found (same ▸ inside) (same ▸ uncovered)

theorem partition (layout : Layout 0 cs tokens stop left) : Partition cs tokens stop where
  notFinish := layout.notFinish
  nonempty := layout.nonempty
  slice := layout.slice (List.length_nil)
  increasing := layout.pairwise_position_lt
  disjoint := layout.pairwise_stop_le
  inside token member := (layout.bounds token member).2
  blank index _ found inside uncovered :=
    layout.isBlank_of_not_covers found (by rwa [Nat.zero_add])
      (fun token member => by simpa using uncovered token member)

end Layout

end Token

/-- A place in a text: its position and the characters from there on. -/
structure Cursor where
  position : Nat
  rest : List Char

namespace Cursor

variable {separator : Char}

/-- The start of a text. -/
def ofText (text : String) : Cursor := ⟨0, text.toList⟩

/-- The next token and the place behind it.  At the end of the text the token is that for the end,
again and again. -/
def next (separator : Char) (cursor : Cursor) : Except CompileError (Token × Cursor) :=
  let start := cursor.position + (cursor.rest.takeWhile isBlank).length
  match cursor.rest.dropWhile isBlank with
  | [] => .ok (⟨.finish, "", start⟩, ⟨start, []⟩)
  | c :: rest =>
    (Lexeme.first separator start c rest).map fun lexeme =>
      (⟨lexeme.kind, String.ofList lexeme.chars, start⟩,
        ⟨start + lexeme.chars.length, lexeme.rest⟩)

/-- What comes out when a number of tokens has been taken and one more is asked for. -/
def outcome (separator : Char) : Nat → Cursor → Except CompileError Token
  | 0, cursor => (cursor.next separator).map Prod.fst
  | steps + 1, cursor => do
    let (_, cursor) ← cursor.next separator
    cursor.outcome separator steps

/-- What the next token of a text can be: the end, a token behind some blanks, or none. -/
inductive Step (separator : Char) : Cursor → Except CompileError (Token × Cursor) → Prop where
  | finish {position : Nat} {blanks : List Char} (blank : ∀ c ∈ blanks, isBlank c = true) :
      Step separator ⟨position, blanks⟩
        (.ok (⟨.finish, "", position + blanks.length⟩, ⟨position + blanks.length, []⟩))
  | token {position : Nat} {blanks rest : List Char} {token : Token}
      (blank : ∀ c ∈ blanks, isBlank c = true) (notFinish : token.kind ≠ .finish)
      (nonempty : token.text ≠ "") (starts : token.position = position + blanks.length) :
      Step separator ⟨position, blanks ++ (token.text.toList ++ rest)⟩
        (.ok (token, ⟨token.stop, rest⟩))
  | refused {position : Nat} {blanks rest : List Char} {c : Char} {error : CompileError}
      (blank : ∀ c ∈ blanks, isBlank c = true) (visible : isBlank c = false)
      (outcome : Lexeme.first separator (position + blanks.length) c rest = .error error) :
      Step separator ⟨position, blanks ++ (c :: rest)⟩ (.error error)

theorem next_step (separator : Char) (cursor : Cursor) :
    Step separator cursor (cursor.next separator) := by
  obtain ⟨position, cs⟩ := cursor
  have blank : ∀ c ∈ cs.takeWhile isBlank, isBlank c = true := fun _ => List.mem_takeWhile_imp
  have parts : cs.takeWhile isBlank ++ cs.dropWhile isBlank = cs := List.takeWhile_append_dropWhile
  unfold next
  simp only
  generalize cs.takeWhile isBlank = blanks at blank parts
  split
  next ends =>
    rw [ends, List.append_nil] at parts
    exact parts ▸ .finish blank
  next c rest goes =>
    have visible : isBlank c = false := by
      have start := List.head?_dropWhile_not isBlank cs
      simpa [goes] using start
    rw [goes] at parts
    subst parts
    cases outcome : Lexeme.first separator (position + blanks.length) c rest with
    | error error => exact .refused blank visible outcome
    | ok lexeme =>
        obtain ⟨notFinish, tail, chars, rfl⟩ := Lexeme.first_taken outcome
        have step := @Step.token separator position blanks lexeme.rest
          ⟨lexeme.kind, String.ofList lexeme.chars, position + blanks.length⟩ blank notFinish
          (by simp [chars]) rfl
        simpa [chars, Token.stop, Except.map, Nat.add_comm 1] using step

/-- A text is scanned token by token. -/
theorem scanFrom_eq (separator : Char) (fuel position : Nat) (cs : List Char) :
    Scan.scanFrom separator (fuel + 1) position cs =
      match (Cursor.mk position cs).next separator with
      | .error error => ⟨[], some error⟩
      | .ok (token, cursor) =>
        if token.kind = .finish then ⟨[token], none⟩
        else Scan.cons token (Scan.scanFrom separator fuel cursor.position cursor.rest) := by
  simp only [Scan.scanFrom, next]
  cases cs.dropWhile isBlank with
  | nil => rfl
  | cons c rest =>
      cases outcome : Lexeme.first separator (position + (cs.takeWhile isBlank).length) c rest with
      | error error => simp [outcome, Except.map]
      | ok lexeme => simp [outcome, Except.map, (Lexeme.first_taken outcome).notFinish]

theorem outcome_of_error {cursor : Cursor} {error : CompileError}
    (refused : cursor.next separator = .error error) (steps : Nat) :
    cursor.outcome separator steps = .error error := by
  cases steps <;> rw [outcome, refused] <;> rfl

theorem outcome_of_token {cursor following : Cursor} {token : Token}
    (taken : cursor.next separator = .ok (token, following)) (steps : Nat) :
    cursor.outcome separator steps =
      match steps with
      | 0 => .ok token
      | steps + 1 => following.outcome separator steps := by
  cases steps <;> rw [outcome, taken] <;> rfl

/-- Behind the end of a text there is nothing but its end. -/
theorem outcome_finish (separator : Char) (position steps : Nat) :
    outcome separator steps ⟨position, []⟩ = .ok ⟨.finish, "", position⟩ := by
  induction steps with
  | zero => rfl
  | succ steps ih => exact ih

/-- The last outcome in front of the characters that are left: the end of the text if there are
none, and else why they do not start with a token. -/
inductive Ending (separator : Char) (stop : Nat) :
    List Char → Except CompileError Token → Prop where
  | finish : Ending separator stop [] (.ok ⟨.finish, "", stop⟩)
  | refused {c : Char} {rest : List Char} {error : CompileError} (visible : isBlank c = false)
      (outcome : Lexeme.first separator stop c rest = .error error) :
      Ending separator stop (c :: rest) (.error error)

/-- Some tokens and the last outcome as a scan. -/
def scan (tokens : List Token) : Except CompileError Token → Scan
  | .ok finish => ⟨tokens ++ [finish], none⟩
  | .error error => ⟨tokens, some error⟩

/-- A run of a cursor takes the tokens of a scan, and then its last outcome for good. -/
theorem exists_run (separator : Char) (cursor : Cursor) {fuel : Nat}
    (enough : cursor.rest.length < fuel) :
    ∃ tokens stop left last, Token.Layout cursor.position cursor.rest tokens stop left ∧
      Ending separator stop left last ∧
      (∀ steps, cursor.outcome separator steps = (tokens[steps]?.map .ok).getD last) ∧
      Scan.scanFrom separator fuel cursor.position cursor.rest = scan tokens last := by
  induction fuel generalizing cursor with
  | zero => omega
  | succ fuel ih =>
      have step := next_step separator cursor
      have scanned := scanFrom_eq separator fuel cursor.position cursor.rest
      generalize next_eq : cursor.next separator = result at step scanned
      cases step with
      | @finish position blanks blank =>
          have layout := @Token.Layout.nil position blanks [] blank
          rw [List.append_nil] at layout
          refine ⟨[], _, [], _, layout, .finish, fun steps => ?_, scanned⟩
          rw [outcome_of_token next_eq]
          cases steps with
          | zero => rfl
          | succ steps => exact outcome_finish ..
      | @token position blanks rest token blank notFinish nonempty starts =>
          have shorter : rest.length < fuel := by
            have width : token.text.length ≠ 0 :=
              fun none => nonempty (String.length_eq_zero_iff.mp none)
            simp only [List.length_append, String.length_toList] at enough
            omega
          obtain ⟨tokens, stop, left, last, layout, ending, run, scanned_rest⟩ :=
            ih ⟨token.stop, rest⟩ shorter
          refine ⟨token :: tokens, stop, left, last, .cons blank notFinish nonempty starts layout,
            ending, fun steps => ?_, ?_⟩
          · rw [outcome_of_token next_eq]
            cases steps with
            | zero => rfl
            | succ steps => exact run steps
          · simp only at scanned scanned_rest ⊢
            rw [scanned, if_neg notFinish, scanned_rest]
            cases last with
            | error error => rfl
            | ok finish => rfl
      | @refused position blanks rest c error blank visible outcome =>
          exact ⟨[], _, c :: rest, .error error, .nil blank, .refused visible outcome,
            outcome_of_error next_eq, scanned⟩

/-- Asked for one token after another, a text gives tokens that cover it but for blanks, and then
for good either its end or an error, which is about characters that are no token. -/
theorem ofText_partition (text : String) (separator : Char) :
    ∃ tokens stop last, Token.Partition text.toList tokens stop ∧
      (∀ steps, (ofText text).outcome separator steps = (tokens[steps]?.map .ok).getD last) ∧
      ((last = .ok ⟨.finish, "", text.length⟩ ∧ stop = text.length ∧
          Scan.ofText text separator = ⟨tokens ++ [⟨.finish, "", text.length⟩], none⟩) ∨
        ∃ c rest error, text.toList.drop stop = c :: rest ∧ isBlank c = false ∧
          Lexeme.first separator stop c rest = .error error ∧ last = .error error ∧
          Scan.ofText text separator = ⟨tokens, some error⟩) := by
  obtain ⟨tokens, stop, left, last, layout, ending, run, scanned⟩ :=
    exists_run separator (ofText text) (Nat.lt_succ_self _)
  refine ⟨tokens, stop, last, layout.partition, run, ?_⟩
  have total := layout.stop_add_length
  simp only [ofText, String.length_toList] at total
  cases ending with
  | finish =>
      obtain rfl : stop = text.length := by simpa using total
      exact .inl ⟨rfl, rfl, scanned⟩
  | @refused c rest error visible outcome =>
      refine .inr ⟨c, rest, error, ?_, visible, outcome, rfl, scanned⟩
      rw [List.suffix_iff_eq_drop.mp layout.left_suffix, ofText, String.length_toList]
      congr 1
      omega

/-- The tokens of a text are inside of it, and so is what makes the scan fail. -/
theorem ofText_inside (text : String) (separator : Char) :
    (∀ token ∈ (Scan.ofText text separator).tokens, token.stop ≤ text.length) ∧
      ∀ error ∈ (Scan.ofText text separator).failure, error.position ≤ text.length := by
  obtain ⟨tokens, stop, left, last, layout, ending, -, scanned⟩ :=
    exists_run separator (ofText text) (Nat.lt_succ_self _)
  have total := layout.stop_add_length
  simp only [ofText, String.length_toList, Nat.zero_add] at total
  have inside : ∀ token ∈ tokens, token.stop ≤ text.length := by
    intro token member
    exact (layout.bounds token member).2.trans (by omega)
  have scan_eq : Scan.ofText text separator = scan tokens last := scanned
  rw [scan_eq]
  cases ending with
  | finish =>
      have reached : stop ≤ text.length := by omega
      refine ⟨List.forall_mem_append.mpr ⟨inside, ?_⟩, by simp [scan]⟩
      simpa [Token.stop] using reached
  | refused visible outcome =>
      have bound := Lexeme.first_error outcome
      refine ⟨inside, ?_⟩
      simp only [scan, Option.mem_some_iff, forall_eq']
      omega

end Cursor

end QueryTree
