import Mathlib.Data.List.Forall2
import QueryTree.Compile.Session
import QueryTree.Proofs.Outcome
import QueryTree.Token.Escape

/-!
# Steps over two spellings of one text

Tokens that are spelled differently but mean the same, and the steps of a compile that go over both
of them at once.
-/

/-!
## Outcomes of two texts

Two outcomes are alike if both are values or both are errors.  What is known of the positions of two
texts is a parameter: with nothing known of them the outcomes differ in no more than the error, and
with a bound on both the errors are bounded.
-/

namespace QueryTree

/-- The positions of two stretches of one length are related one by one. -/
def Aligned (placed : Nat → Nat → Prop) (start start' length : Nat) : Prop :=
  ∀ offset ≤ length, placed (start + offset) (start' + offset)

namespace Aligned

variable {placed : Nat → Nat → Prop} {start start' length : Nat}

theorem first (aligned : Aligned placed start start' length) : placed start start' :=
  aligned 0 (Nat.zero_le _)

theorem drop (passed : Nat) (aligned : Aligned placed start start' (length + passed)) :
    Aligned placed (start + passed) (start' + passed) length := by
  intro offset bound
  have inside := aligned (passed + offset) (by omega)
  rwa [← Nat.add_assoc, ← Nat.add_assoc] at inside

end Aligned

/-- Values that are related, or errors at positions that are related. -/
inductive Outcome.Alike {α : Type} (placed : Nat → Nat → Prop) (holds : α → α → Prop) :
    Except CompileError α → Except CompileError α → Prop where
  | ok {a a' : α} (related : holds a a') : Alike placed holds (.ok a) (.ok a')
  | error {error error' : CompileError} (related : placed error.position error'.position) :
      Alike placed holds (.error error) (.error error')

namespace Outcome.Alike

variable {α β : Type} {placed : Nat → Nat → Prop} {holds : α → α → Prop}
  {outcome outcome' : Except CompileError α}

theorem bind {result : β → β → Prop} {next next' : α → Except CompileError β}
    (first : Alike placed holds outcome outcome')
    (second : ∀ a a', holds a a' → Alike placed result (next a) (next' a')) :
    Alike placed result (outcome >>= next) (outcome' >>= next') := by
  cases first with
  | ok related => exact second _ _ related
  | error related => exact .error related

/-- Equal values stay equal, whatever is made of them. -/
theorem map_eq {f : α → β} (first : Alike placed Eq outcome outcome') :
    Alike placed Eq (outcome.map f) (outcome'.map f) := by
  cases first with
  | ok same => exact .ok (congrArg f same)
  | error related => exact .error related

theorem of_ok {a : α} (alike : Alike placed holds (.ok a) outcome') :
    ∃ a', outcome' = .ok a' ∧ holds a a' := by
  cases alike with
  | ok related => exact ⟨_, rfl, related⟩

theorem of_error {error : CompileError} (alike : Alike placed holds (.error error) outcome') :
    ∃ error', outcome' = .error error' ∧ placed error.position error'.position := by
  cases alike with
  | error related => exact ⟨_, rfl, related⟩

theorem toOption_eq (alike : Alike placed Eq outcome outcome') :
    outcome.toOption = outcome'.toOption := by
  cases alike with
  | ok same => rw [same]
  | error => rfl

end Outcome.Alike

namespace Escape

open Outcome (Alike)

variable {placed : Nat → Nat → Prop} {delimiter : Char} {start start' here here' : Nat}
  {cs raw decoded : List Char} {error : CompileError}

/-- A character that is no delimiter and starts no escape stands for itself. -/
theorem decodeFrom_plain {c : Char} {rest : List Char} (plain : c ≠ '\\') (other : c ≠ delimiter) :
    decodeFrom delimiter start here (c :: rest) =
      (decodeFrom delimiter start (here + 1) rest).map (c :: ·) := by
  cases rest <;> simp [decodeFrom, plain, other]

/-- What is between delimiters stands for the same characters wherever it stands. -/
theorem decodeFrom_alike (starts : placed start start')
    (aligned : Aligned placed here here' cs.length) :
    Alike placed Eq (decodeFrom delimiter start here cs)
      (decodeFrom delimiter start' here' cs) := by
  fun_induction decodeFrom delimiter start here cs generalizing here'
  case case1 => exact .ok rfl
  case case2 => exact .error starts
  case case3 isCoded ih =>
    simp only [decodeFrom, isCoded]
    exact (ih (aligned.drop 6)).map_eq
  case case4 notCoded =>
    simp only [decodeFrom, notCoded]
    exact .error aligned.first
  case case5 rest _ short =>
    match rest with
    | [] | [_] | [_, _] | [_, _, _] => exact .error aligned.first
    | a :: b :: c :: d :: rest => exact (short a b c d rest rfl).elim
  case case6 isNamed ih =>
    simp only [decodeFrom, isNamed]
    exact (ih (aligned.drop 2)).map_eq
  case case7 notNamed =>
    simp only [decodeFrom, notNamed]
    exact .error aligned.first
  case case8 =>
    have same : decodeFrom delimiter start' here' [delimiter] = .ok [delimiter] := by
      simp [decodeFrom]
    rw [same]
    exact .ok rfl
  case case9 d rest _ _ _ ih =>
    have same : decodeFrom delimiter start' here' (delimiter :: d :: rest) =
        (decodeFrom delimiter start' (here' + 2) rest).map (delimiter :: ·) := by
      simp [decodeFrom]
    rw [same]
    exact (ih (aligned.drop 2)).map_eq
  case case10 c rest notLast _ notEscape other ih =>
    have plain : c ≠ '\\' := by
      intro isEscape
      cases rest with
      | nil => exact notLast isEscape rfl
      | cons d rest => exact notEscape d rest isEscape rfl
    rw [decodeFrom_plain plain other]
    exact (ih (aligned.drop 1)).map_eq

/-- A literal stands for the same characters wherever it stands. -/
theorem decode_alike (aligned : Aligned placed start start' raw.length) :
    Alike placed Eq (decode start raw) (decode start' raw) := by
  unfold decode
  split
  next delimiter second rest =>
    refine decodeFrom_alike aligned.first fun offset bound => ?_
    rw [List.length_dropLast] at bound
    have inside : Aligned placed (start + 1) (start' + 1) (second :: rest).length := aligned.drop 1
    exact inside offset (by omega)
  next => exact .error aligned.first

theorem decode_moved (outcome : decode start raw = .ok decoded) :
    decode start' raw = .ok decoded := by
  have anywhere : Aligned (fun _ _ => True) start start' raw.length := fun _ _ => trivial
  have alike := decode_alike anywhere
  obtain ⟨_, same, rfl⟩ := (outcome ▸ alike).of_ok
  exact same

/-- What cannot be decoded is found inside of the literal. -/
theorem decode_error (outcome : decode start raw = .error error) :
    error.position ≤ start + raw.length := by
  have inside : Aligned (fun position _ => position ≤ start + raw.length) start start raw.length :=
    fun offset bound => Nat.add_le_add_left bound start
  have alike := decode_alike inside
  obtain ⟨_, -, bounded⟩ := (outcome ▸ alike).of_error
  exact bounded

end Escape

end QueryTree

namespace QueryTree

namespace TokenKind

/-- The class of a token with one class for both ways to write an equality, and one for both ways to
write an inequality. -/
def normal : TokenKind → TokenKind
  | equal => doubleEqual
  | lessGreater => exclamationEqual
  | kind => kind

/-- Whether the text of a token of a class counts. -/
def keepsText : TokenKind → Bool
  | identifier | stringLiteral | integerLiteral | realLiteral => true
  | _ => false

/-- Whether a class is the only one of its meaning. -/
def isPlain : TokenKind → Bool
  | equal | doubleEqual | lessGreater | exclamationEqual => false
  | _ => true

/-- Two classes of one meaning are the same, or the two ways to write an equality or an
inequality. -/
theorem normal_cases {motive : ∀ kind kind' : TokenKind, kind.normal = kind'.normal → Prop}
    (same : ∀ kind, motive kind kind rfl) (equality : motive .equal .doubleEqual rfl)
    (equality' : motive .doubleEqual .equal rfl)
    (inequality : motive .lessGreater .exclamationEqual rfl)
    (inequality' : motive .exclamationEqual .lessGreater rfl) (kind kind' : TokenKind)
    (normal : kind.normal = kind'.normal) : motive kind kind' normal := by
  have fixed (kind : TokenKind) : kind = .equal ∨ kind = .lessGreater ∨ kind.normal = kind := by
    cases kind with
    | equal => exact .inl rfl
    | lessGreater => exact .inr (.inl rfl)
    | _ => exact .inr (.inr rfl)
  obtain rfl | rfl | isNormal := fixed kind <;> obtain rfl | rfl | isNormal' := fixed kind'
  · exact same _
  · cases normal
  · obtain rfl := normal.trans isNormal'
    exact equality
  · cases normal
  · exact same _
  · obtain rfl := normal.trans isNormal'
    exact inequality
  · obtain rfl := normal.symm.trans isNormal
    exact equality'
  · obtain rfl := normal.symm.trans isNormal
    exact inequality'
  · obtain rfl := isNormal.symm.trans (normal.trans isNormal')
    exact same _

/-- What is the same for both ways to write an equality, and for both ways to write an inequality,
depends on the meaning of a class only. -/
theorem congr_of_normal_eq {β : Type} {kind kind' : TokenKind} (normal : kind.normal = kind'.normal)
    (f : TokenKind → β) (equality : f .equal = f .doubleEqual)
    (inequality : f .lessGreater = f .exclamationEqual) : f kind = f kind' := by
  induction kind, kind', normal using normal_cases with
  | same => rfl
  | equality => exact equality
  | equality' => exact equality.symm
  | inequality => exact inequality
  | inequality' => exact inequality.symm

theorem beq_congr {kind kind' expected : TokenKind} (same : kind.normal = kind'.normal)
    (plain : expected.isPlain = true) : (kind == expected) = (kind' == expected) := by
  have other {k : TokenKind} (notPlain : k.isPlain = false) : (k == expected) = false := by
    rw [beq_eq_false_iff_ne]
    rintro rfl
    simp [plain] at notPlain
  refine congr_of_normal_eq same (· == expected) ?_ ?_
  · rw [other rfl, other rfl]
  · rw [other rfl, other rfl]

end TokenKind

/-- Two tokens that mean the same: they are of one class, and of one text where the text counts. -/
structure Token.Equivalent (token token' : Token) : Prop where
  kind : token.kind.normal = token'.kind.normal
  text : token.kind.keepsText = true → token.text = token'.text

/-- Two tokens that mean the same at positions that are related, and so are the positions inside of
a string literal. -/
structure Token.Alike (placed : Nat → Nat → Prop) (token token' : Token) : Prop
    extends Token.Equivalent token token' where
  position : placed token.position token'.position
  aligned : token.kind = .stringLiteral →
    Aligned placed token.position token'.position token.text.length

/-- Two states that differ in the spelling of what is left of the text. -/
structure Session.Alike (placed : Nat → Nat → Prop) (session session' : Session) : Prop where
  current : session.current.Alike placed session'.current
  rest : List.Forall₂ (Token.Alike placed) session.rest session'.rest
  failure : Option.Rel (fun error error' => placed error.position error'.position)
    session.failure session'.failure
  scopes : session.scopes = session'.scopes
  internals : session.internals = session'.internals
  store : session.store = session'.store

variable {placed : Nat → Nat → Prop}

theorem Token.Equivalent.beq_congr {token token' : Token} {kind : TokenKind}
    (same : token.Equivalent token') (plain : kind.isPlain = true) :
    (token.kind == kind) = (token'.kind == kind) :=
  TokenKind.beq_congr same.kind plain

theorem Token.Equivalent.kind_eq_iff {token token' : Token} (same : token.Equivalent token')
    (kind : TokenKind) (plain : kind.isPlain = true) :
    token.kind = kind ↔ token'.kind = kind := by
  rw [← beq_iff_eq, same.beq_congr plain, beq_iff_eq]

theorem Token.Equivalent.isWord_eq {token token' : Token} (same : token.Equivalent token')
    (word : String) : token.isWord word = token'.isWord word := by
  rw [Token.isWord, Token.isWord, ← same.beq_congr rfl]
  cases isIdentifier : token.kind == .identifier with
  | false => rw [Bool.false_and, Bool.false_and]
  | true => rw [same.text (by rw [beq_iff_eq.mp isIdentifier]; rfl)]

namespace Parse

/-- Two results that are alike: both steps succeed with values that are related, or both fail. -/
inductive Ends {α : Type} (placed : Nat → Nat → Prop) (holds : α → α → Prop) :
    EStateM.Result CompileError Session α → EStateM.Result CompileError Session α → Prop where
  | ok {a a' : α} {session session' : Session} (related : holds a a')
      (alike : session.Alike placed session') : Ends placed holds (.ok a session) (.ok a' session')
  | error {error error' : CompileError} {session session' : Session}
      (related : placed error.position error'.position) (alike : session.Alike placed session') :
      Ends placed holds (.error error session) (.error error' session')

/-- From states that are alike, with a current token of one of some classes, two steps end alike. -/
def Alike {α : Type} (placed : Nat → Nat → Prop) (kinds : TokenKind → Prop) (step step' : Parse α)
    (holds : α → α → Prop) : Prop :=
  ∀ session session', session.Alike placed session' → kinds session.current.kind →
    Ends placed holds (step session) (step' session')

/-- A step that makes the same of both spellings. -/
def Steady {α : Type} (placed : Nat → Nat → Prop) (step : Parse α) : Prop :=
  ∀ kinds, Alike placed kinds step step Eq

namespace Alike

variable {α β : Type} {kinds : TokenKind → Prop} {step step' : Parse α} {holds : α → α → Prop}

section Composition

theorem pure {a a' : α} (related : holds a a') :
    Alike placed kinds (Pure.pure a) (Pure.pure a') holds :=
  fun _ _ alike _ => .ok related alike

theorem bindRel {next next' : α → Parse β} {result : β → β → Prop}
    (first : Alike placed kinds step step' holds)
    (second : ∀ a a', holds a a' → Alike placed (fun _ => True) (next a) (next' a') result) :
    Alike placed kinds (step >>= next) (step' >>= next') result := by
  intro session session' alike start
  change Ends placed result (EStateM.bind step next session) (EStateM.bind step' next' session')
  have ends := first session session' alike start
  rw [EStateM.bind, EStateM.bind]
  generalize step session = outcome at ends
  generalize step' session' = outcome' at ends
  cases ends with
  | ok related alike => exact second _ _ related _ _ alike trivial
  | error related alike => exact .error related alike

theorem bind {next next' : α → Parse β} {result : β → β → Prop}
    (first : Alike placed kinds step step' Eq)
    (second : ∀ a, Alike placed (fun _ => True) (next a) (next' a) result) :
    Alike placed kinds (step >>= next) (step' >>= next') result := by
  refine bindRel first ?_
  rintro a _ rfl
  exact second a

theorem imp {stronger : TokenKind → Prop} (steps : Alike placed kinds step step' holds)
    (implies : ∀ kind, stronger kind → kinds kind) : Alike placed stronger step step' holds :=
  fun session session' alike start => steps session session' alike (implies _ start)

theorem failAt {position position' : Nat} {fault fault' : CompileFault}
    (related : placed position position') :
    Alike placed kinds (Parse.failAt position fault) (Parse.failAt position' fault') holds :=
  fun _ _ alike _ => .error related alike

theorem lift {outcome outcome' : Except CompileError α}
    (outcomes : Outcome.Alike placed holds outcome outcome') :
    Alike placed kinds (Parse.lift outcome) (Parse.lift outcome') holds := by
  cases outcomes with
  | ok related => exact pure related
  | error related => exact fun _ _ alike _ => .error related alike

end Composition

/-! A step that looks at the state leaves the current token where it is. -/

section Looking

theorem get {next next' : Session → Parse α}
    (second : ∀ session session' : Session, session.Alike placed session' →
      kinds session.current.kind →
        Alike placed (· = session.current.kind) (next session) (next' session') holds) :
    Alike placed kinds (MonadState.get >>= next) (MonadState.get >>= next') holds :=
  fun session session' alike start =>
    second session session' alike start session session' alike rfl

theorem current {next next' : Token → Parse α}
    (second : ∀ token token' : Token, token.Alike placed token' → kinds token.kind →
      Alike placed (· = token.kind) (next token) (next' token') holds) :
    Alike placed kinds (Parse.current >>= next) (Parse.current >>= next') holds :=
  get fun _ _ alike start => second _ _ alike.current start

theorem position {next next' : Nat → Parse α}
    (second : ∀ position position', placed position position' →
      Alike placed kinds (next position) (next' position') holds) :
    Alike placed kinds (Parse.position >>= next) (Parse.position >>= next') holds :=
  current fun _ _ alike start =>
    (second _ _ alike.position).imp fun _ same => same ▸ start

theorem check {kind : TokenKind} (plain : kind.isPlain = true) {next next' : Bool → Parse α}
    (second : ∀ found, Alike placed (fun current => kinds current ∧ (current == kind) = found)
      (next found) (next' found) holds) :
    Alike placed kinds (Parse.check kind >>= next) (Parse.check kind >>= next') holds := by
  change Alike placed kinds (Parse.current >>= fun token => next (token.kind == kind))
    (Parse.current >>= fun token => next' (token.kind == kind)) holds
  refine current fun token token' alike start => ?_
  rw [← alike.beq_congr plain]
  exact (second _).imp fun _ same => ⟨same ▸ start, same ▸ rfl⟩

theorem checkWord {word : String} {next next' : Bool → Parse α}
    (second : ∀ found, Alike placed kinds (next found) (next' found) holds) :
    Alike placed kinds (Parse.checkWord word >>= next) (Parse.checkWord word >>= next') holds := by
  change Alike placed kinds (Parse.current >>= fun token => next (token.isWord word))
    (Parse.current >>= fun token => next' (token.isWord word)) holds
  refine current fun token token' alike start => ?_
  rw [← alike.isWord_eq]
  exact (second _).imp fun _ same => same ▸ start

theorem tokensLeft {next next' : Nat → Parse α}
    (second : ∀ fuel, Alike placed kinds (next fuel) (next' fuel) holds) :
    Alike placed kinds (Parse.tokensLeft >>= next) (Parse.tokensLeft >>= next') holds := by
  refine get fun session session' alike start => ?_
  rw [← alike.rest.length_eq]
  exact (second _).imp fun _ same => same ▸ start

theorem scope {next next' : ScopeFrame → Parse α}
    (second : ∀ frame, Alike placed kinds (next frame) (next' frame) holds) :
    Alike placed kinds (Parse.scope >>= next) (Parse.scope >>= next') holds := by
  refine get fun session session' alike start => ?_
  rw [← alike.scopes]
  exact (second _).imp fun _ same => same ▸ start

theorem failHere {fault fault' : CompileFault} :
    Alike placed kinds (Parse.failHere fault : Parse α) (Parse.failHere fault') holds :=
  position fun _ _ related => failAt related

/-- Behind the check for a class the current token is of this class. -/
theorem validate {kind : TokenKind} {fault : CompileFault} (plain : kind.isPlain = true)
    {next next' : Parse α} (second : Alike placed (· = kind) next next' holds) :
    Alike placed kinds (Parse.validate kind fault >>= fun _ => next)
      (Parse.validate kind fault >>= fun _ => next') holds := by
  let reached (found : Bool) : Parse Unit := if found then Pure.pure () else Parse.failHere fault
  change Alike placed kinds (Parse.check kind >>= fun found => reached found >>= fun _ => next)
    (Parse.check kind >>= fun found => reached found >>= fun _ => next') holds
  refine check plain fun found => ?_
  cases found with
  | true => exact second.imp fun _ start => beq_iff_eq.mp start.2
  | false => exact @failHere placed α _ holds fault fault

end Looking

end Alike

section Moving

variable {α : Type} {step : Parse α}

theorem steady_advance : Steady placed Parse.advance := by
  rintro kinds ⟨current, rest, failure, _, _, _⟩ ⟨current', rest', failure', _, _, _⟩
    ⟨currents, rests, failures, rfl, rfl, rfl⟩ -
  simp only at currents rests failures
  cases rests with
  | cons first rests => exact .ok rfl ⟨first, rests, failures, rfl, rfl, rfl⟩
  | nil =>
      cases failures with
      | some related => exact .error related ⟨currents, .nil, .some related, rfl, rfl, rfl⟩
      | none => exact .ok rfl ⟨currents, .nil, .none, rfl, rfl, rfl⟩

theorem steady_validate {kind : TokenKind} {fault : CompileFault} (plain : kind.isPlain = true) :
    Steady placed (Parse.validate kind fault) := by
  intro kinds
  refine .check plain fun found => ?_
  cases found with
  | true => exact .pure rfl
  | false => exact .failHere

theorem steady_expect {kind : TokenKind} {fault : CompileFault} (plain : kind.isPlain = true) :
    Steady placed (Parse.expect kind fault) :=
  fun kinds => (steady_validate plain kinds).bind fun _ => steady_advance _

/-- An identifier spells the same name in both texts. -/
theorem steady_identifier : Steady placed Parse.identifier := by
  intro kinds
  refine .validate rfl (.current fun token token' alike isIdentifier => ?_)
  rw [alike.text (by rw [isIdentifier]; rfl)]
  exact .pure rfl

theorem steady_newParameter {name : String} {type : Ty} :
    Steady placed (Parse.newParameter name type) := by
  rintro kinds ⟨_, _, _, _, _, store⟩ ⟨_, _, _, _, _, store'⟩
    ⟨currents, rests, failures, scopes, internals, same⟩ -
  obtain rfl : store = store' := same
  exact .ok rfl ⟨currents, rests, failures, scopes, internals, rfl⟩

theorem steady_recordType {names : List String} {types : List Ty} :
    Steady placed (Parse.recordType names types) := by
  rintro kinds ⟨_, _, _, _, _, store⟩ ⟨_, _, _, _, _, store'⟩
    ⟨currents, rests, failures, scopes, internals, same⟩ -
  obtain rfl : store = store' := same
  exact .ok rfl ⟨currents, rests, failures, scopes, internals, rfl⟩

theorem Steady.withScope {frame : ScopeFrame} (steady : Steady placed step) :
    Steady placed (Parse.withScope frame step) := by
  intro kinds session session' alike start
  have ends := steady kinds { session with scopes := session.scopes.push frame }
    { session' with scopes := session'.scopes.push frame }
    { alike with scopes := congrArg (·.push frame) alike.scopes } start
  unfold Parse.withScope
  generalize step { session with scopes := session.scopes.push frame } = outcome at ends
  generalize step { session' with scopes := session'.scopes.push frame } = outcome' at ends
  cases ends with
  | ok same after => exact .ok same { after with scopes := congrArg (·.pop) after.scopes }
  | error related after =>
      exact .error related { after with scopes := congrArg (·.pop) after.scopes }

theorem Steady.withInternal {key : String} {element : Parameter} (steady : Steady placed step) :
    Steady placed (Parse.withInternal key element step) := by
  intro kinds session session' alike start
  have before := alike.internals
  have ends := steady kinds
    { session with internals := session.internals.set key (some element) }
    { session' with internals := session'.internals.set key (some element) }
    { alike with internals := congrArg (·.set key (some element)) before } start
  unfold Parse.withInternal
  simp only
  generalize step
    { session with internals := session.internals.set key (some element) } = outcome at ends
  generalize step
    { session' with internals := session'.internals.set key (some element) } = outcome' at ends
  rw [before]
  cases ends with
  | ok same after =>
      exact .ok same { after with internals := congrArg (ElementNames.set · key _) after.internals }
  | error related after =>
      exact .error related
        { after with internals := congrArg (ElementNames.set · key _) after.internals }

theorem Steady.commaListFrom (steady : Steady placed step) (fuel : Nat) :
    Steady placed (Parse.commaList.go step fuel) := by
  induction fuel with
  | zero => exact fun kinds => .pure rfl
  | succ fuel ih =>
      intro kinds
      refine .check rfl fun more => ?_
      cases more with
      | false => exact .pure rfl
      | true =>
          refine (steady_advance _).bind fun _ => (steady _).bind fun _ => (ih _).bind fun _ => ?_
          exact .pure rfl

theorem Steady.commaList (steady : Steady placed step) : Steady placed (Parse.commaList step) := by
  intro kinds
  refine (steady _).bind fun _ => .tokensLeft fun fuel => ?_
  exact (steady.commaListFrom (fuel + 1) _).bind fun _ => .pure rfl

theorem Steady.argumentList {expression : Parse Expr} (steady : Steady placed expression) :
    Steady placed (Parse.argumentList expression) := by
  have close (args : List Expr) : Steady placed
      (do Parse.expect .closeParen (.expected .closeParenOrComma); return args) :=
    fun _ => (steady_expect rfl _).bind fun _ => .pure rfl
  intro kinds
  refine (steady_expect rfl _).bind fun _ => .check rfl fun closed => ?_
  cases closed with
  | true => exact close [] _
  | false => exact (steady.commaList _).bind fun args => close args _

end Moving

end Parse

end QueryTree
