import QueryTree.Proofs.Nesting.Text

/-!
# Pairings of compiles

Two compiles whose texts differ in the words for one element.  A pairing says which words these are,
where they stand and in which scopes they mean the same, and which states of the two compiles belong
together.  As long as both compiles meet the words only in these scopes, they go on side by side.
-/

namespace QueryTree

/-- Whether the word behind a token may be the name of an element: a member, the name of a part of a
construction and the name of a type may not. -/
def Environment.Introduces (env : Environment) (token : Token) : Prop :=
  token.kind ≠ .dot ∧ token.isWord "as" = false ∧
    (token.kind = .identifier → (env.keyword? token.text).all fun k => !k matches .new)

/-- Whether a word means an element in a scope: it is the word for the current element, or a name of
the element. -/
def CompileContext.Denotes (ctx : CompileContext) (frame : ScopeFrame) (names : ElementNames)
    (text : String) (p : Parameter) : Prop :=
  ctx.visibleKeyword? frame text = some (.context .it) ∧ frame.it = some p ∨
    ctx.visibleKeyword? frame text = none ∧
      ctx.symbol? names (ctx.env.options.fold text) = some (.parameter p)

/-- A condition on the scopes and the number of the next parameter that a compile keeps while it
goes on, and when it enters the scope of a call. -/
structure Persists (fresh : ScopeStack → Nat → Prop) : Prop where
  later : ∀ {stack number number'}, fresh stack number → number ≤ number' → fresh stack number'
  enter : ∀ {stack number}, fresh stack number → ∀ (operation : Aggregate) name type,
    fresh (stack.push (operation.argumentScope stack.current ⟨number, name, type⟩)) (number + 1)

/-- What belongs together in two compiles in one context. -/
structure Pairing (ctx : CompileContext) where
  /-- The words that stand for each other in the two texts. -/
  swaps : Token → Token → Prop
  /-- The places of these words, by the number of tokens behind them. -/
  marks : Nat → Prop
  /-- The folded names that may stand for something else in the other compile. -/
  keys : String → Prop
  /-- The places where these names may stand. -/
  walls : Nat → Prop
  /-- The scopes in which the words mean the same. -/
  outer : ScopeFrame → Prop
  /-- What the two compiles see in a scope by their element names. -/
  agrees : ScopeFrame → ElementNames → ElementNames → Prop
  /-- What is kept of the scopes and the number of the next parameter. -/
  fresh : ScopeStack → Nat → Prop
  placed : Nat → Nat → Prop
  failing : CompileError → CompileError → Prop
  /-- Whether the second compile may go on where the first one fails. -/
  lenient : Prop
  placed_refl : ∀ position, placed position position
  placed_add : ∀ {position position'}, placed position position' → ∀ offset,
    placed (position + offset) (position' + offset)
  placed_of_failing : ∀ {error error'}, failing error error' → placed error.position error'.position
  swaps_placed : ∀ {token token'}, swaps token token' → placed token.position token'.position
  swaps_kind : ∀ {token token'}, swaps token token' →
    token.kind = .identifier ∧ token'.kind = .identifier
  swaps_word : ∀ {token token'}, swaps token token' → ∀ word ∈ ["in", "as"],
    token.isWord word = token'.isWord word
  swaps_denote : ∀ {token token' frame names names'}, swaps token token' → outer frame →
    agrees frame names names' →
      ∃ p, ctx.Denotes frame names token.text p ∧ ctx.Denotes frame names' token'.text p
  lenient_or_clear : lenient ∨ ∀ place, ¬ marks place ∧ ¬ walls place
  agrees_off : ∀ {frame names names'}, agrees frame names names' → ∀ key, ¬ keys key →
    names.lookup key = names'.lookup key
  agrees_set : ∀ {frame names names'}, agrees frame names names' → ∀ key element,
    frame.it = some element →
      agrees frame (names.set key (some element)) (names'.set key (some element))
  agrees_enter : ∀ {stack names names' number}, agrees stack.current names names' →
    fresh stack number → ∀ (operation : Aggregate) name type,
      agrees (operation.argumentScope stack.current ⟨number, name, type⟩) names names'
  persists : Persists fresh

namespace Pairing

variable {ctx : CompileContext} (w : Pairing ctx)

/-- Two tokens that are equal but for their positions. -/
structure Same (token token' : Token) : Prop where
  kind : token.kind = token'.kind
  text : token.text = token'.text
  position : w.placed token.position token'.position

/-- Two tokens that may stand at one place. -/
structure Paired (token token' : Token) : Prop where
  kind : token.kind = token'.kind
  text : token.text = token'.text ∨ w.swaps token token'
  position : w.placed token.position token'.position

/-- Two tokens that stand at one place: words for the element, or equal ones that only behind a wall
may be a name for something else. -/
inductive Stand (place : Nat) (token token' : Token) : Prop where
  | same (same : w.Same token token')
      (walled : token.kind = .identifier → w.keys (ctx.env.options.fold token.text) → w.walls place)
  | swapped (swaps : w.swaps token token') (marked : w.marks place)

/-- The tokens behind two that stand at one place. -/
inductive Ahead : Token → List Token → List Token → Prop where
  | nil {token : Token} : Ahead token [] []
  | cons {token next next' : Token} {rest rest' : List Token}
      (stand : w.Stand rest.length next next')
      (introduced : w.Same next next' ∨ ctx.env.Introduces token)
      (ahead : Ahead next rest rest') : Ahead token (next :: rest) (next' :: rest')

/-- Two states that belong together in some scopes and with some element names. -/
structure Twins (stack : ScopeStack) (names names' : ElementNames) (session session' : Session) :
    Prop where
  current : w.Stand session.rest.length session.current session'.current
  ahead : w.Ahead session.current session.rest session'.rest
  failure : Option.Rel w.failing session.failure session'.failure
  scopes : session.scopes = stack
  scopes' : session'.scopes = stack
  internals : session.internals = names
  internals' : session'.internals = names'
  store : session'.store = session.store
  agrees : w.agrees stack.current names names'
  fresh : w.fresh stack session.store.nextParameter
  endsWell : session.EndsWell

/-- None of some places is passed from one place to another, where a place is passed even if it is
the first or the last one. -/
def Unpassed (holds : Nat → Prop) (start stop : Nat) : Prop :=
  ∀ place, holds place → place ≤ start → place < stop

theorem Unpassed.split {holds : Nat → Prop} {start middle stop : Nat}
    (unpassed : Unpassed holds start stop) (first : stop ≤ middle) (second : middle ≤ start) :
    Unpassed holds start middle ∧ Unpassed holds middle stop :=
  ⟨fun place isPlace bound => Nat.lt_of_lt_of_le (unpassed place isPlace bound) first,
    fun place isPlace bound => unpassed place isPlace (Nat.le_trans bound second)⟩

/-- What a step may be asked for, by the places where it starts and ends: it can be asked for the
parts of a step, and for everything where the second compile has to go along with the first one. -/
structure Demand where
  meets : Nat → Nat → Prop
  split : ∀ {start middle stop}, meets start stop → stop ≤ middle → middle ≤ start →
    meets start middle ∧ meets middle stop
  unwalled : ∀ {start stop}, meets start stop → Unpassed w.walls start stop
  lenient_or_meets : w.lenient ∨ ∀ start stop, meets start stop

/-- No wall is met. -/
def Demand.free : w.Demand where
  meets := Unpassed w.walls
  split := Unpassed.split
  unwalled := id
  lenient_or_meets := w.lenient_or_clear.imp_right fun clear _ _ place isWall =>
    absurd isWall (clear place).2

/-- No wall is met, and no word for the element where it does not mean the same. -/
def Demand.guarded (frame : ScopeFrame) : w.Demand where
  meets start stop := Unpassed w.walls start stop ∧ (w.outer frame ∨ Unpassed w.marks start stop)
  split demand first second := by
    obtain ⟨unwalled, unmarked⟩ := demand
    have walls := unwalled.split first second
    obtain isOuter | unmarked := unmarked
    · exact ⟨⟨walls.1, .inl isOuter⟩, walls.2, .inl isOuter⟩
    · have marks := unmarked.split first second
      exact ⟨⟨walls.1, .inr marks.1⟩, walls.2, .inr marks.2⟩
  unwalled := And.left
  lenient_or_meets := w.lenient_or_clear.imp_right fun clear _ _ =>
    ⟨fun place isWall => absurd isWall (clear place).2,
      .inr fun place isMarked => absurd isMarked (clear place).1⟩

end Pairing

end QueryTree
