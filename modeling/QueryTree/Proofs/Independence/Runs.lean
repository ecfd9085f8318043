import QueryTree.Config.Options
import QueryTree.Proofs.Compile.Surroundings
import QueryTree.Proofs.Independence.Members
import QueryTree.Proofs.Independence.Types

/-!
# A compile after a history and without it

The steps of a compile, once on a store with a history and once on a fresh store.  In both runs they
go over the same tokens, succeed or fail together and yield what differs in no more than the numbers
of parameters and record types, as long as no record type of the history stands in for one with
other members.
-/

/-!
## Record types beside a history

The record types that a compile makes on a fresh store and on one with a history.  As long as no
record type of the history stands in for one with other members, the compile is given record types
that differ in no more than their numbers.
-/

namespace QueryTree.RecordTypes

/-- The names and types of the members of a record type. -/
abbrev Shape := List String × List Ty

namespace Shape

/-- Two shapes differ in no more than the numbers of record types. -/
def Alike (s t : Shape) : Prop := s.1 = t.1 ∧ s.2.map Ty.unnumbered = t.2.map Ty.unnumbered

/-- Two shapes for which a configuration has one record type. -/
def Same (s t : Shape) : Prop := s.1 = t.1 ∧ Ty.sameAll s.2 t.2 = true

variable {r s t : Shape}

theorem Alike.symm (alike : s.Alike t) : t.Alike s := ⟨alike.1.symm, alike.2.symm⟩

theorem Same.symm (same : s.Same t) : t.Same s := ⟨same.1.symm, Ty.sameAll_symm same.2⟩

theorem Same.trans (first : r.Same s) (second : s.Same t) : r.Same t :=
  ⟨first.1.trans second.1, Ty.sameAll_trans first.2 second.2⟩

theorem Alike.same (alike : s.Alike t) : s.Same t := by
  refine ⟨alike.1, ?_⟩
  rw [Ty.sameAll_congr alike.2 rfl]
  exact Ty.sameAll_refl t.2

end Shape

/-! ### Lookup -/

variable {names : List String} {types : List Ty}

theorem find?_eq_some {place id : Nat} {shapes : List Shape} {held : List Ty}
    (found : find? names types place shapes = some (id, held)) :
    (names, held) ∈ shapes ∧ Shape.Same (names, held) (names, types) := by
  induction shapes generalizing place with
  | nil => cases found
  | cons shape rest ih =>
      rw [find?] at found
      split at found
      next isShape =>
        obtain ⟨-, rfl⟩ := Prod.mk.inj (Option.some.inj found)
        obtain ⟨isNames, same⟩ := Bool.and_eq_true_iff.mp isShape
        obtain rfl := eq_of_beq isNames
        exact ⟨List.mem_cons_self, rfl, same⟩
      next =>
        obtain ⟨isHeld, same⟩ := ih found
        exact ⟨List.mem_cons_of_mem _ isHeld, same⟩

theorem find?_eq_none {place : Nat} {shapes : List Shape}
    (missing : find? names types place shapes = none) :
    ∀ shape ∈ shapes, ¬ Shape.Same shape (names, types) := by
  induction shapes generalizing place with
  | nil => exact fun _ isShape => absurd isShape List.not_mem_nil
  | cons shape rest ih =>
      rw [find?] at missing
      split at missing
      next => cases missing
      next other =>
        refine List.forall_mem_cons.mpr ⟨fun same => other ?_, ih missing⟩
        rw [same.1, beq_self_eq_true, Bool.true_and]
        exact same.2

/-- A record type is either held already or added with the members that were asked for. -/
theorem intern_cases (records : RecordTypes) (names : List String) (types : List Ty) :
    (∃ id held, records.intern names types = (.record id names held, records)
        ∧ (names, held) ∈ records.shapes ∧ Shape.Same (names, held) (names, types))
      ∨ (∃ id, records.intern names types
          = (.record id names types, ⟨records.shapes ++ [(names, types)]⟩)
        ∧ ∀ shape ∈ records.shapes, ¬ Shape.Same shape (names, types)) := by
  unfold intern
  split
  next id held found =>
    obtain ⟨isHeld, same⟩ := find?_eq_some found
    exact .inl ⟨id, held, rfl, isHeld, same⟩
  next missing => exact .inr ⟨_, rfl, find?_eq_none missing⟩

theorem shapes_prefix_intern (records : RecordTypes) (names : List String) (types : List Ty) :
    records.shapes <+: (records.intern names types).2.shapes := by
  obtain ⟨id, held, outcome, -⟩ | ⟨id, outcome, -⟩ := records.intern_cases names types
  · rw [outcome]
  · rw [outcome]
    exact List.prefix_append _ _

/-! ### Beside a history -/

/-- No record type of a history stands in for one of the records that has other members. -/
def ClearOf (records : RecordTypes) (history : List Shape) : Prop :=
  ∀ held : Shape, held ∈ history → ∀ made : Shape, made ∈ records.shapes → held.Same made →
    held.Alike made

theorem ClearOf.mono {fewer more : RecordTypes} {history : List Shape}
    (clear : more.ClearOf history) (subset : fewer.shapes ⊆ more.shapes) : fewer.ClearOf history :=
  fun held isHeld made isMade => clear held isHeld made (subset isMade)

/-- The records of a compile after a history, and those of the same compile without it. -/
structure Beside (history : List Shape) (after fresh : RecordTypes) : Prop where
  covered : ∀ made : Shape, made ∈ fresh.shapes → ∃ held : Shape, held ∈ after.shapes
    ∧ held.Alike made
  origin : ∀ held : Shape, held ∈ after.shapes → held ∈ history
    ∨ ∃ made : Shape, made ∈ fresh.shapes ∧ held.Alike made
  apart : ∀ made : Shape, made ∈ fresh.shapes → ∀ other : Shape, other ∈ fresh.shapes →
    made.Same other → made = other

namespace Beside

variable {history : List Shape} {after fresh : RecordTypes}

theorem start (history : RecordTypes) : Beside history.shapes history .empty where
  covered _ isMade := absurd isMade List.not_mem_nil
  origin _ isHeld := .inl isHeld
  apart _ isMade := absurd isMade List.not_mem_nil

/-- A shape that is new without the history stays apart from the others; after the history it may be
held already. -/
theorem extend {after' : RecordTypes} {held shape : Shape} (beside : Beside history after fresh)
    (new : ∀ made : Shape, made ∈ fresh.shapes → ¬ made.Same shape)
    (isHeld : held ∈ after'.shapes) (alike : held.Alike shape)
    (keeps : after.shapes ⊆ after'.shapes)
    (adds : ∀ other : Shape, other ∈ after'.shapes → other ∈ after.shapes ∨ other = held) :
    Beside history after' ⟨fresh.shapes ++ [shape]⟩ where
  covered made isMade := by
    obtain old | isNew := List.mem_append.mp isMade
    · obtain ⟨known, isKnown, covers⟩ := beside.covered made old
      exact ⟨known, keeps isKnown, covers⟩
    · obtain rfl := List.mem_singleton.mp isNew
      exact ⟨held, isHeld, alike⟩
  origin other isOther := by
    obtain old | rfl := adds other isOther
    · refine (beside.origin other old).imp_right fun ⟨made, isMade, isAlike⟩ => ?_
      exact ⟨made, List.mem_append_left _ isMade, isAlike⟩
    · exact .inr ⟨shape, by simp, alike⟩
  apart made isMade other isOther same := by
    obtain old | isNew := List.mem_append.mp isMade <;>
      obtain old' | isNew' := List.mem_append.mp isOther
    · exact beside.apart made old other old' same
    · obtain rfl := List.mem_singleton.mp isNew'
      exact absurd same (new made old)
    · obtain rfl := List.mem_singleton.mp isNew
      exact absurd same.symm (new other old')
    · rw [List.mem_singleton.mp isNew, List.mem_singleton.mp isNew']

theorem intern {names : List String} {types types' : List Ty} (beside : Beside history after fresh)
    (alike : types.map Ty.unnumbered = types'.map Ty.unnumbered)
    (clear : (fresh.intern names types').2.ClearOf history) :
    (after.intern names types).1.unnumbered = (fresh.intern names types').1.unnumbered
      ∧ Beside history (after.intern names types).2 (fresh.intern names types').2 := by
  have record (id id' : Nat) {held held' : List Ty}
      (same : held.map Ty.unnumbered = held'.map Ty.unnumbered) :
      (Ty.record id names held).unnumbered = (Ty.record id' names held').unnumbered := by
    simp only [Ty.unnumbered, Ty.unnumberedAll_eq_map, same]
  have asked : Shape.Alike (names, types) (names, types') := ⟨rfl, alike⟩
  obtain ⟨id', held', fresh_eq, isHeld', same'⟩ | ⟨id', fresh_eq, new'⟩ :=
    fresh.intern_cases names types'
  · rw [fresh_eq] at clear ⊢
    obtain ⟨known, isKnown, covers⟩ := beside.covered _ isHeld'
    obtain ⟨id, held, after_eq, isHeld, same⟩ | ⟨id, after_eq, new⟩ :=
      after.intern_cases names types
    · rw [after_eq]
      have both : Shape.Same (names, held) (names, held') :=
        (same.trans asked.same).trans same'.symm
      refine ⟨record id id' ?_, beside⟩
      obtain old | ⟨made, isMade, isAlike⟩ := beside.origin _ isHeld
      · exact (clear _ old _ isHeld' both).2
      · obtain rfl := beside.apart _ isMade _ isHeld' (isAlike.same.symm.trans both)
        exact isAlike.2
    · exact absurd ((covers.same.trans same').trans asked.same.symm) (new _ isKnown)
  · rw [fresh_eq] at clear ⊢
    obtain ⟨id, held, after_eq, isHeld, same⟩ | ⟨id, after_eq, new⟩ :=
      after.intern_cases names types
    · rw [after_eq]
      have isAlike : Shape.Alike (names, held) (names, types') := by
        obtain old | ⟨made, isMade, isAlike⟩ := beside.origin _ isHeld
        · exact clear _ old _ (by simp) (same.trans asked.same)
        · exact absurd (isAlike.same.symm.trans (same.trans asked.same)) (new' made isMade)
      refine ⟨record id id' isAlike.2, ?_⟩
      exact beside.extend new' isHeld isAlike (List.Subset.refl _) fun _ isOther => .inl isOther
    · rw [after_eq]
      refine ⟨record id id' alike, ?_⟩
      refine beside.extend new' (by simp) asked (List.subset_append_left _ _) fun other isOther => ?_
      exact (List.mem_append.mp isOther).imp_right List.mem_singleton.mp

end Beside

end QueryTree.RecordTypes

namespace QueryTree

/-! ## Values with numbers -/

/-- Values in which the parameters can get other numbers and the record types can lose theirs. -/
class Numbered (α : Type) where
  renumbered : (Nat → Nat) → α → α
  renumbered_again : ∀ (number : Nat → Nat) (a : α),
    renumbered id (renumbered number a) = renumbered number a

namespace Numbered

/-- Values without numbers. -/
abbrev unchanged {α : Type} : Numbered α := ⟨fun _ a => a, fun _ _ => rfl⟩

instance : Numbered PUnit := unchanged
instance : Numbered Bool := unchanged
instance : Numbered Nat := unchanged
instance : Numbered String := unchanged
instance : Numbered Token := unchanged
instance : Numbered Aggregate := unchanged

instance : Numbered Ty := ⟨fun _ => Ty.unnumbered, fun _ => Ty.unnumbered_unnumbered⟩

instance : Numbered Parameter :=
  ⟨Parameter.renumbered, fun number p => p.renumbered_renumbered number id⟩

instance : Numbered Expr := ⟨Expr.renumbered, fun number e => e.renumbered_renumbered number id⟩

instance : Numbered NewItem where
  renumbered := NewItem.renumbered
  renumbered_again number item := by
    simp only [NewItem.renumbered, Expr.renumbered_renumbered, Function.id_comp]

section Containers

variable {α : Type} [Numbered α]

instance : Numbered (Option α) where
  renumbered number := Option.map (renumbered number)
  renumbered_again number a? := by
    cases a? with
    | none => rfl
    | some a => exact congrArg some (renumbered_again number a)

instance : Numbered (List α) where
  renumbered number := List.map (renumbered number)
  renumbered_again number as := by
    rw [List.map_map]
    exact List.map_congr_left fun a _ => renumbered_again number a

instance {β : Type} [Numbered β] : Numbered (α × β) where
  renumbered number := Prod.map (renumbered number) (renumbered number)
  renumbered_again number pair :=
    Prod.ext (renumbered_again number pair.1) (renumbered_again number pair.2)

end Containers

instance : Numbered ScopeFrame where
  renumbered := ScopeFrame.renumbered
  renumbered_again number frame := by
    have each (p? : Option Parameter) := renumbered_again number p?
    calc
      _ = ScopeFrame.mk (renumbered id (renumbered number frame.it))
          (renumbered id (renumbered number frame.parent))
          (renumbered id (renumbered number frame.root)) := rfl
      _ = _ := by rw [each, each, each]; rfl

end Numbered

/-! ## Two runs -/

open RecordTypes (Shape)

/-- A compile on a fresh store that is repeated after a history. -/
structure Rerun where
  /-- The tokens of the text. -/
  tokens : List Token
  /-- The record types of the history. -/
  history : List Shape
  /-- The number that a parameter of the fresh run has after the history. -/
  number : Nat → Nat
  distinct : Function.Injective number

namespace Rerun

variable (w : Rerun)

/-- What is the same in the run after the history and in the fresh run, up to numbers. -/
def Twin {α : Type} [Numbered α] (after fresh : α) : Prop :=
  Numbered.renumbered id after = Numbered.renumbered w.number fresh

/-- Scopes that are the same up to numbers. -/
structure TwinScopes (after fresh : ScopeStack) : Prop where
  outermost : w.Twin after.outermost fresh.outermost
  inner : w.Twin after.inner fresh.inner

variable {w} in
theorem TwinScopes.push {after fresh : ScopeStack} {frame frame' : ScopeFrame}
    (scopes : w.TwinScopes after fresh) (twin : w.Twin frame frame') :
    w.TwinScopes (after.push frame) (fresh.push frame') :=
  ⟨scopes.outermost, congrArg₂ List.cons twin scopes.inner⟩

variable {w} in
theorem TwinScopes.pop {after fresh : ScopeStack} (scopes : w.TwinScopes after fresh) :
    w.TwinScopes after.pop fresh.pop := by
  have tails := congrArg List.tail scopes.inner
  change (after.inner.map _).tail = (fresh.inner.map _).tail at tails
  rw [← List.map_tail, ← List.map_tail] at tails
  exact ⟨scopes.outermost, tails⟩

/-- Names that stand for elements that are the same up to numbers. -/
def TwinNames (after fresh : ElementNames) : Prop :=
  ∀ key, w.Twin (after.lookup key) (fresh.lookup key)

variable {w} in
theorem TwinNames.set {after fresh : ElementNames} {element? element?' : Option Parameter}
    (names : w.TwinNames after fresh) (key : String) (twin : w.Twin element? element?') :
    w.TwinNames (after.set key element?) (fresh.set key element?') := by
  intro other
  rw [ElementNames.lookup, ElementNames.lookup, ElementNames.set, ElementNames.set]
  split
  · exact twin
  · exact names other

/-- A state of the run after the history and one of the fresh run. -/
structure Sessions (after fresh : Session) : Prop where
  current : after.current = fresh.current
  rest : after.rest = fresh.rest
  failure : after.failure = fresh.failure
  scopes : w.TwinScopes after.scopes fresh.scopes
  internals : w.TwinNames after.internals fresh.internals
  parameters : ∀ n, w.number (fresh.store.nextParameter + n) = after.store.nextParameter + n
  records : RecordTypes.Beside w.history after.store.records fresh.store.records
  reads : fresh.Reads w.tokens

/-- Two outcomes: values that are the same up to numbers, or errors. -/
inductive Ends {α : Type} [Numbered α] :
    EStateM.Result CompileError Session α → EStateM.Result CompileError Session α → Prop where
  | ok {a a' : α} {after fresh : Session} (twin : w.Twin a a') (sessions : w.Sessions after fresh) :
      Ends (.ok a after) (.ok a' fresh)
  | error {error error' : CompileError} {after fresh : Session} :
      Ends (.error error after) (.error error' fresh)

end Rerun

namespace Parse

variable {α β : Type}

/-- A step that goes over tokens of a text only adds record types. -/
def Grows (tokens : List Token) (step : Parse α) : Prop :=
  ∀ made : List Shape, Ensures
    (fun session => session.Reads tokens ∧ made ⊆ session.store.records.shapes) step
    (fun _ session => session.Reads tokens ∧ made ⊆ session.store.records.shapes)
    (fun session => made ⊆ session.store.records.shapes)

theorem bind_apply (step : Parse α) (next : α → Parse β) (session : Session) :
    (step >>= next) session = match step session with
      | .ok a after => next a after
      | .error error after => .error error after := by
  change EStateM.bind step next session = _
  rw [EStateM.bind]
  cases step session <;> rfl

/-- The records in the state in which a step ends, whether it succeeds or fails. -/
def finalRecords (step : Parse α) (session : Session) : RecordTypes :=
  match step session with
  | .ok _ after => after.store.records
  | .error _ after => after.store.records

theorem Grows.subset {tokens : List Token} {step : Parse α} (grows : step.Grows tokens)
    {session : Session} (reads : session.Reads tokens) :
    session.store.records.shapes ⊆ (step.finalRecords session).shapes := by
  have grown := grows _ session ⟨reads, List.Subset.refl _⟩
  rw [finalRecords]
  cases ran : step session with
  | ok a after =>
      rw [ran] at grown
      exact grown.2
  | error error after =>
      rw [ran] at grown
      exact grown

/-- What a step yields that goes over tokens of a text satisfies a condition. -/
def Ascertains (tokens : List Token) (step : Parse α) (holds : α → Prop) : Prop :=
  ∀ session a after, session.Reads tokens → step session = .ok a after → holds a

theorem Within.ascertains {tokens : List Token} {step : Parse α} {holds : α → Prop}
    (within : ∀ around, Within tokens around step holds) : step.Ascertains tokens holds := by
  intro session a after reads ran
  have reached := within session.surroundings session ⟨rfl, reads⟩
  rw [ran] at reached
  exact reached.2

theorem Grows.bind {tokens : List Token} {step : Parse α} {next : α → Parse β} {holds : α → Prop}
    (first : step.Grows tokens) (known : step.Ascertains tokens holds)
    (second : ∀ a, holds a → (next a).Grows tokens) : (step >>= next).Grows tokens := by
  intro made session start
  have reached := first made session start
  rw [bind_apply]
  cases ran : step session with
  | ok a middle =>
      rw [ran] at reached
      exact second a (known session a middle start.1 ran) made middle reached
  | error error middle =>
      rw [ran] at reached
      exact reached

theorem Grows.reads {tokens : List Token} {step : Parse α} (grows : step.Grows tokens)
    {session after : Session} {a : α} (reads : session.Reads tokens)
    (ran : step session = .ok a after) : after.Reads tokens := by
  have reached := grows [] session ⟨reads, List.nil_subset _⟩
  rw [ran] at reached
  exact reached.1

end Parse

namespace Rerun

open Parse (Grows Ascertains finalRecords)

variable {α β : Type} [Numbered α] [Numbered β] {w : Rerun}

/-- Two steps, one of the run after the history and one of the fresh run, that go together unless a
record type of the history stands in for one with other members. -/
structure Steps (w : Rerun) (step step' : Parse α) : Prop where
  grows : step'.Grows w.tokens
  ends : ∀ after fresh, w.Sessions after fresh → (step'.finalRecords fresh).ClearOf w.history →
    w.Ends (step after) (step' fresh)

namespace Steps

variable {step step' : Parse α}

theorem pure {a a' : α} (twin : w.Twin a a') : w.Steps (Pure.pure a) (Pure.pure a') where
  grows _ := .pure fun _ grown => grown
  ends _ _ sessions _ := .ok twin sessions

theorem failAt {position position' : Nat} {fault fault' : CompileFault} :
    w.Steps (Parse.failAt position fault : Parse α) (Parse.failAt position' fault') where
  grows _ := .throw fun _ grown => grown.2
  ends _ _ _ _ := .error

theorem lift {outcome outcome' : Except CompileError α}
    (twin : w.Twin outcome.toOption outcome'.toOption) :
    w.Steps (Parse.lift outcome) (Parse.lift outcome') := by
  cases outcome with
  | ok a =>
      cases outcome' with
      | ok a' => exact pure (Option.some.inj twin)
      | error error' => cases twin
  | error error =>
      cases outcome' with
      | ok a' => cases twin
      | error error' => exact failAt

/-- A step goes on together with another one where what the first one yields in the fresh run is
known to satisfy a condition. -/
theorem bindWhere {next next' : α → Parse β} {holds : α → Prop} (first : w.Steps step step')
    (known : step'.Ascertains w.tokens holds)
    (second : ∀ a a', w.Twin a a' → holds a' → w.Steps (next a) (next' a')) :
    w.Steps (step >>= next) (step' >>= next') := by
  -- in the fresh run every value has a twin, itself with other numbers
  have grows (a' : α) (holds' : holds a') : (next' a').Grows w.tokens :=
    (second _ a' (Numbered.renumbered_again w.number a') holds').grows
  refine ⟨first.grows.bind known grows, ?_⟩
  intro after fresh sessions clear
  have ends := first.ends after fresh sessions
  rw [finalRecords, Parse.bind_apply] at clear
  rw [Parse.bind_apply, Parse.bind_apply]
  cases ran : step' fresh with
  | ok a' fresh' =>
      have holds' := known fresh a' fresh' sessions.reads ran
      rw [ran] at clear
      have reads : fresh'.Reads w.tokens := first.grows.reads sessions.reads ran
      have still : (finalRecords step' fresh).ClearOf w.history := by
        rw [finalRecords, ran]
        exact clear.mono ((grows a' holds').subset reads)
      have ends := ends still
      rw [ran] at ends
      cases ran₁ : step after with
      | ok a after' =>
          rw [ran₁] at ends
          obtain ⟨twin, sessions⟩ := ends
          exact (second a a' twin holds').ends after' fresh' sessions clear
      | error error after' =>
          rw [ran₁] at ends
          cases ends
  | error error' fresh' =>
      rw [ran] at clear
      have ends := ends (by rw [finalRecords, ran]; exact clear)
      rw [ran] at ends
      cases ran₁ : step after with
      | ok a after' =>
          rw [ran₁] at ends
          cases ends
      | error error after' => exact .error

theorem bind {next next' : α → Parse β} (first : w.Steps step step')
    (second : ∀ a a', w.Twin a a' → w.Steps (next a) (next' a')) :
    w.Steps (step >>= next) (step' >>= next') := by
  have known : step'.Ascertains w.tokens fun _ => True := fun _ _ _ _ _ => trivial
  exact first.bindWhere known fun a a' twin _ => second a a' twin

/-! ## Steps that read the state -/

theorem read {f f' : Session → α}
    (twin : ∀ after fresh, w.Sessions after fresh → w.Twin (f after) (f' fresh)) :
    w.Steps (do return f (← get)) (do return f' (← get)) where
  grows _ _ grown := grown
  ends after fresh sessions _ := .ok (twin after fresh sessions) sessions

theorem current : w.Steps Parse.current Parse.current :=
  read fun _ _ sessions => sessions.current

theorem position : w.Steps Parse.position Parse.position :=
  current.bind fun _ _ twin => pure (congrArg Token.position twin)

theorem check {kind : TokenKind} : w.Steps (Parse.check kind) (Parse.check kind) :=
  current.bind fun _ _ twin => pure (congrArg (fun token : Token => token.kind == kind) twin)

theorem checkWord {word : String} : w.Steps (Parse.checkWord word) (Parse.checkWord word) :=
  current.bind fun _ _ twin => pure (congrArg (fun token : Token => token.isWord word) twin)

theorem tokensLeft : w.Steps Parse.tokensLeft Parse.tokensLeft :=
  read fun _ _ sessions => congrArg List.length sessions.rest

/-- Two steps that look at the names of elements go together if they go on together. -/
theorem bindNames {next next' : Session → Parse β}
    (second : ∀ after fresh, w.TwinNames after.internals fresh.internals →
      w.Steps (next after) (next' fresh)) :
    w.Steps (do next (← get)) (do next' (← get)) where
  grows made session start := by
    let names : ElementNames := fun key =>
      Numbered.renumbered w.number (session.internals.lookup key)
    have twins : w.TwinNames names session.internals := fun key =>
      Numbered.renumbered_again w.number (session.internals.lookup key)
    exact (second { session with internals := names } session twins).grows made session start
  ends after fresh sessions clear :=
    (second after fresh sessions.internals).ends after fresh sessions clear

theorem scope : w.Steps Parse.scope Parse.scope := by
  refine read fun after fresh sessions => ?_
  obtain ⟨outermost, inner⟩ := sessions.scopes
  rw [ScopeStack.current, ScopeStack.current]
  have first : w.Twin after.scopes.inner.head? fresh.scopes.inner.head? := by
    have heads := congrArg List.head? inner
    change (after.scopes.inner.map _).head? = (fresh.scopes.inner.map _).head? at heads
    rwa [List.head?_map, List.head?_map] at heads
  cases h : after.scopes.inner.head? <;> cases h' : fresh.scopes.inner.head? <;>
    rw [h, h'] at first
  · exact outermost
  · cases first
  · cases first
  · exact Option.some.inj first

/-! ## Elementary steps -/

theorem failHere {fault fault' : CompileFault} :
    w.Steps (Parse.failHere fault : Parse α) (Parse.failHere fault') :=
  position.bind fun _ _ _ => failAt

/-- Two steps go together if they go on together whatever two equal values are. -/
theorem bindEq {step step' : Parse Bool} {next next' : Bool → Parse β}
    (first : w.Steps step step') (isTrue : w.Steps (next true) (next' true))
    (isFalse : w.Steps (next false) (next' false)) : w.Steps (step >>= next) (step' >>= next') := by
  refine first.bind fun b b' twin => ?_
  obtain rfl : b = b' := twin
  cases b with
  | true => exact isTrue
  | false => exact isFalse

theorem validate {kind : TokenKind} {fault : CompileFault} :
    w.Steps (Parse.validate kind fault) (Parse.validate kind fault) :=
  check.bindEq (pure rfl) failHere

theorem advance : w.Steps Parse.advance Parse.advance where
  grows made session := by
    rintro ⟨⟨met, ahead⟩, grown⟩
    obtain ⟨current, rest, failure, scopes, internals, store⟩ := session
    cases rest with
    | cons token rest =>
        obtain ⟨isNext, later⟩ := List.forall_mem_cons.mp ahead
        exact ⟨⟨isNext, later⟩, grown⟩
    | nil =>
        cases failure with
        | some error => exact grown
        | none => exact ⟨⟨met, ahead⟩, grown⟩
  ends after fresh sessions _ := by
    obtain ⟨current, rest, failure, scopes, internals, store⟩ := after
    obtain ⟨current', rest', failure', scopes', internals', store'⟩ := fresh
    obtain ⟨sameCurrent, sameRest, sameFailure, scopes, internals, parameters, records, reads⟩ :=
      sessions
    obtain rfl : rest = rest' := sameRest
    obtain rfl : failure = failure' := sameFailure
    cases rest with
    | cons token rest =>
        have ahead := List.forall_mem_cons.mp reads.2
        exact .ok rfl ⟨rfl, rfl, rfl, scopes, internals, parameters, records, ahead⟩
    | nil =>
        cases failure with
        | some error => exact .error
        | none => exact .ok rfl ⟨sameCurrent, rfl, rfl, scopes, internals, parameters, records, reads⟩

theorem expect {kind : TokenKind} {fault : CompileFault} :
    w.Steps (Parse.expect kind fault) (Parse.expect kind fault) :=
  validate.bind fun _ _ _ => advance

theorem identifier : w.Steps Parse.identifier Parse.identifier :=
  validate.bind fun _ _ _ => current.bind fun _ _ twin =>
    pure (congrArg (fun token : Token => Parse.unescapedName token.text) twin)

theorem newParameter {name : String} {type type' : Ty} (twin : w.Twin type type') :
    w.Steps (Parse.newParameter name type) (Parse.newParameter name type') where
  grows _ _ grown := grown
  ends after fresh sessions _ := by
    have numbered : w.number fresh.store.nextParameter = after.store.nextParameter :=
      sessions.parameters 0
    refine .ok ?_ { sessions with parameters := fun n => ?_ }
    · have same : (⟨after.store.nextParameter, name, type.unnumbered⟩ : Parameter)
          = ⟨w.number fresh.store.nextParameter, name, type'.unnumbered⟩ :=
        congr (congrArg (Parameter.mk · name) numbered.symm) twin
      exact same
    · have later := sessions.parameters (1 + n)
      rwa [← Nat.add_assoc, ← Nat.add_assoc] at later

theorem recordType {names : List String} {types types' : List Ty} (twin : w.Twin types types') :
    w.Steps (Parse.recordType names types) (Parse.recordType names types') where
  grows made session := by
    rintro ⟨reads, grown⟩
    exact ⟨reads, List.Subset.trans grown (RecordTypes.shapes_prefix_intern _ _ _).subset⟩
  ends after fresh sessions clear := by
    obtain ⟨made, records⟩ := sessions.records.intern twin clear
    exact .ok made { sessions with records := records }

theorem withScope {frame frame' : ScopeFrame} (twin : w.Twin frame frame')
    (inside : w.Steps step step') :
    w.Steps (Parse.withScope frame step) (Parse.withScope frame' step') where
  grows made session start := by
    have reached := inside.grows made { session with scopes := session.scopes.push frame' } start
    rw [Parse.withScope]
    cases ran : step' { session with scopes := session.scopes.push frame' } with
    | ok a after =>
        rw [ran] at reached
        exact reached
    | error error after =>
        rw [ran] at reached
        exact reached
  ends after fresh sessions clear := by
    have entered : w.Sessions { after with scopes := after.scopes.push frame }
        { fresh with scopes := fresh.scopes.push frame' } :=
      { sessions with scopes := sessions.scopes.push twin }
    have ends := inside.ends _ _ entered
    rw [finalRecords, Parse.withScope] at clear
    rw [finalRecords] at ends
    rw [Parse.withScope, Parse.withScope]
    cases ran' : step' { fresh with scopes := fresh.scopes.push frame' } with
    | ok a' fresh' =>
        rw [ran'] at clear ends
        generalize step { after with scopes := after.scopes.push frame } = outcome at ends ⊢
        cases ends clear with
        | ok twin left => exact .ok twin { left with scopes := left.scopes.pop }
    | error error' fresh' =>
        rw [ran'] at clear ends
        generalize step { after with scopes := after.scopes.push frame } = outcome at ends ⊢
        cases ends clear with
        | error => exact .error

theorem withInternal {key : String} {element element' : Parameter} (twin : w.Twin element element')
    (inside : w.Steps step step') :
    w.Steps (Parse.withInternal key element step) (Parse.withInternal key element' step') where
  grows made session start := by
    have reached := inside.grows made
      { session with internals := session.internals.set key (some element') } start
    simp only [Parse.withInternal]
    cases ran : step' { session with internals := session.internals.set key (some element') } with
    | ok a after =>
        rw [ran] at reached
        exact reached
    | error error after =>
        rw [ran] at reached
        exact reached
  ends after fresh sessions clear := by
    have entered : w.Sessions { after with internals := after.internals.set key (some element) }
        { fresh with internals := fresh.internals.set key (some element') } :=
      { sessions with internals := sessions.internals.set key (congrArg some twin) }
    have ends := inside.ends _ _ entered
    simp only [finalRecords, Parse.withInternal] at clear
    rw [finalRecords] at ends
    simp only [Parse.withInternal]
    cases ran' : step' { fresh with internals := fresh.internals.set key (some element') } with
    | ok a' fresh' =>
        rw [ran'] at clear ends
        generalize step { after with internals := after.internals.set key (some element) } = outcome
          at ends ⊢
        cases ends clear with
        | ok twin left =>
            refine .ok twin { left with internals := left.internals.set key ?_ }
            exact sessions.internals key
    | error error' fresh' =>
        rw [ran'] at clear ends
        generalize step { after with internals := after.internals.set key (some element) } = outcome
          at ends ⊢
        cases ends clear with
        | error => exact .error

theorem commaListFrom (item : w.Steps step step') (fuel : Nat) :
    w.Steps (Parse.commaList.go step fuel) (Parse.commaList.go step' fuel) := by
  induction fuel with
  | zero => exact pure rfl
  | succ fuel ih =>
      refine check.bindEq ?_ (pure rfl)
      exact advance.bind fun _ _ _ => item.bind fun _ _ first => ih.bind fun _ _ rest =>
        pure (congrArg₂ List.cons first rest)

theorem commaList (item : w.Steps step step') :
    w.Steps (Parse.commaList step) (Parse.commaList step') := by
  refine item.bind fun _ _ first => tokensLeft.bind fun fuel fuel' same => ?_
  obtain rfl : fuel = fuel' := same
  exact (item.commaListFrom (fuel + 1)).bind fun _ _ rest => pure (congrArg₂ List.cons first rest)

theorem argumentList {expression expression' : Parse Expr} (each : w.Steps expression expression') :
    w.Steps (Parse.argumentList expression) (Parse.argumentList expression') := by
  have close {args args' : List Expr} (twin : w.Twin args args') : w.Steps
      (do Parse.expect .closeParen (.expected .closeParenOrComma); return args)
      (do Parse.expect .closeParen (.expected .closeParenOrComma); return args') :=
    expect.bind fun _ _ _ => pure twin
  refine expect.bind fun _ _ _ => check.bindEq ?_ ?_
  · exact close rfl
  · exact each.commaList.bind fun _ _ twin => close twin

end Steps

end Rerun

end QueryTree
