import Mathlib.Logic.Relation
import QueryTree.Proofs.Compile.Elementary
import QueryTree.Proofs.Independence.Runs

/-!
# One record type for each shape

A configuration finds a record type by its members and prints it by its number.  However many calls
and compiles there were, the two tell the same record types apart: the numbers run from one without
a gap, each of them stands for other members, and what it stands for never changes.
-/

namespace QueryTree

namespace RecordTypes

/-! ## Held record types -/

/-- A record type is held if asking for its own members gives it back and makes no other one. -/
def Holds (records : RecordTypes) (id : Nat) (names : List String) (held : List Ty) : Prop :=
  records.intern names held = (.record id names held, records)

/-- No shape is there twice. -/
def Distinct (records : RecordTypes) : Prop :=
  records.shapes.Pairwise fun earlier later => ¬ Shape.Same earlier later

variable {records later : RecordTypes} {names names' : List String} {held held' types : List Ty}
  {id id' : Nat}

theorem find?_getElem? {place : Nat} {shapes : List Shape}
    (found : find? names types place shapes = some (id, held)) :
    ∃ i, id = place + i ∧ shapes[i]? = some (names, held) := by
  induction shapes generalizing place with
  | nil => cases found
  | cons shape rest ih =>
      rw [find?] at found
      split at found
      next isShape =>
        obtain ⟨rfl, rfl⟩ := Prod.mk.inj (Option.some.inj found)
        obtain rfl := eq_of_beq (Bool.and_eq_true_iff.mp isShape).1
        exact ⟨0, rfl, rfl⟩
      next =>
        obtain ⟨i, rfl, isThere⟩ := ih found
        exact ⟨i + 1, by omega, isThere⟩

theorem find?_of_getElem? {place i : Nat} {shapes : List Shape}
    (distinct : shapes.Pairwise fun earlier later => ¬ Shape.Same earlier later)
    (isThere : shapes[i]? = some (names, held)) :
    find? names held place shapes = some (place + i, held) := by
  induction shapes generalizing place i with
  | nil => cases isThere
  | cons shape rest ih =>
      obtain ⟨others, distinct⟩ := List.pairwise_cons.mp distinct
      cases i with
      | zero =>
          obtain rfl := Option.some.inj isThere
          rw [find?, if_pos (by simp [Ty.sameAll_refl])]
          rfl
      | succ i =>
          -- the lookup passes over the first shape, which is another one
          have isLater : rest[i]? = some (names, held) := isThere
          have other : ¬ (shape.1 == names && Ty.sameAll shape.2 held) = true := by
            intro isShape
            obtain ⟨isNames, same⟩ := Bool.and_eq_true_iff.mp isShape
            exact others _ (List.mem_of_getElem? isLater) ⟨eq_of_beq isNames, same⟩
          rw [find?, if_neg other, ih distinct isLater, Nat.add_assoc, Nat.add_comm 1 i]

/-- A held record type is the shape at the place of its number. -/
theorem Distinct.holds_iff (distinct : records.Distinct) :
    records.Holds id names held ↔ ∃ i, id = i + 1 ∧ records.shapes[i]? = some (names, held) := by
  rw [Holds, intern]
  constructor
  · intro answer
    split at answer
    next found =>
      obtain ⟨rfl, rfl⟩ : _ = id ∧ _ = held := by simpa using answer
      obtain ⟨i, rfl, isThere⟩ := find?_getElem? found
      exact ⟨i, Nat.add_comm 1 i, isThere⟩
    next =>
      have same : records.shapes ++ [(names, held)] = records.shapes :=
        congrArg shapes (congrArg Prod.snd answer)
      simp at same
  · rintro ⟨i, rfl, isThere⟩
    rw [find?_of_getElem? distinct isThere, Nat.add_comm 1 i]

/-- The numbers of the held record types run from one without a gap. -/
theorem Distinct.exists_holds_iff (distinct : records.Distinct) :
    (∃ names held, records.Holds id names held) ↔ 1 ≤ id ∧ id ≤ records.shapes.length := by
  simp only [distinct.holds_iff]
  constructor
  · rintro ⟨names, held, i, rfl, isThere⟩
    obtain ⟨inside, -⟩ := List.getElem?_eq_some_iff.mp isThere
    exact ⟨Nat.succ_pos i, inside⟩
  · rintro ⟨positive, inside⟩
    obtain ⟨i, rfl⟩ := Nat.exists_eq_add_of_le' positive
    exact ⟨_, _, i, rfl, List.getElem?_eq_getElem inside⟩

theorem Distinct.not_same (distinct : records.Distinct) {i j : Nat} {s t : Shape} (before : i < j)
    (isLeft : records.shapes[i]? = some s) (isRight : records.shapes[j]? = some t) :
    ¬ s.Same t := by
  obtain ⟨_, rfl⟩ := List.getElem?_eq_some_iff.mp isLeft
  obtain ⟨_, rfl⟩ := List.getElem?_eq_some_iff.mp isRight
  exact List.pairwise_iff_getElem.mp distinct i j _ _ before

/-- Two held record types are the same type exactly if they have the same number, and then they have
the very same members. -/
theorem Distinct.same_iff (distinct : records.Distinct) (left : records.Holds id names held)
    (right : records.Holds id' names' held') :
    ((Ty.record id names held == Ty.record id' names' held') = true ↔ id = id') ∧
      (id = id' → names = names' ∧ held = held') := by
  obtain ⟨i, rfl, isLeft⟩ := distinct.holds_iff.mp left
  obtain ⟨j, rfl, isRight⟩ := distinct.holds_iff.mp right
  have members (same : i + 1 = j + 1) : names = names' ∧ held = held' := by
    obtain rfl := Nat.succ.inj same
    exact Prod.mk.inj (Option.some.inj (isLeft.symm.trans isRight))
  refine ⟨⟨fun same => ?_, fun same => ?_⟩, members⟩
  · have shapes : Shape.Same (names, held) (names', held') := by
      have same : (names == names' && Ty.sameAll held held') = true := same
      obtain ⟨isNames, isTypes⟩ := Bool.and_eq_true_iff.mp same
      exact ⟨eq_of_beq isNames, isTypes⟩
    obtain before | rfl | after := Nat.lt_trichotomy i j
    · exact absurd shapes (distinct.not_same before isLeft isRight)
    · rfl
    · exact absurd shapes.symm (distinct.not_same after isRight isLeft)
  · obtain ⟨rfl, rfl⟩ := members same
    rw [same]
    exact Ty.same_refl _

/-! ## Calls -/

theorem Distinct.intern (distinct : records.Distinct) (names : List String) (types : List Ty) :
    (records.intern names types).2.Distinct := by
  obtain ⟨id, held, outcome, -⟩ | ⟨id, outcome, isNew⟩ := records.intern_cases names types
  · rwa [outcome]
  · rw [outcome]
    refine List.pairwise_append.mpr ⟨distinct, List.pairwise_singleton _ _, ?_⟩
    intro shape isHeld added isAdded
    obtain rfl := List.mem_singleton.mp isAdded
    exact isNew shape isHeld

/-- A call is given a held record type with the members that it asks for. -/
theorem Distinct.intern_holds (distinct : records.Distinct) (names : List String)
    (types : List Ty) :
    ∃ id held, (records.intern names types).1 = .record id names held ∧
      Ty.sameAll held types = true ∧ (records.intern names types).2.Holds id names held := by
  have after := distinct.intern names types
  simp only [after.holds_iff]
  unfold RecordTypes.intern
  split
  next id held found =>
    obtain ⟨i, rfl, isThere⟩ := find?_getElem? found
    exact ⟨_, held, rfl, find?_types found, i, Nat.add_comm 1 i, isThere⟩
  next =>
    refine ⟨_, types, rfl, Ty.sameAll_refl types, _, rfl, ?_⟩
    exact List.getElem?_concat_length

/-- A record type that is held once is held ever after. -/
theorem Holds.of_prefix (holds : records.Holds id names held) (distinct : records.Distinct)
    (still : later.Distinct) (grown : records.shapes <+: later.shapes) :
    later.Holds id names held := by
  obtain ⟨i, rfl, isThere⟩ := distinct.holds_iff.mp holds
  obtain ⟨more, grown⟩ := grown
  refine still.holds_iff.mpr ⟨i, rfl, ?_⟩
  obtain ⟨inside, -⟩ := List.getElem?_eq_some_iff.mp isThere
  rwa [← grown, List.getElem?_append_left inside]

/-- The record types after one more is asked for. -/
def Asks (records later : RecordTypes) : Prop :=
  ∃ names types, later = (records.intern names types).2

theorem Distinct.of_asks (distinct : records.Distinct)
    (asked : Relation.ReflTransGen Asks records later) : later.Distinct := by
  induction asked with
  | refl => exact distinct
  | tail _ asks ih =>
      obtain ⟨names, types, rfl⟩ := asks
      exact ih.intern names types

theorem shapes_prefix_of_asks (asked : Relation.ReflTransGen Asks records later) :
    records.shapes <+: later.shapes := by
  induction asked with
  | refl => exact List.prefix_rfl
  | tail _ asks ih =>
      obtain ⟨names, types, rfl⟩ := asks
      exact ih.trans (shapes_prefix_intern _ names types)

end RecordTypes

/-! ## Compiles -/

namespace Parse

open RecordTypes (Asks)

variable {α β : Type}

theorem final_bind (step : Parse α) (next : α → Parse β) (session : Session) :
    (step >>= next).final session = match step session with
      | .ok a after => (next a).final after
      | .error _ after => after := by
  rw [final, bind_apply]
  cases step session <;> rfl

theorem final_withScope (frame : ScopeFrame) (step : Parse α) (session : Session) :
    ((withScope frame step).final session).store =
      (step.final { session with scopes := session.scopes.push frame }).store := by
  rw [final, final, withScope]
  cases step { session with scopes := session.scopes.push frame } <;> rfl

theorem final_withInternal (key : String) (element : Parameter) (step : Parse α)
    (session : Session) :
    ((withInternal key element step).final session).store =
      (step.final
        { session with internals := session.internals.set key (some element) }).store := by
  rw [final, final, withInternal]
  cases step { session with internals := session.internals.set key (some element) } <;> rfl

/-- A step of a compile does nothing else to the record types than to ask for some, whether it
succeeds or fails. -/
theorem Elementary.asks {step : Parse α} (elementary : Elementary step) (session : Session) :
    Relation.ReflTransGen Asks session.store.records (step.final session).store.records := by
  induction elementary generalizing session with
  | pure | throw | get | mergeSign | newParameter => exact .refl
  | advance =>
      obtain ⟨current, rest, failure, scopes, internals, store⟩ := session
      cases rest with
      | cons token rest => exact .refl
      | nil => cases failure <;> exact .refl
  | recordType names types => exact .single ⟨names, types, rfl⟩
  | @bind _ _ step next _ _ first second =>
      have asked := first session
      rw [final_bind]
      rw [final] at asked
      cases ran : step session with
      | ok a after =>
          rw [ran] at asked
          exact asked.trans (second a after)
      | error error after =>
          -- a step that fails keeps the record types that it has made
          rw [ran] at asked
          exact asked
  | @withScope _ frame _ _ inside =>
      rw [final_withScope]
      exact inside { session with scopes := session.scopes.push frame }
  | @withInternal _ key element _ _ inside =>
      rw [final_withInternal]
      exact inside { session with internals := session.internals.set key (some element) }

end Parse

theorem compileText_asks {α : Type} {env : Environment} {params : List Parameter}
    {args : List Argument} {text : String} {step : CompileContext → Parse α} {store : Store}
    (elementary : ∀ ctx, Parse.Elementary (step ctx)) :
    Relation.ReflTransGen RecordTypes.Asks store.records
      (compileText env params args text step store).2.records := by
  rw [compileText]
  split
  next => exact .refl
  next ctx _ =>
    split
    next => exact .refl
    next session start =>
      have asked := (elementary ctx).asks session
      rw [Session.start_store start, Parse.final] at asked
      cases ran : step ctx session <;> rw [ran] at asked <;> exact asked

/-- A projection asks for the record type with the members that its parts have. -/
theorem CompileContext.projection_asks {ctx : CompileContext}
    (notDynamic : ctx.env.options.dynamicRecords = false) (items : List NewItem)
    (session : Session) :
    let members := NewItem.named items
    let (type, records) :=
      session.store.records.intern (members.map (·.1)) (members.map (·.2.type))
    ctx.projection items session = .ok (.record type .anonymous members)
      { session with store := { session.store with records := records } } := by
  intro members
  rw [projection]
  simp only [notDynamic, Bool.false_eq_true, if_false]
  rfl

/-! ## Histories -/

namespace Store

/-- The store after a call that asks for the record type with some members. -/
def ask (store : Store) (members : List (String × Ty)) : Store :=
  { store with records := (store.records.intern (members.map (·.1)) (members.map (·.2))).2 }

/-- What happens to the store of a configuration: a call asks for the record type with some members,
a text is compiled, or, inside of a compile, one of its procedures runs. -/
inductive Happens : Store → Store → Prop where
  | call (store : Store) (members : List (String × Ty)) : Happens store (store.ask members)
  | expression (store : Store) (env : Environment) (params : List Parameter) (expected? : Option Ty)
      (text : String) (args : List Argument) :
      Happens store (compileExpr env params expected? text args store).2
  | function (store : Store) (env : Environment) (params : List Parameter) (expected? : Option Ty)
      (text : String) (args : List Argument) :
      Happens store (compileFunction env params expected? text args store).2
  | ordering (store : Store) (env : Environment) (params : List Parameter) (continues : Bool)
      (text : String) (args : List Argument) :
      Happens store (compileOrdering env params continues text args store).2
  | procedure {α : Type} {ctx : CompileContext} {step : Parse α} (isProcedure : ctx.Procedure step)
      (session : Session) : Happens session.store (step.final session).store

/-- What comes of a store by any number of calls and compiles. -/
abbrev Leads : Store → Store → Prop := Relation.ReflTransGen Happens

variable {store later : Store}

/-- Calls and compiles do nothing else to the record types than to ask for some. -/
theorem Happens.asks (happens : Happens store later) :
    Relation.ReflTransGen RecordTypes.Asks store.records later.records := by
  cases happens with
  | call store members => exact .single ⟨_, _, rfl⟩
  | expression => exact compileText_asks fun _ => CompileContext.body_elementary
  | function => exact compileText_asks fun _ => CompileContext.body_elementary
  | ordering => exact compileText_asks fun _ => CompileContext.ordering_elementary
  | procedure isProcedure session => exact isProcedure.elementary.asks session

theorem Leads.asks (leads : Leads store later) :
    Relation.ReflTransGen RecordTypes.Asks store.records later.records := by
  induction leads with
  | refl => exact .refl
  | tail _ happens ih => exact ih.trans happens.asks

/-- After any calls and compiles the numbers of the record types run from one without a gap; two
record types have the same members exactly if they have the same number; a call is given a record
type with the members that it asks for, and so is a projection; and a record type keeps its number
and its members whatever is called and compiled later. -/
theorem recordTypes_numbered (made : Leads .initial store) :
    (∀ id, (∃ names held, store.records.Holds id names held) ↔
        1 ≤ id ∧ id ≤ store.records.shapes.length) ∧
      (∀ id names held id' names' held', store.records.Holds id names held →
        store.records.Holds id' names' held' →
          ((Ty.record id names held == Ty.record id' names' held') = true ↔ id = id') ∧
            (id = id' → names = names' ∧ held = held')) ∧
      (∀ members : List (String × Ty),
        let names := members.map (·.1)
        let types := members.map (·.2)
        ∃ id held, (store.records.intern names types).1 = .record id names held ∧
          Ty.sameAll held types = true ∧ (store.ask members).records.Holds id names held) ∧
      (∀ (ctx : CompileContext) items session, session.store = store →
        ctx.env.options.dynamicRecords = false →
          let members := NewItem.named items
          ∃ id held after, ctx.projection items session =
              .ok (.record (.record id (members.map (·.1)) held) .anonymous members) after ∧
            Ty.sameAll held (members.map (·.2.type)) = true ∧
            after.store.records.Holds id (members.map (·.1)) held) ∧
      ∀ later, Leads store later → ∀ id names held, store.records.Holds id names held →
        later.records.Holds id names held := by
  have distinct : store.records.Distinct := .of_asks List.Pairwise.nil made.asks
  refine ⟨fun id => distinct.exists_holds_iff, ?_, ?_, ?_, ?_⟩
  · exact fun id names held id' names' held' => distinct.same_iff
  · exact fun members => distinct.intern_holds _ _
  · rintro ctx items session rfl notDynamic members
    obtain ⟨id, held, answer, same, holds⟩ := distinct.intern_holds (members.map (·.1))
      (members.map (·.2.type))
    let records := (session.store.records.intern (members.map (·.1)) (members.map (·.2.type))).2
    refine ⟨id, held, { session with store := { session.store with records := records } }, ?_,
      same, holds⟩
    rw [← answer]
    exact CompileContext.projection_asks notDynamic items session
  · intro later leads id names held holds
    exact holds.of_prefix distinct (distinct.of_asks leads.asks)
      (RecordTypes.shapes_prefix_of_asks leads.asks)

/-- The store after a call, a compile of a projection, and a call for a record type with a member of
the first record type. -/
def nested : Store :=
  let projected := (compileExpr (.of .initial .empty .initial) [⟨0, "", .int32⟩] none
    "new(it as Age)" [] (initial.ask [("Name", .string)])).2
  projected.ask [("Inner", .record 1 ["Name"] [.string])]

theorem recordTypes_numbered_nested :
    Leads .initial nested ∧ nested.records.shapes.map (·.1) = [["Name"], ["Age"], ["Inner"]] ∧
      (∃ names held, nested.records.Holds 3 names held) ∧
      ¬ (∃ names held, nested.records.Holds 4 names held) ∧
      ∃ id held, (nested.records.intern ["Age"] [.int32]).1 = .record id ["Age"] held ∧
        Ty.sameAll held [.int32] = true ∧
        (nested.ask [("Age", .int32)]).records.Holds id ["Age"] held := by
  have made : Leads .initial nested :=
    ((Relation.ReflTransGen.single (.call _ _)).tail (.expression _ _ _ _ _ _)).tail (.call _ _)
  have names : nested.records.shapes.map (·.1) = [["Name"], ["Age"], ["Inner"]] := by
    decide +kernel
  have length : nested.records.shapes.length = 3 := by
    rw [← List.length_map, names]
    rfl
  obtain ⟨inUse, -, call, -⟩ := recordTypes_numbered made
  refine ⟨made, names, (inUse 3).mpr (by omega), fun held => ?_, call [("Age", .int32)]⟩
  have bound := ((inUse 4).mp held).2
  omega

end Store

end QueryTree
