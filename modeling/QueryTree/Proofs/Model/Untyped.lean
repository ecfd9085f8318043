import QueryTree.Command.Run
import QueryTree.Proofs.Config.Keyword
import QueryTree.Proofs.Integral.Shift
import QueryTree.Proofs.Json.Normal
import QueryTree.Proofs.Literal.Text
import QueryTree.Proofs.Parallel.Primary

/-!
# Documents without a type

A document that is read where no type is known becomes a value from which the same document is
written: integers keep their number in whatever width holds them, texts are never taken for dates or
identifiers, and the members of objects are those of the document in the order of their names.  So
the text `it` gives back its input.
-/

namespace QueryTree

namespace Named

variable {α β : Type} {name : String} {part : α} {parts held : List (String × α)}

theorem map_insert (f : α → β) (name : String) (part : α) (parts : List (String × α)) :
    (insert name part parts).map (fun p => (p.1, f p.2)) =
      insert name (f part) (parts.map fun p => (p.1, f p.2)) := by
  induction parts with
  | nil => rfl
  | cons first rest ih =>
      obtain ⟨other, held⟩ := first
      rw [List.map_cons]
      unfold insert
      split
      next => rfl
      next =>
        split
        next => rfl
        next => rw [List.map_cons, ih]

/-- Parts are sorted by their names only. -/
theorem map_sort (f : α → β) (parts : List (String × α)) :
    (sort parts).map (fun p => (p.1, f p.2)) = sort (parts.map fun p => (p.1, f p.2)) := by
  have sorted (held : List (String × α)) :
      (parts.foldl (fun held part => insert part.1 part.2 held) held).map (fun p => (p.1, f p.2)) =
        (parts.map fun p => (p.1, f p.2)).foldl (fun held part => insert part.1 part.2 held)
          (held.map fun p => (p.1, f p.2)) := by
    induction parts generalizing held with
    | nil => rfl
    | cons first rest ih => rw [List.foldl_cons, ih, map_insert, List.map_cons, List.foldl_cons]
  exact sorted []

end Named

namespace Json

mutual

/-- Whether the numbers of a document are integers of 64 bits, with a sign or without one, and
finite real numbers. -/
def isExact : Json → Bool
  | int n => IntKind.int64.min ≤ n && n ≤ IntKind.uint64.max
  | real x => x.isFinite
  | array items => areExact items
  | object members => membersExact members
  | _ => true

/-- Whether the numbers of all documents of a list are exact. -/
def areExact : List Json → Bool
  | [] => true
  | item :: rest => isExact item && areExact rest

/-- Whether the numbers of all members of an object are exact. -/
def membersExact : List (String × Json) → Bool
  | [] => true
  | (_, value) :: rest => isExact value && membersExact rest

end

mutual

/-- A document that is normal stays as it is. -/
theorem normalize_eq_self : ∀ json : Json, json.IsNormal → json.normalize = json
  | array items, normal => by rw [normalize, normalizeAll_eq_self items normal]
  | object members, normal => by
      rw [normalize, normalizeMembers_eq_self members normal.2, Named.sort_eq_self normal.1]
  | null, _ | bool _, _ | int _, _ | real _, _ | string _, _ => rfl

theorem normalizeAll_eq_self : ∀ items : List Json, AreNormal items → normalizeAll items = items
  | [], _ => rfl
  | item :: rest, normal => by
      rw [normalizeAll, normalize_eq_self item normal.1, normalizeAll_eq_self rest normal.2]

theorem normalizeMembers_eq_self : ∀ members : List (String × Json), MembersNormal members →
    normalizeMembers members = members
  | [], _ => rfl
  | (name, value) :: rest, normal => by
      rw [normalizeMembers, normalize_eq_self value normal.1,
        normalizeMembers_eq_self rest normal.2]

end

end Json

namespace Value

variable {table : ClassTable}

theorem membersToJson_eq_map (members : List (String × Value)) :
    membersToJson members = members.map fun member => (member.1, member.2.toJson) := by
  induction members with
  | nil => rfl
  | cons first rest ih => rw [membersToJson, ih, List.map_cons]

/-- The members of an object are written in the order of their names. -/
theorem toJson_ofMembers (members : List (String × Value)) :
    (ofMembers members).toJson = .object (Named.sort (membersToJson members)) := by
  rw [ofMembers, toJson, membersToJson_eq_map, membersToJson_eq_map, Named.map_sort toJson]

/-- An integer of 64 bits keeps its number in the width that is chosen for it. -/
theorem toJson_ofIntegerNumber {n : Int} (least : IntKind.int64.min ≤ n)
    (greatest : n ≤ IntKind.uint64.max) : (ofIntegerNumber n).toJson = .int n := by
  unfold ofIntegerNumber
  split
  next integer found =>
    have value : integer.val = n := by
      cases small : Integer.ofInt? .int32 n with
      | some narrow =>
          rw [small] at found
          exact Option.some.inj found ▸ Integer.val_of_ofInt? small
      | none =>
          rw [small] at found
          exact Integer.val_of_ofInt? found
    rw [toJson, value]
  next missing =>
    have beyond : IntKind.int64.max < n := by
      by_contra within
      have fits : IntKind.int64.min ≤ n ∧ n ≤ IntKind.int64.max := ⟨least, by omega⟩
      cases small : Integer.ofInt? .int32 n with
      | some narrow => simp [small] at missing
      | none => simp [Integer.ofInt?, fits] at missing
    have positive : IntKind.uint64.min ≤ n := Int.le_trans (by decide) (Int.le_of_lt beyond)
    have kept : IntKind.uint64.wrapInt n = n := IntKind.wrapInt_of_inRange ⟨positive, greatest⟩
    rw [ofInteger, toJson, Integer.wrap_val, kept]

theorem ofString_object (text : String) : ofString .object text = .ok (string text) := rfl

mutual

/-- A document that is read without a type becomes a value from which it is written again. -/
theorem ofJson_object : ∀ json : Json, json.isExact = true →
    ∃ value, (∀ table, ofJson table .object json = .ok value) ∧ value.toJson = json.normalize
  | .null, _ => ⟨null, fun _ => rfl, rfl⟩
  | .bool b, _ => ⟨boolean b, fun _ => rfl, rfl⟩
  | .int n, exact => by
      obtain ⟨least, greatest⟩ := (Bool.and_eq_true _ _).mp exact
      exact ⟨ofIntegerNumber n, fun _ => rfl,
        toJson_ofIntegerNumber (of_decide_eq_true least) (of_decide_eq_true greatest)⟩
  | .real x, finite => ⟨double x, fun _ => rfl, if_pos finite⟩
  | .string s, _ => ⟨string s, fun _ => ofString_object s, rfl⟩
  | .array items, exact => by
      obtain ⟨values, read, written⟩ := ofJsonItems_object items exact
      refine ⟨array values, fun table => ?_, ?_⟩
      · exact map_eq_ok_iff.mpr ⟨values, read table, rfl⟩
      · rw [toJson, written, Json.normalize]
  | .object members, exact => by
      obtain ⟨values, read, written⟩ := ofJsonMembers_object members exact
      refine ⟨ofMembers values, fun table => ?_, ?_⟩
      · exact map_eq_ok_iff.mpr ⟨values, read table, rfl⟩
      · rw [toJson_ofMembers, written, Json.normalize]

theorem ofJsonItems_object : ∀ items : List Json, Json.areExact items = true →
    ∃ values, (∀ table, ofJsonItems table .object items = .ok values) ∧
      itemsToJson values = Json.normalizeAll items
  | [], _ => ⟨[], fun _ => rfl, rfl⟩
  | item :: rest, exact => by
      obtain ⟨isExact, others⟩ := (Bool.and_eq_true _ _).mp exact
      obtain ⟨value, read, written⟩ := ofJson_object item isExact
      obtain ⟨values, readRest, writtenRest⟩ := ofJsonItems_object rest others
      refine ⟨value :: values, fun table => ?_, ?_⟩
      · rw [ofJsonItems, read, readRest]
        rfl
      · rw [itemsToJson, written, writtenRest, Json.normalizeAll]

theorem ofJsonMembers_object : ∀ members : List (String × Json),
    Json.membersExact members = true →
    ∃ values, (∀ table, ofJsonMembers table [] members = .ok values) ∧
      membersToJson values = Json.normalizeMembers members
  | [], _ => ⟨[], fun _ => rfl, rfl⟩
  | (name, item) :: rest, exact => by
      obtain ⟨isExact, others⟩ := (Bool.and_eq_true _ _).mp exact
      obtain ⟨value, read, written⟩ := ofJson_object item isExact
      obtain ⟨values, readRest, writtenRest⟩ := ofJsonMembers_object rest others
      have noMember : memberType [] name = .object := rfl
      refine ⟨(name, value) :: values, fun table => ?_, ?_⟩
      · rw [ofJsonMembers, noMember, read, readRest]
        rfl
      · rw [membersToJson, written, writtenRest, Json.normalizeMembers]

end

end Value

/-! ## The current element -/

/-- The name of the current element means it in every environment. -/
theorem Environment.keyword?_current (options : Options) (registry : TypeRegistry)
    (classes : ClassTable) :
    (Environment.of options registry classes).keyword? "it" = some (.context .it) := by
  have reserved : KeywordTable.reserved? options (options.fold "it") =
      some (.context .it) := by
    cases sensitive : options.caseSensitive with
    | true =>
        have fold : options.fold = id := funext fun name => if_pos sensitive
        rw [KeywordTable.reserved?, fold]
        rfl
    | false =>
        have fold : options.fold = Text.foldCase := funext fun name => if_neg (by simp [sensitive])
        rw [KeywordTable.reserved?, fold]
        have found : ((KeywordTable.words ++ KeywordTable.typeNames).find? fun entry =>
            Text.foldCase entry.1 == Text.foldCase "it") = some ("it", .context .it) := by
          rfl
        rw [found]
        rfl
  rw [keyword?, of, KeywordTable.lookup_ofTypes, reserved, Option.some_or]

/-- The text `it` over one element without a name compiles to the function that returns it. -/
theorem compileFunction_current {env : Environment} {p : Parameter} {text : String}
    (isElement : env.keyword? "it" = some (.context .it)) (unnamed : p.name.isEmpty = true)
    (spaced : Spaced ["it"] text.toList) (store : Store) :
    compileFunction env [p] none text [] store = (.ok (.lambda [p] (.parameter p)), store) := by
  have context : CompileContext.of env [p] [] = .ok ⟨env, [], []⟩ := by
    have noSymbols : CompileContext.parameterSymbols [p] ++ CompileContext.argumentSymbols 0 [] =
        [] := by
      simp [CompileContext.parameterSymbols, CompileContext.argumentSymbols, unnamed]
    rw [CompileContext.of, noSymbols]
    rfl
  have scans : ∀ word ∈ [Word.name "it"], word.Scans :=
    List.forall_mem_singleton.mpr (Word.scans_name (by decide +kernel))
  have spaced' : Spaced ([Word.name "it"].map Word.text) text.toList := spaced
  obtain ⟨tokens, finish, scanned, words, isFinish⟩ :=
    Scan.ofText_spaced spaced' scans env.options.decimalSeparator
  obtain ⟨token, rest, tokens_eq⟩ : ∃ token rest, tokens ++ [finish] = token :: rest :=
    List.exists_cons_of_ne_nil (by simp)
  let session : Session := ⟨token, rest, none, .of (.outermost (some p)), .empty, store⟩
  have start : Session.start (Scan.ofText text env.options.decimalSeparator) [p] store =
      .ok session := by
    rw [scanned, Session.start, tokens_eq, Session.initialElement?, if_pos unnamed]
  have begins : session.Begins [.name "it"] finish [] := ⟨tokens, words, tokens_eq.symm⟩
  obtain ⟨isWord, isNext⟩ := begins.single
  have isKind : session.current.kind = .identifier := congrArg Word.kind isWord
  have isText : session.current.text = "it" := congrArg Word.text isWord
  let ctx : CompileContext := ⟨env, [], []⟩
  have denotes : ctx.Denotes session.scopes.current session.internals session.current.text p := by
    refine .inl ⟨?_, rfl⟩
    rw [CompileContext.visibleKeyword?, isText, isElement]
    rfl
  have atom (expression : Parse Expr) :
      ctx.atom expression session = .ok (.parameter p) (session.moveTo finish []) := by
    rw [CompileContext.atom, Parse.bind_eq (Parse.current_eq session)]
    simp only [isKind]
    rw [denotes.name_eq, Parse.bind_eq (Parse.advance_eq isNext)]
    rfl
  have unary (expression : Parse Expr) :
      ctx.unary expression session = .ok (.parameter p) (session.moveTo finish []) := by
    rw [CompileContext.unary, Parse.bind_eq (Parse.tokensLeft_eq session),
      CompileContext.unaryFrom_eq_primary (isKind ▸ by decide) (isKind ▸ by decide)]
    exact CompileContext.primary_eq (atom expression) (isFinish ▸ rfl)
  have ran : ctx.body none session =
      Parse.lift (.ok (Expr.parameter p)) (session.moveTo finish []) :=
    CompileContext.body_of_unary unary isFinish
  rw [compileFunction, compileExpr, compileText_eq context start ran]
  rfl

namespace Request

variable {request : Request} {model : Model} {json : Json}

/-- The members of every object of an input are sorted. -/
theorem inputJson_isNormal (input : request.inputJson = .ok json) : json.IsNormal := by
  unfold inputJson at input
  split at input
  next => cases input
  next =>
    split at input
    next read _ => exact Except.ok.inj input ▸ Json.normalize_isNormal read
    next => cases input

/-- The text `it` over an element without a type gives back what its value is written as. -/
theorem eval_current {value : Value} (loaded : Model.ofText request.schema = .ok model)
    (untyped : model.elementType request.it = .ok .object)
    (spaced : Spaced ["it"] request.text.toList) (input : request.inputJson = .ok json)
    (read : Value.ofJson model.classes .object json = .ok value) (now : DateTime) :
    request.eval now = .ok value.toJson := by
  have isElement : model.environment.keyword? "it" = some (.context .it) :=
    Environment.keyword?_current ..
  have compiled : request.compile model .object =
      .ok (.lambda [(element .object).1] (.parameter (element .object).1)) := by
    rw [compile, element]
    simp only [compileFunction_current isElement (p := (Store.initial.newParameter "" .object).1)
      rfl spaced]
    rfl
  have isInput : inputValue model .object json = .ok value := by rw [inputValue, read]
  simp only [eval, loaded, untyped, compiled, input, isInput, bind, Except.bind]
  rfl

/-- Documents whose integers have 64 bits and whose other numbers are finite pass through unchanged
where no type is known: the value that is read is written as the same document, with the members of
objects in order, and so the text `it` over an untyped element gives back its input. -/
theorem untyped_unchanged (exact : json.isExact = true) :
    (∃ value, (∀ table, Value.ofJson table .object json = .ok value) ∧
      value.toJson = json.normalize ∧ (json.IsNormal → value.toJson = json)) ∧
    ∀ (request : Request) model now, Model.ofText request.schema = .ok model →
      model.elementType request.it = .ok .object → Spaced ["it"] request.text.toList →
      request.inputJson = .ok json → request.eval now = .ok json := by
  obtain ⟨value, read, written⟩ := Value.ofJson_object json exact
  have unchanged (normal : json.IsNormal) : value.toJson = json :=
    written.trans (Json.normalize_eq_self json normal)
  refine ⟨⟨value, read, written, unchanged⟩, ?_⟩
  intro request model now loaded untyped spaced input
  have normal : json.IsNormal := inputJson_isNormal input
  rw [eval_current loaded untyped spaced input (read _), unchanged normal]

section Example

/-- The text `it` over an untyped element. -/
def untypedRequest (input : String) : Request := ⟨"it", "\x7b\x7d", some "Object", some input⟩

/-- Extreme integers of some widths, texts that look like dates and numbers, and an object in an
array. -/
def mixedDocument : String :=
  "\x7b\"a\":[-9223372036854775808,2147483648,18446744073709551615,null],"
    ++ "\"b\":[\x7b\"day\":\"2024-01-01\",\"n\":\"41\"\x7d,true]\x7d"

theorem untyped_unchanged_mixed :
    ∃ json, (untypedRequest mixedDocument).inputJson = .ok json ∧ json.isExact = true ∧
      json.text = mixedDocument ∧
      ∀ now, (untypedRequest mixedDocument).eval now = .ok json := by
  obtain ⟨json, input, facts⟩ := exists_ok_of_any
    (show (untypedRequest mixedDocument).inputJson.toOption.any (fun json =>
      json.isExact && json.text == mixedDocument) = true by decide +kernel)
  obtain ⟨exact, same⟩ := (Bool.and_eq_true _ _).mp facts
  obtain ⟨model, loaded, -⟩ := exists_ok_of_any
    (show (Model.ofText "\x7b\x7d").toOption.any (fun _ => true) = true by decide +kernel)
  refine ⟨json, input, exact, eq_of_beq same, fun now => ?_⟩
  exact (untyped_unchanged exact).2 _ model now loaded rfl (Spaced.intercalate ["it"]) input

end Example

end Request

end QueryTree
