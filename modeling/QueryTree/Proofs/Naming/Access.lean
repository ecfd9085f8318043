import QueryTree.Proofs.Compile.Node
import QueryTree.Proofs.Evaluate.Declared

/-!
# Methods of classes that are not known

A method may be called if its class or the type of its result is known, which is to say predefined or
custom.  Of the class of a method only the simple name is looked at.  A class that is not known, but
has the name of a type that is, is not told apart from it.
-/

namespace QueryTree

namespace Environment

variable {env : Environment} {c : ClassRef} {m : Method}

/-! ## Calls in compiled trees -/

/-- Each method that a node calls has a class with a known name, or a result of a known type. -/
def CallsAllowed (env : Environment) (node : Expr) : Prop :=
  ∀ m, node.method? = some m →
    env.knowsTypeName m.declaringType = true ∨ m.result.any env.knowsType = true

theorem nodesKeep_callsAllowed (ctx : CompileContext) (tokens : List Token) :
    ctx.NodesKeep tokens ctx.env.CallsAllowed := by
  apply CompileContext.NodesKeep.of_operations
  case other =>
    intro node isOther m isMethod
    cases node with
    | staticCall | methodCall => cases isOther
    | _ => cases isMethod
  case operation => exact fun type op left right _ => nofun
  case comparison =>
    intro token op left right e _ outcome
    obtain ⟨_, _, _, rfl, -⟩ := Expr.comparison_cases outcome
    exact nofun
  case call =>
    intro receiver type method args _ mayCall m isMethod
    obtain rfl : method = m := by
      cases receiver <;> exact Option.some.inj isMethod
    exact (Bool.or_eq_true _ _).mp mayCall

/-- In every compiled tree the methods that are called have a class with a known name, or a result
of a known type. -/
theorem Compiles.callsAllowed {e : Expr} (compiles : env.Compiles e) :
    e.Everywhere env.CallsAllowed :=
  compiles.everywhere fun ctx tokens isEnv => isEnv ▸ nodesKeep_callsAllowed ctx tokens

/-! ## Methods that should not be called -/

/-- A class declares a method, and neither the class nor the type of the result is known. -/
structure Hides (env : Environment) (c : ClassRef) (m : Method) : Prop where
  declared : m ∈ (env.classes.body c).methods
  owned : m.declaringType = c.name
  unknownClass : env.knowsType (.cls c) = false
  unknownResult : m.result.any env.knowsType = false

/-- A type that can be named by a name, because it is predefined or custom. -/
def Named (env : Environment) (name : String) (t : Ty) : Prop :=
  (name, t) ∈ predefinedTypes ∨
    t ∈ env.registry.custom ∧ (t.simpleName = name ∨ t.fullName = name)

theorem knowsTypeName_iff {name : String} :
    env.knowsTypeName name = true ↔ ∃ t, env.Named name t := by
  rw [knowsTypeName, Bool.or_eq_true, List.any_eq_true, List.any_eq_true]
  constructor
  · rintro (⟨⟨_, t⟩, predefined, same⟩ | ⟨t, custom, same⟩)
    · exact ⟨t, .inl (eq_of_beq same ▸ predefined)⟩
    · refine ⟨t, .inr ⟨custom, ?_⟩⟩
      simpa using same
  · rintro ⟨t, predefined | ⟨custom, same⟩⟩
    · exact .inl ⟨_, predefined, beq_self_eq_true _⟩
    · exact .inr ⟨t, custom, by simpa using same⟩

/-- A type with the name of a class that is not known is another one. -/
theorem Named.other {t : Ty} (named : env.Named c.name t)
    (unknown : env.knowsType (.cls c) = false) : (t == .cls c) = false := by
  obtain ⟨noPredefined, noCustom⟩ := (Bool.or_eq_false_iff).mp unknown
  rw [List.any_eq_false] at noPredefined noCustom
  obtain predefined | ⟨custom, -⟩ := named
  · exact Bool.eq_false_of_not_eq_true (noPredefined _ predefined)
  · exact Bool.eq_false_of_not_eq_true (noCustom t custom)

variable {ctx : CompileContext} {receiver : Receiver} {name : String} {position : Nat}
  {args promoted : List Expr}

theorem methodCall_found
    (found : receiver.memberType.resolveMethod ctx.env.classes name receiver.isStatic args =
      .found m promoted) :
    ctx.methodCall receiver name position args =
      if ctx.mayCall m = true then
        match m.result with
        | none => .error ⟨position, .methodWithoutResult name receiver.memberType⟩
        | some result => .ok (receiver.call result m promoted)
      else .error ⟨position, .inaccessibleMethods m.declaringType⟩ := by
  simp only [CompileContext.methodCall, found]
  cases ctx.mayCall m <;> rfl

/-- A method whose class and result are not known is inaccessible wherever a call finds it, and no
compiled tree calls it, unless a known type has the name of the class.  This is then another type,
and each call that finds the method compiles if the method has a result. -/
theorem Hides.inaccessible (hides : env.Hides c m) :
    ((¬ ∃ t, env.Named c.name t) →
      (∀ (ctx : CompileContext) (receiver : Receiver) name position args promoted, ctx.env = env →
        receiver.memberType.resolveMethod env.classes name receiver.isStatic args =
          .found m promoted →
        ctx.methodCall receiver name position args =
          .error ⟨position, .inaccessibleMethods c.name⟩) ∧
      ∀ e, env.Compiles e → e.Everywhere fun node => node.method? ≠ some m) ∧
    ∀ t, env.Named c.name t → (t == .cls c) = false ∧
      ∀ (ctx : CompileContext) (receiver : Receiver) name position args promoted, ctx.env = env →
        receiver.memberType.resolveMethod env.classes name receiver.isStatic args =
          .found m promoted →
        ctx.methodCall receiver name position args =
          match m.result with
          | none => .error ⟨position, .methodWithoutResult name receiver.memberType⟩
          | some result => .ok (receiver.call result m promoted) := by
  have mayCall (ctx : CompileContext) (isEnv : ctx.env = env) :
      ctx.mayCall m = env.knowsTypeName c.name := by
    rw [CompileContext.mayCall, isEnv, hides.owned, hides.unknownResult, Bool.or_false]
  refine ⟨fun unnamed => ⟨?_, fun e compiles => ?_⟩,
    fun t named => ⟨named.other hides.unknownClass, ?_⟩⟩
  · intro ctx receiver name position args promoted isEnv found
    have unknown : ¬ ctx.mayCall m = true := by
      rw [mayCall ctx isEnv]
      exact fun known => unnamed (knowsTypeName_iff.mp known)
    rw [methodCall_found (isEnv ▸ found), if_neg unknown, hides.owned]
  · refine compiles.callsAllowed.imp fun node callsAllowed isMethod => ?_
    obtain known | known := callsAllowed m isMethod
    · exact unnamed (knowsTypeName_iff.mp (hides.owned ▸ known))
    · rw [hides.unknownResult] at known
      cases known
  · intro ctx receiver name position args promoted isEnv found
    have known : ctx.mayCall m = true := by
      rw [mayCall ctx isEnv]
      exact knowsTypeName_iff.mpr ⟨t, named⟩
    rw [methodCall_found (isEnv ▸ found), if_pos known]

end Environment

section Example

/-- A class of vaults. -/
def vault : ClassRef := ⟨"Vault", some "Acme", false, 1⟩

/-- A class that has the name of a predefined one. -/
def homonym : ClassRef := ⟨"Math", some "Acme", false, 2⟩

/-- A method of vaults. -/
def openVault : Method := .instanceMethod "Vault" "Open" [] (.cls vault)

/-- A method of the other class. -/
def showVault : Method := .instanceMethod "Math" "Secret" [] (.cls vault)

/-- An environment in which both classes are declared and neither is custom. -/
def overVault : Environment :=
  .of .initial .empty
    #[some mathBody, some { ClassBody.empty with methods := [openVault] },
      some { ClassBody.empty with methods := [showVault] }]

/-- Whether a compile fails because the methods of a class are inaccessible. -/
def failsInaccessible (position : Nat) (name : String) : Except CompileError Expr → Bool
  | .error ⟨place, .inaccessibleMethods other⟩ => place == position && other == name
  | _ => false

/-- Vaults cannot be opened. -/
theorem inaccessible_vault :
    overVault.Hides vault openVault ∧ (¬ ∃ t, overVault.Named "Vault" t) ∧
      (∀ e, overVault.Compiles e → e.Everywhere fun node => node.method? ≠ some openVault) ∧
      failsInaccessible 2 "Vault"
        (compileFunction overVault [⟨0, "v", .cls vault⟩] none "v.Open()" [] ⟨.empty, 1⟩).1 =
          true := by
  have hides : overVault.Hides vault openVault :=
    ⟨List.mem_singleton_self _, rfl, by decide +kernel, by decide +kernel⟩
  have unnamed : ¬ ∃ t, overVault.Named "Vault" t := by
    rw [← Environment.knowsTypeName_iff]
    decide +kernel
  exact ⟨hides, unnamed, (hides.inaccessible.1 unnamed).2, by decide +kernel⟩

/-- But a method of a class with the name of a predefined one is called, although neither this class
nor that of its result is known. -/
theorem accessible_homonym :
    overVault.Hides homonym showVault ∧
      ∃ function, (compileFunction overVault [⟨0, "m", .cls homonym⟩] none "m.Secret()" []
        ⟨.empty, 1⟩).1 = .ok function := by
  refine ⟨⟨List.mem_singleton_self _, rfl, by decide +kernel, by decide +kernel⟩, ?_⟩
  obtain ⟨function, compiled, -⟩ := exists_ok_of_any
    (show (compileFunction overVault [⟨0, "m", .cls homonym⟩] none "m.Secret()" []
      ⟨.empty, 1⟩).1.toOption.any (fun _ => true) = true by decide +kernel)
  exact ⟨function, compiled⟩

end Example

end QueryTree
