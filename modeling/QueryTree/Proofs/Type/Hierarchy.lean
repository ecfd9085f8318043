import QueryTree.Type.Class
import Mathlib.Data.List.Perm.Subperm
import Mathlib.Logic.Relation

/-!
# Base types of classes

The base types of a class, found by a walk of bounded length and by one without a bound.
-/

namespace QueryTree

/-! ## Class hierarchies

The base types of a class, nearest first, are found by a walk of bounded length.  What the walk
meets at all it meets within the bound, as no class stands twice before the first meeting, so that
the ancestors of an ancestor are ancestors.  Where no class extends itself, the bound is never met.
-/

theorem Ty.eq_cls_of_class? {t : Ty} {c : ClassRef} (isClass : t.class? = some c) :
    t = .cls c := by
  cases t <;> cases isClass
  rfl

/-- Nothing that is reached from a start reaches itself. -/
def AcyclicFrom {α : Type} (r : α → α → Prop) (start : α) : Prop :=
  ∀ a, Relation.ReflTransGen r start a → ¬ Relation.TransGen r a a

namespace ClassTable

variable {table : ClassTable} {c b : ClassRef} {t : Ty}

/-- A class declares another class as its base. -/
def Extends (table : ClassTable) (c b : ClassRef) : Prop := (table.body c).base = some (.cls b)

/-- The base type at a distance from a class, the declared one being at distance zero. -/
def baseAt? (table : ClassTable) : Nat → ClassRef → Option Ty
  | 0, c => (table.body c).base
  | n + 1, c => ((table.body c).base.bind Ty.class?).bind (baseAt? table n)

theorem body_congr (same : c.index = b.index) : table.body c = table.body b := by
  rw [body, body, same]

theorem ancestors_congr (same : c.index = b.index) : table.ancestors c = table.ancestors b := by
  rw [ancestors, ancestors, body_congr same]

theorem baseAt?_congr {n : Nat} (same : c.index = b.index) :
    table.baseAt? n c = table.baseAt? n b := by
  cases n <;> rw [baseAt?, baseAt?, body_congr same]

theorem index_lt_of_base (hasBase : (table.body c).base = some t) : c.index < table.size := by
  by_contra outside
  simp [body, Array.getElem?_eq_none (Nat.le_of_not_lt outside), ClassBody.empty] at hasBase

theorem chain_getElem? (fuel n : Nat) (c : ClassRef) :
    (chain table fuel (table.body c).base)[n]? = if n < fuel then table.baseAt? n c else none := by
  induction fuel generalizing n c with
  | zero => cases (table.body c).base <;> simp [chain]
  | succ fuel ih =>
      cases n with
      | zero => cases base : (table.body c).base <;> simp [chain, baseAt?, base]
      | succ n =>
          cases base : (table.body c).base with
          | none => simp [chain, baseAt?, base]
          | some parent =>
              cases isClass : parent.class? with
              | none => simp [chain, baseAt?, base, isClass]
              | some b => simp [chain, baseAt?, base, isClass, ih]

/-- Behind a base type the walk goes on from that type. -/
theorem baseAt?_beyond {n : Nat} (isBase : table.baseAt? n c = some t) (m : Nat) :
    table.baseAt? (n + 1 + m) c = t.class?.bind (table.baseAt? m) := by
  induction n generalizing c with
  | zero =>
      have base : (table.body c).base = some t := isBase
      simp [Nat.add_comm 1 m, baseAt?, base]
  | succ n ih =>
      obtain ⟨parent, isParent, above⟩ := Option.bind_eq_some_iff.mp isBase
      rw [Nat.add_right_comm, baseAt?, isParent]
      exact ih above

theorem transGen_of_baseAt? {n : Nat} (isBase : table.baseAt? n c = some (.cls b)) :
    Relation.TransGen table.Extends c b := by
  induction n generalizing c with
  | zero => exact .single isBase
  | succ n ih =>
      obtain ⟨parent, isParent, above⟩ := Option.bind_eq_some_iff.mp isBase
      obtain ⟨t, base, isClass⟩ := Option.bind_eq_some_iff.mp isParent
      obtain rfl := Ty.eq_cls_of_class? isClass
      exact .head base (ih above)

/-- The classes below a base type that is met for the first time, as many as it is far away, are all
different. -/
theorem classes_below {n : Nat} (isBase : table.baseAt? n c = some t)
    (first : ∀ m < n, table.baseAt? m c ≠ some t) :
    ∃ indices : List Nat, indices.length = n + 1 ∧ indices.Nodup ∧ ∀ i ∈ indices,
      i < table.size ∧ ∃ (d : ClassRef) (m : Nat), d.index = i ∧ m ≤ n ∧
        table.baseAt? m d = some t := by
  induction n generalizing c with
  | zero =>
      refine ⟨[c.index], rfl, List.pairwise_singleton .., fun i member => ?_⟩
      obtain rfl := List.mem_singleton.mp member
      exact ⟨index_lt_of_base isBase, c, 0, rfl, Nat.le_refl 0, isBase⟩
  | succ n ih =>
      obtain ⟨parent, isParent, above⟩ := Option.bind_eq_some_iff.mp isBase
      obtain ⟨u, base, isClass⟩ := Option.bind_eq_some_iff.mp isParent
      have first_above (m : Nat) (before : m < n) : table.baseAt? m parent ≠ some t := by
        have later := first (m + 1) (Nat.succ_lt_succ before)
        rwa [baseAt?, isParent] at later
      obtain ⟨indices, length, distinct, each⟩ := ih above first_above
      refine ⟨c.index :: indices, by rw [List.length_cons, length], ?_, fun i member => ?_⟩
      · refine List.nodup_cons.mpr ⟨fun again => ?_, distinct⟩
        -- From a class in the place of the first one the base type would have been met before.
        obtain ⟨-, d, m, place, bound, met⟩ := each _ again
        rw [baseAt?_congr place] at met
        exact first m (Nat.lt_succ_of_le bound) met
      · obtain rfl | member := List.mem_cons.mp member
        · exact ⟨index_lt_of_base base, c, n + 1, rfl, Nat.le_refl _, isBase⟩
        · obtain ⟨bound, d, m, place, near, met⟩ := each i member
          exact ⟨bound, d, m, place, Nat.le_succ_of_le near, met⟩

/-- A base type is met within as many steps as there are classes, even if the walk has no end. -/
theorem exists_baseAt?_lt_size {n : Nat} (isBase : table.baseAt? n c = some t) :
    ∃ m < table.size, table.baseAt? m c = some t := by
  induction n using Nat.strongRecOn with
  | ind n ih =>
      by_cases earlier : ∃ m < n, table.baseAt? m c = some t
      · obtain ⟨m, before, met⟩ := earlier
        exact ih m before met
      · obtain ⟨indices, length, distinct, each⟩ :=
          classes_below isBase fun m before met => earlier ⟨m, before, met⟩
        have within : indices ⊆ List.range table.size := fun i member =>
          List.mem_range.mpr (each i member).1
        have bound := (distinct.subperm within).length_le
        rw [length, List.length_range] at bound
        exact ⟨n, bound, isBase⟩

/-- The ancestors are the base types at any distance. -/
theorem mem_ancestors_iff : t ∈ table.ancestors c ↔ ∃ n, table.baseAt? n c = some t := by
  simp only [ancestors, List.mem_iff_getElem?, chain_getElem?, Option.ite_none_right_eq_some,
    Nat.lt_succ_iff]
  constructor
  · rintro ⟨n, -, isBase⟩
    exact ⟨n, isBase⟩
  · rintro ⟨n, isBase⟩
    obtain ⟨m, within, isBase⟩ := exists_baseAt?_lt_size isBase
    exact ⟨m, Nat.le_of_lt within, isBase⟩

/-- The base types of an ancestor are ancestors. -/
theorem mem_ancestors_trans (isAncestor : .cls b ∈ table.ancestors c)
    (isBase : t ∈ table.ancestors b) : t ∈ table.ancestors c := by
  obtain ⟨n, reaches⟩ := mem_ancestors_iff.mp isAncestor
  obtain ⟨m, further⟩ := mem_ancestors_iff.mp isBase
  exact mem_ancestors_iff.mpr ⟨_, (baseAt?_beyond reaches m).trans further⟩

/-- Where no class on the way extends itself, no base type is met twice. -/
theorem baseAt?_inj {m n : Nat} (acyclic : AcyclicFrom table.Extends c)
    (isBase : table.baseAt? m c = some t) (isBase' : table.baseAt? n c = some t) : m = n := by
  wlog before : m < n generalizing m n
  · by_contra differ
    exact differ (this isBase' isBase (by omega)).symm
  obtain ⟨k, rfl⟩ := Nat.exists_eq_add_of_le (Nat.succ_le_of_lt before)
  obtain ⟨b, isClass, again⟩ :=
    Option.bind_eq_some_iff.mp ((baseAt?_beyond isBase k).symm.trans isBase')
  obtain rfl := Ty.eq_cls_of_class? isClass
  exact absurd (transGen_of_baseAt? again)
    (acyclic b (transGen_of_baseAt? isBase).to_reflTransGen)

theorem lt_size_of_baseAt? {n : Nat} (acyclic : AcyclicFrom table.Extends c)
    (isBase : table.baseAt? n c = some t) : n < table.size := by
  obtain ⟨m, within, isBase'⟩ := exists_baseAt?_lt_size isBase
  rwa [baseAt?_inj acyclic isBase isBase']

end ClassTable

end QueryTree

namespace QueryTree.ClassTable

/-! ## Walks to base types

The base types of a class by a walk without a bound.  Such a walk may have no end: it ends exactly
where no class on the way extends itself, and then its bounded form is all of it.
-/

variable {table : ClassTable} {c b : ClassRef} {base? : Option Ty} {bases others : List Ty}

/-- From base type to base type until a type declares none: the walk ends after the listed types. -/
inductive Walk (table : ClassTable) : Option Ty → List Ty → Prop
  | done : Walk table none []
  | step {base : Ty} {rest : List Ty}
      (further : Walk table (base.class?.bind fun c => (table.body c).base) rest) :
      Walk table (some base) (base :: rest)

/-- The walk from a class to its base types ends after the listed ones. -/
def Reaches (table : ClassTable) (c : ClassRef) (bases : List Ty) : Prop :=
  table.Walk (table.body c).base bases

theorem Walk.unique (one : table.Walk base? bases) (other : table.Walk base? others) :
    bases = others := by
  induction one generalizing others with
  | done =>
      cases other
      rfl
  | step further ih =>
      cases other with
      | step same => rw [ih same]

/-- A walk that meets no base type at a distance has ended before. -/
theorem reaches_chain {n : Nat} (ended : table.baseAt? n c = none) :
    table.Reaches c (chain table n (table.body c).base) := by
  induction n generalizing c with
  | zero =>
      have none : (table.body c).base = none := ended
      rw [Reaches, none]
      exact .done
  | succ n ih =>
      rw [Reaches]
      cases base : (table.body c).base with
      | none => exact .done
      | some parent =>
          rw [chain]
          refine .step ?_
          cases isClass : parent.class? with
          | none =>
              rw [Option.bind_none]
              cases n <;> exact .done
          | some b => exact ih (by simpa [baseAt?, base, isClass] using ended)

theorem Reaches.tail (walk : table.Reaches c bases) (base : table.Extends c b) :
    ∃ rest, table.Reaches b rest ∧ bases = .cls b :: rest := by
  rw [Reaches, show (table.body c).base = some (.cls b) from base] at walk
  cases walk with
  | step further => exact ⟨_, further, rfl⟩

theorem Reaches.shorter (walk : table.Reaches c bases)
    (reaches : Relation.TransGen table.Extends c b) :
    ∃ rest, table.Reaches b rest ∧ rest.length < bases.length := by
  induction reaches with
  | single base =>
      obtain ⟨rest, further, rfl⟩ := walk.tail base
      exact ⟨rest, further, Nat.lt_succ_self _⟩
  | tail _ base ih =>
      obtain ⟨rest, further, bound⟩ := ih
      obtain ⟨last, beyond, rfl⟩ := further.tail base
      exact ⟨last, beyond, Nat.lt_of_succ_lt bound⟩

/-- A walk that ends meets no class that extends itself. -/
theorem Reaches.acyclicFrom (walk : table.Reaches c bases) : AcyclicFrom table.Extends c := by
  intro b reaches again
  obtain ⟨rest, further⟩ : ∃ rest, table.Reaches b rest := by
    obtain rfl | reaches := Relation.reflTransGen_iff_eq_or_transGen.mp reaches
    · exact ⟨bases, walk⟩
    · obtain ⟨rest, further, -⟩ := walk.shorter reaches
      exact ⟨rest, further⟩
  obtain ⟨rest', further', shorter⟩ := further.shorter again
  obtain rfl := further.unique further'
  exact Nat.lt_irrefl _ shorter

/-- Where no class on the way extends itself, the ancestors are all of the walk. -/
theorem reaches_ancestors (acyclic : AcyclicFrom table.Extends c) :
    table.Reaches c (table.ancestors c) := by
  have ended (n : Nat) (beyond : table.size ≤ n) : table.baseAt? n c = none := by
    by_contra met
    obtain ⟨t, isBase⟩ := Option.ne_none_iff_exists'.mp met
    exact absurd (lt_size_of_baseAt? acyclic isBase) (Nat.not_lt.mpr beyond)
  exact reaches_chain (ended _ (Nat.le_succ _))

theorem reaches_iff :
    table.Reaches c bases ↔ AcyclicFrom table.Extends c ∧ table.ancestors c = bases := by
  constructor
  · intro walk
    exact ⟨walk.acyclicFrom, (reaches_ancestors walk.acyclicFrom).unique walk⟩
  · rintro ⟨acyclic, rfl⟩
    exact reaches_ancestors acyclic

end QueryTree.ClassTable
