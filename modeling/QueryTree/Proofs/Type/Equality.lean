import QueryTree.Config.Options

/-!
# Sameness of types

Sameness of types is an equivalence relation, although it looks neither at the place of a class in
the table of bodies nor at the number of a record type.
-/

namespace QueryTree

namespace Ty

mutual

theorem same_refl : ∀ t : Ty, same t t = true
  | atom a => by simp [same]
  | nullable a | array a | list a | sequence a => by simp [same, same_refl a]
  | grouping key a => by simp [same, same_refl key, same_refl a]
  | lambda params result => by simp [same, sameAll_refl params, same_refl result]
  | enum e => by simp [same, EnumType.same]
  | cls c => by simp [same, ClassRef.same]
  | record _ names types => by simp [same, sameAll_refl types]

theorem sameAll_refl : ∀ ts : List Ty, sameAll ts ts = true
  | [] => by simp [sameAll]
  | t :: ts => by simp [sameAll, same_refl t, sameAll_refl ts]

end

mutual

theorem same_symm : ∀ {t u : Ty}, same t u = true → same u t = true
  | atom _, u, h => by cases u <;> simp_all [same]
  | nullable a, u, h | array a, u, h | list a, u, h | sequence a, u, h => by
      cases u <;> simp only [same, Bool.false_eq_true] at h ⊢
      exact same_symm h
  | grouping key a, u, h => by
      cases u <;> simp only [same, Bool.false_eq_true, Bool.and_eq_true] at h ⊢
      exact ⟨same_symm h.1, same_symm h.2⟩
  | lambda params result, u, h => by
      cases u <;> simp only [same, Bool.false_eq_true, Bool.and_eq_true] at h ⊢
      exact ⟨sameAll_symm h.1, same_symm h.2⟩
  | enum e, u, h => by cases u <;> simp_all [same, EnumType.same]
  | cls c, u, h => by cases u <;> simp_all [same, ClassRef.same]
  | record _ names types, u, h => by
      cases u <;> simp only [same, Bool.false_eq_true, Bool.and_eq_true, beq_iff_eq] at h ⊢
      exact ⟨h.1.symm, sameAll_symm h.2⟩

theorem sameAll_symm : ∀ {ts us : List Ty}, sameAll ts us = true → sameAll us ts = true
  | [], us, h => by cases us <;> simp_all [sameAll]
  | t :: ts, us, h => by
      cases us <;> simp only [sameAll, Bool.false_eq_true, Bool.and_eq_true] at h ⊢
      exact ⟨same_symm h.1, sameAll_symm h.2⟩

end

mutual

theorem same_trans : ∀ {t u v : Ty}, same t u = true → same u v = true → same t v = true
  | atom _, u, v, h, k => by cases u <;> cases v <;> simp_all [same]
  | nullable a, u, v, h, k | array a, u, v, h, k | list a, u, v, h, k
  | sequence a, u, v, h, k => by
      cases u <;> simp only [same, Bool.false_eq_true] at h
      cases v <;> simp only [same, Bool.false_eq_true] at k ⊢
      exact same_trans h k
  | grouping key a, u, v, h, k => by
      cases u <;> simp only [same, Bool.false_eq_true, Bool.and_eq_true] at h
      cases v <;> simp only [same, Bool.false_eq_true, Bool.and_eq_true] at k ⊢
      exact ⟨same_trans h.1 k.1, same_trans h.2 k.2⟩
  | lambda params result, u, v, h, k => by
      cases u <;> simp only [same, Bool.false_eq_true, Bool.and_eq_true] at h
      cases v <;> simp only [same, Bool.false_eq_true, Bool.and_eq_true] at k ⊢
      exact ⟨sameAll_trans h.1 k.1, same_trans h.2 k.2⟩
  | enum e, u, v, h, k => by cases u <;> cases v <;> simp_all [same, EnumType.same]
  | cls c, u, v, h, k => by cases u <;> cases v <;> simp_all [same, ClassRef.same]
  | record _ names types, u, v, h, k => by
      cases u <;> simp only [same, Bool.false_eq_true, Bool.and_eq_true, beq_iff_eq] at h
      cases v <;> simp only [same, Bool.false_eq_true, Bool.and_eq_true, beq_iff_eq] at k ⊢
      exact ⟨h.1.trans k.1, sameAll_trans h.2 k.2⟩

theorem sameAll_trans : ∀ {ts us vs : List Ty},
    sameAll ts us = true → sameAll us vs = true → sameAll ts vs = true
  | [], us, vs, h, k => by cases us <;> cases vs <;> simp_all [sameAll]
  | t :: ts, us, vs, h, k => by
      cases us <;> simp only [sameAll, Bool.false_eq_true, Bool.and_eq_true] at h
      cases vs <;> simp only [sameAll, Bool.false_eq_true, Bool.and_eq_true] at k ⊢
      exact ⟨same_trans h.1 k.1, sameAll_trans h.2 k.2⟩

end

instance : EquivBEq Ty where
  rfl {t} := same_refl t
  symm := same_symm
  trans := same_trans

theorem core_same {t u : Ty} (same : (t == u) = true) : (t.core == u.core) = true := by
  change Ty.same t u = true at same
  change Ty.same t.core u.core = true
  cases t <;> cases u <;> simp_all [Ty.same, core]

theorem isEnum_same {t u : Ty} (same : (t == u) = true) : t.isEnum = u.isEnum := by
  have cores : Ty.same t.core u.core = true := core_same same
  unfold isEnum enum?
  cases t_core : t.core <;> cases u_core : u.core <;> simp_all [Ty.same]

theorem isValue_same {t u : Ty} (same : (t == u) = true) : t.isValue = u.isValue := by
  change Ty.same t u = true at same
  cases t <;> cases u <;> simp_all [Ty.same, isValue, ClassRef.same]

theorem isNullable_same {t u : Ty} (same : (t == u) = true) : t.isNullable = u.isNullable := by
  change Ty.same t u = true at same
  cases t <;> cases u <;> simp_all [Ty.same, isNullable]

end Ty

namespace RecordTypes

theorem find?_types {names : List String} {types : List Ty} {place id : Nat}
    {shapes : List (List String × List Ty)} {held : List Ty}
    (found : find? names types place shapes = some (id, held)) :
    Ty.sameAll held types = true := by
  induction shapes generalizing place with
  | nil => simp [find?] at found
  | cons shape rest ih =>
      simp only [find?] at found
      split at found
      next isShape =>
        obtain ⟨-, rfl⟩ := Prod.mk.inj (Option.some.inj found)
        exact (Bool.and_eq_true _ _ ▸ isShape).2
      next => exact ih found

/-- The record type of a projection has the types of its members, however it was first made. -/
theorem intern_type (records : RecordTypes) (names : List String) (types : List Ty) :
    ∃ id held, (records.intern names types).1 = .record id names held ∧
      Ty.sameAll held types = true := by
  unfold intern
  split
  next id held found => exact ⟨id, held, rfl, find?_types found⟩
  next => exact ⟨_, types, rfl, Ty.sameAll_refl types⟩

end RecordTypes

end QueryTree
