import TypeScope.Ingest

/-! The types of a forest in the order they are declared, and definitions whose links nobody has
written yet. -/
namespace TypeScope

namespace Declared

theorem preorderCons (d : Declared) : preorder d = d :: preorders d.nested := by
  cases d
  rfl

theorem preordersAppend (ds es : List Declared) :
    preorders (ds ++ es) = preorders ds ++ preorders es := by
  induction ds with
  | nil => rfl
  | cons d rest ih => simp [preorders, ih]

theorem populationPositive (d : Declared) : population d = populations d.nested + 1 := by
  cases d
  rfl

theorem populationsAppend (ds es : List Declared) :
    populations (ds ++ es) = populations ds + populations es := by
  induction ds with
  | nil => simp [populations]
  | cons d rest ih => simp [populations, ih, Nat.add_assoc]

theorem unstackPreorders {steps : Nat} {stack : List Declared}
    (enough : populations stack ≤ steps) : unstack steps stack = preorders stack := by
  induction steps generalizing stack with
  | zero =>
    cases stack with
    | nil => rfl
    | cons d rest =>
      simp only [populations, populationPositive] at enough
      omega
  | succ steps ih =>
    cases stack with
    | nil => rfl
    | cons d rest =>
      simp only [populations, populationPositive] at enough
      have tail : populations (d.nested ++ rest) ≤ steps := by
        rw [populationsAppend]
        omega
      rw [unstack, ih tail, preordersAppend, preorders, preorderCons, List.cons_append]

end Declared

theorem CompilationUnit.allTypesPreorders (u : CompilationUnit) :
    u.allTypes = Declared.preorders u.types :=
  Declared.unstackPreorders (Nat.le_refl _)

section Unwritten

theorem mapIdxSame {α : Type} (xs : List α) : xs.mapIdx (fun _ x => x) = xs := by
  apply List.ext_getElem?
  intro i
  simp

theorem Member.settledUnwritten (site : Site) (m : Member) :
    m.settled Table.empty site = m := by
  unfold Member.settled
  split
  · rfl
  · rename_i first rest known
    obtain ⟨⟩ := m
    cases known
    rfl

theorem Body.settledUnwritten (holder : Stamp) (b : Body) :
    b.settled Table.empty holder = b := by
  have base (site : Site) : Links.current Table.empty site = id := rfl
  simp only [Body.settled, base, Member.settledUnwritten, id, mapIdxSame, Option.map_id_fun]

mutual
theorem Declared.settledUnwritten (d : Declared) : d.settled Table.empty = d := by
  obtain ⟨stamp, body, nested, parts⟩ := d
  rw [Declared.settled, Body.settledUnwritten, Declared.settledAllUnwritten nested]

theorem Declared.settledAllUnwritten (ds : List Declared) :
    Declared.settledAll Table.empty ds = ds := by
  cases ds with
  | nil => rfl
  | cons d rest =>
    rw [Declared.settledAll, Declared.settledUnwritten d, Declared.settledAllUnwritten rest]
end

theorem Store.settledUnwritten (s : Store) : s.settled Table.empty = s := by
  simp [Store.settled, Declared.settledUnwritten]

end Unwritten
end TypeScope
