import TypeScope.Proofs.Declarations
import TypeScope.Proofs.Unbounded

/-! The order in which the types of a unit are gone through. A stack holds the types that wait, the
next one at its end; a type that is taken leaves its nested types there, the last of them first. The
walk ends, and lists each place of the forest once, in the order of the places: what is declared
earlier before what is declared later, and a type before what it nests. -/
namespace TypeScope

namespace Declared

section Walk

abbrev Walk := List Declared × List Declared

def walkRound : Walk →. List Declared ⊕ Walk := fun (listed, stack) => Part.some <|
  match stack.getLast? with
  | none => .inl listed
  | some d => .inr (listed ++ [d], stack.dropLast ++ d.nested.reverse)

def walk (forest : List Declared) : Part (List Declared) := walkRound.fix ([], forest.reverse)

theorem roundEmpty (listed : List Declared) : walkRound (listed, []) = Part.some (.inl listed) := rfl

theorem roundTop (listed : List Declared) (d : Declared) (rest : List Declared) :
    walkRound (listed, (d :: rest).reverse) =
      Part.some (.inr (listed ++ [d], (d.nested ++ rest).reverse)) := by
  simp [walkRound]

theorem walkFrom {n : Nat} {stack : List Declared} (size : populations stack = n)
    (listed : List Declared) :
    walkRound.fix (listed, stack.reverse) = Part.some (listed ++ preorders stack) := by
  induction n using Nat.strong_induction_on generalizing stack listed with
  | _ n ih =>
    rw [Unbounded.fixUnfold]
    cases stack with
    | nil =>
      rw [List.reverse_nil, roundEmpty, Part.bind_some, preorders, List.append_nil]
    | cons d rest =>
      have fewer : populations (d.nested ++ rest) < n := by
        rw [← size, populations, populationPositive, populationsAppend]
        omega
      rw [roundTop, Part.bind_some]
      refine (ih _ fewer rfl (listed ++ [d])).trans ?_
      rw [preorders, preorderCons, preordersAppend, List.append_assoc, List.singleton_append,
        List.cons_append]

theorem walkPreorders (forest : List Declared) : walk forest = Part.some (preorders forest) :=
  walkFrom rfl []

end Walk

section Places

def down : List Nat → Declared → Option Declared
  | [], d => some d
  | i :: path, d => d.nested[i]?.bind (down path)

def at? (forest : List Declared) : List Nat → Option Declared
  | [] => none
  | i :: path => forest[i]?.bind (down path)

mutual
def numbered : Declared → List (List Nat × Declared)
  | ⟨stamp, body, nested, parts⟩ => ([], ⟨stamp, body, nested, parts⟩) :: numberedFrom 0 nested
  termination_by structural d => d

def numberedFrom (i : Nat) : List Declared → List (List Nat × Declared)
  | [] => []
  | d :: rest => (numbered d).map (Prod.map (i :: ·) id) ++ numberedFrom (i + 1) rest
  termination_by structural ds => ds
end

mutual
theorem numberedTypes (d : Declared) : (numbered d).map Prod.snd = preorder d := by
  obtain ⟨stamp, body, nested, parts⟩ := d
  rw [numbered, List.map_cons, numberedFromTypes, preorder]

theorem numberedFromTypes (i : Nat) (ds : List Declared) :
    (numberedFrom i ds).map Prod.snd = preorders ds := by
  cases ds with
  | nil => rfl
  | cons d rest =>
    rw [numberedFrom, List.map_append, numberedFromTypes, preorders, ← numberedTypes d, List.map_map]
    rfl
end

mutual
theorem memNumbered (d : Declared) {path : List Nat} {e : Declared} :
    (path, e) ∈ numbered d ↔ down path d = some e := by
  obtain ⟨stamp, body, nested, parts⟩ := d
  rw [numbered, List.mem_cons, memNumberedFrom]
  cases path with
  | nil => simp [down, eq_comm]
  | cons i path => simp [down]

theorem memNumberedFrom (i : Nat) (ds : List Declared) {path : List Nat} {e : Declared} :
    (path, e) ∈ numberedFrom i ds ↔
      ∃ j inner, path = (i + j) :: inner ∧ ds[j]?.bind (down inner) = some e := by
  cases ds with
  | nil => simp [numberedFrom]
  | cons d rest =>
    have first : (path, e) ∈ (numbered d).map (Prod.map (i :: ·) id) ↔
        ∃ inner, path = i :: inner ∧ down inner d = some e := by
      simp [← memNumbered d, eq_comm, and_comm]
    rw [numberedFrom, List.mem_append, first, memNumberedFrom]
    constructor
    · rintro (⟨inner, rfl, here⟩ | ⟨j, inner, rfl, later⟩)
      · exact ⟨0, inner, rfl, here⟩
      · exact ⟨j + 1, inner, by rw [Nat.add_assoc, Nat.add_comm 1], later⟩
    · rintro ⟨j, inner, rfl, found⟩
      cases j with
      | zero => exact .inl ⟨inner, rfl, found⟩
      | succ j => exact .inr ⟨j, inner, by rw [Nat.add_assoc, Nat.add_comm 1], found⟩
end

theorem numberedFromStarts {i : Nat} {ds : List Declared} {path : List Nat} {e : Declared}
    (mem : (path, e) ∈ numberedFrom i ds) : ∃ j inner, path = j :: inner ∧ i ≤ j := by
  obtain ⟨j, inner, rfl, -⟩ := (memNumberedFrom i ds).mp mem
  exact ⟨i + j, inner, rfl, Nat.le_add_right i j⟩

mutual
theorem numberedOrdered (d : Declared) : ((numbered d).map Prod.fst).Pairwise (· < ·) := by
  obtain ⟨stamp, body, nested, parts⟩ := d
  rw [numbered, List.map_cons, List.pairwise_cons]
  refine ⟨fun path mem => ?_, numberedFromOrdered 0 nested⟩
  obtain ⟨⟨_, e⟩, listed, rfl⟩ := List.mem_map.mp mem
  obtain ⟨j, inner, rfl, -⟩ := numberedFromStarts listed
  exact List.nil_lt_cons j inner

theorem numberedFromOrdered (i : Nat) (ds : List Declared) :
    ((numberedFrom i ds).map Prod.fst).Pairwise (· < ·) := by
  cases ds with
  | nil => exact List.Pairwise.nil
  | cons d rest =>
    have first : ((numbered d).map (Prod.map (i :: ·) id)).map Prod.fst =
        ((numbered d).map Prod.fst).map (i :: ·) := by simp
    rw [numberedFrom, List.map_append, first, List.pairwise_append]
    refine ⟨?_, numberedFromOrdered (i + 1) rest, fun path mem later memLater => ?_⟩
    · rw [List.pairwise_map]
      exact (numberedOrdered d).imp fun less => List.cons_lt_cons_self.mpr less
    · obtain ⟨inner, -, rfl⟩ := List.mem_map.mp mem
      obtain ⟨⟨_, e⟩, listed, rfl⟩ := List.mem_map.mp memLater
      obtain ⟨j, inner', rfl, beyond⟩ := numberedFromStarts listed
      exact List.cons_lt_cons_iff.mpr (.inl beyond)
end

theorem memNumberedForest {forest : List Declared} {path : List Nat} {e : Declared} :
    (path, e) ∈ numberedFrom 0 forest ↔ at? forest path = some e := by
  rw [memNumberedFrom]
  cases path with
  | nil => simp [at?]
  | cons i path => simp [at?]

theorem memPreorderDown {d e : Declared} : e ∈ preorder d ↔ ∃ path, down path d = some e := by
  rw [← numberedTypes, List.mem_map]
  constructor
  · rintro ⟨⟨path, _⟩, mem, rfl⟩
    exact ⟨path, (memNumbered d).mp mem⟩
  · rintro ⟨path, found⟩
    exact ⟨(path, e), (memNumbered d).mpr found, rfl⟩

theorem memPreorders {ds : List Declared} {e : Declared} :
    e ∈ preorders ds ↔ ∃ d ∈ ds, e ∈ preorder d := by
  induction ds with
  | nil => simp [preorders]
  | cons d rest ih => rw [preorders, List.mem_append, ih, List.exists_mem_cons_iff]

end Places
end Declared

/-- The walk over the types of a unit ends and gives its list of all types, which is the pre-order:
each type, in the order of declaration, with the pre-order of what it nests behind it. Its places
are those of the forest, each once and no others, an outer one before the inner ones and an earlier
one before the later ones. -/
theorem CompilationUnit.walkedInPreorder (u : CompilationUnit) :
    Declared.walk u.types = Part.some u.allTypes ∧ u.allTypes = Declared.preorders u.types ∧
      ∃ numbered : List (List Nat × Declared), numbered.map Prod.snd = u.allTypes ∧
        (numbered.map Prod.fst).Pairwise (· < ·) ∧
        ∀ path d, (path, d) ∈ numbered ↔ Declared.at? u.types path = some d := by
  have preorder := u.allTypesPreorders
  refine ⟨?_, preorder, Declared.numberedFrom 0 u.types, ?_, Declared.numberedFromOrdered 0 u.types,
    fun path d => Declared.memNumberedForest⟩
  · rw [preorder, Declared.walkPreorders]
  · rw [preorder, Declared.numberedFromTypes]

example : (CompilationUnit.build (Stamp.at 0) ⟨0⟩ "" []
    [{ Blueprint.bare "App.Outer" .classType with nested := [Blueprint.bare "Inner" .classType] },
      Blueprint.bare "App.Other" .classType]).allTypes.map Declared.fullName =
    ["App.Outer", "App.Outer.Inner", "App.Other"] := by decide +kernel

end TypeScope
