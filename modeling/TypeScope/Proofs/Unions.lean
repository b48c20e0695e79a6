import TypeScope.Proofs.Tables
import TypeScope.Store

/-! What a logical type has of the fragments it was united from, and how the fragments of one name
fall into one logical type for each arity. -/
namespace TypeScope

namespace Declared

def Unites (fragments : List Declared) (d : Declared) : Prop :=
  fragments = [d] ∨
    2 ≤ fragments.length ∧ d.parts = fragments ∧
      d.body.members = fragments.flatMap (fun f => f.body.members)

def fragments (d : Declared) : List Declared := if d.isCompound then d.parts else [d]

section Unite
variable {depth : Nat} {stamp : Stamp} {fragments : List Declared} {d : Declared}

theorem uniteToAlone (depth : Nat) (stamp : Stamp) (d : Declared) :
    uniteTo depth stamp [d] = some d := by
  cases depth <;> rfl

theorem uniteSeveral {first second : Declared} {rest : List Declared}
    (h : uniteTo depth stamp (first :: second :: rest) = some d) :
    d.parts = first :: second :: rest ∧ d.body = unitedBody first (second :: rest) := by
  cases depth with
  | zero =>
    simp only [uniteTo, Option.some.injEq] at h
    simp [← h]
  | succ n =>
    simp only [uniteTo, Option.some.injEq] at h
    simp [← h]

theorem uniteExists (depth : Nat) (stamp : Stamp) {fragments : List Declared}
    (some_ : fragments ≠ []) : ∃ d, uniteTo depth stamp fragments = some d := by
  match fragments, some_ with
  | [only], _ => exact ⟨only, uniteToAlone depth stamp only⟩
  | first :: second :: rest, _ => cases depth <;> exact ⟨_, rfl⟩

theorem uniteUnites (h : uniteTo depth stamp fragments = some d) : Unites fragments d := by
  match fragments, h with
  | [], h => cases depth <;> cases h
  | [only], h =>
    rw [uniteToAlone, Option.some.injEq] at h
    exact .inl (by rw [h])
  | first :: second :: rest, h =>
    obtain ⟨parts, body⟩ := uniteSeveral h
    refine .inr ⟨by simp, parts, ?_⟩
    rw [body]
    simp [unitedBody, List.flatMap_map]

theorem uniteLike (h : uniteTo depth stamp fragments = some d) :
    ∃ f ∈ fragments, d.body.ns = f.body.ns ∧ d.body.name = f.body.name ∧
      d.body.outer = f.body.outer := by
  match fragments, h with
  | [], h => cases depth <;> cases h
  | [only], h =>
    rw [uniteToAlone, Option.some.injEq] at h
    exact ⟨only, List.mem_cons_self, by rw [h], by rw [h], by rw [h]⟩
  | first :: second :: rest, h =>
    have body := (uniteSeveral h).2
    exact ⟨first, List.mem_cons_self, by rw [body]; rfl, by rw [body]; rfl, by rw [body]; rfl⟩

theorem uniteName {name : String} (h : uniteTo depth stamp fragments = some d)
    (same : ∀ f ∈ fragments, f.fullName = name) : d.fullName = name := by
  obtain ⟨f, mem, ns, own, outer⟩ := uniteLike h
  rw [← same f mem, fullName, fullName, Body.fullName, Body.fullName, ns, own, outer]

theorem unitedArity {first : Declared} {rest : List Declared} {arity : Nat}
    (same : ∀ f ∈ first :: rest, f.arity = arity) : (unitedBody first rest).arity = arity := by
  have known : ∀ ps ∈ (first :: rest).map (fun f => f.body.typeParameters), ps.length = arity := by
    intro ps mem
    obtain ⟨f, inside, rfl⟩ := List.mem_map.mp mem
    exact same f inside
  simp only [unitedBody, Body.arity, List.map_map, Function.comp_def]
  cases found : ((first :: rest).map (fun f => f.body.typeParameters)).find?
      (fun ps => !ps.isEmpty) with
  | some ps => exact known ps (List.mem_of_find?_eq_some found)
  | none =>
    have empty := List.find?_eq_none.mp found first.body.typeParameters (by simp)
    have zero := known first.body.typeParameters (by simp)
    simp_all

theorem uniteArity {arity : Nat} (h : uniteTo depth stamp fragments = some d)
    (same : ∀ f ∈ fragments, f.arity = arity) : d.arity = arity := by
  match fragments, h with
  | [], h => cases depth <;> cases h
  | [only], h =>
    rw [uniteToAlone, Option.some.injEq] at h
    exact h ▸ same only (by simp)
  | first :: second :: rest, h =>
    rw [Declared.arity, (uniteSeveral h).2]
    exact unitedArity same

theorem uniteFragments (h : uniteTo depth stamp fragments = some d)
    (single : ∀ f ∈ fragments, f.parts = []) :
    d.fragments = fragments ∧ (d.isCompound = false → fragments = [d]) := by
  rcases uniteUnites h with rfl | ⟨several, parts, -⟩
  · have alone : d.isCompound = false := by simp [isCompound, single d List.mem_cons_self]
    exact ⟨by simp [Declared.fragments, alone], fun _ => rfl⟩
  · have compound : d.isCompound = true := by
      cases some_ : fragments with
      | nil => simp [some_] at several
      | cons first rest => simp [isCompound, parts, some_]
    refine ⟨by rw [Declared.fragments, if_pos compound, parts], fun alone => ?_⟩
    rw [compound] at alone
    cases alone

theorem uniteGroups {κ : Type} (unites : Stamp → List Declared → Option Declared)
    (group : κ → List Declared) (key : Declared → κ) {keys : List κ} (stamp : Stamp)
    (each : ∀ k ∈ keys, ∀ own, ∃ d, unites own (group k) = some d ∧ key d = k) (n : Nat) :
    let types := ((keys.map group).zipIdx n).filterMap (fun g => unites (stamp.child g.2) g.1)
    types.map key = keys ∧ ∀ d ∈ types, ∃ own, unites own (group (key d)) = some d := by
  induction keys generalizing n with
  | nil => simp
  | cons k rest ih =>
    obtain ⟨d, united, same⟩ := each k List.mem_cons_self (stamp.child n)
    obtain ⟨keys, types⟩ := ih (fun j mem => each j (List.mem_cons_of_mem _ mem)) (n + 1)
    simp only [List.map_cons, List.zipIdx_cons, List.filterMap_cons, united]
    refine ⟨by rw [same, keys], fun e mem => ?_⟩
    rcases List.mem_cons.mp mem with rfl | later
    · exact ⟨_, same.symm ▸ united⟩
    · exact types e later

theorem uniteNestedTo {first second : Declared} {rest : List Declared}
    (h : uniteTo (depth + 1) stamp (first :: second :: rest) = some d) :
    let inside := (first :: second :: rest).flatMap Declared.nested
    d.nested.map (fun n => (n.fullName, n.arity)) =
        distinct (inside.map (fun n => (n.fullName, n.arity))) ∧
      ∀ n ∈ d.nested, ∃ own, uniteTo depth own
        (inside.filter (fun m => (m.fullName, m.arity) = (n.fullName, n.arity))) = some n := by
  intro inside
  have groups : nestedGroups (first :: second :: rest) =
      (distinct (inside.map (fun n => (n.fullName, n.arity)))).map (fun k =>
        inside.filter (fun m => (m.fullName, m.arity) = k)) := by
    simp [nestedGroups, Table.values, Table.gatherEntries, Function.comp_def, inside]
  simp only [uniteTo, groups, Option.some.injEq] at h
  subst h
  have each : ∀ k ∈ distinct (inside.map (fun n => (n.fullName, n.arity))), ∀ own,
      ∃ n, uniteTo depth own (inside.filter (fun m => (m.fullName, m.arity) = k)) = some n ∧
        (n.fullName, n.arity) = k := by
    intro k mem own
    obtain ⟨m, listed, same⟩ := List.mem_map.mp (memDistinct.mp mem)
    have filled : inside.filter (fun m => (m.fullName, m.arity) = k) ≠ [] :=
      List.ne_nil_of_mem (List.mem_filter.mpr ⟨listed, by simpa using same⟩)
    obtain ⟨n, united⟩ := uniteExists depth own filled
    have named : ∀ m ∈ inside.filter (fun m => (m.fullName, m.arity) = k),
        (m.fullName, m.arity) = k := fun m mem => by simpa using (List.mem_filter.mp mem).2
    refine ⟨n, united, Prod.ext ?_ ?_⟩
    · exact uniteName united fun m mem => congrArg Prod.fst (named m mem)
    · exact uniteArity united fun m mem => congrArg Prod.snd (named m mem)
  exact uniteGroups (uniteTo depth) _ _ stamp each 0

theorem uniteNested {first second : Declared} {rest : List Declared}
    (h : unite stamp (first :: second :: rest) = some d) :
    let inside := (first :: second :: rest).flatMap Declared.nested
    d.nested.map (fun n => (n.fullName, n.arity)) =
        distinct (inside.map (fun n => (n.fullName, n.arity))) ∧
      ∀ n ∈ d.nested, ∃ depth own, uniteTo depth own
        (inside.filter (fun m => (m.fullName, m.arity) = (n.fullName, n.arity))) = some n := by
  have high : heights (first :: second :: rest) ≠ 0 := by
    rw [heights]
    omega
  obtain ⟨depth, deep⟩ := Nat.exists_eq_succ_of_ne_zero high
  rw [unite, deep] at h
  obtain ⟨keys, types⟩ := uniteNestedTo h
  exact ⟨keys, fun n mem => ⟨depth, types n mem⟩⟩

theorem uniteNests (h : uniteTo depth stamp fragments = some d) {n : Declared}
    (mem : n ∈ d.nested) : ∃ depth own inside, uniteTo depth own inside = some n ∧
      ∀ m ∈ inside, m ∈ fragments.flatMap Declared.nested ∧ m.fullName = n.fullName ∧
        m.arity = n.arity := by
  match depth, fragments, h with
  | 0, [], h => cases h
  | depth + 1, [], h => cases h
  | depth, [only], h =>
    rw [uniteToAlone, Option.some.injEq] at h
    subst h
    refine ⟨0, stamp, [n], rfl, fun m listed => ?_⟩
    rw [List.mem_singleton.mp listed]
    exact ⟨by simpa using mem, rfl, rfl⟩
  | 0, first :: second :: rest, h =>
    simp only [uniteTo, Option.some.injEq] at h
    subst h
    cases mem
  | depth + 1, first :: second :: rest, h =>
    obtain ⟨own, united⟩ := (uniteNestedTo h).2 n mem
    refine ⟨depth, own, _, united, fun m listed => ?_⟩
    obtain ⟨inside, same⟩ := List.mem_filter.mp listed
    exact ⟨inside, Prod.mk.inj (of_decide_eq_true same)⟩

end Unite

def ofArity (fragments : List Declared) (arity : Nat) : List Declared :=
  fragments.filter (fun f => f.arity = arity)

theorem memOfArity {fragments : List Declared} {arity : Nat} {d : Declared} :
    d ∈ ofArity fragments arity ↔ d ∈ fragments ∧ d.arity = arity := by simp [ofArity]

end Declared

namespace Store
open Declared (ofArity memOfArity unite uniteArity uniteExists)

theorem uniteByArityGroups (stamp : Stamp) (fragments : List Declared) :
    (uniteByArity stamp fragments).map Declared.arity =
        distinct (fragments.map Declared.arity) ∧
      ∀ d ∈ uniteByArity stamp fragments,
        ∃ own, unite own (ofArity fragments d.arity) = some d := by
  have groups : (Table.gather Declared.arity fragments).values =
      (distinct (fragments.map Declared.arity)).map (ofArity fragments) := by
    simp [Table.values, Table.gatherEntries, Function.comp_def, Declared.ofArity]
  rw [uniteByArity, groups]
  refine Declared.uniteGroups unite _ _ stamp (fun k mem own => ?_) 0
  obtain ⟨f, inside, arity⟩ := List.mem_map.mp (memDistinct.mp mem)
  have filled : ofArity fragments k ≠ [] := List.ne_nil_of_mem (memOfArity.mpr ⟨inside, arity⟩)
  obtain ⟨d, united⟩ := uniteExists _ own filled
  exact ⟨d, united, uniteArity united fun f mem => (memOfArity.mp mem).2⟩

theorem uniteByArityName {stamp : Stamp} {fragments : List Declared} {name : String}
    (same : ∀ f ∈ fragments, f.fullName = name) :
    ∀ d ∈ uniteByArity stamp fragments, d.fullName = name := by
  intro d mem
  obtain ⟨own, united⟩ := (uniteByArityGroups stamp fragments).2 d mem
  exact Declared.uniteName united fun f inside => same f (memOfArity.mp inside).1

end Store
end TypeScope
