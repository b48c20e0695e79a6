import TypeScope.Proofs.Tables
import TypeScope.Proofs.Workspaces
import TypeScope.Registry
import Mathlib.Data.List.Flatten
import Mathlib.Data.List.Perm.Basic

/-! How often each scope stands in the reference lists of a solution, and what the steps of the
registry change: counts, reference lists and mentions, one scope at a time. -/
namespace TypeScope

namespace Workspace
variable {α : Type} (view : Scope → α) {f : Scope → Scope}

theorem viewModify (w : Workspace) (id : ScopeId)
    (hidden : view (f (w.scope id)) = view (w.scope id)) :
    (w.modifyScope id f).scopes.map view = w.scopes.map view := by
  apply List.ext_getElem?
  intro i
  simp only [modifyScope, List.getElem?_map, List.getElem?_modify]
  cases found : w.scopes[i]? with
  | none => rfl
  | some scope =>
    by_cases same : id = i
    · have here : w.scope id = scope := by simp [Workspace.scope, same, found]
      rw [here] at hidden
      simp [same, hidden]
    · simp [same]

theorem viewAt (w : Workspace) (id : ScopeId) :
    view (w.scope id) = (w.scopes.map view).getD id (view (Scope.fresh "")) := by
  simp only [scope, List.getD_eq_getElem?_getD, List.getElem?_map]
  cases w.scopes[id]? <;> rfl

theorem viewScope (w : Workspace) (id other : ScopeId)
    (hidden : view (f (w.scope id)) = view (w.scope id)) :
    view ((w.modifyScope id f).scope other) = view (w.scope other) := by
  rw [scopeModify]
  split
  · rename_i here
    rw [hidden, here.1]
  · rfl

end Workspace

namespace Solution

def Known (s : Solution) (id : ScopeId) : Prop := id < s.workspace.scopes.length

def mentions (s : Solution) : List ScopeId := s.workspace.scopes.flatMap Scope.references

theorem unknownCount {s : Solution} {id : ScopeId} (h : ¬ s.Known id) :
    s.count id = 0 ∧ s.referencesOf id = [] := by
  have beyond : s.workspace.scopes[id]? = none := by simpa [Known] using h
  simp [count, referencesOf, Workspace.scope, beyond, Scope.fresh]

theorem knownOfCount {s : Solution} {id : ScopeId} (h : 0 < s.count id) : s.Known id := by
  by_contra unknown
  rw [(unknownCount unknown).1] at h
  exact Nat.lt_irrefl 0 h

theorem memMentions {s : Solution} {id other : ScopeId} (h : other ∈ s.referencesOf id) :
    other ∈ s.mentions := by
  have known : s.Known id := by
    by_contra unknown
    rw [(unknownCount unknown).2] at h
    exact List.not_mem_nil h
  have here : s.workspace.scope id = s.workspace.scopes[id] := by
    simp [Workspace.scope, List.getElem?_eq_getElem known]
  refine List.mem_flatMap.mpr ⟨s.workspace.scopes[id], List.getElem_mem known, ?_⟩
  rwa [← here]

theorem mentionsByScope (s : Solution) :
    s.mentions = (List.range s.workspace.scopes.length).flatMap s.referencesOf := by
  have lists : s.workspace.scopes.map Scope.references =
      (List.range s.workspace.scopes.length).map s.referencesOf := by
    apply List.ext_getElem?
    intro i
    simp only [List.getElem?_map]
    by_cases known : i < s.workspace.scopes.length
    · simp [referencesOf, Workspace.scope, known]
    · simp [known]
  rw [mentions, List.flatMap_def, lists, List.flatMap_def]

section Acquire
variable (s : Solution) (id other : ScopeId)

theorem countAcquire (known : s.Known id) :
    (s.acquire id).count other = s.count other + if other = id then 1 else 0 := by
  simp only [count, acquire, modifyScope, Workspace.scopeModify]
  by_cases same : other = id
  · rw [if_pos ⟨same, known⟩, if_pos same, same]
  · rw [if_neg (fun both => same both.1), if_neg same, Nat.add_zero]

theorem uriAcquire : (s.acquire id).uri other = s.uri other :=
  Workspace.viewScope Scope.uri _ _ _ rfl

theorem referencesAcquire : (s.acquire id).referencesOf other = s.referencesOf other :=
  Workspace.viewScope Scope.references _ _ _ rfl

theorem mentionsAcquire : (s.acquire id).mentions = s.mentions :=
  congrArg List.flatten (Workspace.viewModify Scope.references _ _ rfl)

end Acquire

section Release
variable (s : Solution) (id other : ScopeId)

theorem countRelease :
    (s.release id).count other = if other = id then s.count id - 1 else s.count other := by
  simp only [count, release, modifyScope, Workspace.scopeModify]
  by_cases same : other = id
  · subst same
    by_cases known : other < s.workspace.scopes.length
    · simp [known]
    · have zero : (s.workspace.scope other).count = 0 := (unknownCount known).1
      simp [known, zero]
  · simp [same]

theorem uriRelease : (s.release id).uri other = s.uri other :=
  Workspace.viewScope Scope.uri _ _ _ rfl

theorem referencesRelease : (s.release id).referencesOf other = s.referencesOf other :=
  Workspace.viewScope Scope.references _ _ _ rfl

theorem mentionsRelease : (s.release id).mentions = s.mentions :=
  congrArg List.flatten (Workspace.viewModify Scope.references _ _ rfl)

end Release

section SetReferences
variable (s : Solution) (id other : ScopeId) (references : List ScopeId)

theorem countSetReferences : (s.setReferences id references).count other = s.count other :=
  Workspace.viewScope Scope.count _ _ _ rfl

theorem uriSetReferences : (s.setReferences id references).uri other = s.uri other :=
  Workspace.viewScope Scope.uri _ _ _ rfl

theorem referencesSetSame (known : s.Known id ∨ references = []) :
    (s.setReferences id references).referencesOf id = references := by
  simp only [referencesOf, setReferences, modifyScope, Workspace.scopeModify]
  by_cases inside : s.Known id
  · rw [if_pos ⟨trivial, inside⟩]
  · rw [if_neg fun both => inside both.2, known.resolve_left inside]
    exact (unknownCount inside).2

theorem referencesSetOther (different : other ≠ id) :
    (s.setReferences id references).referencesOf other = s.referencesOf other := by
  simp only [referencesOf, setReferences, modifyScope, Workspace.scopeModify]
  rw [if_neg fun both => different both.1]

theorem mentionsSetReferences (known : s.Known id ∨ references = []) :
    ((s.setReferences id references).mentions ++ s.referencesOf id).Perm
      (s.mentions ++ references) := by
  by_cases inside : s.Known id
  · obtain ⟨before, scope, after, whole, place, changed⟩ :=
      List.exists_of_modify (fun scope : Scope => { scope with references := references }) inside
    have here : s.workspace.scope id = scope := by simp [Workspace.scope, whole, ← place]
    have mentioned : (s.setReferences id references).mentions =
        before.flatMap Scope.references ++ (references ++ after.flatMap Scope.references) := by
      rw [mentions, setReferences, modifyScope, Workspace.modifyScope, changed]
      simp
    rw [mentioned, mentions, whole, referencesOf, here]
    rw [List.perm_iff_count]
    intro other
    simp only [List.flatMap_append, List.flatMap_cons, List.count_append]
    omega
  · have cleared := known.resolve_left inside
    have same : s.setReferences id references = s := by
      have beyond : s.workspace.scopes.length ≤ id := Nat.le_of_not_lt inside
      simp [setReferences, modifyScope, Workspace.modifyScope, List.modify_eq_self beyond]
    rw [same, cleared, (unknownCount inside).2]

end SetReferences
end Solution
end TypeScope
