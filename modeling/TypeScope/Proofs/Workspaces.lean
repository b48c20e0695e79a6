import TypeScope.Workspace

/-! Reading a workspace after one of its scopes was changed. -/
namespace TypeScope.Workspace

theorem scopeUnopened (w : Workspace) {id : ScopeId} (beyond : w.scopes.length ≤ id) :
    w.scope id = Scope.fresh "" := by
  rw [scope, List.getD_eq_getElem?_getD, List.getElem?_eq_none beyond]
  rfl

theorem scopeModify (w : Workspace) (id other : ScopeId) (f : Scope → Scope) :
    (w.modifyScope id f).scope other =
      if other = id ∧ id < w.scopes.length then f (w.scope id) else w.scope other := by
  simp only [modifyScope, scope, List.getD_eq_getElem?_getD, List.getElem?_modify]
  by_cases same : id = other
  · subst same
    by_cases known : id < w.scopes.length
    · simp [known]
    · simp [known]
  · simp [same, show other ≠ id from fun e => same e.symm]

theorem lengthModify (w : Workspace) (id : ScopeId) (f : Scope → Scope) :
    (w.modifyScope id f).scopes.length = w.scopes.length := by simp [modifyScope]

theorem memModify {w : Workspace} {id : ScopeId} {f : Scope → Scope} {scope : Scope}
    (mem : scope ∈ (w.modifyScope id f).scopes) :
    scope ∈ w.scopes ∨ ∃ old ∈ w.scopes, scope = f old := by
  obtain ⟨i, here⟩ := List.mem_iff_getElem?.mp mem
  rw [modifyScope, List.getElem?_modify] at here
  cases found : w.scopes[i]? with
  | none =>
    rw [found] at here
    cases here
  | some old =>
    have inside := List.mem_of_getElem? found
    rw [found] at here
    have changed : (if id = i then f old else old) = scope := Option.some.inj here
    by_cases same : id = i
    · rw [if_pos same] at changed
      exact .inr ⟨old, inside, changed.symm⟩
    · rw [if_neg same] at changed
      exact .inl (changed ▸ inside)

theorem modifySame (w : Workspace) (id : ScopeId) (f : Scope → Scope)
    (same : f (w.scope id) = w.scope id) : w.modifyScope id f = w := by
  have scopes : (w.scopes.modify id f) = w.scopes := by
    apply List.ext_getElem?
    intro i
    rw [List.getElem?_modify]
    cases found : w.scopes[i]? with
    | none => rfl
    | some scope =>
      by_cases here : id = i
      · have read : w.scope id = scope := by simp [Workspace.scope, here, found]
        rw [read] at same
        simp [here, same]
      · simp [here]
  rw [modifyScope, scopes]

theorem modifyTwice (w : Workspace) (id : ScopeId) (f g : Scope → Scope) :
    (w.modifyScope id f).modifyScope id g = w.modifyScope id (g ∘ f) := by
  simp only [modifyScope, List.modify_modify_eq]

theorem modifySwap (w : Workspace) (id other : ScopeId) (f : Scope → Scope) :
    (w.modifyScope id f).modifyScope other f = (w.modifyScope other f).modifyScope id f := by
  by_cases same : id = other
  · rw [same]
  · simp only [modifyScope, List.modify_modify_ne _ _ _ same]

theorem scopeOpened {α : Type} (view : Scope → α) (w : Workspace) (uri : String)
    (id : ScopeId) (empty : view (Scope.fresh uri) = view (Scope.fresh "")) :
    view (({ w with scopes := w.scopes ++ [Scope.fresh uri] } : Workspace).scope id) =
      view (w.scope id) := by
  simp only [scope, List.getD_eq_getElem?_getD, List.getElem?_append]
  split
  · rfl
  · rename_i beyond
    rw [List.getElem?_eq_none (Nat.le_of_not_lt beyond)]
    cases id - w.scopes.length <;> simp [empty]

end TypeScope.Workspace
