import TypeScope.Proofs.Parameters

/-! Fetching a definition again. A type is fetched by name and arity, an instance by the key that
it is filed under, so what has been fetched is fetched as it is from then on. -/
namespace TypeScope
open Query

def Definition.Filled (d : Definition) : Prop := ∀ i, d = .bound i → i.arguments ≠ []

def Definition.isApart (d : Definition) : Bool := d.placeholder?.isSome || d.element?.isSome

def Definition.argumentsNow (links : Links) : Definition → List TypeRef
  | .bound i => i.currentArguments links
  | .unbound _ => []

theorem Session.instancesFilled (events : List Event) :
    (run events).workspace.Remembers (fun _ _ d => d.Filled) := fun id key d cached i same =>
  (instancesMade events id key d cached i same).filled

section Arguments

theorem canonicalCurrent (links : Links) (site : Site) (r : TypeRef) :
    (links.current site r).canonical = r.canonical := by
  unfold Links.current
  split
  · exact TypeRef.canonicalLink r _
  · rfl

theorem listedCurrent (links : Links) (i : Instantiation) :
    TypeRef.listed (i.currentArguments links) = TypeRef.listed i.arguments := by
  have each : (i.currentArguments links).map TypeRef.canonical =
      i.arguments.map TypeRef.canonical := by
    rw [Instantiation.currentArguments]
    refine List.ext_getElem (by simp) fun n _ _ => ?_
    simp [canonicalCurrent]
  rw [TypeRef.listed, TypeRef.listed, each]

end Arguments

section Refetched
variable {w : Workspace} {id : ScopeId} {d e : Definition} {v : Workspace}

theorem refetchFound {t : Declared} {after : Workspace} (stored : d.isApart = false)
    (found : w.findType id .deep .exact d.fullName d.arity = some t)
    (fresh : (instantiate id (.ofDeclared t) (d.argumentsNow w.links)).run w = (e, after)) :
    ∃ mainParts, (refetch id d).run w = (e, { after with mainParts := mainParts }) := by
  have ordinary : ¬(d.placeholder?.isSome || d.element?.isSome) = true := by
    rw [← Definition.isApart, stored]
    exact Bool.false_ne_true
  unfold refetch
  rw [if_neg ordinary, StateT.run_bind, StateT.run_get, pure_bind, found]
  change ∃ _, (instantiate id (.ofDeclared t) (d.argumentsNow w.links) >>= _).run w = _
  rw [runThrough fresh]
  split
  · rename_i old new _ _
    obtain ⟨mainParts, chosen⟩ := chosenAside new (w.recordOf old).body.file
      (w.recordOf old).body.location after
    exact ⟨mainParts, congrArg (Prod.mk e) chosen⟩
  · exact ⟨after.mainParts, rfl⟩

theorem refetchMissed (missed : d.isApart = true ∨
    w.findType id .deep .exact d.fullName d.arity = none) : (refetch id d).run w = (d, w) := by
  unfold refetch
  split
  · rfl
  · rename_i stored
    have missing := missed.resolve_left stored
    rw [StateT.run_bind, StateT.run_get, pure_bind, missing]
    rfl

theorem boundAgain {i : Instantiation} {t : Declared} (named : t.fullName = i.openType.fullName)
    (nonempty : i.arguments ≠ []) (kept : (w.scope id).cache.get? i.key = some (.bound i)) :
    (instantiate id (.ofDeclared t) (i.currentArguments w.links)).run w = (.bound i, w) := by
  have current : i.currentArguments w.links ≠ [] := by
    rw [Instantiation.currentArguments]
    exact fun empty => nonempty (List.mapIdx_eq_nil_iff.mp empty)
  have key : Instantiation.keyFor (OpenType.declared t).fullName (i.currentArguments w.links) =
      i.key := by
    have same : (OpenType.declared t).fullName = i.openType.fullName := named
    rw [Instantiation.keyFor, same, listedCurrent]
    rfl
  rw [Definition.ofDeclared, instantiateRun id w _ current, key, kept]

theorem instanceStays {i : Instantiation} {t : Declared}
    (stored : (Definition.bound i).isApart = false)
    (found : w.findType id .deep .exact i.openType.fullName i.openType.arity = some t)
    (named : t.fullName = i.openType.fullName) (nonempty : i.arguments ≠ [])
    (kept : (w.scope id).cache.get? i.key = some (.bound i)) :
    (refetch id (.bound i)).run w = (.bound i, w) := by
  have ordinary : ¬((Definition.bound i).placeholder?.isSome ||
      (Definition.bound i).element?.isSome) = true := by
    rw [← Definition.isApart, stored]
    exact Bool.false_ne_true
  have here : w.findType id .deep .exact (Definition.bound i).fullName (Definition.bound i).arity =
      some t := found
  unfold refetch
  rw [if_neg ordinary, StateT.run_bind, StateT.run_get, pure_bind, here]
  dsimp only
  rw [runThrough (boundAgain named nonempty kept)]
  rfl

theorem instanceRefetched (sound : w.Stores Store.Sound) (lasting : v.lasting = w.lasting)
    {i : Instantiation} (nonempty : i.arguments ≠ [])
    (kept : (v.scope id).cache.get? i.key = some (.bound i)) :
    ((refetch id (.bound i)).run v).1 = .bound i := by
  by_cases missed : (Definition.bound i).isApart = true ∨ v.findType id .deep .exact
      (Definition.bound i).fullName (Definition.bound i).arity = none
  · rw [refetchMissed missed]
  obtain ⟨stored, missing⟩ := not_or.mp missed
  obtain ⟨t, found⟩ := Option.ne_none_iff_exists'.mp missing
  cases fresh : (instantiate id (.ofDeclared t)
      ((Definition.bound i).argumentsNow v.links)).run v with
  | mk d after =>
    obtain ⟨mainParts, run⟩ := refetchFound (Bool.eq_false_iff.mpr stored) found fresh
    rw [Workspace.findTypeLasting lasting] at found
    have again := boundAgain (foundNamed sound found).1 nonempty kept
    rw [run]
    exact congrArg Prod.fst (fresh.symm.trans again)

theorem filledFrame : Frame (Workspace.Remembers (fun _ _ d => d.Filled)) (fun _ _ => True) :=
  Workspace.Remembers.frame (fun _ _ d => d.Filled)
    (fun _ _ _ made _ same => by cases same; exact made.filled) (fun _ _ _ _ same => nomatch same)

theorem refetchedAgain (sound : w.Stores Store.Sound) (filed : Filed w)
    (filled : w.Remembers (fun _ _ d => d.Filled)) (fetching : (refetch id d).run w = (e, v)) :
    ((refetch id e).run v).1 = e := by
  by_cases missed : d.isApart = true ∨ w.findType id .deep .exact d.fullName d.arity = none
  · cases (refetchMissed missed).symm.trans fetching
    rw [refetchMissed missed]
  obtain ⟨stored, missing⟩ := not_or.mp missed
  obtain ⟨t, found⟩ := Option.ne_none_iff_exists'.mp missing
  cases fresh : (instantiate id (.ofDeclared t) (d.argumentsNow w.links)).run w with
  | mk fetched after =>
    obtain ⟨mainParts, run⟩ := refetchFound (Bool.eq_false_iff.mpr stored) found fresh
    cases run.symm.trans fetching
    by_cases bare : d.argumentsNow w.links = []
    · -- the stored type itself, which is found again
      obtain ⟨named, counted⟩ := foundNamed sound found
      rw [bare] at fresh
      cases fresh
      have lasting : Workspace.lasting { w with mainParts := mainParts } = w.lasting := rfl
      rw [refetchRun, Workspace.findTypeLasting lasting, named, counted, found]
      rfl
    · -- what is filed under the key, whatever it is
      have bound := instantiateBound filed (openedOfFound found) t bare
      have filledAfter := (filledFrame.instantiate id (d := .ofDeclared t) trivial
        (d.argumentsNow w.links) w filled).1
      rw [fresh] at bound filledAfter
      obtain ⟨own, -⟩ := bound.grown.filed.entries _ _ _ bound.filed
      have lasting : Workspace.lasting { after with mainParts := mainParts } = w.lasting :=
        bound.grown.lasting
      cases e with
      | bound i =>
        have key : i.key = Instantiation.keyFor t.fullName (d.argumentsNow w.links) :=
          Option.some.inj own
        exact instanceRefetched sound lasting (filledAfter id _ _ bound.filed i rfl)
          (key ▸ bound.filed)
      | unbound o =>
        cases o with
        | placeholder p => rw [refetchMissed (.inl rfl)]
        | declared _ => cases own
        | array _ => cases own

end Refetched
end TypeScope
