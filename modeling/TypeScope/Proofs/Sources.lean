import TypeScope.Proofs.Parameters

/-! What the sources of names have in common. Nested types left aside, a source that has no answer
leaves everything as it was, so the answer is that of the first source that has one. -/
namespace TypeScope.Query

section Firsts
variable {α β γ : Type}

theorem findFirstMapped (f : β → Query (Option α)) (bs : List β) :
    findFirst f bs = firstOf (bs.map f) := by
  induction bs with
  | nil => rfl
  | cons b rest ih => rw [findFirst, List.map_cons, firstOf, ih]

theorem findFirstSingle (f : β → Query (Option α)) (b : β) : findFirst f [b] = f b := by
  refine StateT.ext fun w => ?_
  rw [findFirst, StateT.run_bind]
  cases (f b).run w with
  | mk answer after => cases answer <;> rfl

theorem findFirstMap (f : γ → Query (Option α)) (g : β → γ) (bs : List β) :
    findFirst f (bs.map g) = findFirst (fun b => f (g b)) bs := by
  induction bs with
  | nil => rfl
  | cons b rest ih => rw [List.map_cons, findFirst, findFirst, ih]

theorem firstOfAppend (f : β → Query (Option α)) (bs : List β) (rest : List (Query (Option α)))
    (bs' : List β) (same : firstOf rest = findFirst f bs') :
    firstOf (findFirst f bs :: rest) = findFirst f (bs ++ bs') := by
  refine StateT.ext fun w => ?_
  rw [firstOf, StateT.run_bind, same]
  induction bs generalizing w with
  | nil => rfl
  | cons b bs ih =>
    rw [List.cons_append, findFirst, findFirst, StateT.run_bind, StateT.run_bind]
    cases (f b).run w with
    | mk answer after =>
      cases answer with
      | some a => rfl
      | none => exact ih after

theorem firstOfParts (f : β → Query (Option α)) (parts : List (List β)) :
    firstOf (parts.map (findFirst f)) = findFirst f parts.flatten := by
  induction parts with
  | nil => rfl
  | cons bs rest ih =>
    rw [List.map_cons, List.flatten_cons]
    exact firstOfAppend f bs _ _ ih

theorem firstOfLast {I : Workspace → Prop} {queries : List (Query (Option α))}
    {a b : Query (Option α)} (leaves : ∀ q ∈ queries, Leaves I q)
    (same : ∀ v, I v → a.run v = b.run v) {w : Workspace} (holds : I w) :
    (firstOf (queries ++ [a])).run w = (firstOf (queries ++ [b])).run w := by
  induction queries generalizing w with
  | nil => simp only [List.nil_append, firstOf, StateT.run_bind, same w holds]
  | cons q rest ih =>
    have kept := (leaves q List.mem_cons_self w holds).1
    rw [List.cons_append, List.cons_append, firstOf, firstOf, StateT.run_bind, StateT.run_bind]
    cases run : q.run w with
    | mk answer after =>
      rw [run] at kept
      cases answer with
      | some d => rfl
      | none => exact ih (fun other mem => leaves other (List.mem_cons_of_mem _ mem)) kept

section
variable {source : Query (Option α)} {rest : List (Query (Option α))} {w : Workspace}

theorem firstOfHit (hit : (source.run w).1.isSome = true) :
    (firstOf (source :: rest)).run w = source.run w := by
  obtain ⟨a, after, run⟩ := answered hit
  rw [firstOf, runThrough run, run]
  rfl

theorem firstOfNext (missed : (source.run w).1 = none) :
    (firstOf (source :: rest)).run w = (firstOf rest).run (source.run w).2 := by
  rw [firstOf, runThrough (Prod.ext missed rfl : source.run w = (none, _))]

theorem firstOfMissed (missed : ((firstOf (source :: rest)).run w).1 = none) :
    (source.run w).1 = none ∧ ((firstOf rest).run (source.run w).2).1 = none := by
  cases answer : (source.run w).1 with
  | none => exact ⟨rfl, firstOfNext answer ▸ missed⟩
  | some a =>
    rw [firstOfHit (by rw [answer]; rfl), answer] at missed
    cases missed

end

end Firsts

section Near

def nearSources (id : ScopeId) (q : Request) (calling : Option Definition) :
    List (Query (Option Definition)) :=
  [fromParameters id q calling, fromKnown id q, fromNested id q calling, fromAlias id q,
    fromEnclosing id q calling]

theorem resolveSources {id : ScopeId} {q : Request} {calling : Option Definition}
    {w fetched : Workspace} (some_ : q.name ≠ "")
    (fetching : (q.calling.mapM (refetch id)).run w = (calling, fetched)) :
    (resolve id q).run w =
      (firstOf (nearSources id q calling ++ [fromUsings id q])).run fetched := by
  unfold resolve resolveWith
  rw [if_neg some_]
  cases given : q.calling with
  | none =>
    rw [given] at fetching
    cases fetching
    rfl
  | some c =>
    rw [given] at fetching
    exact runThrough fetching

theorem resolveOutside {id : ScopeId} {q : Request} {w : Workspace} (some_ : q.name ≠ "")
    (uncalled : q.calling = none) :
    (resolve id q).run w = (firstOf [fromKnown id q, fromAlias id q, fromUsings id q]).run w := by
  have fetching : (q.calling.mapM (refetch id)).run w = (none, w) := by
    rw [uncalled]
    rfl
  have parameters : fromParameters id q none = pure none := rfl
  have nested : fromNested id q none = pure none := rfl
  have enclosing : fromEnclosing id q none = pure none := rfl
  rw [resolveSources some_ fetching, nearSources, parameters, nested, enclosing]
  simp only [List.cons_append, List.nil_append, firstOf, pure_bind]

theorem resolveUnnamed (id : ScopeId) {q : Request} (empty : q.name = "") :
    resolve id q = pure none := by
  unfold resolve resolveWith
  exact if_pos empty

theorem fromNestedRun (id : ScopeId) (q : Request) (c : Definition) (w : Workspace) :
    let followed := (followInner id q.rule q.arguments.length (Dotted.segments q.name) c).run w
    (fromNested id q (some c)).run w = followed.1.elim (none, followed.2) (fun t =>
      (some ((instantiate id t q.arguments).run followed.2).1,
        ((instantiate id t q.arguments).run followed.2).2)) := by
  unfold fromNested
  dsimp only
  cases run : (followInner id q.rule q.arguments.length (Dotted.segments q.name) c).run w with
  | mk answer after =>
    rw [runThrough run]
    cases answer <;> rfl

end Near

section Silent
variable {α β : Type}

structure Silent (q : Query (Option α)) : Prop where
  kept : ∀ w, (q.run w).1 = none → q.run w = (none, w)

theorem silentNone : Silent (pure none : Query (Option α)) := ⟨fun _ _ => rfl⟩

theorem firstOfCons {q : Query (Option α)} (silent : Silent q) (rest : List (Query (Option α)))
    (w : Workspace) : (firstOf (q :: rest)).run w =
      if (q.run w).1.isSome then q.run w else (firstOf rest).run w := by
  rw [firstOf, StateT.run_bind]
  cases run : q.run w with
  | mk answer after =>
    cases answer with
    | some a => rfl
    | none =>
      have kept : q.run w = (none, w) := silent.kept w (congrArg Prod.fst run)
      cases run.symm.trans kept
      rfl

section
variable {source : Query (Option α)} {rest : List (Query (Option α))} {w : Workspace}

theorem firstOfPassed (silent : Silent source) (missed : (source.run w).1 = none) :
    (firstOf (source :: rest)).run w = (firstOf rest).run w := by
  rw [firstOfNext missed, silent.kept w missed]

theorem firstOfLost (silent : Silent source) (missed : ((firstOf (source :: rest)).run w).1 = none) :
    (source.run w).1 = none ∧ ((firstOf rest).run w).1 = none := by
  obtain ⟨here, later⟩ := firstOfMissed missed
  exact ⟨here, by rwa [silent.kept w here] at later⟩

end

theorem firstOfAnswer {queries : List (Query (Option α))} (silent : ∀ q ∈ queries, Silent q)
    (w : Workspace) :
    ((firstOf queries).run w).1 = queries.findSome? (fun q => (q.run w).1) := by
  induction queries with
  | nil => rfl
  | cons q rest ih =>
    have later := ih fun q mem => silent q (List.mem_cons_of_mem _ mem)
    rw [firstOfCons (silent q List.mem_cons_self), List.findSome?_cons]
    cases answer : (q.run w).1 with
    | some a => exact answer
    | none => exact later

theorem firstOfSilent {queries : List (Query (Option α))} (silent : ∀ q ∈ queries, Silent q) :
    Silent (firstOf queries) := by
  refine ⟨fun w missed => ?_⟩
  induction queries with
  | nil => rfl
  | cons q rest ih =>
    rw [firstOfCons (silent q List.mem_cons_self)] at missed ⊢
    split
    · rename_i answers
      rw [if_pos answers] at missed
      rw [missed] at answers
      cases answers
    · rename_i unanswered
      rw [if_neg unanswered] at missed
      exact ih (fun q mem => silent q (List.mem_cons_of_mem _ mem)) missed

section
variable {f : β → Query (Option α)} (silent : ∀ b, Silent (f b)) (bs : List β)
include silent

theorem mappedSilent : ∀ q ∈ bs.map f, Silent q := by
  intro q mem
  obtain ⟨b, -, rfl⟩ := List.mem_map.mp mem
  exact silent b

theorem findFirstAnswer (w : Workspace) :
    ((findFirst f bs).run w).1 = bs.findSome? (fun b => ((f b).run w).1) := by
  rw [findFirstMapped, firstOfAnswer (mappedSilent silent bs), List.findSome?_map]
  rfl

theorem findFirstSilent : Silent (findFirst f bs) := by
  rw [findFirstMapped]
  exact firstOfSilent (mappedSilent silent bs)

theorem findFirstFilter {p : β → Bool} {w : Workspace}
    (missed : ∀ b, p b = false → ((f b).run w).1 = none) :
    (findFirst f bs).run w = (findFirst f (bs.filter p)).run w := by
  simp only [findFirstMapped]
  induction bs with
  | nil => rfl
  | cons b rest ih =>
    rw [List.map_cons, firstOfCons (silent b)]
    cases kept : p b with
    | true => rw [List.filter_cons_of_pos kept, List.map_cons, firstOfCons (silent b), ih]
    | false =>
      rw [List.filter_cons_of_neg (by simp [kept]), missed b kept]
      exact ih

end

theorem getTypeSilent (id : ScopeId) (depth : Depth) (rule : CaseRule) (name : String)
    (arguments : List TypeRef) : Silent (getType id depth rule name arguments) := by
  refine ⟨fun w missed => ?_⟩
  cases found : w.findType id depth rule (Arity.strip name).1 (askedArity name arguments) with
  | some t =>
    rw [getTypeRun found] at missed
    cases missed
  | none => exact getTypeMissed found

theorem outerParameterAnswers (id : ScopeId) (rule : CaseRule) (name : String) (d : Definition)
    (w : Workspace) : ((outerParameter id rule name d).run w).1.isSome =
      (w.innermost id rule name d).isSome := by
  rw [outerParameterRun]
  cases w.innermost id rule name d <;> rfl

theorem outerParameterSilent (id : ScopeId) (rule : CaseRule) (name : String) (d : Definition) :
    Silent (outerParameter id rule name d) := by
  refine ⟨fun w missed => ?_⟩
  rw [outerParameterRun] at missed ⊢
  cases near : w.innermost id rule name d with
  | none => rfl
  | some found =>
    rw [near] at missed
    cases missed

theorem parametersSilent (id : ScopeId) (q : Request) (calling : Option Definition) :
    Silent (fromParameters id q calling) := by
  unfold fromParameters
  cases calling with
  | none => exact silentNone
  | some c =>
    dsimp only
    split
    · exact outerParameterSilent ..
    · exact silentNone

theorem knownSilent (id : ScopeId) (q : Request) : Silent (fromKnown id q) := getTypeSilent ..

theorem aliasSilent (id : ScopeId) (q : Request) : Silent (fromAlias id q) := by
  unfold fromAlias
  split
  · exact getTypeSilent ..
  · exact silentNone

theorem enclosingSilent (id : ScopeId) (q : Request) (calling : Option Definition) :
    Silent (fromEnclosing id q calling) := findFirstSilent (fun _ => getTypeSilent ..) _

theorem usingsSilent (id : ScopeId) (q : Request) : Silent (fromUsings id q) :=
  findFirstSilent (fun _ => getTypeSilent ..) _

end Silent

end TypeScope.Query
