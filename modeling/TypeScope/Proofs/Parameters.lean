import TypeScope.Proofs.Identity
import TypeScope.Proofs.Vantage

/-! Type parameters by name. From within a type its own parameters and those of the types around it
are found before anything else, and always. The placeholders for them are filed under the full name
of their owner and their own name: of types that share their full name, whichever is asked first
stands for all of them. -/
namespace TypeScope

def Definition.parameter? (rule : CaseRule) (name : String) (d : Definition) :
    Option (Declared × TypeParameter) :=
  match d.openType with
  | .declared owner =>
      (owner.body.typeParameters.find? (fun p => Name.same rule p.name name)).map
        (fun p => (owner, p))
  | _ => none

def Workspace.innermost (w : Workspace) (id : ScopeId) (rule : CaseRule) (name : String)
    (d : Definition) : Option (Declared × TypeParameter) :=
  (w.outward id d).findSome? (Definition.parameter? rule name)

def Request.within (name : String) (calling : Declared) (unit : Option CompilationUnit)
    (depth : Depth) : Request :=
  ⟨name, [], some (.ofDeclared calling), unit, .exact, depth⟩

namespace Query

section Runs
variable (id : ScopeId) (rule : CaseRule) (name : String) (d : Definition) (w : Workspace)

def placeholderFor (found : Declared × TypeParameter) : Option Definition × Workspace :=
  (some ((placeholder id found.1 found.2).run w).1, ((placeholder id found.1 found.2).run w).2)

theorem parameterRun : (parameterNamed id d rule name).run w =
    (d.parameter? rule name).elim (none, w) (placeholderFor id w) := by
  unfold Definition.parameter? parameterNamed
  cases open_ : d.openType with
  | array a => rfl
  | placeholder p => rfl
  | declared owner =>
    dsimp only
    cases owner.body.typeParameters.find? (fun p => Name.same rule p.name name) <;> rfl

theorem outerParameterRun : (outerParameter id rule name d).run w =
    (w.innermost id rule name d).elim (none, w) (placeholderFor id w) := by
  have first : (outerParameter id rule name d).run w =
      (findFirst (fun d => parameterNamed id d rule name) (w.outward id d)).run w := rfl
  rw [first, Workspace.innermost]
  induction w.outward id d with
  | nil => rfl
  | cons e rest ih =>
    rw [findFirst, StateT.run_bind, parameterRun, List.findSome?_cons]
    cases e.parameter? rule name with
    | none => exact ih
    | some found => rfl

end Runs

section Placeholders
variable {w : Workspace} {id : ScopeId} {owner : Declared} {p : TypeParameter}

theorem placeholderOnly {d : Definition} {made : Placeholder}
    (special : d.placeholder? = some made) : d = .unbound (.placeholder made) := by
  unfold Definition.placeholder? at special
  split at special
  · cases special
    rfl
  · cases special

structure Placed (id : ScopeId) (w : Workspace) (owner : Declared) (p : TypeParameter)
    (d : Definition) (after : Workspace) : Prop where
  grown : Grown w after
  filed : (after.scope id).cache.get? (Placeholder.keyFor owner.fullName p.name) = some d
  known : ∀ e, (w.scope id).cache.get? (Placeholder.keyFor owner.fullName p.name) = some e → d = e
  made : (w.scope id).cache.get? (Placeholder.keyFor owner.fullName p.name) = none →
    ∃ made : Placeholder, d = .unbound (.placeholder made) ∧ made.owner = owner ∧
      made.parameter = p ∧ d.body.bases = p.constraints

theorem placeholderPlaced (filed : Filed w) (opened : id < w.scopes.length) (owner : Declared)
    (p : TypeParameter) : Placed id w owner p ((placeholder id owner p).run w).1
      ((placeholder id owner p).run w).2 := by
  have grown := ((grownFrame w).placeholder id owner p w (.refl filed)).1
  refine ⟨grown, ?_, fun e known => ?_, fun new => ?_⟩ <;> rw [placeholderRun]
  · cases known : (w.scope id).cache.get? (Placeholder.keyFor owner.fullName p.name) with
    | some d => exact known
    | none =>
      dsimp only [Placeholder.key]
      rw [Workspace.remembering, Workspace.scopeModify, if_pos ⟨rfl, opened⟩, Table.getPut,
        if_pos rfl]
  · rw [known]
  · rw [new]
    exact ⟨_, rfl, rfl, rfl, rfl⟩

end Placeholders

section Within
variable {v w : Workspace} {id : ScopeId} {C O : Declared} {N : String} {p : TypeParameter}

theorem innermostLasting (same : w.lasting = v.lasting) (rule : CaseRule) (name : String)
    (d : Definition) : w.innermost id rule name d = v.innermost id rule name d := by
  have around : w.outward id d = v.outward id d :=
    Workspace.outwardFromLasting same id (Workspace.outwardBound d) d
  rw [Workspace.innermost, Workspace.innermost, around]

theorem Workspace.Holds.lasting (held : v.Holds id C) (same : w.lasting = v.lasting) :
    w.Holds id C := by
  rw [Workspace.Holds, Workspace.findTypeLasting same]
  exact held

theorem innermostNamed {d : Definition} (nearest : w.innermost id .exact N d = some (O, p)) :
    p.name = N ∧ p ∈ O.body.typeParameters := by
  obtain ⟨e, -, has⟩ := List.exists_of_findSome?_eq_some nearest
  unfold Definition.parameter? at has
  split at has
  · obtain ⟨q, first, same⟩ := Option.map_eq_some_iff.mp has
    cases same
    have named := List.find?_some first
    exact ⟨Name.sameExact.mp named, List.mem_of_find?_eq_some first⟩
  · cases has

theorem parameterPlaced (filed : Filed w) (held : w.Holds id C) (some_ : N ≠ "")
    (nearest : w.innermost id .exact N (.ofDeclared C) = some (O, p))
    (unit : Option CompilationUnit) (depth : Depth) :
    ∃ d after, (resolve id (.within N C unit depth)).run w = (some d, after) ∧
      Placed id w O p d after := by
  have opened : id < w.scopes.length := openedOfFound held
  obtain ⟨mainParts, fetched⟩ := refetchCalled held rfl rfl
  have grown : Grown w { w with mainParts := mainParts } :=
    (Grown.refl filed).aside rfl (Nat.le_refl _)
  have placed := placeholderPlaced grown.filed opened O p
  have asked := outerParameterRun id .exact N (.ofDeclared C) { w with mainParts := mainParts }
  have lasting : Workspace.lasting { w with mainParts := mainParts } = w.lasting := rfl
  rw [innermostLasting lasting, nearest, Option.elim_some] at asked
  refine ⟨_, _, ?_, grown.trans placed.grown, placed.filed, placed.known, placed.made⟩
  have named : (Request.within N C unit depth).name ≠ "" := some_
  have calling : (Request.within N C unit depth).calling = some (.ofDeclared C) := rfl
  have first : fromParameters id (.within N C unit depth) (some (.ofDeclared C)) =
      outerParameter id .exact N (.ofDeclared C) := rfl
  unfold resolve resolveWith
  rw [if_neg named, calling]
  dsimp only
  rw [runThrough fetched, firstOf, first, runThrough asked]
  rfl

/-- From within a stored type the innermost parameter of a name is always found. The answer has the
key of its owner's full name and its name; it is the placeholder of that parameter if none was filed
under that key, and it then is the answer for every type of that full name, until instances are
dropped. -/
theorem innermostParameter (events : List Event) (id : ScopeId) {C O : Declared} {N : String}
    {p : TypeParameter} (some_ : N ≠ "") (held : (Session.run events).workspace.Holds id C)
    (nearest : (Session.run events).workspace.innermost id .exact N (.ofDeclared C) = some (O, p))
    (unit : Option CompilationUnit) (depth : Depth) :
    let w := (Session.run events).workspace
    let key := Placeholder.keyFor O.fullName N
    ∃ d after, (resolve id (.within N C unit depth)).run w = (some d, after) ∧
      d.key? = some key ∧ (∀ e, (w.scope id).cache.get? key = some e → d = e) ∧
      ((w.scope id).cache.get? key = none → ∃ made : Placeholder, d = .unbound (.placeholder made) ∧
        made.owner = O ∧ made.parameter = p ∧ d.body.bases = p.constraints) ∧
      ∀ questions : List (ScopeId × Question), (∀ q ∈ questions, q.2.forgets = false) →
        ∀ C' O' p' unit' depth', w.Holds id C' →
          w.innermost id .exact N (.ofDeclared C') = some (O', p') → O'.fullName = O.fullName →
          ((resolve id (.within N C' unit' depth')).run (asked after questions)).1 = some d := by
  intro w key
  obtain ⟨named, -⟩ := innermostNamed nearest
  obtain ⟨d, after, run, placed⟩ :=
    parameterPlaced (Session.filed events) held some_ nearest unit depth
  have filed := placed.filed
  have known := placed.known
  have made := placed.made
  rw [named] at filed known made
  have own := (placed.grown.filed.entries id key d filed).1
  refine ⟨d, after, run, own, known, made, ?_⟩
  intro questions keeps C' O' p' unit' depth' held' near' same
  have grown : Grown w (asked after questions) := placed.grown.asked keeps
  have later : Grown after (asked after questions) := (Grown.refl placed.grown.filed).asked keeps
  obtain ⟨named', -⟩ := innermostNamed near'
  have held' := Workspace.Holds.lasting held' grown.lasting
  have near' := (innermostLasting grown.lasting _ _ _).trans near'
  obtain ⟨d', final, run', placed'⟩ :=
    parameterPlaced grown.filed held' some_ near' unit' depth'
  have still := placed'.known d (by
    rw [named', same]
    exact later.kept id key d filed)
  rw [run', still]

end Within

def twoBoxes : List Event :=
  [.opens "app",
    .writes ⟨⟨0⟩, "Box.cs", [],
      [{ Blueprint.bare "App.Box" .classType with typeParameters := [⟨"T", []⟩] },
        { Blueprint.bare "App.Box" .classType with
          typeParameters := [⟨"T", [TypeRef.named "App.Root"]⟩, ⟨"U", []⟩] }]⟩,
    .ingests 0 0]

def boxes : Workspace := (Session.run twoBoxes).workspace

theorem innermostParameterBoxes : ∃ C O p d after,
    boxes.findType 0 .deep .exact "App.Box" 2 = some C ∧
      boxes.innermost 0 .exact "T" (.ofDeclared C) = some (O, p) ∧
      (resolve 0 (.within "T" C none .shallow)).run boxes = (some d, after) ∧
      d.body.bases = p.constraints := by
  have found : (boxes.findType 0 .deep .exact "App.Box" 2).any (fun C =>
      (boxes.innermost 0 .exact "T" (.ofDeclared C)).any (fun nearest =>
        ((boxes.scope 0).cache.get? (Placeholder.keyFor nearest.1.fullName "T")).isNone)) := by
    decide +kernel
  obtain ⟨C, stored, found⟩ := (Option.any_eq_true _ _).mp found
  obtain ⟨⟨O, p⟩, nearest, new⟩ := (Option.any_eq_true _ _).mp found
  have held : boxes.Holds 0 C := Workspace.foundAgain (Session.storesSound twoBoxes) stored
  obtain ⟨d, after, run, -, -, made, -⟩ :=
    innermostParameter twoBoxes 0 (by decide) held nearest none .shallow
  obtain ⟨-, -, -, -, bases⟩ := made (Option.isNone_iff_eq_none.mp new)
  exact ⟨C, O, p, d, after, stored, nearest, run, bases⟩

theorem parameterMistaken : ∃ first second O p made,
    boxes.findType 0 .deep .exact "App.Box" 1 = some first ∧
      boxes.findType 0 .deep .exact "App.Box" 2 = some second ∧
      boxes.innermost 0 .exact "T" (.ofDeclared second) = some (O, p) ∧ O.arity = 2 ∧
      p.constraints ≠ [] ∧
      ((resolve 0 (.within "T" second none .shallow)).run
        ((resolve 0 (.within "T" first none .shallow)).run boxes).2).1 =
          some (.unbound (.placeholder made)) ∧
      made.owner.arity = 1 ∧ made.parameter.constraints = [] := by
  have found : (boxes.findType 0 .deep .exact "App.Box" 1).any (fun first =>
      (boxes.findType 0 .deep .exact "App.Box" 2).any (fun second =>
        (boxes.innermost 0 .exact "T" (.ofDeclared second)).any (fun nearest =>
          nearest.1.arity == 2 && !nearest.2.constraints.isEmpty) &&
        (((resolve 0 (.within "T" second none .shallow)).run
          ((resolve 0 (.within "T" first none .shallow)).run boxes).2).1.bind
            Definition.placeholder?).any (fun made =>
              made.owner.arity == 1 && made.parameter.constraints.isEmpty))) := by
    decide +kernel
  obtain ⟨first, storedFirst, found⟩ := (Option.any_eq_true _ _).mp found
  obtain ⟨second, storedSecond, found⟩ := (Option.any_eq_true _ _).mp found
  obtain ⟨innermost, answered⟩ := Bool.and_eq_true_iff.mp found
  obtain ⟨⟨O, p⟩, nearest, wanted⟩ := (Option.any_eq_true _ _).mp innermost
  obtain ⟨made, answer, told⟩ := (Option.any_eq_true _ _).mp answered
  obtain ⟨d, answer, special⟩ := Option.bind_eq_some_iff.mp answer
  obtain ⟨two, wants⟩ := Bool.and_eq_true_iff.mp wanted
  obtain ⟨one, bare⟩ := Bool.and_eq_true_iff.mp told
  rw [placeholderOnly special] at answer
  refine ⟨first, second, O, p, made, storedFirst, storedSecond, nearest, eq_of_beq two, ?_, answer,
    eq_of_beq one, List.isEmpty_iff.mp bare⟩
  simpa using wants

end Query
end TypeScope
