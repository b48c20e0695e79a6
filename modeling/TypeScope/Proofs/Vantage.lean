import TypeScope.Proofs.Agreement
import TypeScope.Proofs.InheritanceWalk

/-! The same type walked from two scopes: the one that stores it and one that refers to that. The
walks meet the same definitions as long as, for every name tried on the way, what the referring
scope sees declared under it the other sees as well, and no directive has a say in what a base is:
the referring scope does not hold the file, and looks for directives in its own files only. -/
namespace TypeScope

section Names
open Workspace (writtenIn)

def Definition.files (d : Definition) : List FileId :=
  match writtenIn d with
  | .unbound (.declared t) => (t :: t.parts).filterMap (fun part => part.body.file)
  | other => other.body.file.toList

def Workspace.usingsAt (w : Workspace) (id : ScopeId) (file : FileId) : List UsingDirective :=
  ((w.store id).units.get? file).elim [] CompilationUnit.usings

def Definition.homeNames (d : Definition) : List String :=
  d.home?.elim [] (fun t => t.fullName :: Dotted.enclosing t.fullName)

def TypeRef.namesTried (around : String) (usings : List UsingDirective) (base : TypeRef) :
    List String :=
  base.fullName ::
    ((UsingDirective.findAlias .exact base.fullName usings).map TypeRef.fullName).toList ++
    (Dotted.enclosing around).map (fun outer => outer ++ "." ++ base.fullName) ++
    usings.flatMap (UsingDirective.candidates .exact base.fullName)

def Workspace.FoundAsWritten (w : Workspace) (id : ScopeId) (base : TypeRef) : Prop :=
  base.element?.isSome = true ∨ (w.findType id .deep .exact (Arity.strip base.decoratedName).1
    (askedArity base.decoratedName base.arguments)).isSome = true

instance (w : Workspace) (id : ScopeId) (base : TypeRef) : Decidable (w.FoundAsWritten id base) :=
  inferInstanceAs (Decidable (_ ∨ _))

def Workspace.namesTried (w : Workspace) (id : ScopeId) (d : Definition) : List String :=
  let directives := [] :: d.files.map (w.usingsAt id)
  d.homeNames ++ (if d.body.base.isNone then [objectName] else []) ++
    d.body.bases.flatMap (fun base => (Arity.strip (directName base)).1 ::
      if w.FoundAsWritten id base then [] else directives.flatMap (fun usings =>
        (base.namesTried (writtenIn d).fullName usings).map (fun name => (Arity.strip name).1)))

def Workspace.Unobstructed (w : Workspace) (a b : ScopeId) (name : String) : Prop :=
  (w.declaring a name).Sublist (w.declaring b name)

/-- Directives have no say in what a base comes to that is written in a type with that full name:
they are the same from both scopes, or they have no alias of its name and either it is found below a
name around the type or nothing that they lead to is declared. -/
inductive Workspace.Unswayed (w : Workspace) (a b : ScopeId) (around : String) (base : TypeRef)
    (left right : List UsingDirective) : Prop where
  | same (usings : left = right)
  | around {outer} (unnamed : UsingDirective.findAlias .exact base.fullName left = none)
      (unnamedToo : UsingDirective.findAlias .exact base.fullName right = none)
      (encloses : outer ∈ Dotted.enclosing around)
      (found : (w.findType b .deep .exact (Arity.strip (outer ++ "." ++ base.fullName)).1
        (askedArity (outer ++ "." ++ base.fullName) base.arguments)).isSome = true)
  | nowhere (unnamed : UsingDirective.findAlias .exact base.fullName left = none)
      (unnamedToo : UsingDirective.findAlias .exact base.fullName right = none)
      (undeclared : ∀ name ∈ (left ++ right).flatMap
        (UsingDirective.candidates .exact base.fullName),
          w.declaring a (Arity.strip name).1 = [])

theorem aliasIn (unit : Option CompilationUnit) (name : String) :
    unit.bind (fun u => UsingDirective.findAlias .exact name u.usings) =
      UsingDirective.findAlias .exact name (unit.elim [] CompilationUnit.usings) := by
  cases unit <;> rfl

theorem candidatesIn (unit : Option CompilationUnit) (name : String) :
    unit.elim [] (fun u => u.usings.flatMap (UsingDirective.candidates .exact name)) =
      (unit.elim [] CompilationUnit.usings).flatMap (UsingDirective.candidates .exact name) := by
  cases unit <;> rfl

variable {u : Workspace} {a b : ScopeId}

theorem unobstructedSame (apart : u.Apart a) (reached : u.Reaches a b) {name : String}
    (clear : u.Unobstructed a b name) : SameSight u a b name := by
  obtain ⟨-, here⟩ := Workspace.consultedReached apart
  obtain ⟨once, there⟩ := Workspace.consultedReached (apart.below reached)
  have shown : u.declaring b name ⊆ u.declaring a name := by
    intro at_ mem
    obtain ⟨consulted, declares⟩ := List.mem_filter.mp mem
    exact List.mem_filter.mpr
      ⟨(here at_).mpr (reached.trans ((there at_).mp consulted)), declares⟩
  exact clear.eq_of_length_le (List.subperm_of_subset (once.filter _) shown).length_le

end Names

theorem Aligned.chooseMain {u v w : Workspace} {a b : ScopeId} (aligned : Aligned u a b v w) (t : Declared)
    (file : Option FileId) (location : Location) :
    Aligned u a b ((v.chooseMain t file location).getD v) ((w.chooseMain t file location).getD w) := by
  unfold Workspace.chooseMain
  cases t.parts.findIdx? (fun p => p.body.file == file && p.body.location == location) with
  | none => exact aligned
  | some i =>
    have mainParts : v.mainParts.put t.stamp i = w.mainParts.put t.stamp i := by
      rw [aligned.mainParts]
    exact ⟨aligned.left, aligned.right, aligned.clock, aligned.links, aligned.targets, mainParts,
      aligned.caches, aligned.linked, aligned.cached⟩

theorem Workspace.Untouched.aligned {w : Workspace} (untouched : w.Untouched)
    (a b : ScopeId) :
    Aligned w a b w w where
  left := rfl
  right := rfl
  clock := rfl
  links := rfl
  targets := rfl
  mainParts := rfl
  caches := by rw [(untouched.scopeOf a).cache, (untouched.scopeOf b).cache]
  linked d mem := by
    rw [untouched.targets] at mem
    cases mem
  cached d mem := by
    rw [(untouched.scopeOf a).cache] at mem
    cases mem

namespace Query
open Workspace (writtenIn)

section Refetching

def rechosen (t found : Declared) (w : Workspace) : Workspace :=
  if t.isCompound && found.isCompound then
    (w.chooseMain found (w.recordOf t).body.file (w.recordOf t).body.location).getD w
  else w

theorem chosenAside (d : Declared) (file : Option FileId) (location : Location) (w : Workspace) :
    ∃ mainParts, (w.chooseMain d file location).getD w = { w with mainParts := mainParts } := by
  unfold Workspace.chooseMain
  cases d.parts.findIdx? (fun p => p.body.file == file && p.body.location == location) with
  | none => exact ⟨w.mainParts, rfl⟩
  | some i => exact ⟨w.mainParts.put d.stamp i, rfl⟩

theorem rechosenAside (t found : Declared) (w : Workspace) :
    ∃ mainParts, rechosen t found w = { w with mainParts := mainParts } := by
  unfold rechosen
  split
  · exact chosenAside ..
  · exact ⟨w.mainParts, rfl⟩

theorem refetchRun (id : ScopeId) (t : Declared) (w : Workspace) :
    (refetch id (.ofDeclared t)).run w =
      (w.findType id .deep .exact t.fullName t.arity).elim (.ofDeclared t, w)
        (fun found => (.ofDeclared found, rechosen t found w)) := by
  have plain : ((Definition.ofDeclared t).placeholder?.isSome ||
      (Definition.ofDeclared t).element?.isSome) = false := rfl
  have named : (Definition.ofDeclared t).fullName = t.fullName := rfl
  have sized : (Definition.ofDeclared t).arity = t.arity := rfl
  have unbound : ∀ found, instantiate id (.ofDeclared found) [] = pure (.ofDeclared found) :=
    fun _ => rfl
  have compound : ∀ d : Declared,
      (Definition.ofDeclared d).compound? = if d.isCompound then some d else none := fun _ => rfl
  simp only [refetch, plain, named, sized, Bool.false_eq_true, if_false, StateT.run_bind,
    StateT.run_get, pure_bind]
  cases w.findType id .deep .exact t.fullName t.arity with
  | none => rfl
  | some found =>
    rw [Option.elim_some, rechosen]
    simp only [Definition.ofDeclared] at unbound compound ⊢
    rw [unbound, pure_bind, compound, compound]
    cases t.isCompound <;> cases found.isCompound <;> rfl

theorem refetchCalled {id : ScopeId} {w : Workspace} {t c : Declared}
    (stored : w.findType id .deep .exact c.fullName c.arity = some c)
    (name : t.fullName = c.fullName) (arity : t.arity = c.arity) :
    ∃ mainParts, (some <$> refetch id (.ofDeclared t)).run w =
      (some (.ofDeclared c), { w with mainParts := mainParts }) := by
  obtain ⟨mainParts, again⟩ := rechosenAside t c w
  refine ⟨mainParts, ?_⟩
  rw [map_eq_pure_bind]
  refine runThrough (a := Definition.ofDeclared c) ?_
  rw [refetchRun, name, arity, stored, Option.elim_some, again]

end Refetching

section Contexts
variable {u v w : Workspace} {a b : ScopeId} {d : Definition}

theorem refetchAgree (sound : u.Stores Store.Sound) {o : OpenType}
    (homely : Homely u a b (.unbound o)) :
    Agree (Aligned u a b) (refetch a (.unbound o)) (refetch b (.unbound o)) (fun fresh =>
      fresh.fullName = o.fullName ∧ Homely u a b fresh) := by
  cases o with
  | array x => exact agreePure ⟨rfl, homely⟩
  | placeholder p => exact agreePure ⟨rfl, homely⟩
  | declared t =>
    intro v w aligned
    obtain ⟨left, right⟩ := aligned.found (homely t rfl).1 t.arity
    have run := refetchRun a t v
    have runToo := refetchRun b t w
    rw [left] at run
    rw [right] at runToo
    rw [Definition.ofDeclared] at run runToo
    rw [run, runToo]
    cases stored : u.findType a .deep .exact t.fullName t.arity with
    | none => exact ⟨rfl, aligned, rfl, homely⟩
    | some found =>
      have named := (foundNamed sound stored).1
      refine ⟨rfl, ?_, named, ?_⟩
      · have record : w.recordOf t = v.recordOf t := by
          rw [Workspace.recordOf, Workspace.recordOf, Workspace.mainIndex, Workspace.mainIndex,
            aligned.mainParts]
        rw [Option.elim_some, Option.elim_some, rechosen, rechosen, record]
        split
        · exact aligned.chooseMain ..
        · exact aligned
      · rintro own ⟨⟩
        rw [named]
        exact homely t rfl

theorem declaringSame (sound : u.Stores Store.Sound) (aligned : Aligned u a b v w)
    (homely : Homely u a b d) : v.declaringType a d = w.declaringType b d ∧
      Answers (Homely u a b) (w.declaringType b d) := by
  unfold Workspace.declaringType
  unfold Homely Definition.home? at homely
  cases open_ : d.openType with
  | array x => exact ⟨rfl, answersNone⟩
  | placeholder p =>
    rw [open_] at homely
    exact ⟨rfl, answersSome homely⟩
  | declared t =>
    rw [open_] at homely
    dsimp only
    cases nested : t.body.outer with
    | none => exact ⟨rfl, answersNone⟩
    | some outer =>
      let inside := fun at_ =>
        (Workspace.enclosingIn (u.store at_) outer t.name t.arity).map Definition.ofDeclared
      have around : outer ∈ Dotted.enclosing t.fullName := outerEncloses nested
      have nothing : ∀ at_, (u.store at_).candidates outer = [] → inside at_ = none := by
        intro at_ empty
        simp only [inside, Workspace.enclosingIn, empty]
        rfl
      have asked : ∀ {x : Workspace}, x.lasting = u.lasting → ∀ id,
          (x.consulted id .deep).findSome? (fun at_ =>
            (Workspace.enclosingIn (x.store at_) outer t.name t.arity).map Definition.ofDeclared) =
              (u.declaring id outer).findSome? inside := fun same id => by
        simp only [Workspace.consultedLasting same, Workspace.storeLasting same]
        exact Workspace.findDeclaring nothing
      have alike : SameSight u a b outer := (homely t rfl).2 outer around
      rw [Option.bind_some, Option.bind_some, asked aligned.left, asked aligned.right, alike]
      refine ⟨rfl, fun e answer => ?_⟩
      obtain ⟨at_, -, found⟩ := List.exists_of_findSome?_eq_some answer
      obtain ⟨c, chosen, rfl⟩ := Option.map_eq_some_iff.mp found
      have listed : c ∈ (u.store at_).candidates outer := by
        rcases Option.or_eq_some_iff.mp chosen with first | ⟨-, first⟩
        · exact List.mem_of_find?_eq_some first
        · exact List.mem_of_head? first
      have named : c.fullName = outer := (sound.at Store.soundEmpty at_).named outer c listed
      rintro own ⟨⟩
      rw [named]
      exact ⟨alike, fun far mem => (homely t rfl).2 far (enclosingTrans mem around)⟩

theorem outwardSame (sound : u.Stores Store.Sound) (aligned : Aligned u a b v w)
    (homely : Homely u a b d) :
    v.outward a d = w.outward b d ∧ ∀ e ∈ w.outward b d, Homely u a b e := by
  unfold Workspace.outward
  induction Workspace.outwardBound d generalizing d with
  | zero => exact ⟨rfl, fun e mem => by cases mem⟩
  | succ steps ih =>
    obtain ⟨same, around⟩ := declaringSame sound aligned homely
    rw [Workspace.outwardFrom, Workspace.outwardFrom, same]
    cases outer : w.declaringType b d with
    | none =>
      refine ⟨rfl, fun e mem => ?_⟩
      rw [List.mem_singleton.mp mem]
      exact homely
    | some c =>
      obtain ⟨rest, each⟩ := ih (around c outer)
      refine ⟨congrArg (d :: ·) rest, fun e mem => ?_⟩
      rcases List.mem_cons.mp mem with rfl | further
      · exact homely
      · exact each e further

end Contexts

section Requests
variable {u w : Workspace} {id : ScopeId} {base : TypeRef} {o : OpenType}
  {unit : Option CompilationUnit} {usings : List UsingDirective}

def askedFor (base : TypeRef) (o : OpenType) (unit : Option CompilationUnit) : Request :=
  { Request.ofReference base with calling := some (.unbound o), unit := unit, depth := .deep }

theorem fromAliasRead (id : ScopeId) (given : unit.elim [] CompilationUnit.usings = usings) :
    fromAlias id (askedFor base o unit) =
      match UsingDirective.findAlias .exact base.fullName usings with
      | some target => lookupFor id (askedFor base o unit) target.fullName target.arguments
      | none => pure none := by
  rw [fromAlias, ← given, ← aliasIn]
  rfl

theorem fromUsingsRead (id : ScopeId) (given : unit.elim [] CompilationUnit.usings = usings) :
    fromUsings id (askedFor base o unit) =
      findFirst (fun name => getType id .deep .exact name base.arguments)
        (usings.flatMap (UsingDirective.candidates .exact base.fullName)) := by
  rw [fromUsings, ← given, ← candidatesIn]
  rfl

theorem enclosingTried {around outer : String} (encloses : outer ∈ Dotted.enclosing around) :
    outer ++ "." ++ base.fullName ∈ base.namesTried around usings := by
  simp only [TypeRef.namesTried, List.mem_append, List.mem_map]
  exact .inl (.inr ⟨outer, encloses, rfl⟩)

theorem lookupsNowhere (same : w.lasting = u.lasting) (arguments : List TypeRef)
    {names : List String} (undeclared : ∀ name ∈ names, u.declaring id (Arity.strip name).1 = []) :
    (findFirst (fun name => getType id .deep .exact name arguments) names).run w = (none, w) := by
  induction names with
  | nil => rfl
  | cons name rest ih =>
    have missed : w.findType id .deep .exact (Arity.strip name).1 (askedArity name arguments) =
        none := by
      rw [Workspace.findTypeLasting same, Workspace.findTypeDeclaring,
        undeclared name List.mem_cons_self]
      rfl
    rw [findFirst, runThrough (getTypeMissed missed)]
    exact ih fun other mem => undeclared other (List.mem_cons_of_mem _ mem)

theorem lookupsFound {f : String → String} {arguments : List TypeRef} {items : List String}
    {item : String} (among : item ∈ items)
    (found : (w.findType id .deep .exact (Arity.strip (f item)).1
      (askedArity (f item) arguments)).isSome = true) :
    ((findFirst (fun x => getType id .deep .exact (f x) arguments) items).run w).1.isSome =
      true := by
  induction items with
  | nil => cases among
  | cons x rest ih =>
    rw [findFirst]
    cases here : w.findType id .deep .exact (Arity.strip (f x)).1 (askedArity (f x) arguments) with
    | some t =>
      rw [runThrough (getTypeRun here)]
      rfl
    | none =>
      rw [runThrough (getTypeMissed here)]
      rcases List.mem_cons.mp among with rfl | later
      · rw [here] at found
        cases found
      · exact ih later

end Requests

section Sources
variable {u : Workspace} {a b : ScopeId} (vantages : Vantages u a b)
include vantages

theorem outerParameterAgree {calling : Definition} (homely : Homely u a b calling)
    (name : String) :
    Agree (Aligned u a b) (outerParameter a .exact name calling) (outerParameter b .exact name calling)
      (Answers (Clear u a b)) := by
  refine agreeGet fun v w aligned => ?_
  obtain ⟨same, each⟩ := outwardSame vantages.sound aligned homely
  rw [same]
  exact agreeFindFirst fun e mem => parameterNamedAgree vantages (each e mem).clear .exact name

variable {base : TypeRef} {o : OpenType} {unit unitToo : Option CompilationUnit}
  {left right : List UsingDirective}
  (mine : unit.elim [] CompilationUnit.usings = left)
  (theirs : unitToo.elim [] CompilationUnit.usings = right)
  (unswayed : u.Unswayed a b o.fullName base left right)
  (tried : ∀ name ∈ base.namesTried o.fullName right, SameSight u a b (Arity.strip name).1)

include tried in
theorem typedAgree {name : String} (mem : name ∈ base.namesTried o.fullName right)
    (arguments : List TypeRef) :
    Agree (Aligned u a b) (getType a .deep .exact name arguments)
      (getType b .deep .exact name arguments) (Answers (Clear u a b)) :=
  getTypeAgree vantages name (tried name mem) arguments

include mine theirs unswayed tried

theorem directedAgree {calling : Definition} (called : calling.fullName = o.fullName) :
    let late := fun id unit => firstOf [fromAlias id (askedFor base o unit),
      fromEnclosing id (askedFor base o unit) (some calling), fromUsings id (askedFor base o unit)]
    Agree (Aligned u a b) (late a unit) (late b unitToo) (Answers (Clear u a b)) := by
  have enclosing : Agree (Aligned u a b)
      (fromEnclosing a (askedFor base o unit) (some calling))
      (fromEnclosing b (askedFor base o unitToo) (some calling)) (Answers (Clear u a b)) := by
    refine agreeFindFirst fun outer mem => typedAgree vantages tried (enclosingTried ?_) _
    rw [← called]
    exact mem
  intro late
  simp only [late, fromAliasRead a mine, fromAliasRead b theirs]
  cases unswayed with
  | same usings =>
    subst usings
    refine agreeFirstOf (.cons ?aliases (.cons enclosing (.cons ?usings .nil)))
    case aliases =>
      split
      · rename_i target found
        exact typedAgree vantages tried (by simp [TypeRef.namesTried, found]) _
      · exact agreePure answersNone
    case usings =>
      rw [fromUsingsRead a mine, fromUsingsRead b theirs]
      exact agreeFindFirst fun name mem =>
        typedAgree vantages tried (List.mem_append_right _ mem) _
  | @around outer unnamed unnamedToo encloses found =>
    rw [unnamed, unnamedToo]
    refine agreeOr (agreePure answersNone) (agreeFirstOfSure (agreeSurely enclosing
      fun v w aligned => ?_))
    rw [← foundSame (tried _ (enclosingTried encloses)),
      ← Workspace.findTypeLasting aligned.left] at found
    have reached : outer ∈ Dotted.enclosing calling.fullName := by rwa [called]
    exact lookupsFound (f := fun outer => outer ++ "." ++ base.fullName) reached found
  | nowhere unnamed unnamedToo undeclared =>
    rw [unnamed, unnamedToo, fromUsingsRead a mine, fromUsingsRead b theirs]
    refine agreeFirstOf (.cons (agreePure answersNone) (.cons enclosing (.cons ?_ .nil)))
    rw [List.flatMap_append, List.forall_mem_append] at undeclared
    have undeclaredToo : ∀ name ∈ right.flatMap (UsingDirective.candidates .exact base.fullName),
        u.declaring b (Arity.strip name).1 = [] := fun name mem => by
      have same : SameSight u a b _ := tried name (List.mem_append_right _ mem)
      rw [← same]
      exact undeclared.2 name mem
    intro v w aligned
    rw [lookupsNowhere aligned.left base.arguments undeclared.1,
      lookupsNowhere aligned.right base.arguments undeclaredToo]
    exact ⟨rfl, aligned, answersNone⟩

theorem resolveFlatAgree (homely : Homely u a b (.unbound o)) :
    Agree (Aligned u a b) (resolveFlat a (askedFor base o unit))
      (resolveFlat b (askedFor base o unitToo)) (Answers (Clear u a b)) := by
  unfold resolveFlat resolveWith
  by_cases unnamed : base.fullName = ""
  · have bare : ∀ unit, (askedFor base o unit).name = "" := fun _ => unnamed
    rw [if_pos (bare _), if_pos (bare _)]
    exact agreePure answersNone
  have named : ∀ unit, (askedFor base o unit).name ≠ "" := fun _ => unnamed
  rw [if_neg (named _), if_neg (named _)]
  have again : Agree (Aligned u a b) (some <$> refetch a (.unbound o))
      (some <$> refetch b (.unbound o)) (fun calling => ∃ fresh, calling = some fresh ∧
        fresh.fullName = o.fullName ∧ Homely u a b fresh) := by
    rw [map_eq_pure_bind, map_eq_pure_bind]
    exact agreeBind (refetchAgree vantages.sound homely) fun fresh here =>
      agreePure ⟨fresh, rfl, here⟩
  refine agreeBind again fun _ ⟨calling, same, called, near⟩ => ?_
  subst same
  -- directives come in with the aliases; before that both scopes are asked the same
  refine agreeOr ?parameters (agreeOr ?known (agreeOr (agreePure answersNone)
    (directedAgree vantages mine theirs unswayed tried called)))
  case parameters =>
    change Agree _ (if base.arguments.isEmpty then _ else _)
      (if base.arguments.isEmpty then _ else _) _
    split
    · exact outerParameterAgree vantages near base.fullName
    · exact agreePure answersNone
  case known =>
    have own : base.fullName ∈ base.namesTried o.fullName right := by simp [TypeRef.namesTried]
    exact typedAgree vantages tried own base.arguments

end Sources

section Walks
variable {u v w : Workspace} {a b : ScopeId} {d : Definition}

structure Sighted (u : Workspace) (a b : ScopeId) (d : Definition) : Prop where
  names : ∀ name ∈ u.namesTried b d, SameSight u a b name
  usings : ∀ base ∈ d.body.bases, u.FoundAsWritten b base ∨ ∀ file ∈ d.files,
    u.Unswayed a b (writtenIn d).fullName base (u.usingsAt a file) (u.usingsAt b file)

theorem writtenUnbound (d : Definition) : ∃ o, writtenIn d = .unbound o := by
  unfold writtenIn
  split
  · exact ⟨_, rfl⟩
  · exact ⟨_, rfl⟩
  · rename_i bound _
    cases d with
    | unbound o => exact ⟨o, rfl⟩
    | bound i => exact absurd rfl (bound i)

theorem writtenHome (d : Definition) : (writtenIn d).home? = d.home? := by
  unfold writtenIn
  split <;> rfl

theorem fileAmong {file : FileId} (of_ : v.fileOf (writtenIn d) = some file) : file ∈ d.files := by
  unfold Definition.files
  obtain ⟨o, written⟩ := writtenUnbound d
  rw [written] at of_ ⊢
  have single : o.body.file = some file → file ∈ o.body.file.toList := fun same => by
    rw [same]
    exact List.mem_cons_self
  cases o with
  | declared t =>
    refine List.mem_filterMap.mpr ⟨v.recordOf t, ?_, of_⟩
    rw [Workspace.recordOf, Declared.mainPart?]
    cases part : t.parts[min (v.mainIndex t) (t.parts.length - 1)]? with
    | none => exact List.mem_cons_self
    | some p => exact List.mem_cons_of_mem _ (List.mem_of_getElem? part)
  | array x => exact single of_
  | placeholder p => exact single of_

namespace Sighted

theorem homely (sighted : Sighted u a b d) : Homely u a b d := by
  intro t home
  have listed : ∀ name ∈ t.fullName :: Dotted.enclosing t.fullName, SameSight u a b name := by
    refine fun name mem => sighted.names name ?_
    rw [Workspace.namesTried, Definition.homeNames, home]
    exact List.mem_append_left _ (List.mem_append_left _ mem)
  exact ⟨listed _ List.mem_cons_self, fun outer mem => listed outer (List.mem_cons_of_mem _ mem)⟩

theorem directives (aligned : Aligned u a b v w) {base : TypeRef}
    (unswayed : ∀ file ∈ d.files,
      u.Unswayed a b (writtenIn d).fullName base (u.usingsAt a file) (u.usingsAt b file)) :
    ∃ left, ∃ right ∈ [] :: d.files.map (u.usingsAt b),
      (v.unitOf a (writtenIn d)).elim [] CompilationUnit.usings = left ∧
        (w.unitOf b (writtenIn d)).elim [] CompilationUnit.usings = right ∧
          u.Unswayed a b (writtenIn d).fullName base left right := by
  have file := (aligned.fileSame (writtenIn d)).1
  rw [Workspace.unitOf, Workspace.unitOf, ← file, Workspace.storeLasting aligned.left,
    Workspace.storeLasting aligned.right]
  cases of_ : v.fileOf (writtenIn d) with
  | none => exact ⟨[], [], List.mem_cons_self, rfl, rfl, .same rfl⟩
  | some file =>
    have among := fileAmong of_
    exact ⟨u.usingsAt a file, u.usingsAt b file,
      List.mem_cons_of_mem _ (List.mem_map.mpr ⟨file, among, rfl⟩), rfl, rfl, unswayed file among⟩

theorem direct (sighted : Sighted u a b d) {base : TypeRef} (written : base ∈ d.body.bases) :
    SameSight u a b (Arity.strip (directName base)).1 :=
  sighted.names _ (List.mem_append_right _ (List.mem_flatMap.mpr
    ⟨base, written, List.mem_cons_self⟩))

theorem base (sighted : Sighted u a b d) {base : TypeRef} (written : base ∈ d.body.bases)
    (late : ¬ u.FoundAsWritten b base) {usings : List UsingDirective}
    (among : usings ∈ [] :: d.files.map (u.usingsAt b)) :
    ∀ name ∈ base.namesTried (writtenIn d).fullName usings,
      SameSight u a b (Arity.strip name).1 := by
  refine fun name mem => sighted.names _ (List.mem_append_right _ (List.mem_flatMap.mpr
    ⟨base, written, List.mem_cons_of_mem _ ?_⟩))
  rw [if_neg late]
  exact List.mem_flatMap.mpr ⟨usings, among, List.mem_map.mpr ⟨name, mem, rfl⟩⟩

end Sighted

theorem rootOfAgree (sighted : Sighted u a b d) :
    Agree (Aligned u a b) (rootOf a d) (rootOf b d) (fun _ => True) := by
  unfold rootOf
  split
  · rename_i rooted
    have bare : d.body.base.isNone = true := (Bool.and_eq_true_iff.mp rooted).1
    have root : SameSight u a b objectName := by
      refine sighted.names _ ?_
      rw [Workspace.namesTried, bare]
      simp
    refine agreeGet fun v w aligned => ?_
    obtain ⟨left, right⟩ := aligned.found root 0
    rw [left, right]
    exact agreePure trivial
  · exact agreePure trivial

section
variable {id : ScopeId} {base : TypeRef}

theorem lookupCoreFinds {r : TypeRef} (found : (v.findType id .deep .exact
      (Arity.strip r.decoratedName).1 (askedArity r.decoratedName r.arguments)).isSome = true) :
    ((lookupCore id r).run v).1.1.isSome = true := by
  unfold lookupCore
  rw [StateT.run_bind, StateT.run_get, pure_bind]
  dsimp only
  split
  · rfl
  · obtain ⟨t, stored⟩ := Option.isSome_iff_exists.mp found
    rw [runThrough (getTypeRun stored)]
    dsimp only
    split <;> rfl

theorem lookupAtFinds (found : v.FoundAsWritten id base) (site : Site) :
    ((lookupAt id site base).run v).1.isSome = true := by
  have current : v.FoundAsWritten id (v.links.current site base) := by
    unfold Links.current
    split
    · exact found
    · exact found
  have looked : ((lookup id (v.links.current site base)).run v).1.1.isSome = true := by
    unfold lookup
    split
    · rfl
    · rename_i bare
      rcases current with ranked | found
      · rw [bare] at ranked
        cases ranked
      · exact lookupCoreFinds found
  cases run : (lookup id (v.links.current site base)).run v with
  | mk answer after =>
    rw [run] at looked
    rw [lookupAt, StateT.run_bind, StateT.run_get, pure_bind, runThrough run]
    dsimp only
    split <;> exact looked

theorem foundAsWrittenSame (same : SameSight u a b (Arity.strip (directName base)).1)
    (kept : v.lasting = u.lasting) (found : u.FoundAsWritten b base) :
    v.FoundAsWritten a base := by
  rcases found with ranked | found
  · exact .inl ranked
  · cases bare : base.element? with
    | some element => exact .inl (by rw [bare]; rfl)
    | none =>
      rw [directName, bare] at same
      rw [← foundSame same, ← Workspace.findTypeLasting kept] at found
      exact .inr found

end

section
variable (vantages : Vantages u a b)
include vantages

theorem resolveBaseAgree (sighted : Sighted u a b d) (i : Nat) {base : TypeRef}
    (written : base ∈ d.body.bases) :
    Agree (Aligned u a b) (resolveBase a d i base) (resolveBase b d i base)
      (Answers (Clear u a b)) := by
  have direct := sighted.direct written
  have looked := lookupAtAgree vantages ⟨d.stamp, .base i⟩ base direct
  by_cases found : u.FoundAsWritten b base
  · have sure := agreeSurely (S := fun answer => answer.isSome = true) looked
      fun v w aligned => lookupAtFinds (foundAsWrittenSame direct aligned.left found) _
    refine agreeBind sure fun answer ⟨here, answers⟩ => ?_
    cases answer with
    | some found => exact agreePure here
    | none => cases answers
  · refine agreeBind looked fun answer here => ?_
    cases answer with
    | some found => exact agreePure here
    | none =>
      refine agreeGet fun v w aligned => ?_
      obtain ⟨left, right, among, mine, theirs, unswayed⟩ :=
        Sighted.directives aligned ((sighted.usings base written).resolve_left found)
      have tried := sighted.base written found among
      have homely : Homely u a b (writtenIn d) := by
        rw [Homely, writtenHome]
        exact sighted.homely
      obtain ⟨o, context⟩ := writtenUnbound d
      rw [context] at homely tried mine theirs unswayed ⊢
      refine agreeBind (resolveFlatAgree vantages mine theirs unswayed tried homely)
        fun answer found => ?_
      cases answer with
      | none => exact agreePure answersNone
      | some e =>
        exact agreeBind (linkAtAgree _ (found e rfl)) fun _ _ => agreePure found

theorem resolveBasesAgree (sighted : Sighted u a b d) (i : Nat) {bases : List TypeRef}
    (written : bases ⊆ d.body.bases) :
    Agree (Aligned u a b) (resolveBases a d i bases) (resolveBases b d i bases)
      (fun _ => True) := by
  induction bases generalizing i with
  | nil => exact agreePure trivial
  | cons base rest ih =>
    obtain ⟨first, later⟩ := List.cons_subset.mp written
    exact agreeBind (resolveBaseAgree vantages sighted i first) fun _ _ =>
      agreeBind (ih (i + 1) later) fun _ _ => agreePure trivial

theorem inheritsSame (sighted : Sighted u a b d) (aligned : Aligned u a b v w) :
    inherits a v d = inherits b w d ∧ Aligned u a b (basesAt a v d).2 (basesAt b w d).2 := by
  obtain ⟨bases, after, -⟩ :=
    resolveBasesAgree vantages sighted 0 (List.Subset.refl d.body.bases) v w aligned
  obtain ⟨root, -, -⟩ := rootOfAgree sighted _ _ after
  have root : ((rootOf a d).run (basesAt a v d).2).1 = ((rootOf b d).run (basesAt b w d).2).1 := root
  have bases : (basesAt a v d).1 = (basesAt b w d).1 := bases
  rw [inherits, inherits, root, bases]
  exact ⟨rfl, after⟩

theorem walkOnSame (steps : Nat) {walk : Walk} (aligned : Aligned u a b v w)
    (sighted : ∀ d ∈ ((walkOn b steps walk).run w).1, Sighted u a b d) :
    ((walkOn a steps walk).run v).1 = ((walkOn b steps walk).run w).1 := by
  induction steps generalizing walk v w with
  | zero => rfl
  | succ steps ih =>
    cases on : unmet walk with
    | nil =>
      rw [walkOnOver steps (advanceOver a v on), walkOnOver steps (advanceOver b w on)]
    | cons d rest =>
      have next := walkOnMeets steps (advanceMeets b w on)
      rw [next] at sighted
      obtain ⟨same, after⟩ := inheritsSame vantages (sighted d List.mem_cons_self) aligned
      rw [walkOnMeets steps (advanceMeets a v on), next, same]
      exact congrArg (d :: ·) (ih after fun e mem => sighted e (List.mem_cons_of_mem _ mem))

end
end Walks

section Fresh
variable {w : Workspace} {a b : ScopeId}

theorem startMet (id : ScopeId) (w : Workspace) (start : Definition) :
    start ∈ ((walkOn id (w.walkBound start) (startAt start)).run w).1 := by
  have on : unmet (startAt start) = start :: [] := rfl
  have positive : 0 < w.walkBound start :=
    Nat.lt_of_lt_of_le (potentialPositive on) (startPotential w start)
  obtain ⟨steps, enough⟩ := Nat.exists_eq_succ_of_ne_zero (Nat.ne_of_gt positive)
  rw [enough, walkOnMeets steps (advanceMeets id w on)]
  exact List.mem_cons_self

def fetchedAt (id : ScopeId) (d : Definition) (w : Workspace) : Definition × Workspace :=
  (refetch id d).run w

theorem ancestryRun (id : ScopeId) (d : Definition) (w : Workspace) :
    (ancestry id d).run w =
      (walkOn id ((fetchedAt id d w).2.walkBound (fetchedAt id d w).1)
        (startAt (fetchedAt id d w).1)).run (fetchedAt id d w).2 := rfl

theorem refetchNamed (sound : w.Stores Store.Sound) (id : ScopeId) (t : Declared) :
    ∃ s : Declared, ((refetch id (.ofDeclared t)).run w).1 = .ofDeclared s ∧
      s.fullName = t.fullName := by
  rw [refetchRun]
  cases stored : w.findType id .deep .exact t.fullName t.arity with
  | none => exact ⟨t, rfl, rfl⟩
  | some found => exact ⟨found, rfl, (foundNamed sound stored).1⟩

theorem refetchSame {t : Declared} (same : SameSight w a b t.fullName) :
    (refetch a (.ofDeclared t)).run w = (refetch b (.ofDeclared t)).run w := by
  rw [refetchRun, refetchRun, foundSame same]

theorem startHomely (sound : w.Stores Store.Sound) {t : Declared}
    (sighted : Sighted w a b ((refetch b (.ofDeclared t)).run w).1) :
    Homely w a b (.ofDeclared t) := by
  obtain ⟨s, start, named⟩ := refetchNamed sound b t
  have homely := sighted.homely
  rw [start] at homely
  rintro own ⟨⟩
  rw [← named]
  exact homely s rfl

/-- A type walked from the scope that stores it and from one that refers to that one, both in the
same freshly loaded workspace: if along the way the other scope sees nothing else under the names
that are tried, and the directives that it sees for a file have no say, the walks are the same. -/
theorem ancestryShared (events : List Event) (loading : ∀ e ∈ events, e.loads = true)
    {w : Workspace} (loaded : w = (Session.run events).workspace) {a b : ScopeId}
    (opened : a < w.scopes.length) (reached : w.Reaches a b)
    (uris : ∀ x y, w.Reaches a x → w.Reaches a y → w.uri x = w.uri y → x = y) (t : Declared)
    (clear : ∀ d ∈ ((ancestry b (.ofDeclared t)).run w).1, ∀ name ∈ w.namesTried b d,
      w.Unobstructed a b name)
    (usings : ∀ d ∈ ((ancestry b (.ofDeclared t)).run w).1, ∀ base ∈ d.body.bases,
      w.FoundAsWritten b base ∨ ∀ file ∈ d.files,
        w.Unswayed a b (writtenIn d).fullName base (w.usingsAt a file) (w.usingsAt b file)) :
    ((ancestry a (.ofDeclared t)).run w).1 = ((ancestry b (.ofDeclared t)).run w).1 := by
  have untouched : w.Untouched := loaded ▸ Session.untouched loading
  have sound : w.Stores Store.Sound := loaded ▸ Session.storesSound events
  have apart : w.Apart a := by
    refine ⟨fun x reaches => ?_, uris⟩
    induction reaches with
    | refl => exact opened
    | tail _ refers _ => exact (untouched.scopeOf _).references _ refers
  have vantages : Vantages w a b := ⟨opened, apart.known b reached, sound⟩
  have sighted : ∀ d ∈ ((ancestry b (.ofDeclared t)).run w).1, Sighted w a b d := fun d met =>
    ⟨fun name tried => unobstructedSame apart reached (clear d met name tried), usings d met⟩
  rw [ancestryRun] at sighted
  have homely := startHomely sound (sighted _ (startMet b _ _))
  have fetched : fetchedAt a (.ofDeclared t) w = fetchedAt b (.ofDeclared t) w :=
    refetchSame (homely t rfl).1
  have aligned : Aligned w a b (fetchedAt a (.ofDeclared t) w).2 (fetchedAt b (.ofDeclared t) w).2 :=
    (refetchAgree sound homely _ _ (untouched.aligned a b)).2.1
  rw [fetched] at aligned
  rw [ancestryRun, ancestryRun, fetched]
  exact walkOnSame vantages _ aligned sighted

def rowSource (file : Nat) (types : List (String × Option String)) : Source where
  file := ⟨file⟩
  fileName := ""
  usings := []
  types := types.map fun (name, base) =>
    { Blueprint.bare name .classType with base := base.map TypeRef.named }

def libraryLoading (types : List (String × Option String)) : List Event :=
  [.opens "lib", .opens "app",
    .writes { rowSource 0 types with usings := [UsingDirective.empty.withNamespace "Lib.Core"] },
    .ingests 0 0, .refers 1 [0]]

def sharedLoading : List Event :=
  libraryLoading [("Lib.Root", none), ("Lib.Base", some "Lib.Root"), ("Lib.Item", some "Base")]

def sharedLibrary : Workspace := (Session.run sharedLoading).workspace

def shadowedLibrary : Workspace :=
  (Session.run (sharedLoading ++
    [.writes (rowSource 1 [("Lib.Base", none)]), .ingests 1 1])).workspace

def importingLibrary : Workspace :=
  (Session.run (libraryLoading [("Lib.Core.Base", none), ("Lib.Item", some "Base")])).workspace

def libraryItem (row : Nat) : Declared :=
  Blueprint.build (some ⟨0⟩) ((Stamp.at 0).child row)
    { Blueprint.bare "Lib.Item" .classType with base := some (TypeRef.named "Base") }

def namesMet (id : ScopeId) (d : Definition) (w : Workspace) : List String :=
  ((ancestry id d).run w).1.map Definition.decoratedName

instance (w : Workspace) (a b : ScopeId) (name : String) : Decidable (w.Unobstructed a b name) :=
  inferInstanceAs (Decidable (List.Sublist _ _))

theorem ancestrySharedLibrary :
    (sharedLibrary.store 0).find "Lib.Item" 0 = some (libraryItem 2) ∧
      ((ancestry 1 (.ofDeclared (libraryItem 2))).run sharedLibrary).1 =
        ((ancestry 0 (.ofDeclared (libraryItem 2))).run sharedLibrary).1 ∧
      namesMet 0 (.ofDeclared (libraryItem 2)) sharedLibrary =
        ["Lib.Item", "Lib.Base", "Lib.Root"] := by
  refine ⟨rfl, ?_, rfl⟩
  have reached : ∀ x, sharedLibrary.Reaches 1 x → x = 1 ∨ x = 0 := by
    intro x reaches
    induction reaches with
    | refl => exact .inl rfl
    | tail _ refers ih =>
      rcases ih with rfl | rfl
      · exact .inr (List.mem_singleton.mp refers)
      · cases refers
  let tree := ((ancestry 0 (.ofDeclared (libraryItem 2))).run sharedLibrary).1
  have single : ∀ d ∈ tree, ∀ file ∈ d.files, file = ⟨0⟩ := by decide +kernel
  have clear : ∀ d ∈ tree, ∀ name ∈ sharedLibrary.namesTried 0 d,
      sharedLibrary.Unobstructed 1 0 name := by decide +kernel
  -- one base is found as it is written, the other below the namespace of the library
  have told : ∀ d ∈ tree, ∀ base ∈ d.body.bases, sharedLibrary.FoundAsWritten 0 base ∨
      (∀ id ∈ [0, 1], (UsingDirective.findAlias .exact base.fullName
        (sharedLibrary.usingsAt id ⟨0⟩)).isNone = true) ∧
      "Lib" ∈ Dotted.enclosing (Workspace.writtenIn d).fullName ∧
      (sharedLibrary.findType 0 .deep .exact (Arity.strip ("Lib" ++ "." ++ base.fullName)).1
        (askedArity ("Lib" ++ "." ++ base.fullName) base.arguments)).isSome = true := by
    decide +kernel
  refine ancestryShared sharedLoading (by decide) rfl (by decide) ?_ ?_ (libraryItem 2) clear ?_
  · exact .single List.mem_cons_self
  · intro x y here there same
    rcases reached x here with rfl | rfl <;> rcases reached y there with rfl | rfl
    · rfl
    · exact absurd same (by decide)
    · exact absurd same (by decide)
    · rfl
  · intro d met base written
    refine (told d met base written).imp_right fun ⟨unnamed, encloses, found⟩ file mem => ?_
    rw [single d met file mem]
    exact .around (Option.isNone_iff_eq_none.mp (unnamed 1 (by simp)))
      (Option.isNone_iff_eq_none.mp (unnamed 0 (by simp))) encloses found

theorem ancestryUnimported :
    importingLibrary.Refers 1 0 ∧
      (importingLibrary.store 0).find "Lib.Item" 0 = some (libraryItem 1) ∧
      (importingLibrary.store 1).allTypes = [] ∧
      (importingLibrary.findType 1 .deep .exact "Lib.Core.Base" 0).isSome = true ∧
      namesMet 0 (.ofDeclared (libraryItem 1)) importingLibrary = ["Lib.Item", "Lib.Core.Base"] ∧
      namesMet 1 (.ofDeclared (libraryItem 1)) importingLibrary = ["Lib.Item"] :=
  ⟨List.mem_cons_self, rfl, rfl, rfl, rfl, rfl⟩

example : namesMet 0 (.ofDeclared (libraryItem 2)) shadowedLibrary =
      ["Lib.Item", "Lib.Base", "Lib.Root"] ∧
    namesMet 1 (.ofDeclared (libraryItem 2)) shadowedLibrary = ["Lib.Item", "Lib.Base"] :=
  ⟨rfl, rfl⟩

end Fresh
end Query
end TypeScope
