import Mathlib.Data.PFun
import TypeScope.Resolution
import TypeScope.Proofs.Frames
import TypeScope.Proofs.Sight

/-! Resolution with loops that have no bounds. They stop only where nothing is left to do, and a
query whose loops stop gives what it gives with bounds. -/
namespace TypeScope

abbrev Unbounded := StateT Workspace Part

namespace Unbounded
open Query (lookupAt linkAt rootOf refetch parameterNamed instantiate)
open Workspace (writtenIn)

section Loops
variable {α σ : Type}

def ofQuery (q : Query α) : Unbounded α := fun w => Part.some (q.run w)

def roundOf (round : σ → Unbounded (α ⊕ σ)) : σ × Workspace →. (α × Workspace) ⊕ (σ × Workspace) :=
  fun at_ => ((round at_.1).run at_.2).map (fun next =>
    match next.1 with
    | .inl a => .inl (a, next.2)
    | .inr s => .inr (s, next.2))

def loop (round : σ → Unbounded (α ⊕ σ)) (s : σ) : Unbounded α :=
  fun w => (roundOf round).fix (s, w)

theorem fixUnfold {β : Type} (f : σ →. β ⊕ σ) (s : σ) :
    f.fix s = (f s).bind (fun next => match next with
      | .inl b => Part.some b
      | .inr s => f.fix s) := by
  refine Part.ext fun b => ?_
  rw [PFun.mem_fix_iff, Part.mem_bind_iff]
  constructor
  · rintro (ends | ⟨next, goesOn, later⟩)
    · exact ⟨_, ends, Part.mem_some b⟩
    · exact ⟨_, goesOn, later⟩
  · rintro ⟨next | next, round, answer⟩
    · exact .inl (Part.mem_some_iff.mp answer ▸ round)
    · exact .inr ⟨next, round, answer⟩

theorem loopUnfold (round : σ → Unbounded (α ⊕ σ)) (s : σ) : loop round s = (do
    match ← round s with
    | .inl a => return a
    | .inr next => loop round next) := by
  funext w
  have bound : ∀ next : α ⊕ σ → Unbounded α, (round s >>= next) w =
      ((round s).run w).bind (fun got => (next got.1).run got.2) := fun _ => rfl
  rw [loop, fixUnfold, roundOf, Part.bind_map, bound]
  refine congrArg ((round s).run w).bind (funext fun next => ?_)
  obtain ⟨next, after⟩ := next
  cases next <;> rfl

abbrev Visit := List ScopeId × List String × List ScopeId

def visitRound (w : Workspace) : Visit →. List ScopeId ⊕ Visit :=
  fun (met, visited, queue) => Part.some <|
    match queue.dropWhile (fun id => visited.contains (w.uri id)) with
    | [] => .inl met
    | id :: rest => .inr (met ++ [id], w.uri id :: visited, rest ++ (w.scope id).references)

theorem visitUnfold (w : Workspace) (met : List ScopeId) (visited : List String)
    (queue : List ScopeId) : (visitRound w).fix (met, visited, queue) =
      match queue.dropWhile (fun id => visited.contains (w.uri id)) with
      | [] => Part.some met
      | id :: rest => (visitRound w).fix
          (met ++ [id], w.uri id :: visited, rest ++ (w.scope id).references) := by
  rw [fixUnfold]
  refine (Part.bind_some _ _).trans ?_
  cases queue.dropWhile (fun id => visited.contains (w.uri id)) <;> rfl

def visit (w : Workspace) (visited : List String) (queue : List ScopeId) :
    Part (List ScopeId) :=
  (visitRound w).fix ([], visited, queue)

def searchOutward (id : ScopeId) (f : Definition → Unbounded (Option α)) :
    Definition → Unbounded (Option α) :=
  loop fun d => do
    match ← f d with
    | some a => return .inl (some a)
    | none =>
        match (← get).declaringType id d with
        | some outer => return .inr outer
        | none => return .inl none

theorem searchOutwardUnfold (id : ScopeId) (f : Definition → Unbounded (Option α))
    (d : Definition) : searchOutward id f d = (do
      match ← f d with
      | some a => return some a
      | none =>
          match (← get).declaringType id d with
          | some outer => searchOutward id f outer
          | none => return none) := by
  rw [searchOutward, loopUnfold, bind_assoc]
  refine congrArg (f d >>= ·) (funext fun answer => ?_)
  cases answer with
  | some a => exact pure_bind ..
  | none =>
    dsimp only
    rw [bind_assoc]
    refine congrArg (get >>= ·) (funext fun w => ?_)
    cases w.declaringType id d <;> exact pure_bind ..

def firstOf : List (Unbounded (Option α)) → Unbounded (Option α)
  | [] => return none
  | c :: rest => do
      match ← c with
      | some a => return some a
      | none => firstOf rest

end Loops

section Program

def outerParameter (id : ScopeId) (rule : CaseRule) (name : String) (calling : Definition) :
    Unbounded (Option Definition) :=
  searchOutward id (fun d => ofQuery (parameterNamed id d rule name)) calling

def fromParameters (id : ScopeId) (q : Request) (calling : Option Definition) :
    Unbounded (Option Definition) :=
  match calling with
  | some c => if q.arguments.isEmpty then outerParameter id q.rule q.name c else return none
  | none => return none

def resolveWith (nested : Request → Option Definition → Unbounded (Option Definition))
    (id : ScopeId) (q : Request) : Unbounded (Option Definition) := do
  if q.name = "" then return none
  else
    let calling ← match q.calling with
      | some c => ofQuery (some <$> refetch id c)
      | none => pure none
    firstOf
      [fromParameters id q calling, ofQuery (Query.fromKnown id q), nested q calling,
        ofQuery (Query.fromAlias id q), ofQuery (Query.fromEnclosing id q calling),
        ofQuery (Query.fromUsings id q)]

def resolveFlat (id : ScopeId) (q : Request) : Unbounded (Option Definition) :=
  resolveWith (fun _ _ => return none) id q

def resolveBase (id : ScopeId) (owner : Definition) (i : Nat) (base : TypeRef) :
    Unbounded (Option Definition) := do
  let site : Site := ⟨owner.stamp, .base i⟩
  match ← ofQuery (lookupAt id site base) with
  | some found => return some found
  | none =>
      let context := writtenIn owner
      let unit := (← get).unitOf id context
      let q : Request :=
        { Request.ofReference base with calling := some context, unit := unit, depth := .deep }
      match ← resolveFlat id q with
      | some found => ofQuery (linkAt site found); return some found
      | none => return none

def resolveBases (id : ScopeId) (owner : Definition) (i : Nat) :
    List TypeRef → Unbounded (List Definition)
  | [] => return []
  | base :: rest => do
      let found ← resolveBase id owner i base
      let others ← resolveBases id owner (i + 1) rest
      return found.toList ++ others

def advance (id : ScopeId) (walk : Walk) : Unbounded (Option (Definition × Walk)) := do
  match walk.pending.dropWhile (fun d => walk.visited.contains d.decoratedName) with
  | [] => return none
  | d :: rest =>
      let bases ← resolveBases id d 0 d.body.bases
      let root ← ofQuery (rootOf id d)
      return some (d, ⟨root.toList ++ bases.reverse ++ rest, d.decoratedName :: walk.visited⟩)

def searchOn {α : Type} (id : ScopeId) (f : Definition → Unbounded (Option α)) :
    Walk → Unbounded (Option α) :=
  loop fun walk => do
    match ← advance id walk with
    | none => return .inl none
    | some (d, walk) =>
        match ← f d with
        | some a => return .inl (some a)
        | none => return .inr walk

theorem searchOnUnfold {α : Type} (id : ScopeId) (f : Definition → Unbounded (Option α))
    (walk : Walk) : searchOn id f walk = (do
      match ← advance id walk with
      | none => return none
      | some (d, walk) =>
          match ← f d with
          | some a => return some a
          | none => searchOn id f walk) := by
  rw [searchOn, loopUnfold, bind_assoc]
  refine congrArg (advance id walk >>= ·) (funext fun next => ?_)
  cases next with
  | none => exact pure_bind ..
  | some next =>
    dsimp only
    rw [bind_assoc]
    refine congrArg (f next.1 >>= ·) (funext fun answer => ?_)
    cases answer <;> exact pure_bind ..

def searchAncestry {α : Type} (id : ScopeId) (f : Definition → Unbounded (Option α))
    (d : Definition) : Unbounded (Option α) := do
  let start ← ofQuery (refetch id d)
  searchOn id f (Query.startAt start)

def findInner (id : ScopeId) (rule : CaseRule) (name : String) (arity : Nat) (d : Definition) :
    Unbounded (Option Definition) :=
  searchOutward id (searchAncestry id (fun d => ofQuery (Query.innerOf id rule name arity d))) d

def followInner (id : ScopeId) (rule : CaseRule) (arity : Nat) :
    List String → Definition → Unbounded (Option Definition)
  | [], d => return some d
  | [last], d => findInner id rule (Arity.strip last).1 arity d
  | segment :: rest, d => do
      let (name, mark) := Arity.strip segment
      match ← findInner id rule name (mark.getD 0) d with
      | some inner => followInner id rule arity rest inner
      | none => return none

def fromNested (id : ScopeId) (q : Request) (calling : Option Definition) :
    Unbounded (Option Definition) := do
  match calling with
  | none => return none
  | some c =>
      match ← followInner id q.rule q.arguments.length (Dotted.segments q.name) c with
      | some found => return some (← ofQuery (instantiate id found q.arguments))
      | none => return none

def resolve (id : ScopeId) (q : Request) : Unbounded (Option Definition) :=
  resolveWith (fromNested id) id q

end Program

section Ends
variable {α β : Type} {v : Workspace}

def Ends (v : Workspace) (c : Unbounded α) (q : Query α) : Prop :=
  ∀ w, w.lasting = v.lasting → c.run w = Part.some (q.run w) ∧ (q.run w).2.lasting = v.lasting

theorem endsPure (a : α) : Ends v (pure a) (pure a) := fun _ same => ⟨rfl, same⟩

theorem endsOf {q : Query α} (leaves : Query.Leaves (fun w => w.lasting = v.lasting) q) :
    Ends v (ofQuery q) q := fun w same => ⟨rfl, (leaves w same).1⟩

theorem bindRun {c : Unbounded α} {next : α → Unbounded β} {w after : Workspace} {a : α}
    (run : c.run w = Part.some (a, after)) : (c >>= next).run w = (next a).run after := by
  rw [StateT.run_bind, run]
  exact Part.bind_some ..

theorem endsBind {c : Unbounded α} {q : Query α} {next : α → Unbounded β} {next' : α → Query β}
    (first : Ends v c q) (later : ∀ a, Ends v (next a) (next' a)) :
    Ends v (c >>= next) (q >>= next') := by
  intro w same
  obtain ⟨run, kept⟩ := first w same
  rw [bindRun run]
  exact later _ _ kept

theorem getRun (next : Workspace → Unbounded β) (w : Workspace) :
    (get >>= next).run w = (next w).run w := bindRun rfl

theorem endsGet {next : Workspace → Unbounded β} {next' : Workspace → Query β}
    (later : ∀ w, w.lasting = v.lasting → Ends v (next w) (next' w)) :
    Ends v (get >>= next) (get >>= next') := by
  intro w same
  rw [getRun]
  exact later w same w same

theorem endsRead {next : Workspace → Unbounded β} {q : Query β}
    (later : ∀ w, w.lasting = v.lasting → Ends v (next w) q) : Ends v (get >>= next) q := by
  intro w same
  rw [getRun]
  exact later w same w same

theorem endsFirstOf {courses : List (Unbounded (Option α))} {queries : List (Query (Option α))}
    (each : List.Forall₂ (Ends v) courses queries) :
    Ends v (firstOf courses) (Query.firstOf queries) := by
  induction each with
  | nil => exact endsPure none
  | cons first _ ih =>
    refine endsBind first fun answer => ?_
    cases answer with
    | none => exact ih
    | some a => exact endsPure (some a)

end Ends
end Unbounded
end TypeScope
