import TypeScope.Request

/-! The walk over a type and everything it inherits from. Bases are resolved as the walk comes to
them, so it may meet instantiations, placeholders and arrays that did not exist before; each
decorated name is met once. -/
namespace TypeScope

namespace Workspace

def writtenIn : Definition → Definition
  | .bound i => .unbound i.openType
  | .unbound (.placeholder p) => .ofDeclared p.owner
  | d => d

def unitOf (w : Workspace) (id : ScopeId) (d : Definition) : Option CompilationUnit :=
  (w.fileOf d).bind (w.store id).units.get?

def brings (d : Definition) : List OpenType :=
  match d.openType with
  | .placeholder p => [.placeholder p, .declared p.owner]
  | o => [o]

def inSight (w : Workspace) (start : Definition) : List Definition :=
  start ::
    (w.scopes.flatMap (fun s => s.store.allTypes.map Definition.ofDeclared ++ s.cache.values) ++
      w.targets.values)

def namesAmong (ds : List Definition) : List String :=
  (ds.flatMap brings).flatMap (fun o =>
    (Definition.unbound o).decoratedName :: o.body.typeParameters.map TypeParameter.name)

def widthsAmong (ds : List Definition) : List Nat :=
  ds.map (fun d => d.body.bases.length) ++
    (ds.flatMap brings).flatMap (fun o =>
      o.body.bases.length :: o.body.typeParameters.map (fun p => p.constraints.length))

/-- Bounds the walk. A name in sight is met once; any other name belongs to an array made for a
base of a definition in sight, and the bases of such an array are in sight again. -/
def walkBound (w : Workspace) (start : Definition) : Nat :=
  let ds := w.inSight start
  (namesAmong ds).length * (1 + (widthsAmong ds).foldr max 0)

end Workspace

structure Walk where
  pending : List Definition
  visited : List String
  deriving Repr

namespace Query
open Workspace (writtenIn)

/-- The base as written, looked up first by itself and then from the context of its owner. -/
def resolveBase (id : ScopeId) (owner : Definition) (i : Nat) (base : TypeRef) :
    Query (Option Definition) := do
  let site : Site := ⟨owner.stamp, .base i⟩
  match ← lookupAt id site base with
  | some found => return some found
  | none =>
      let context := writtenIn owner
      let unit := (← get).unitOf id context
      let q : Request :=
        { Request.ofReference base with calling := some context, unit := unit, depth := .deep }
      match ← resolveFlat id q with
      | some found => linkAt site found; return some found
      | none => return none

def resolveBases (id : ScopeId) (owner : Definition) (i : Nat) :
    List TypeRef → Query (List Definition)
  | [] => return []
  | base :: rest => do
      let found ← resolveBase id owner i base
      let others ← resolveBases id owner (i + 1) rest
      return found.toList ++ others

def rootOf (id : ScopeId) (d : Definition) : Query (Option Definition) := do
  if d.body.base.isNone && d.fullName != objectName then
    return ((← get).findType id .deep .exact objectName 0).map .ofDeclared
  else return none

def startAt (d : Definition) : Walk := ⟨[d], []⟩

/-- Meets the next definition; what it inherits from comes before what was pending, the root type
first and then its bases from the last to the first. -/
def advance (id : ScopeId) (walk : Walk) : Query (Option (Definition × Walk)) := do
  match walk.pending.dropWhile (fun d => walk.visited.contains d.decoratedName) with
  | [] => return none
  | d :: rest =>
      let bases ← resolveBases id d 0 d.body.bases
      let root ← rootOf id d
      return some (d, ⟨root.toList ++ bases.reverse ++ rest, d.decoratedName :: walk.visited⟩)

def walkOn (id : ScopeId) : Nat → Walk → Query (List Definition)
  | 0, _ => return []
  | steps + 1, walk => do
      match ← advance id walk with
      | none => return []
      | some (d, walk) => return d :: (← walkOn id steps walk)

def searchOn {α : Type} (id : ScopeId) (f : Definition → Query (Option α)) :
    Nat → Walk → Query (Option α)
  | 0, _ => return none
  | steps + 1, walk => do
      match ← advance id walk with
      | none => return none
      | some (d, walk) =>
          match ← f d with
          | some a => return some a
          | none => searchOn id f steps walk

def ancestryTo (count : Nat) (id : ScopeId) (d : Definition) : Query (List Definition) := do
  let start ← refetch id d
  walkOn id (min count ((← get).walkBound start)) (startAt start)

def ancestry (id : ScopeId) (d : Definition) : Query (List Definition) := do
  let start ← refetch id d
  walkOn id ((← get).walkBound start) (startAt start)

def searchAncestry {α : Type} (id : ScopeId) (f : Definition → Query (Option α)) (d : Definition) :
    Query (Option α) := do
  let start ← refetch id d
  searchOn id f ((← get).walkBound start) (startAt start)

end Query
end TypeScope
