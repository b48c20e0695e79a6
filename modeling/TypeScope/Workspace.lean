import TypeScope.Links
import TypeScope.Store
import TypeScope.Text.Quoted

/-! Scopes and what connects them. A scope holds the types of one project or library and refers to
other scopes; names that it does not store itself may be found in those, nearest first. -/
namespace TypeScope

abbrev ScopeId := Nat

structure Scope where
  uri : String
  store : Store
  references : List ScopeId
  cache : Table String Definition
  subtypes : Option (Table String (List Declared))
  count : Nat
  deriving Repr

def Scope.fresh (uri : String) : Scope := ⟨uri, Store.empty, [], Table.empty, none, 0⟩

structure Workspace where
  scopes : List Scope
  clock : Nat
  links : Links
  targets : Table Stamp Definition
  mainParts : Table Stamp Nat
  deriving Repr

def Scope.debug (s : Scope) : String :=
  "SemanticDatabase \x7b uri: " ++ Quoted.quote s.uri ++ ", types: " ++ s.store.size.repr ++
    ", ref_count: " ++ s.count.repr ++ " \x7d"

def Workspace.empty : Workspace := ⟨[], 0, Table.empty, Table.empty, Table.empty⟩

inductive Depth where
  | shallow
  | deep
  deriving DecidableEq, Repr

namespace Workspace

def scope (w : Workspace) (id : ScopeId) : Scope := w.scopes.getD id (Scope.fresh "")

def uri (w : Workspace) (id : ScopeId) : String := (w.scope id).uri

def store (w : Workspace) (id : ScopeId) : Store := (w.scope id).store

def modifyScope (w : Workspace) (id : ScopeId) (f : Scope → Scope) : Workspace :=
  { w with scopes := w.scopes.modify id f }

def visit (w : Workspace) : Nat → List String → List ScopeId → List ScopeId
  | 0, _, _ => []
  | steps + 1, visited, queue =>
      match queue.dropWhile (fun id => visited.contains (w.uri id)) with
      | [] => []
      | id :: rest =>
          id :: visit w steps (w.uri id :: visited) (rest ++ (w.scope id).references)

def reach (w : Workspace) (id : ScopeId) : List ScopeId :=
  w.visit w.scopes.length [w.uri id] (w.scope id).references

def consulted (w : Workspace) (id : ScopeId) : Depth → List ScopeId
  | .shallow => [id]
  | .deep => id :: w.reach id

def findType (w : Workspace) (id : ScopeId) (depth : Depth) (rule : CaseRule) (name : String)
    (arity : Nat) : Option Declared :=
  (w.consulted id depth).findSome? (fun at_ => (w.store at_).lookup rule name arity)

def mainIndex (w : Workspace) (d : Declared) : Nat := (w.mainParts.get? d.stamp).getD 0

def recordOf (w : Workspace) (d : Declared) : Declared := (d.mainPart? (w.mainIndex d)).getD d

def fileOf (w : Workspace) : Definition → Option FileId
  | .unbound (.declared d) => (w.recordOf d).body.file
  | d => d.body.file

def locationOf (w : Workspace) : Definition → Location
  | .unbound (.declared d) => (w.recordOf d).body.location
  | d => d.body.location

def chooseMain (w : Workspace) (d : Declared) (file : Option FileId) (location : Location) :
    Option Workspace :=
  (d.parts.findIdx? (fun p => p.body.file == file && p.body.location == location)).map
    (fun i => { w with mainParts := w.mainParts.put d.stamp i })

def enclosingIn (s : Store) (outer name : String) (arity : Nat) : Option Declared :=
  let candidates := s.candidates outer
  (candidates.find? (fun c => (c.findNested .exact name arity).isSome)).or candidates.head?

def declaringType (w : Workspace) (id : ScopeId) (d : Definition) : Option Definition :=
  match d.openType with
  | .placeholder p => some (.ofDeclared p.owner)
  | .array _ => none
  | .declared t =>
      t.body.outer.bind (fun outer =>
        (w.consulted id .deep).findSome? (fun at_ =>
          (enclosingIn (w.store at_) outer t.name t.arity).map Definition.ofDeclared))

/-- Steps outward make the full name shorter; only the step from a placeholder to its owner does
not, and it comes first. -/
def outwardBound (d : Definition) : Nat :=
  match d.openType with
  | .placeholder p => p.owner.fullName.length + 2
  | .array _ => 1
  | .declared t => t.fullName.length + 1

def outwardFrom (w : Workspace) (id : ScopeId) : Nat → Definition → List Definition
  | 0, _ => []
  | steps + 1, d => d :: (w.declaringType id d).elim [] (outwardFrom w id steps)

def outward (w : Workspace) (id : ScopeId) (d : Definition) : List Definition :=
  w.outwardFrom id (outwardBound d) d

def bodyOf (w : Workspace) (d : Definition) : Body := d.body.settled w.links d.stamp

def settled (w : Workspace) : Definition → Definition
  | .bound i => .bound { i with arguments := i.currentArguments w.links }
  | d => d

def referenceTo (w : Workspace) (d : Definition) : TypeRef := TypeRef.forDefinition (w.settled d)

def linked (w : Workspace) (r : TypeRef) : Option Definition := r.link.bind w.targets.get?

end Workspace

/-- Queries find things and leave links, cached instances and an index behind. -/
abbrev Query := StateM Workspace

namespace Query

def freshStamp : Query Stamp := do
  let w ← get
  set { w with clock := w.clock + 1 }
  return Stamp.at w.clock

def firstOf {α : Type} : List (Query (Option α)) → Query (Option α)
  | [] => return none
  | q :: rest => do
      match ← q with
      | some a => return some a
      | none => firstOf rest

def findFirst {α β : Type} (f : β → Query (Option α)) : List β → Query (Option α)
  | [] => return none
  | b :: rest => do
      match ← f b with
      | some a => return some a
      | none => findFirst f rest

def openScope (uri : String) : Query ScopeId := do
  let w ← get
  set { w with scopes := w.scopes ++ [Scope.fresh uri] }
  return w.scopes.length

def keepTarget (d : Definition) : Query Unit :=
  modify (fun w => { w with targets := w.targets.put d.stamp d })

def writeLink (site : Site) (link : Option Stamp) : Query Unit :=
  modify (fun w => { w with links := w.links.put site link })

def linkAt (site : Site) (d : Definition) : Query Unit := do
  keepTarget d
  writeLink site (some d.stamp)

def linkTo (r : TypeRef) (d : Definition) : Query TypeRef := do
  keepTarget d
  return r.linkedTo (some d.stamp)

end Query
end TypeScope
