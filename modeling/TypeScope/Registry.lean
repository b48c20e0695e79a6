import TypeScope.UpdateQueue

/-! Scopes by uri. A registered scope counts its registrations and the scopes that refer to it; at
zero it is unloaded, which gives back what it referred to itself. References are declared by uri
and may name scopes that are registered later, or that refer back. -/
namespace TypeScope

structure Registry where
  scopes : Table String ScopeId
  declared : Table String (List String)
  queue : UpdateQueue
  deriving Repr

namespace Registry

def start (settings : QueueSettings) : Registry :=
  ⟨Table.empty, Table.empty, UpdateQueue.start settings⟩

def uris (r : Registry) : List String := r.scopes.keys

def contains (r : Registry) (uri : String) : Bool := r.scopes.contains uri

def size (r : Registry) : Nat := r.scopes.size

def isEmpty (r : Registry) : Bool := r.scopes.entries.isEmpty

def find (r : Registry) (uri : String) : Except Fault ScopeId :=
  match r.scopes.get? uri with
  | some id => .ok id
  | none => .error (.unknownScope uri)

theorem findFails {r : Registry} {uri : String} :
    r.find uri = .error (.unknownScope uri) ↔ r.contains uri = false := by
  simp only [find, contains, Table.contains]
  cases r.scopes.get? uri <;> simp

def declaredBy (r : Registry) (uri : String) : List String := (r.declared.get? uri).getD []

def references (r : Registry) (uri : String) : List ScopeId :=
  (distinct ((r.declaredBy uri).filter (fun other => other ≠ uri))).filterMap r.scopes.get?

def dependents (r : Registry) (uri : String) : List ScopeId :=
  (r.declared.entries.filter (fun e => e.1 ≠ uri && e.2.contains uri)).filterMap
    (fun e => r.scopes.get? e.1)

def holds (r : Registry) (uri : String) (id : ScopeId) : Bool := r.scopes.get? uri == some id

def declare (r : Registry) (uri : String) (references : List String) : Registry :=
  { r with declared := r.declared.put uri references }

def forget (r : Registry) (uri : String) : Registry :=
  { r with scopes := r.scopes.erase uri, declared := r.declared.erase uri }

def debug (r : Registry) : String :=
  "DomRegistry \x7b scopes: [" ++ ", ".intercalate (r.uris.map Quoted.quote) ++ "], queue: " ++
    r.queue.debug ++ " \x7d"

end Registry

structure Solution where
  workspace : Workspace
  registry : Registry
  deriving Repr

namespace Solution

def start (settings : QueueSettings) : Solution := ⟨Workspace.empty, Registry.start settings⟩

def uri (s : Solution) (id : ScopeId) : String := s.workspace.uri id

def count (s : Solution) (id : ScopeId) : Nat := (s.workspace.scope id).count

def referencesOf (s : Solution) (id : ScopeId) : List ScopeId := (s.workspace.scope id).references

def modifyScope (s : Solution) (id : ScopeId) (f : Scope → Scope) : Solution :=
  { s with workspace := s.workspace.modifyScope id f }

def acquire (s : Solution) (id : ScopeId) : Solution :=
  s.modifyScope id (fun scope => { scope with count := scope.count + 1 })

def release (s : Solution) (id : ScopeId) : Solution :=
  s.modifyScope id (fun scope => { scope with count := scope.count - 1 })

def setReferences (s : Solution) (id : ScopeId) (references : List ScopeId) : Solution :=
  s.modifyScope id (fun scope => { scope with references := references })

def unload (s : Solution) (id : ScopeId) : Solution :=
  let uri := s.uri id
  let registry := if s.registry.holds uri id then s.registry.forget uri else s.registry
  { s with registry := registry }.setReferences id []

/-- Releases the scopes one after the other. One that comes to zero is unloaded, each uri once, and
what it referred to is released before the rest. -/
def releaseTo : Nat → List String → List ScopeId → Solution → Solution
  | 0, _, _, s => s
  | _ + 1, _, [], s => s
  | steps + 1, unloaded, id :: rest, s =>
      let s := s.release id
      let uri := s.uri id
      if s.count id = 0 ∧ uri ∉ unloaded then
        releaseTo steps (uri :: unloaded) (s.referencesOf id ++ rest) (s.unload id)
      else releaseTo steps unloaded rest s

def releaseBound (s : Solution) (ids : List ScopeId) : Nat :=
  ids.length + (s.workspace.scopes.flatMap Scope.references).length

def releaseAll (s : Solution) (ids : List ScopeId) : Solution :=
  releaseTo (s.releaseBound ids) [] ids s

def rebuildReferences (s : Solution) (id : ScopeId) : Solution :=
  let references := s.registry.references (s.uri id)
  let superseded := s.referencesOf id
  ((references.foldl acquire s).setReferences id references).releaseAll superseded

def registerNew (s : Solution) (uri : String) (references : List String) : Solution × ScopeId :=
  let (id, workspace) := (Query.openScope uri).run s.workspace
  let registry := { s.registry with scopes := s.registry.scopes.put uri id }.declare uri references
  let s := (({ workspace := workspace, registry := registry } : Solution).acquire id)
  let s := s.rebuildReferences id
  ((s.registry.dependents uri).foldl rebuildReferences s, id)

def register (s : Solution) (uri : String) (references : List String) : Solution × ScopeId :=
  match s.registry.scopes.get? uri with
  | some id =>
      let s := s.acquire id
      ({ s with registry := s.registry.declare uri references }.rebuildReferences id, id)
  | none => s.registerNew uri references

def getScope (s : Solution) (uri : String) (keep : Bool) : Solution × Option ScopeId :=
  match s.registry.scopes.get? uri with
  | some id => (if keep then s.acquire id else s, some id)
  | none => (s, none)

def unref (s : Solution) (uri : String) : Except Fault Solution := do
  let id ← s.registry.find uri
  let s := s.releaseAll [id]
  if s.count id = 0 then
    let queue := s.registry.queue.discard s.workspace uri
    return { s with registry := { s.registry with queue := queue } }
  else return s

def updateReferences (s : Solution) (uri : String) : Except Fault Solution := do
  return s.rebuildReferences (← s.registry.find uri)

def addReference (s : Solution) (uri target : String) : Except Fault Solution := do
  let id ← s.registry.find uri
  let declared := s.registry.declaredBy uri
  if target ∈ declared then return s
  else
    let registry := s.registry.declare uri (declared ++ [target])
    return { s with registry := registry }.rebuildReferences id

def removeReference (s : Solution) (uri target : String) : Except Fault Solution := do
  let id ← s.registry.find uri
  let declared := s.registry.declaredBy uri
  if target ∈ declared then
    let registry := s.registry.declare uri (declared.filter (fun other => other ≠ target))
    return { s with registry := registry }.rebuildReferences id
  else return s

def enqueue (s : Solution) (uri : String) (update : Update) : Except Fault Solution := do
  let id ← s.registry.find uri
  let queue := s.registry.queue.enqueue id update
  return { s with registry := { s.registry with queue := queue } }

def forceQueue (s : Solution) (uri : String) : Solution :=
  let (queue, workspace) := s.registry.queue.force s.workspace uri
  ⟨workspace, { s.registry with queue := queue }⟩

def waitIdle (s : Solution) : Solution :=
  let (queue, workspace) := s.registry.queue.waitIdle s.workspace
  ⟨workspace, { s.registry with queue := queue }⟩

def forceTo (renew : Bool) : Nat → List String → List ScopeId → Solution → Solution
  | 0, _, _, s => s
  | steps + 1, visited, stack, s =>
      match stack.dropWhile (fun id => visited.contains (s.uri id)) with
      | [] => s
      | id :: rest =>
          let uri := s.uri id
          let s := if renew && s.registry.holds uri id then s.rebuildReferences id else s
          let s := s.forceQueue uri
          forceTo renew steps (uri :: visited) ((s.referencesOf id).reverse ++ rest) s

def forceUpdate (s : Solution) (uri : String) (renew : Bool) : Except Fault Solution := do
  let id ← s.registry.find uri
  return forceTo renew s.workspace.scopes.length [] [id] s

end Solution
end TypeScope
