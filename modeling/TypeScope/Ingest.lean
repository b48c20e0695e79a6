import TypeScope.Instances

/-! Updates of a scope, file by file. An update that touches names drops the cached instances of
those names and the index of subtypes. -/
namespace TypeScope

def Store.settled (links : Links) (s : Store) : Store :=
  { s with
    fragments := ⟨s.fragments.entries.map (fun e =>
      (e.1, e.2.map (fun f => { f with type := f.type.settled links })))⟩ }

namespace Scope

def replaceFile (s : Scope) (links : Links) (stamp : Stamp) (file : FileId)
    (unit : Option CompilationUnit) : Scope × Report :=
  let (store, report) := (s.store.settled links).replaceFile stamp file unit
  let s := report.names.foldl Scope.evict { s with store := store }
  (if report.isEmpty then s else { s with subtypes := none }, report)

end Scope

namespace Query

def replaceFile (id : ScopeId) (file : FileId) (unit : Option CompilationUnit) :
    Query Report := do
  let stamp ← freshStamp
  let w ← get
  let (scope, report) := (w.scope id).replaceFile w.links stamp file unit
  set (w.modifyScope id (fun _ => scope))
  return report

def ingest (id : ScopeId) (unit : CompilationUnit) : Query Report :=
  replaceFile id unit.file (some unit)

def removeFile (id : ScopeId) (file : FileId) : Query Report := replaceFile id file none

def setReferences (id : ScopeId) (references : List ScopeId) : Query (List ScopeId) := do
  let w ← get
  set (w.modifyScope id (fun s => { s with references := references }))
  return (w.scope id).references

end Query
end TypeScope
