import TypeScope.Workspace

/-! Listing namespaces and finding those worth importing. -/
namespace TypeScope

inductive NamespaceEntry where
  | space (name : String)
  | type (type : Declared)
  deriving Repr

namespace NamespaceEntry

def key : NamespaceEntry → String
  | space name => "namespace " ++ name
  | type d => "type " ++ d.decoratedName

end NamespaceEntry

namespace Store

def restBelow (rule : CaseRule) (ns fullName : String) : Option String :=
  (Name.after? rule ns fullName).bind
    (fun rest => if ns = "" then some rest else Dotted.after? "." rest)

def entryIn (rule : CaseRule) (d : Declared) (ns : String) : Option NamespaceEntry :=
  (restBelow rule ns d.fullName).map (fun rest =>
    match Dotted.segments rest with
    | first :: _ :: _ => .space first
    | _ => .type d)

def entriesIn (s : Store) (rule : CaseRule) (namespaces : List String) : List NamespaceEntry :=
  s.topLevel.flatMap (fun d => namespaces.filterMap (entryIn rule d))

def hasNamespace (s : Store) (rule : CaseRule) (ns : String) : Bool :=
  s.topLevel.any (fun d =>
    ns == "" || Name.same rule d.ns ns ||
      ((Name.after? rule ns d.ns).bind (Dotted.after? ".")).isSome)

def namespacesOffering (s : Store) (decorated : String) : List String :=
  (s.topLevel.filter (fun d => d.decoratedName == Dotted.join d.ns decorated)).map Declared.ns

end Store

namespace Workspace

def withDirect (w : Workspace) (id : ScopeId) (references : Bool) : List ScopeId :=
  id :: (if references then (w.scope id).references else [])

def firstByKey : List NamespaceEntry → List NamespaceEntry
  | [] => []
  | e :: rest => e :: (firstByKey rest).filter (fun later => later.key ≠ e.key)

def namespaceContents (w : Workspace) (id : ScopeId) (rule : CaseRule) (references : Bool)
    (namespaces : List String) : List NamespaceEntry :=
  let namespaces := distinct namespaces
  firstByKey ((w.withDirect id references).flatMap (fun at_ =>
    (w.store at_).entriesIn rule namespaces))

def namespaceExists (w : Workspace) (id : ScopeId) (depth : Depth) (rule : CaseRule)
    (ns : String) : Bool :=
  (w.consulted id depth).any (fun at_ => (w.store at_).hasNamespace rule ns)

def possibleNamespaces (w : Workspace) (id : ScopeId) (r : TypeRef) : List String :=
  distinct ((w.withDirect id true).flatMap (fun at_ =>
    (w.store at_).namespacesOffering r.decoratedName))

end Workspace
end TypeScope
