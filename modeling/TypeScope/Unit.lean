import TypeScope.Definition.Blueprint

/-! What one source file contributes: its using directives and its types. -/
namespace TypeScope

structure UsingDirective where
  namespaces : List String
  aliases : Table String TypeRef
  location : Location
  deriving Repr

namespace UsingDirective

def empty : UsingDirective := ⟨[], Table.empty, Location.unknown⟩

def withNamespace (u : UsingDirective) (ns : String) : UsingDirective :=
  { u with namespaces := u.namespaces ++ [ns] }

def withAlias (u : UsingDirective) (name : String) (target : TypeRef) : UsingDirective :=
  { u with aliases := u.aliases.put name target }

def partialNamespace (ns : String) : UsingDirective := empty.withAlias "" (TypeRef.named ns)

def isNamespaceImport (u : UsingDirective) : Bool := !u.namespaces.isEmpty

def ownNamespace? (u : UsingDirective) : Option TypeRef := u.aliases.get? ""

def namedAliases (u : UsingDirective) : List (String × TypeRef) :=
  u.aliases.entries.filter (fun a => a.1 != "")

end UsingDirective

namespace Declared

mutual
def preorder : Declared → List Declared
  | ⟨stamp, body, nested, parts⟩ => ⟨stamp, body, nested, parts⟩ :: preorders nested
  termination_by structural d => d

def preorders : List Declared → List Declared
  | [] => []
  | d :: rest => preorder d ++ preorders rest
  termination_by structural ds => ds
end

mutual
def population : Declared → Nat
  | ⟨_, _, nested, _⟩ => populations nested + 1
  termination_by structural d => d

def populations : List Declared → Nat
  | [] => 0
  | d :: rest => population d + populations rest
  termination_by structural ds => ds
end

def unstack : Nat → List Declared → List Declared
  | 0, _ => []
  | _ + 1, [] => []
  | steps + 1, d :: stack => d :: unstack steps (d.nested ++ stack)

def flatten (forest : List Declared) : List Declared := unstack (populations forest) forest

end Declared

structure CompilationUnit where
  file : FileId
  fileName : String
  usings : List UsingDirective
  types : List Declared
  deriving Repr

namespace CompilationUnit

def allTypes (u : CompilationUnit) : List Declared := Declared.flatten u.types

def build (stamp : Stamp) (file : FileId) (fileName : String) (usings : List UsingDirective)
    (types : List Blueprint) : CompilationUnit :=
  ⟨file, fileName, usings, Blueprint.buildAll (some file) none stamp 0 types⟩

end CompilationUnit
end TypeScope
