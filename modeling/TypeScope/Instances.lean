import TypeScope.Workspace

/-! Instances that a scope hands out more than once: instantiations and placeholders. They share
one cache, and dropping everything whose key starts with a type's name and a bracket drops both. -/
namespace TypeScope.Query

def cached? (id : ScopeId) (key : String) : Query (Option Definition) :=
  return (← get).scope id |>.cache.get? key

def remember (id : ScopeId) (key : String) (d : Definition) : Query Unit :=
  modify (fun w => w.modifyScope id (fun s => { s with cache := s.cache.put key d }))

def instantiate (id : ScopeId) (d : Definition) (arguments : List TypeRef) : Query Definition := do
  match d with
  | .bound _ => return d
  | .unbound o =>
      if arguments.isEmpty then return d
      else
        let key := Instantiation.keyFor o.fullName arguments
        match ← cached? id key with
        | some known => return known
        | none =>
            let stamp ← freshStamp
            let body := (← get).bodyOf d
            let made := Definition.bound (Instantiation.of stamp o body arguments)
            remember id key made
            return made

def placeholder (id : ScopeId) (owner : Declared) (parameter : TypeParameter) :
    Query Definition := do
  let key := Placeholder.keyFor owner.fullName parameter.name
  match ← cached? id key with
  | some known => return known
  | none =>
      let stamp ← freshStamp
      let w ← get
      let made := Definition.unbound (.placeholder
        ⟨stamp, owner, parameter, w.fileOf (.ofDeclared owner), w.locationOf (.ofDeclared owner)⟩)
      remember id key made
      return made

def parameterNamed (id : ScopeId) (d : Definition) (rule : CaseRule) (name : String) :
    Query (Option Definition) := do
  match d.openType with
  | .declared owner =>
      match owner.body.typeParameters.find? (fun p => Name.same rule p.name name) with
      | some p => return some (← placeholder id owner p)
      | none => return none
  | _ => return none

end TypeScope.Query

namespace TypeScope.Scope

def evict (s : Scope) (fullName : String) : Scope :=
  { s with cache := s.cache.keep (fun key => !(fullName ++ "[").toList.isPrefixOf key.toList) }

end TypeScope.Scope

namespace TypeScope.Query

def resetInstances (id : ScopeId) (d : Definition) : Query Unit :=
  modify (fun w => w.modifyScope id (fun s => s.evict d.fullName))

end TypeScope.Query
