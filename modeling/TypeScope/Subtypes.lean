import TypeScope.Inheritance

/-! The search for subtypes within a scope, over an index from decorated base names to the types
that name them as base. -/
namespace TypeScope

def genericCollections : List String :=
  ["System.Collections.Generic.IEnumerable", "System.Collections.Generic.ICollection", listName]

def objectCollections : List String :=
  ["System.Collections.IEnumerable", "System.Collections.ICollection",
    "System.Collections.IList"]

abbrev SubtypeIndex := Table String (List Declared)

namespace SubtypeIndex

def of (index : SubtypeIndex) (base : String) : List Declared := (index.get? base).getD []

def add (index : SubtypeIndex) (base : String) (d : Declared) : SubtypeIndex :=
  let known := index.of base
  index.put base (if known.any (fun k => k.is d) then known else known ++ [d])

end SubtypeIndex

namespace Query

def baseNames (id : ScopeId) (d : Declared) : Query (List String) := do
  let bases ← resolveBases id (.ofDeclared d) 0 d.body.bases
  let root := if d.body.base.isNone && d.fullName != objectName then [objectName] else []
  return bases.map Definition.decoratedName ++ root

def indexTypes (id : ScopeId) : List Declared → SubtypeIndex → Query SubtypeIndex
  | [], index => return index
  | d :: rest, index => do
      let names ← baseNames id d
      indexTypes id rest (names.foldl (fun index name => index.add name d) index)

def buildIndex (id : ScopeId) : Query SubtypeIndex := do
  indexTypes id ((← get).store id).allTypes Table.empty

def subtypeIndex (id : ScopeId) : Query SubtypeIndex := do
  match ((← get).scope id).subtypes with
  | some index => return index
  | none =>
      let index ← buildIndex id
      modify (fun w => w.modifyScope id (fun s => { s with subtypes := some index }))
      return index

def spread (index : SubtypeIndex) (deep : Bool) :
    Nat → List String → List (Definition × Bool) → List Definition
  | 0, _, _ => []
  | steps + 1, visited, queue =>
      match queue.dropWhile (fun e => visited.contains e.1.decoratedName) with
      | [] => []
      | (d, isStart) :: rest =>
          let below := if isStart || deep then index.of d.decoratedName else []
          d :: spread index deep steps (d.decoratedName :: visited)
            (rest ++ below.map (fun s => (.ofDeclared s, false)))

def below (index : SubtypeIndex) (deep : Bool) (d : Definition) : List Definition :=
  spread index deep (index.values.flatten.length + 1) [] [(d, true)]

def passes (namespaces : Option (List String)) (d : Definition) : Bool :=
  match namespaces with
  | none => true
  | some list => list.contains d.ns

def declaredSubtypes (id : ScopeId) (deep : Bool) (namespaces : Option (List String))
    (d : Definition) : Query (List Definition) := do
  return (below (← subtypeIndex id) deep d).filter (passes namespaces)

def arrayOfArgument (id : ScopeId) (d : Definition) : Query (List Definition) := do
  match d with
  | .unbound _ => return []
  | .bound i =>
      if genericCollections.contains i.openType.fullName then
        match i.currentArguments (← get).links with
        | [] => return []
        | element :: _ =>
            let (array, after) ← arrayOf id element
            if after.link ≠ element.link then writeLink ⟨i.stamp, .argument 0⟩ after.link
            return [array]
      else return []

def arraysOf (id : ScopeId) : List Definition → Query (List Definition)
  | [] => return []
  | d :: rest => do
      keepTarget d
      let (array, _) ← arrayOf id ((← get).referenceTo d)
      return array :: (← arraysOf id rest)

def arraysOfObjects (id : ScopeId) (namespaces : Option (List String)) (d : Definition) :
    Query (List Definition) := do
  if objectCollections.contains d.fullName then
    match (← get).findType id .deep .exact objectName 0 with
    | none => return []
    | some object => arraysOf id (← declaredSubtypes id true namespaces (.ofDeclared object))
  else return []

def subtypes (id : ScopeId) (deep : Bool) (namespaces : Option (List String)) (d : Definition) :
    Query (List Definition) := do
  let declared ← declaredSubtypes id deep namespaces d
  let element ← arrayOfArgument id d
  let objects ← arraysOfObjects id namespaces d
  return declared ++ element ++ objects

end Query
end TypeScope
