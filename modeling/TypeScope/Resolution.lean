import TypeScope.Inheritance

/-! Resolving a name in context. The sources of names are asked in a fixed order: type parameters,
the name itself, nested types of the calling type, its bases and the types around it, aliases,
the namespaces around the calling type, and the using directives. -/
namespace TypeScope.Query

def innerOf (id : ScopeId) (rule : CaseRule) (name : String) (arity : Nat) (d : Definition) :
    Query (Option Definition) := do
  match d.findNested rule name arity with
  | some inner => return some (.ofDeclared inner)
  | none => if arity = 0 then parameterNamed id d rule name else return none

def findInner (id : ScopeId) (rule : CaseRule) (name : String) (arity : Nat) (d : Definition) :
    Query (Option Definition) := do
  let around := (← get).outward id d
  findFirst (searchAncestry id (innerOf id rule name arity)) around

/-- Follows the segments of a dotted name inwards. The inner segments carry their own arity marks;
the last one has the arity of the request. -/
def followInner (id : ScopeId) (rule : CaseRule) (arity : Nat) :
    List String → Definition → Query (Option Definition)
  | [], d => return some d
  | [last], d => findInner id rule (Arity.strip last).1 arity d
  | segment :: rest, d => do
      let (name, mark) := Arity.strip segment
      match ← findInner id rule name (mark.getD 0) d with
      | some inner => followInner id rule arity rest inner
      | none => return none

def fromNested (id : ScopeId) (q : Request) (calling : Option Definition) :
    Query (Option Definition) := do
  match calling with
  | none => return none
  | some c =>
      match ← followInner id q.rule q.arguments.length (Dotted.segments q.name) c with
      | some found => return some (← instantiate id found q.arguments)
      | none => return none

def resolve (id : ScopeId) (q : Request) : Query (Option Definition) :=
  resolveWith (fromNested id) id q

end TypeScope.Query
