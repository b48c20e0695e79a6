import TypeScope.Lookup

/-! Requests to resolve a written name from where it stands, and the sources of names that need no
walk over base types. Each source either answers or leaves the name to the next one. -/
namespace TypeScope

structure Request where
  name : String
  arguments : List TypeRef
  calling : Option Definition
  unit : Option CompilationUnit
  rule : CaseRule
  depth : Depth
  deriving Repr

namespace Request

def named (name : String) : Request := ⟨name, [], none, none, .exact, .shallow⟩

def ofReference (r : TypeRef) : Request := { named r.fullName with arguments := r.arguments }

end Request

def UsingDirective.findAlias (rule : CaseRule) (name : String) (usings : List UsingDirective) :
    Option TypeRef :=
  ((usings.flatMap namedAliases).find? (fun a => Name.same rule a.1 name)).map Prod.snd

def UsingDirective.candidates (rule : CaseRule) (name : String) (u : UsingDirective) :
    List String :=
  u.namespaces.map (fun ns => ns ++ "." ++ name) ++
    ((u.ownNamespace?.map TypeRef.fullName).elim [] Dotted.selfAndEnclosing).map
      (fun ns => ns ++ "." ++ name) ++
    u.namedAliases.filterMap (fun a =>
      (Name.after? rule a.1 name).map (fun rest => a.2.fullName ++ rest))

namespace Query

def lookupFor (id : ScopeId) (q : Request) (name : String) (arguments : List TypeRef) :
    Query (Option Definition) :=
  getType id q.depth q.rule name arguments

def outerParameter (id : ScopeId) (rule : CaseRule) (name : String) (calling : Definition) :
    Query (Option Definition) := do
  let around := (← get).outward id calling
  findFirst (fun d => parameterNamed id d rule name) around

def fromParameters (id : ScopeId) (q : Request) (calling : Option Definition) :
    Query (Option Definition) :=
  match calling with
  | some c => if q.arguments.isEmpty then outerParameter id q.rule q.name c else return none
  | none => return none

def fromKnown (id : ScopeId) (q : Request) : Query (Option Definition) :=
  lookupFor id q q.name q.arguments

def fromAlias (id : ScopeId) (q : Request) : Query (Option Definition) :=
  match q.unit.bind (fun u => UsingDirective.findAlias q.rule q.name u.usings) with
  | some target => lookupFor id q target.fullName target.arguments
  | none => return none

def fromEnclosing (id : ScopeId) (q : Request) (calling : Option Definition) :
    Query (Option Definition) :=
  findFirst (fun outer => lookupFor id q (outer ++ "." ++ q.name) q.arguments)
    (calling.elim [] (fun c => Dotted.enclosing c.fullName))

def fromUsings (id : ScopeId) (q : Request) : Query (Option Definition) :=
  findFirst (fun name => lookupFor id q name q.arguments)
    (q.unit.elim [] (fun u => u.usings.flatMap (UsingDirective.candidates q.rule q.name)))

def resolveWith (nested : Request → Option Definition → Query (Option Definition)) (id : ScopeId)
    (q : Request) : Query (Option Definition) := do
  if q.name = "" then return none
  else
    let calling ← match q.calling with
      | some c => some <$> refetch id c
      | none => pure none
    firstOf
      [fromParameters id q calling, fromKnown id q, nested q calling, fromAlias id q,
        fromEnclosing id q calling, fromUsings id q]

def resolveFlat (id : ScopeId) (q : Request) : Query (Option Definition) :=
  resolveWith (fun _ _ => return none) id q

end Query
end TypeScope
