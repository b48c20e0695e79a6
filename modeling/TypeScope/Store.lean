import TypeScope.Definition.Merge
import TypeScope.Unit

/-! The types of one scope. Each file contributes fragments under their full names; the logical
types, one per full name and arity, are kept united from them and patched for the names that an
update touches. -/
namespace TypeScope

structure Fragment where
  file : FileId
  type : Declared
  deriving Repr

structure Report where
  added : List String
  removed : List String
  modified : List String
  deriving DecidableEq, Repr

namespace Report

def empty : Report := ⟨[], [], []⟩

def isEmpty (r : Report) : Bool := r.added.isEmpty && r.removed.isEmpty && r.modified.isEmpty

def names (r : Report) : List String := r.added ++ r.removed ++ r.modified

def note (r : Report) (name : String) (before after : Bool) : Report :=
  match before, after with
  | false, true => { r with added := r.added ++ [name] }
  | true, false => { r with removed := r.removed ++ [name] }
  | true, true => { r with modified := r.modified ++ [name] }
  | false, false => r

end Report

structure Store where
  units : Table FileId CompilationUnit
  fragments : Table String (List Fragment)
  logical : Table String (List Declared)
  folded : Table String (List String)
  deriving Repr

namespace Store

def empty : Store := ⟨Table.empty, Table.empty, Table.empty, Table.empty⟩

def fragmentsOf (s : Store) (name : String) : List Fragment := (s.fragments.get? name).getD []

def spellingsOf (s : Store) (name : String) : List String :=
  (s.folded.get? (Text.lowered name)).getD []

def uniteByArity (stamp : Stamp) (fragments : List Declared) : List Declared :=
  (Table.gather Declared.arity fragments).values.zipIdx.filterMap
    (fun g => Declared.unite (stamp.child g.2) g.1)

def dropSpelling (folded : Table String (List String)) (name : String) :
    Table String (List String) :=
  let key := Text.lowered name
  match folded.get? key with
  | none => folded
  | some spellings =>
      match spellings.filter (fun s => s ≠ name) with
      | [] => folded.erase key
      | rest => folded.put key rest

def addSpelling (folded : Table String (List String)) (name : String) :
    Table String (List String) :=
  let key := Text.lowered name
  let spellings := (folded.get? key).getD []
  folded.put key (if spellings.contains name then spellings else spellings ++ [name])

def rebuild (s : Store) (stamp : Stamp) (name : String) : Store :=
  match s.fragmentsOf name with
  | [] =>
      { s with
        fragments := s.fragments.erase name
        logical := s.logical.erase name
        folded := dropSpelling s.folded name }
  | fragments =>
      { s with
        logical := s.logical.put name (uniteByArity stamp (fragments.map Fragment.type))
        folded := addSpelling s.folded name }

def withdraw (s : Store) (file : FileId) (name : String) : Store :=
  match s.fragments.get? name with
  | none => s
  | some list =>
      { s with fragments := s.fragments.put name (list.filter (fun f => f.file ≠ file)) }

def declare (s : Store) (file : FileId) (d : Declared) : Store :=
  { s with fragments := s.fragments.put d.fullName (s.fragmentsOf d.fullName ++ [⟨file, d⟩]) }

/-- Replaces what the file contributed before. Types that are united in the course of it get
stamps below `stamp`. -/
def replaceFile (s : Store) (stamp : Stamp) (file : FileId) (unit : Option CompilationUnit) :
    Store × Report :=
  let old := (s.units.get? file).elim [] CompilationUnit.allTypes
  let new := unit.elim [] CompilationUnit.allTypes
  let affected := distinct ((old ++ new).map Declared.fullName)
  let existed := affected.filter (fun name => !(s.fragmentsOf name).isEmpty)
  let units := s.units.erase file
  let s : Store := { s with units := unit.elim units (units.put file) }
  let s := affected.foldl (fun s name => s.withdraw file name) s
  let s := new.foldl (fun s d => s.declare file d) s
  let s := affected.zipIdx.foldl (fun s n => s.rebuild (stamp.child n.2) n.1) s
  let report := affected.foldl
    (fun r name => r.note name (existed.contains name) (!(s.fragmentsOf name).isEmpty)) Report.empty
  (s, report)

def allTypes (s : Store) : List Declared := s.logical.values.flatten

def topLevel (s : Store) : List Declared := s.allTypes.filter (fun d => d.body.outer.isNone)

def size (s : Store) : Nat := s.allTypes.length

def isEmpty (s : Store) : Bool := s.logical.entries.isEmpty

def files (s : Store) : List FileId := s.units.keys

def typesIn (s : Store) (file : FileId) : List Declared :=
  (s.units.get? file).elim [] CompilationUnit.types

def candidates (s : Store) (name : String) : List Declared := (s.logical.get? name).getD []

def find (s : Store) (name : String) (arity : Nat) : Option Declared :=
  (s.candidates name).find? (fun d => d.arity == arity)

def lookup (s : Store) (rule : CaseRule) (name : String) (arity : Nat) : Option Declared :=
  match s.find name arity with
  | some d => some d
  | none =>
      match rule with
      | .exact => none
      | .relaxed => (s.spellingsOf name).findSome? (fun spelling => s.find spelling arity)

end Store
end TypeScope
