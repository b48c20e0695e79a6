/-! Where a declaration stands: the file it was read from and its line and column. -/
namespace TypeScope

structure FileId where
  index : Nat
  deriving DecidableEq, Repr

def FileId.label (f : FileId) : String := "file#" ++ f.index.repr

def FileId.debug (f : FileId) : String := "FileId(" ++ f.index.repr ++ ")"

structure Location where
  line : Nat
  column : Nat
  deriving DecidableEq, Repr

def Location.unknown : Location := ⟨0, 0⟩

def Location.isUnknown (l : Location) : Bool := l == unknown

def Location.label (l : Location) : String := l.line.repr ++ ":" ++ l.column.repr

end TypeScope
