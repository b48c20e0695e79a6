import TypeScope.Text.Dotted

/-! Arity marks: a name or one of its dotted segments may end in a backtick and a count. -/
namespace TypeScope.Arity

def mark : Char := '\x60'

def decorate (name : String) (arity : Nat) : String :=
  if arity = 0 then name else name ++ "\x60" ++ arity.repr

def digits : List Char → Nat → Option Nat
  | [], n => some n
  | c :: rest, n => if c.isDigit then digits rest (10 * n + (c.toNat - '0'.toNat)) else none

def count? (cs : List Char) : Option Nat :=
  let ds := match cs with
    | '+' :: rest => rest
    | other => other
  if ds.isEmpty then none
  else
    match digits ds 0 with
    | some n => if n < UInt64.size then some n else none
    | none => none

def cutMark : List Char → Option (List Char × List Char)
  | [] => none
  | c :: rest =>
      match cutMark rest with
      | some (before, after) => some (c :: before, after)
      | none => if c = mark then some ([], rest) else none

def stripSegment (segment : List Char) : List Char × Option Nat :=
  match cutMark segment with
  | none => (segment, none)
  | some (base, number) =>
      match count? number with
      | some n => (base, some n)
      | none => (segment, none)

def strip (name : String) : String × Option Nat :=
  let segments := (Dotted.pieces name.toList).map stripSegment
  (".".intercalate (segments.map (fun s => String.ofList s.1)),
    (segments.getLast?.map Prod.snd).join)

end TypeScope.Arity
