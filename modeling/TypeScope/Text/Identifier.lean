import TypeScope.Text.Ranges
import TypeScope.Text.IdentifierTable

/-! Identifier characters and the identifier a written name starts with. A name may be written
with an arity mark or arguments behind it; only the leading identifier names the type. -/
namespace TypeScope.Text

def isIdentifierChar (c : Char) : Bool :=
  c == '_' || inRanges identifierRanges c.toNat

def leadingIdentifier (s : String) : String :=
  String.ofList (s.toList.takeWhile isIdentifierChar)

theorem leadingIdentifierFixed {s : String}
    (whole : ∀ c ∈ s.toList, isIdentifierChar c = true) : leadingIdentifier s = s := by
  have all : s.toList.takeWhile isIdentifierChar = s.toList := by
    generalize s.toList = cs at whole
    induction cs with
    | nil => rfl
    | cons c rest ih =>
      rw [List.takeWhile_cons, if_pos (whole c (by simp)),
        ih (fun d mem => whole d (List.mem_cons_of_mem _ mem))]
  rw [leadingIdentifier, all, String.ofList_toList]

def marks : List Char := ['\x60', '<', '>', ',', '.', '?', '*', '[', ']', '&']

theorem marksSeparate {c : Char} (mem : c ∈ marks) : isIdentifierChar c = false := by
  have none : marks.any isIdentifierChar = false := rfl
  simpa using List.any_eq_false.mp none c mem

end TypeScope.Text
