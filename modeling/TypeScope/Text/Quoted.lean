import TypeScope.Text.Ranges
import TypeScope.Text.PrintTable

/-! Text in double quotes for diagnostics: what cannot be seen is written by its code point. -/
namespace TypeScope.Quoted
open Text (inRanges unprintableRanges extendingRanges)

def byCode (c : Char) : List Char :=
  ['\\', 'u', '\x7b'] ++ Nat.toDigits 16 c.toNat ++ ['\x7d']

def shown (c : Char) : List Char :=
  if c = '\x00' then ['\\', '0']
  else if c = '\t' then ['\\', 't']
  else if c = '\r' then ['\\', 'r']
  else if c = '\n' then ['\\', 'n']
  else if c = '\\' then ['\\', '\\']
  else if c = '"' then ['\\', '"']
  else if inRanges extendingRanges c.toNat then byCode c
  else if inRanges unprintableRanges c.toNat then byCode c
  else [c]

def quote (s : String) : String := String.ofList ('"' :: s.toList.flatMap shown ++ ['"'])

end TypeScope.Quoted
