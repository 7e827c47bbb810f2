/-
Python's `str` methods on Lean strings.

The tables of the Unicode database (which characters are spaces or digits, how a
character is lowered) are a parameter; what the methods do with them is defined here.
-/
import Mathlib.Data.Nat.Notation

namespace PyText

/-- The part of the Unicode database that the methods below look up. -/
structure Unicode where
  isSpace : Char → Bool
  isDigit : Char → Bool
  lower : Char → List Char

/-- The methods within ASCII. -/
def Unicode.ascii : Unicode where
  isSpace := Char.isWhitespace
  isDigit := Char.isDigit
  lower c := [c.toLower]

variable (uni : Unicode)

/-- `str.strip()` -/
def strip (s : String) : String :=
  String.ofList ((s.toList.dropWhile uni.isSpace).reverse.dropWhile uni.isSpace).reverse

/-- `str.lower()` -/
def lower (s : String) : String := String.ofList (s.toList.flatMap uni.lower)

/-- `str.isdigit()`; the empty string is none. -/
def isdigit (s : String) : Bool := !s.toList.isEmpty && s.toList.all uni.isDigit

/-- `str.isascii()` -/
def isascii (s : String) : Bool := s.toList.all fun c => decide (c.toNat < 128)

/-- `s.startswith(start)` -/
def startsWith (start s : String) : Bool := start.toList.isPrefixOf s.toList

/-- `s[len(prefix):]` where `s.startswith(prefix)`, else `none`. -/
def afterPrefix (start s : String) : Option String :=
  if startsWith start s then some (String.ofList (s.toList.drop start.length))
  else none

/-- `s.rstrip()` -/
def rstrip (s : String) : String :=
  String.ofList (s.toList.reverse.dropWhile uni.isSpace).reverse

/-- `s.split()` -/
def split (s : String) : List String :=
  ((s.toList.splitBy fun a b => uni.isSpace a == uni.isSpace b).filter fun run =>
    !run.any uni.isSpace).map String.ofList

/-- `a or b` on strings: the empty string is false. -/
def orElse (a b : String) : String := if a = "" then b else a

/-- `PurePosixPath(s).name` -/
def pathName (s : String) : String :=
  (((s.toList.splitOn '/').map String.ofList).filter fun part =>
    decide (part ≠ "" ∧ part ≠ ".")).getLast?.getD ""

/-- `Path.suffix` of a file name. -/
def pathSuffix (name : String) : String :=
  let extension := name.toList.reverse.takeWhile (· ≠ '.')
  match name.toList.reverse.dropWhile (· ≠ '.') with
  | '.' :: before =>
    if before ≠ [] ∧ extension ≠ [] then String.ofList ('.' :: extension.reverse) else ""
  | _ => ""

/-- `Path.stem` of a file name. -/
def pathStem (name : String) : String :=
  String.ofList (name.toList.take (name.length - (pathSuffix name).length))

end PyText
