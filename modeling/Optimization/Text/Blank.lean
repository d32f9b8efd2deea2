/-!
# Blank characters

White space of any script. The four separators of the ASCII controls count as blank in a text, but
not around a numeral.
-/

namespace Optimization.Text

/-- The code points of all blank characters. -/
def blanks : List Nat :=
  [9, 10, 11, 12, 13, 28, 29, 30, 31, 32, 133, 160, 5760, 8192, 8193, 8194, 8195, 8196, 8197,
   8198, 8199, 8200, 8201, 8202, 8232, 8233, 8239, 8287, 12288]

/-- Whether a character is blank. -/
def isBlank (c : Char) : Bool := blanks.contains c.toNat

/-- Whether a character is a separator among the ASCII controls. -/
def isSeparator (c : Char) : Bool := decide (28 ≤ c.toNat ∧ c.toNat ≤ 31)

/-- Whether a character may surround a numeral. -/
def isMargin (c : Char) : Bool := isBlank c && !isSeparator c

/-- The characters without the margin at both ends. -/
def strip (s : List Char) : List Char :=
  ((s.dropWhile isMargin).reverse.dropWhile isMargin).reverse

/-- The text without the blank characters at its end. -/
def stripEnd (s : String) : String :=
  String.ofList (s.toList.reverse.dropWhile isBlank).reverse

end Optimization.Text
