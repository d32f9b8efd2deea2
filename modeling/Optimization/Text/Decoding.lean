/-!
# Reading bytes as text

Bytes are read as UTF-8. A byte sequence that no character starts with is replaced, one
replacement character for each longest part that could still have begun a character. Line ends
of all three conventions are then read as one newline.
-/

namespace Optimization.Text

/-- A character under way: how many bytes are still owed, the range of the next one, and the
value read so far. Nothing is owed between characters. -/
structure Pending where
  owed : Nat
  low : Nat
  high : Nat
  value : Nat

/-- Nothing is owed. -/
def Pending.none : Pending := ⟨0, 0, 0, 0⟩

/-- The replacement character. -/
def replacement : Char := '\ufffd'

/-- What a byte between characters writes, and what is owed after it. -/
def leadByte (b : Nat) : List Char × Pending :=
  if b < 0x80 then ([Char.ofNat b], .none)
  else if b < 0xC2 then ([replacement], .none)
  else if b < 0xE0 then ([], ⟨1, 0x80, 0xBF, b % 0x20⟩)
  else if b = 0xE0 then ([], ⟨2, 0xA0, 0xBF, 0⟩)
  else if b = 0xED then ([], ⟨2, 0x80, 0x9F, 0xD⟩)
  else if b < 0xF0 then ([], ⟨2, 0x80, 0xBF, b % 0x10⟩)
  else if b = 0xF0 then ([], ⟨3, 0x90, 0xBF, 0⟩)
  else if b < 0xF4 then ([], ⟨3, 0x80, 0xBF, b % 8⟩)
  else if b = 0xF4 then ([], ⟨3, 0x80, 0x8F, 4⟩)
  else ([replacement], .none)

/-- What the next byte writes. A byte that does not fit ends the character under way as
malformed, and is then read as a lead byte. -/
def nextByte (p : Pending) (b : Nat) : List Char × Pending :=
  if p.owed = 0 then leadByte b
  else if p.low ≤ b ∧ b ≤ p.high then
    let value := p.value * 0x40 + b % 0x40
    if p.owed = 1 then ([Char.ofNat value], .none) else ([], ⟨p.owed - 1, 0x80, 0xBF, value⟩)
  else
    let (written, p) := leadByte b
    (replacement :: written, p)

/-- The characters of a byte sequence. -/
def decodeFrom (p : Pending) : List UInt8 → List Char
  | [] => if p.owed = 0 then [] else [replacement]
  | b :: rest =>
    let (written, p) := nextByte p b.toNat
    written ++ decodeFrom p rest

/-- Every line end becomes one newline. -/
def foldLineEnds : List Char → List Char
  | '\r' :: '\n' :: rest => '\n' :: foldLineEnds rest
  | '\r' :: rest => '\n' :: foldLineEnds rest
  | c :: rest => c :: foldLineEnds rest
  | [] => []

/-- The text of a byte sequence, with its line ends as they stand. -/
def decode (bytes : ByteArray) : String := String.ofList (decodeFrom .none bytes.toList)

/-- The text of a file. -/
def readText (bytes : ByteArray) : String :=
  String.ofList (foldLineEnds (decodeFrom .none bytes.toList))

end Optimization.Text
