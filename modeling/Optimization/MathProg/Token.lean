import Optimization.MathProg.Arithmetic

/-!
# Tokens of MathProg

A text is read as tokens in one of two modes: that of models and that of data. In a model, names
start with a letter, and numerals are told apart from operators; in data, a run of letters, digits
and the characters `+-._` is one symbol, a number if it reads as one.

* Comments and blanks separate tokens.
* Every lexeme keeps the text behind it, since a model turns to the other mode where its data start.
* A defect of the text becomes a token that no rule of the language takes.
-/

namespace Optimization.MathProg

/-- A token. Reserved words and signs are marks; different spellings of one sign are one mark. -/
inductive Token
  | name (s : String)
  | symbol (s : String)
  | number (image : String) (x : Float)
  | text (s : String)
  | mark (s : String)
  | invalid (reason : String)
  deriving BEq

/-- A token and the text behind it. -/
structure Lexeme where
  token : Token
  rest : List Char

namespace Token

/-- The greatest length of a token in bytes. -/
def lengthLimit : Nat := 100

/-- Words that are no names. -/
def reserved : List String :=
  ["and", "by", "cross", "diff", "div", "else", "if", "in", "Infinity", "inter", "less", "mod",
    "not", "or", "symdiff", "then", "union", "within"]

/-- A token whose characters are not too many. -/
def limited (cs : List Char) (token : String → Token) : Token :=
  let s := String.ofList cs
  if s.utf8ByteSize ≤ lengthLimit then token s else .invalid "token too long"

/-- A character that may start a name. -/
def startsName (c : Char) : Bool := c.isAlpha || c == '_'

/-- A character that may continue a name. -/
def continuesName (c : Char) : Bool := c.isAlphanum || c == '_'

/-- A character of a symbol in data. -/
def isSymbolChar (c : Char) : Bool := c.isAlphanum || "+-._".toList.contains c

/-- A blank: a space or one of the control characters that move the position. -/
def isSpace (c : Char) : Bool := c == ' ' || (9 ≤ c.toNat && c.toNat ≤ 13)

/-- A control character that is no blank; no text may hold one, not even in a comment. -/
def isControl (c : Char) : Bool := (c.toNat < 32 && !isSpace c) || c.toNat == 127

/-! ### Numerals and words -/

/-- The exponent of a numeral, if one starts, and the rest; nothing if it is incomplete. -/
def exponentPart (cs : List Char) : Option (List Char × List Char) :=
  match cs with
  | e :: rest =>
    if e == 'e' || e == 'E' then
      let (sign, rest) :=
        match rest with
        | '+' :: rest => (['+'], rest)
        | '-' :: rest => (['-'], rest)
        | rest => ([], rest)
      let digits := rest.takeWhile Char.isDigit
      if digits.isEmpty then none
      else some (e :: sign ++ digits, rest.dropWhile Char.isDigit)
    else some ([], cs)
  | [] => some ([], [])

/-- The number token of a numeral. -/
def ofNumeral (s : String) : Token :=
  match readNumeral s with
  | .number x => .number s x
  | _ => .invalid "cannot convert numeral"

/-- A numeral whose part before the exponent is given, and the rest. -/
def finishNumeral (mantissa rest : List Char) : Token × List Char :=
  match exponentPart rest with
  | none => (.invalid "numeral incomplete", rest)
  | some (e, rest) =>
    match rest with
    | c :: _ =>
      if startsName c then (.invalid "symbol should be enclosed in quotes", rest)
      else (limited (mantissa ++ e) ofNumeral, rest)
    | [] => (limited (mantissa ++ e) ofNumeral, [])

/-- A numeral that starts with a digit. Two points behind the digits belong to the next token. -/
def numeral (cs : List Char) : Token × List Char :=
  let whole := cs.takeWhile Char.isDigit
  match cs.dropWhile Char.isDigit with
  | '.' :: '.' :: rest => (limited whole ofNumeral, '.' :: '.' :: rest)
  | '.' :: rest =>
    finishNumeral (whole ++ '.' :: rest.takeWhile Char.isDigit) (rest.dropWhile Char.isDigit)
  | rest => finishNumeral whole rest

/-- A numeral that starts with a point. -/
def pointNumeral (rest : List Char) : Token × List Char :=
  finishNumeral ('.' :: rest.takeWhile Char.isDigit) (rest.dropWhile Char.isDigit)

/-- A name or a reserved word. -/
def word (cs : List Char) : Token × List Char :=
  let letters := cs.takeWhile continuesName
  let rest := cs.dropWhile continuesName
  match letters, rest with
  | ['s'], '.' :: 't' :: '.' :: rest => (.mark "s.t.", rest)
  | ['s'], '.' :: rest => (.invalid "keyword incomplete", rest)
  | _, _ =>
    (limited letters fun s => if reserved.contains s then .mark s else .name s, rest)

/-- A symbol of data. -/
def dataSymbol (cs : List Char) : Token × List Char :=
  let image (s : String) : Token :=
    match readNumeral s with
    | .number x => .number s x
    | .tooLarge => .invalid "cannot convert numeral"
    | .none => .symbol s
  (limited (cs.takeWhile isSymbolChar) image, cs.dropWhile isSymbolChar)

/-! ### Texts and signs -/

/-- The characters of a quoted text, a doubled quote taken once and a blank as a space, and the
rest. -/
def quotedChars (quote : Char) : List Char → Option (List Char × List Char)
  | [] => none
  | c :: rest =>
    if c = '\n' || isControl c then none
    else if c = quote then
      match rest with
      | d :: rest' =>
        if d = quote then (quotedChars quote rest').map fun (cs, r) => (quote :: cs, r)
        else some ([], rest)
      | [] => some ([], [])
    else
      (quotedChars quote rest).map fun (cs, r) => ((if isSpace c then ' ' else c) :: cs, r)

/-- A quoted text. -/
def quoted (quote : Char) (cs : List Char) : Token × List Char :=
  match quotedChars quote cs with
  | some (cs, rest) => (limited cs .text, rest)
  | none => (.invalid "text incomplete", [])

/-- Signs of two characters, with the marks they stand for. -/
def pairs : List (Char × Char × String) :=
  [('*', '*', "^"), ('<', '=', "<="), ('<', '-', "<-"), ('<', '>', "<>"), ('=', '=', "="),
    ('>', '=', ">="), ('>', '>', ">>"), ('!', '=', "<>"), ('&', '&', "and"), ('|', '|', "or"),
    (':', '=', ":="), ('.', '.', "..")]

/-- Signs of one character, with the marks they stand for. -/
def singles : List (Char × String) :=
  [('+', "+"), ('-', "-"), ('*', "*"), ('/', "/"), ('^', "^"), ('<', "<"), ('=', "="), ('>', ">"),
    ('!', "not"), ('&', "&"), ('|', "|"), ('.', "."), (',', ","), (':', ":"), (';', ";"),
    ('(', "("), (')', ")"), ('[', "["), (']', "]"), ('\x7b', "\x7b"), ('\x7d', "\x7d"), ('~', "~")]

/-- The mark of a sign and the rest. -/
def sign (c : Char) (rest : List Char) : Token × List Char :=
  let two := rest.head?.bind fun d => pairs.find? fun (a, b, _) => a == c && b == d
  match two with
  | some (_, _, s) => (.mark s, rest.drop 1)
  | none =>
    match singles.lookup c with
    | some s => (.mark s, rest)
    | none => (.invalid "character not allowed", rest)

/-! ### Reading -/

/-- The text behind a block comment, nothing if it does not end or may not stand there. -/
def afterComment : List Char → Option (List Char)
  | [] => none
  | '*' :: '/' :: rest => some rest
  | c :: rest => if isControl c then none else afterComment rest

/-- The text behind a comment that ends with its line, nothing if it may not stand there. -/
def afterLine : List Char → Option (List Char)
  | [] => some []
  | c :: rest => if c = '\n' then some rest else if isControl c then none else afterLine rest

/-- The text behind blanks and comments, nothing if a comment is defective. The number bounds how
many are passed. -/
def skipBlanks : Nat → List Char → Option (List Char)
  | 0, cs => some cs
  | n + 1, cs =>
    match cs with
    | '#' :: rest => (afterLine rest).bind (skipBlanks n)
    | '/' :: '*' :: rest => (afterComment rest).bind (skipBlanks n)
    | c :: rest => if isSpace c then skipBlanks n rest else some (c :: rest)
    | [] => some []

/-- The token at the start of a text that starts with no blank. -/
def start (inData : Bool) (c : Char) (rest : List Char) : Token × List Char :=
  if c == '\'' || c == '"' then quoted c rest
  else if inData && isSymbolChar c then dataSymbol (c :: rest)
  else if startsName c then word (c :: rest)
  else if c.isDigit then numeral (c :: rest)
  else if c == '.' && (rest.head?.map Char.isDigit).getD false then pointNumeral rest
  else sign c rest

/-- The lexemes of a text. The number bounds how many there are. -/
def scan (inData : Bool) : Nat → List Char → List Lexeme
  | 0, _ => []
  | n + 1, cs =>
    match skipBlanks (cs.length + 1) cs with
    | none => [⟨.invalid "comment defective", []⟩]
    | some [] => []
    | some (c :: rest) =>
      let (token, rest) := start inData c rest
      ⟨token, rest⟩ :: scan inData n rest

/-- All lexemes of a text. -/
def lexemes (inData : Bool) (cs : List Char) : List Lexeme := scan inData (cs.length + 1) cs

end Token

end Optimization.MathProg
