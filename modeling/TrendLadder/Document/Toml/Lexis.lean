import TrendLadder.Text.Digits

/-!
# Blanks, texts and keys of TOML

The parts of a TOML document below its values: blanks, comments and line ends, quoted texts and
dotted keys. Each function reads the front of a text and gives the rest.
-/

namespace TrendLadder

namespace Toml

/-- The blanks within a line. -/
def isBlankChar (c : Char) : Bool := c = ' ' || c = '\t'

/-- The text without leading blanks. -/
def skipBlank (s : List Char) : List Char := s.dropWhile isBlankChar

/-- The characters that may stand in comments and texts. -/
def isPrintable (c : Char) : Bool :=
  c = '\t' || 0x20 ≤ c.toNat && c.toNat ≤ 0x7E || 0x80 ≤ c.toNat

/-- What follows a line end. -/
def newline? : List Char → Option (List Char)
  | '\n' :: rest => some rest
  | '\r' :: '\n' :: rest => some rest
  | _ => none

/-- The text after a comment, if there is one. -/
def skipComment (s : List Char) : List Char :=
  match s with
  | '#' :: rest => rest.dropWhile isPrintable
  | _ => s

/-- Blanks, a comment and a line end, or the end of the text. -/
def lineEnd? (s : List Char) : Option (List Char) :=
  match skipComment (skipBlank s) with
  | [] => some []
  | rest => newline? rest

/-- The text without leading blanks, comments and line ends. -/
def skipLines : Nat → List Char → List Char
  | 0, s => s
  | fuel + 1, s =>
    let rest := skipComment (skipBlank s)
    match newline? rest with
    | some rest => skipLines fuel rest
    | none => rest

/-! ## Texts -/

/-- The character that a letter stands for after a backslash. -/
def escapes : List (Char × Char) :=
  [('b', '\x08'), ('t', '\t'), ('n', '\n'), ('f', '\x0c'), ('r', '\r'), ('"', '"'), ('\\', '\\')]

/-- The character with the code point that `count` hexadecimal digits give. -/
def codePoint? (count : Nat) (s : List Char) : Option (Char × List Char) := do
  let ds := s.take count
  if ds.length ≠ count then none
  let n ← natOfDigits? 16 ds
  if n.isValidChar then some (Char.ofNat n, s.drop count) else none

/-- The character after a backslash. -/
def escape? : List Char → Option (Char × List Char)
  | 'u' :: rest => codePoint? 4 rest
  | 'U' :: rest => codePoint? 8 rest
  | c :: rest => (escapes.lookup c).map fun e => (e, rest)
  | [] => none

/-- The body of a text in double quotes up to the closing one. -/
def basicBody : Nat → List Char → List Char → Option (List Char × List Char)
  | 0, _, _ => none
  | _, _, [] => none
  | fuel + 1, seen, c :: rest =>
    if c = '"' then some (seen.reverse, rest)
    else if c = '\\' then
      match escape? rest with
      | some (e, rest) => basicBody fuel (e :: seen) rest
      | none => none
    else if isPrintable c then basicBody fuel (c :: seen) rest
    else none

/-- A text in single quotes, which has no escapes. -/
def literalBody (s : List Char) : Option (List Char × List Char) :=
  let body := s.takeWhile fun c => isPrintable c && c ≠ '\''
  match s.drop body.length with
  | '\'' :: rest => some (body, rest)
  | _ => none

/-- The number of quotes at the front. -/
def countQuotes (quote : Char) (s : List Char) : Nat := (s.takeWhile (· = quote)).length

/-- The text after a backslash at the end of a line and the blank lines that it joins. -/
def joinedLine? (s : List Char) : Option (List Char) :=
  (newline? (skipBlank s)).map fun rest =>
    rest.dropWhile fun c => isBlankChar c || c = '\n' || c = '\r'

/-- The body of a text in three quotes. Up to two quotes may stand inside, also before the
closing ones. -/
def multilineBody (quote : Char) : Nat → List Char → List Char → Option (List Char × List Char)
  | 0, _, _ => none
  | _, _, [] => none
  | fuel + 1, seen, c :: rest =>
    if c = quote then
      let n := countQuotes quote (c :: rest)
      if n < 3 then
        multilineBody quote fuel (List.replicate n quote ++ seen) ((c :: rest).drop n)
      else if n ≤ 5 then
        some ((List.replicate (n - 3) quote ++ seen).reverse, (c :: rest).drop n)
      else none
    else if c = '\\' ∧ quote = '"' then
      match joinedLine? rest with
      | some rest => multilineBody quote fuel seen rest
      | none =>
        match escape? rest with
        | some (e, rest) => multilineBody quote fuel (e :: seen) rest
        | none => none
    else
      match newline? (c :: rest) with
      | some rest => multilineBody quote fuel ('\n' :: seen) rest
      | none => if isPrintable c then multilineBody quote fuel (c :: seen) rest else none

/-- The text without a line end at the front, which the opening quotes swallow. -/
def dropNewline (s : List Char) : List Char := (newline? s).getD s

/-- A text in any of the four kinds of quotes. -/
def text? (fuel : Nat) : List Char → Option (List Char × List Char)
  | '"' :: '"' :: '"' :: rest => multilineBody '"' fuel [] (dropNewline rest)
  | '\'' :: '\'' :: '\'' :: rest => multilineBody '\'' fuel [] (dropNewline rest)
  | '"' :: rest => basicBody fuel [] rest
  | '\'' :: rest => literalBody rest
  | _ => none

/-! ## Keys -/

/-- The characters of a bare key. -/
def isBareChar (c : Char) : Bool := c.isAlphanum || c = '_' || c = '-'

/-- One part of a key. -/
def simpleKey? (fuel : Nat) : List Char → Option (List Char × List Char)
  | '"' :: rest => basicBody fuel [] rest
  | '\'' :: rest => literalBody rest
  | s =>
    let name := s.takeWhile isBareChar
    if name = [] then none else some (name, s.dropWhile isBareChar)

/-- The parts of a key, one more than the limit being an error. -/
def maxParts : Nat := 80

/-- A key: parts with points between them, blanks allowed around them. -/
def key? : Nat → List Char → Option (List String × List Char)
  | 0, _ => none
  | fuel + 1, s => do
    let (name, rest) ← simpleKey? fuel (skipBlank s)
    let name := String.ofList name
    match skipBlank rest with
    | '.' :: rest =>
      let (names, rest) ← key? fuel rest
      return (name :: names, rest)
    | rest => return ([name], rest)

end Toml

end TrendLadder
