import Sift.Decimal.Read
import Sift.Text.Reader
import Sift.Time.Calendar

/-!
# The words of TOML

White space, comments, strings, numbers, dates and keys.

* `lineEnd?`: the end of a line, with a comment before it.
* `basicBody?`, `literalBody?`, `stringValue?`: strings on one line and on several.
* `wholeNumber?`, `afterFloat?`, `afterDateTime?`: numbers and dates.
* `keyPath?`: a key, which may be dotted.
-/

namespace Sift.Toml

open Text (Reader digitsValue digits? hexValue? hexDigits?)

/-- Spaces and tabs. -/
def isSpace (c : Char) : Bool := c == ' ' || c == '\t'

/-- The text from its first character that is no space or tab. -/
def skipSpace (cs : List Char) : List Char := cs.dropWhile isSpace

/-- Characters beyond ASCII, and the printable ones of ASCII and the tab. -/
def isTextChar (c : Char) : Bool := c == '\t' || (0x20 ≤ c.toNat && c.toNat != 0x7F)

/-- The text after a line break. -/
def lineBreak? : List Char → Option (List Char)
  | '\n' :: cs => some cs
  | '\r' :: '\n' :: cs => some cs
  | _ => none

/-- The text after a comment, if one starts here. -/
def skipComment : List Char → List Char
  | '#' :: cs => cs.dropWhile isTextChar
  | cs => cs

/-- The text after the rest of a line, in which only white space and a comment may stand. -/
def lineEnd? (cs : List Char) : Option (List Char) :=
  match skipComment (skipSpace cs) with
  | [] => some []
  | cs => lineBreak? cs

/-- The text after white space, line breaks and comments. Each round takes at least one
character. -/
def skipLines : Nat → List Char → List Char
  | 0, cs => cs
  | rounds + 1, cs =>
    match skipSpace cs with
    | [] => []
    | c :: rest =>
      if c = '#' then
        match lineEnd? (c :: rest) with
        | some next => skipLines rounds next
        | none => c :: rest
      else
        match lineBreak? (c :: rest) with
        | some next => skipLines rounds next
        | none => c :: rest

/-! ### Strings -/

/-- The character of a code point; surrogates are none. -/
def ofCodePoint? (n : Nat) : Option Char :=
  if n < 0xD800 ∨ (0xE000 ≤ n ∧ n ≤ 0x10FFFF) then some (Char.ofNat n) else none

/-- The character of so many hexadecimal digits. -/
def codePoint? (count : Nat) (cs : List Char) : Option (Char × List Char) := do
  let (n, rest) ← hexDigits? count 0 cs
  let c ← ofCodePoint? n
  some (c, rest)

/-- What follows a backslash in a string. -/
def escape? : Reader Char
  | 'b' :: cs => some ('\x08', cs)
  | 't' :: cs => some ('\t', cs)
  | 'n' :: cs => some ('\n', cs)
  | 'f' :: cs => some ('\x0c', cs)
  | 'r' :: cs => some ('\r', cs)
  | '"' :: cs => some ('"', cs)
  | '\\' :: cs => some ('\\', cs)
  | 'u' :: cs => codePoint? 4 cs
  | 'U' :: cs => codePoint? 8 cs
  | _ => none

/-- The characters of a string on one line up to its closing quote. -/
def basicBody? : Nat → List Char → Reader String
  | 0, _, _ => none
  | rounds + 1, acc, cs =>
    match cs with
    | '"' :: rest => some (String.ofList acc.reverse, rest)
    | '\\' :: rest =>
      match escape? rest with
      | some (c, rest) => basicBody? rounds (c :: acc) rest
      | none => none
    | c :: rest => if isTextChar c then basicBody? rounds (c :: acc) rest else none
    | [] => none

/-- The characters of a string without escapes on one line up to its closing apostrophe. -/
def literalBody? (cs : List Char) : Option (String × List Char) :=
  let isPart (c : Char) : Bool := isTextChar c && c != '\''
  match cs.dropWhile isPart with
  | '\'' :: rest => some (String.ofList (cs.takeWhile isPart), rest)
  | _ => none

/-- The text after a backslash at the end of a line and the white space and line breaks that
follow. -/
def continuation? (length : Nat) (cs : List Char) : Option (List Char) :=
  (lineBreak? (skipSpace cs)).map fun rest => skipBlankLines length rest
where
  /-- The text after white space and line breaks. -/
  skipBlankLines : Nat → List Char → List Char
  | 0, cs => cs
  | rounds + 1, cs =>
    match lineBreak? (skipSpace cs) with
    | some rest => skipBlankLines rounds rest
    | none => skipSpace cs

/-- How many of the given character stand in front, and the text after them. -/
def countFront (c : Char) (cs : List Char) : Nat × List Char :=
  ((cs.takeWhile (· == c)).length, cs.dropWhile (· == c))

/-- The end of a string on several lines: three quotes, before which one or two more may stand. -/
def closing? (quote : Char) (acc : List Char) (cs : List Char) : Option (String × List Char) :=
  let (n, rest) := countFront quote cs
  if n < 3 ∨ 5 < n then none
  else some (String.ofList (List.replicate (n - 3) quote ++ acc).reverse, rest)

/-- Whether three of the given character stand in front. -/
def startsTriple (quote : Char) : List Char → Bool
  | a :: b :: c :: _ => a == quote && b == quote && c == quote
  | _ => false

/-- The characters of a string on several lines up to its closing quotes. -/
def multilineBody? (quote : Char) (length : Nat) : Nat → List Char → Reader String
  | 0, _, _ => none
  | rounds + 1, acc, cs =>
    if startsTriple quote cs then closing? quote acc cs
    else
      match lineBreak? cs with
      | some rest => multilineBody? quote length rounds ('\n' :: acc) rest
      | none =>
        match cs with
        | [] => none
        | c :: rest =>
          if c = '\\' ∧ quote = '"' then
            match escape? rest with
            | some (c, rest) => multilineBody? quote length rounds (c :: acc) rest
            | none =>
              match continuation? length rest with
              | some rest => multilineBody? quote length rounds acc rest
              | none => none
          else if isTextChar c then multilineBody? quote length rounds (c :: acc) rest
          else none

/-- A string on several lines after its opening quotes; a line break right after them does not
count. -/
def multiline? (quote : Char) (cs : List Char) : Option (String × List Char) :=
  let length := cs.length + 1
  multilineBody? quote length length [] ((lineBreak? cs).getD cs)

/-- A string of any of the four kinds. -/
def stringValue? : Reader String
  | '"' :: '"' :: '"' :: cs => multiline? '"' cs
  | '\'' :: '\'' :: '\'' :: cs => multiline? '\'' cs
  | '"' :: cs => basicBody? (cs.length + 1) [] cs
  | '\'' :: cs => literalBody? cs
  | _ => none

/-! ### Numbers -/

/-- Digits of a kind with single underscores between them, without the underscores. -/
def spacedDigits? (isDigit : Char → Bool) : Nat → List Char → Reader (List Char)
  | 0, _, _ => none
  | rounds + 1, acc, cs =>
    match cs with
    | '_' :: c :: rest =>
      if acc ≠ [] ∧ isDigit c then spacedDigits? isDigit rounds (c :: acc) rest else none
    | c :: rest =>
      if isDigit c then spacedDigits? isDigit rounds (c :: acc) rest
      else if acc = [] ∨ c = '_' then none
      else some (acc.reverse, c :: rest)
    | [] => if acc = [] then none else some (acc.reverse, [])

/-- Digits with underscores. -/
def digitRun? (isDigit : Char → Bool) (cs : List Char) : Option (List Char × List Char) :=
  spacedDigits? isDigit (cs.length + 1) [] cs

/-- A sign in front of a number. -/
def sign? : List Char → Bool × List Char
  | '-' :: cs => (true, cs)
  | '+' :: cs => (false, cs)
  | cs => (false, cs)

/-- Decimal digits that do not start with a zero unless they are a single zero. -/
def decimalDigits? (cs : List Char) : Option (List Char × List Char) :=
  match digitRun? Char.isDigit cs with
  | some ('0' :: _ :: _, _) => none
  | r => r

/-- The value of digits in a base. -/
def valueInBase (base : Nat) (ds : List Char) : Nat :=
  ds.foldl (fun n c => base * n + (hexValue? c).getD 0) 0

/-- Digits of the given base up to the largest signed 64-bit number. -/
def inBase? (base : Nat) (cs : List Char) : Option (Int × List Char) := do
  let isDigit (c : Char) : Bool := (hexValue? c).any (· < base)
  let (ds, rest) ← digitRun? isDigit cs
  let n := valueInBase base ds
  if n < 0x8000000000000000 then some (n, rest) else none

/-- A whole number: signed decimal, or unsigned in base 16, 8 or 2. -/
def wholeNumber? : Reader Int
  | '0' :: 'x' :: cs => inBase? 16 cs
  | '0' :: 'o' :: cs => inBase? 8 cs
  | '0' :: 'b' :: cs => inBase? 2 cs
  | cs => do
    let (negative, cs) := sign? cs
    let (ds, rest) ← decimalDigits? cs
    let n : Int := digitsValue ds
    let n := if negative then -n else n
    if Text.IsInt64 n then some (n, rest) else none

/-- A point and digits, or nothing. -/
def fraction? : Reader (List Char)
  | '.' :: cs => digitRun? Char.isDigit cs
  | cs => some ([], cs)

/-- An exponent in digits with its mark and sign, or nothing. -/
def exponent? : Reader (List Char)
  | c :: cs =>
    if c = 'e' ∨ c = 'E' then
      match cs with
      | '-' :: cs => (digitRun? Char.isDigit cs).map fun (ds, rest) => ('e' :: '-' :: ds, rest)
      | '+' :: cs => (digitRun? Char.isDigit cs).map fun (ds, rest) => ('e' :: ds, rest)
      | cs => (digitRun? Char.isDigit cs).map fun (ds, rest) => ('e' :: ds, rest)
    else some ([], c :: cs)
  | [] => some ([], [])

/-- The text after a number with a point or an exponent, or after one of the words `inf` and `nan`.
A positive number too large for a double is refused. -/
def afterFloat? (cs : List Char) : Option (List Char) := do
  let (negative, cs) := sign? cs
  match cs with
  | 'i' :: 'n' :: 'f' :: rest => some rest
  | 'n' :: 'a' :: 'n' :: rest => some rest
  | cs => do
    let (whole, rest) ← decimalDigits? cs
    let (fraction, rest) ← fraction? rest
    let (exponent, rest) ← exponent? rest
    let point := if fraction = [] then [] else '.' :: fraction
    if fraction = [] ∧ exponent = [] then none
    else
      let d ← Decimal.readUnsigned? (whole ++ point ++ exponent)
      if d.toFloat.isInf ∧ ¬negative then none else some rest

/-! ### Dates -/

/-- A number of exactly so many digits between two bounds. -/
def fixedDigits? (count least most : Nat) (cs : List Char) : Option (Nat × List Char) :=
  let ds := cs.take count
  let n := digitsValue ds
  if ds.length = count ∧ ds.all Char.isDigit ∧ least ≤ n ∧ n ≤ most then some (n, cs.drop count)
  else none

/-- The text after one of the given characters. -/
def afterChar? (allowed : List Char) : List Char → Option (List Char)
  | c :: cs => if allowed.contains c then some cs else none
  | [] => none

/-- The text after a date. -/
def afterDate? (cs : List Char) : Option (List Char) := do
  let (year, cs) ← fixedDigits? 4 0 9999 cs
  let cs ← afterChar? ['-'] cs
  let (month, cs) ← fixedDigits? 2 1 12 cs
  let cs ← afterChar? ['-'] cs
  let (_, cs) ← fixedDigits? 2 1 (Time.monthLength year month) cs
  some cs

/-- The text after a time of day. -/
def afterTime? (cs : List Char) : Option (List Char) := do
  let (_, cs) ← fixedDigits? 2 0 23 cs
  let cs ← afterChar? [':'] cs
  let (_, cs) ← fixedDigits? 2 0 59 cs
  let cs ← afterChar? [':'] cs
  let (_, cs) ← fixedDigits? 2 0 60 cs
  match cs with
  | '.' :: rest => (digits? rest).map Prod.snd
  | cs => some cs

/-- The text after an offset from UTC, which may be missing. -/
def afterOffset (cs : List Char) : List Char :=
  let numeric : Option (List Char) := do
    let rest ← afterChar? ['+', '-'] cs
    let (_, rest) ← fixedDigits? 2 0 23 rest
    let rest ← afterChar? [':'] rest
    let (_, rest) ← fixedDigits? 2 0 59 rest
    some rest
  (afterChar? ['Z', 'z'] cs).getD (numeric.getD cs)

/-- The text after a date, a time, or a date and a time with an optional offset. -/
def afterDateTime? (cs : List Char) : Option (List Char) :=
  match afterDate? cs with
  | some rest =>
    match (afterChar? ['T', 't', ' '] rest).bind afterTime? with
    | some rest => some (afterOffset rest)
    | none => some rest
  | none => afterTime? cs

/-! ### Keys -/

/-- Characters of keys without quotes. -/
def isKeyChar (c : Char) : Bool := c.isAlphanum || c == '_' || c == '-'

/-- A key without dots: quoted, or letters, digits, underscores and dashes. -/
def simpleKey? : Reader String
  | '"' :: cs => basicBody? (cs.length + 1) [] cs
  | '\'' :: cs => literalBody? cs
  | cs =>
    let key := cs.takeWhile isKeyChar
    if key = [] then none else some (String.ofList key, cs.dropWhile isKeyChar)

/-- The parts of a dotted key with white space around each. -/
def keyParts? : Nat → Reader (List String)
  | 0, _ => none
  | rounds + 1, cs => do
    let (key, rest) ← simpleKey? (skipSpace cs)
    match skipSpace rest with
    | '.' :: rest => do
      let (keys, rest) ← keyParts? rounds rest
      some (key :: keys, rest)
    | rest => some ([key], rest)

/-- How many parts a dotted key may have, and how deep arrays and inline tables may nest. -/
def maxDepth : Nat := 79

/-- A key of at most `maxDepth` parts. -/
def keyPath? (cs : List Char) : Option (List String × List Char) := keyParts? maxDepth cs

end Sift.Toml
