import SniffProxy.Bytes
import SniffProxy.Text
import SniffProxy.Toml.Value

/-!
# TOML scalars

The parts of a TOML document that hold no other values: keys, strings, numbers, truth values and
dates. Each reader answers what it read and the text behind it, or nothing.

* `readString` — the four kinds of string.
* `readKey` — a dotted key.
* `scalarOf` — the value that a run of scalar characters writes.
-/

namespace SniffProxy.Toml

/-! ## Characters -/

/-- A space or a tab. -/
def isGap (c : Char) : Bool :=
  c = ' ' || c = '\t'

/-- The characters that may stand in strings and comments: no control characters but the tab. -/
def isPlain (c : Char) : Bool :=
  c = '\t' || (decide (0x20 ≤ c.toNat) && decide (c.toNat ≠ 0x7f))

/-- The text behind spaces and tabs. -/
def skipGaps (cs : List Char) : List Char :=
  cs.dropWhile isGap

/-- The text behind a line end. -/
def lineEnd? : List Char → Option (List Char)
  | '\n' :: rest => some rest
  | '\r' :: '\n' :: rest => some rest
  | _ => none

/-- The text behind spaces, tabs and line ends. -/
def skipBlank : List Char → List Char
  | [] => []
  | '\n' :: rest => skipBlank rest
  | '\r' :: '\n' :: rest => skipBlank rest
  | c :: rest => if isGap c then skipBlank rest else c :: rest

/-- The text behind spaces, tabs, line ends and comments. A character that no comment may hold is
left where it is. -/
def skipLines : (inComment : Bool) → List Char → List Char
  | _, [] => []
  | _, '\n' :: rest => skipLines false rest
  | _, '\r' :: '\n' :: rest => skipLines false rest
  | true, c :: rest => if isPlain c then skipLines true rest else c :: rest
  | false, c :: rest =>
    if isGap c then skipLines false rest
    else if c = '#' then skipLines true rest
    else c :: rest

/-! ## Strings -/

/-- The value of hexadecimal digits. -/
def hexNat : List Char → Option Nat
  | [] => some 0
  | cs =>
    cs.foldl (fun total c =>
      match total, hexValue? c with
      | some n, some v => some (16 * n + v)
      | _, _ => none) (some 0)

/-- The character whose number has this many hexadecimal digits. -/
def readCodePoint (digits : Nat) (cs : List Char) : Option (Char × List Char) :=
  match hexNat (cs.take digits) with
  | some n =>
    if (cs.take digits).length = digits ∧ n.isValidChar then some (Char.ofNat n, cs.drop digits)
    else none
  | none => none

/-- The character that stands behind a backslash. -/
def readEscape : List Char → Option (Char × List Char)
  | 'b' :: rest => some (Char.ofNat 8, rest)
  | 't' :: rest => some ('\t', rest)
  | 'n' :: rest => some ('\n', rest)
  | 'f' :: rest => some (Char.ofNat 12, rest)
  | 'r' :: rest => some ('\r', rest)
  | '"' :: rest => some ('"', rest)
  | '\\' :: rest => some ('\\', rest)
  | 'u' :: rest => readCodePoint 4 rest
  | 'U' :: rest => readCodePoint 8 rest
  | _ => none

/-- Puts a character in front of what a reader read. -/
def consRead (c : Char) : Option (List Char × List Char) → Option (List Char × List Char)
  | some (text, rest) => some (c :: text, rest)
  | none => none

/-- A string with escapes, up to its quote. -/
def readBasic : (fuel : Nat) → List Char → Option (List Char × List Char)
  | 0, _ => none
  | fuel + 1, cs =>
    match cs with
    | [] => none
    | '"' :: rest => some ([], rest)
    | '\\' :: rest =>
      match readEscape rest with
      | some (c, rest) => consRead c (readBasic fuel rest)
      | none => none
    | c :: rest => if isPlain c then consRead c (readBasic fuel rest) else none

/-- A string without escapes, up to its quote. -/
def readLiteral : List Char → Option (List Char × List Char)
  | [] => none
  | '\'' :: rest => some ([], rest)
  | c :: rest => if isPlain c then consRead c (readLiteral rest) else none

/-- The end of a string between triple quotes, behind three of them: up to two more belong to the
text. -/
def closeMultiline (quote : Char) : List Char → List Char × List Char
  | c :: d :: rest =>
    if c = quote ∧ d = quote then ([quote, quote], rest)
    else if c = quote then ([quote], d :: rest)
    else ([], c :: d :: rest)
  | [c] => if c = quote then ([quote], []) else ([], [c])
  | [] => ([], [])

/-- A string between triple quotes, up to its quotes. Line ends become line feeds; where escapes
count, a backslash at the end of a line removes the gap up to the next text. -/
def readMultiline (quote : Char) (escapes : Bool) :
    (fuel : Nat) → List Char → Option (List Char × List Char)
  | 0, _ => none
  | fuel + 1, cs =>
    match cs with
    | [] => none
    | c :: rest =>
      if c = quote ∧ rest.take 2 = [quote, quote] then some (closeMultiline quote (rest.drop 2))
      else if c = '\\' ∧ escapes = true then
        match lineEnd? (skipGaps rest) with
        | some rest =>
          readMultiline quote escapes fuel (skipBlank rest)
        | none =>
          match readEscape rest with
          | some (c, rest) => consRead c (readMultiline quote escapes fuel rest)
          | none => none
      else
        match lineEnd? cs with
        | some rest => consRead '\n' (readMultiline quote escapes fuel rest)
        | none => if isPlain c then consRead c (readMultiline quote escapes fuel rest) else none

/-- The text behind a line end directly behind the opening triple quotes. -/
def dropFirstLineEnd (cs : List Char) : List Char :=
  (lineEnd? cs).getD cs

/-- A string of any kind, from its first quote. -/
def readString : List Char → Option (List Char × List Char)
  | '"' :: '"' :: '"' :: rest =>
    readMultiline '"' true (rest.length + 1) (dropFirstLineEnd rest)
  | '\'' :: '\'' :: '\'' :: rest =>
    readMultiline '\'' false (rest.length + 1) (dropFirstLineEnd rest)
  | '"' :: rest => readBasic (rest.length + 1) rest
  | '\'' :: rest => readLiteral rest
  | _ => none

/-! ## Keys -/

/-- The characters of a key without quotes. -/
def isBare (c : Char) : Bool :=
  c.isAlphanum || c = '-' || c = '_'

/-- One part of a dotted key. -/
def readKeyPart (cs : List Char) : Option (List Char × List Char) :=
  match cs with
  | '"' :: rest => readBasic (rest.length + 1) rest
  | '\'' :: rest => readLiteral rest
  | _ => if (cs.takeWhile isBare) = [] then none else some (cs.span isBare)

/-- The parts of a dotted key, with the gaps around them. -/
def readKeyParts : (fuel : Nat) → List Char → Option (List String × List Char)
  | 0, _ => none
  | fuel + 1, cs =>
    match readKeyPart (skipGaps cs) with
    | none => none
    | some (part, rest) =>
      match skipGaps rest with
      | '.' :: rest =>
        match readKeyParts fuel rest with
        | some (parts, rest) => some (String.ofList part :: parts, rest)
        | none => none
      | rest => some ([String.ofList part], rest)

/-- Keys have fewer parts than this, and values nest less deep. -/
def depthLimit : Nat := 80

/-- A dotted key, with the gaps around it. -/
def readKey (cs : List Char) : Option (List String × List Char) :=
  match readKeyParts cs.length cs with
  | some (parts, rest) => if parts.length < depthLimit then some (parts, rest) else none
  | none => none

/-! ## Numbers -/

/-- The digits of a numeral, in which single underscores may stand between digits. -/
def ungroup (isDigit : Char → Bool) : List Char → Option (List Char)
  | [] => none
  | [c] => if isDigit c then some [c] else none
  | c :: d :: rest =>
    if isDigit c then
      if d = '_' then (ungroup isDigit rest).map (c :: ·)
      else (ungroup isDigit (d :: rest)).map (c :: ·)
    else none

/-- The text without a sign, and whether the sign was a minus. -/
def splitSign : List Char → Bool × List Char
  | '+' :: rest => (false, rest)
  | '-' :: rest => (true, rest)
  | cs => (false, cs)

/-- The digits of a decimal numeral without needless zeros in front. -/
def decimalDigits (cs : List Char) : Option (List Char) :=
  match ungroup Char.isDigit cs with
  | some ('0' :: _ :: _) => none
  | digits => digits

/-- The value of digits in some base. -/
def valueIn (base : Nat) (digits : List Char) : Nat :=
  digits.foldl (fun n c => base * n + (hexValue? c).getD 0) 0

/-- The bound of integers: they are at least its negative and less than it. -/
def integerBound : Nat := Nat.pow 2 63

/-- The value of digits in a base other than ten. -/
def basedInteger (base : Nat) (isDigit : Char → Bool) (cs : List Char) : Option Int :=
  match ungroup isDigit cs with
  | some digits => if valueIn base digits < integerBound then some (valueIn base digits) else none
  | none => none

/-- The value of an integer. -/
def integerOf : List Char → Option Int
  | '0' :: 'x' :: rest => basedInteger 16 (fun c => (hexValue? c).isSome) rest
  | '0' :: 'o' :: rest => basedInteger 8 (fun c => decide ('0' ≤ c ∧ c ≤ '7')) rest
  | '0' :: 'b' :: rest => basedInteger 2 (fun c => c = '0' || c = '1') rest
  | cs =>
    match splitSign cs with
    | (negative, cs) =>
      match decimalDigits cs with
      | none => none
      | some digits =>
        let n := valueIn 10 digits
        if negative then if n ≤ integerBound then some (-(n : Int)) else none
        else if n < integerBound then some n else none

/-- Whether digits times a power of ten round to no finite double: they are at least
`2 ^ 1024 - 2 ^ 970`, half a unit above the largest one. -/
def overflowsDouble (digits : List Char) (exponent : Int) : Bool :=
  let digits := digits.dropWhile (· = '0')
  let magnitude := exponent + digits.length
  if digits = [] ∨ magnitude ≤ 308 then false
  else if 309 < magnitude then true
  else
    let limit := Nat.pow 2 1024 - Nat.pow 2 970
    let n := valueIn 10 digits
    decide (limit * Nat.pow 10 (-exponent).toNat ≤ n * Nat.pow 10 exponent.toNat)

/-- The digits of a fraction; none without a point. -/
def fractionDigits : Option (List Char) → Option (List Char)
  | none => some []
  | some cs => ungroup Char.isDigit cs

/-- The value of an exponent; zero without one. -/
def exponentOf : Option (List Char) → Option Int
  | none => some 0
  | some cs =>
    match splitSign cs with
    | (negative, cs) =>
      match ungroup Char.isDigit cs with
      | some digits =>
        some (if negative then -(valueIn 10 digits : Int) else (valueIn 10 digits : Int))
      | none => none

/-- The parts around a mark, of which the second may be missing. -/
def cutOptional (isMark : Char → Bool) (cs : List Char) : List Char × Option (List Char) :=
  match cs.span fun c => !isMark c with
  | (before, _ :: after) => (before, some after)
  | (before, []) => (before, none)

/-- Whether a text is a number with a fraction or an exponent. One that is too large for a double
counts only with a minus sign. -/
def isFloat (cs : List Char) : Bool :=
  match splitSign cs with
  | (negative, unsigned) =>
    if unsigned = "inf".toList ∨ unsigned = "nan".toList then true
    else
      match cutOptional (fun c => c = 'e' || c = 'E') unsigned with
      | (mantissa, exponent) =>
        match cutOptional (· = '.') mantissa with
        | (whole, fraction) =>
          match decimalDigits whole, fractionDigits fraction, exponentOf exponent with
          | some digits, some places, some power =>
            (fraction.isSome || exponent.isSome) &&
              (negative || !overflowsDouble (digits ++ places) (power - places.length))
          | _, _, _ => false

/-! ## Dates and times -/

/-- Whether a text is a number of exactly this many digits within bounds. -/
def isNumberIn (count low high : Nat) (cs : List Char) : Bool :=
  match Text.readNat cs with
  | some n => decide (cs.length = count) && decide (low ≤ n) && decide (n ≤ high)
  | none => false

/-- The number of days of a month. -/
def daysIn (year month : Nat) : Nat :=
  if month = 2 then
    if year % 4 = 0 ∧ (year % 100 ≠ 0 ∨ year % 400 = 0) then 29 else 28
  else if month = 4 ∨ month = 6 ∨ month = 9 ∨ month = 11 then 30
  else 31

/-- Whether ten characters are a date. -/
def isDate (cs : List Char) : Bool :=
  match Text.splitAt '-' cs with
  | [year, month, day] =>
    isNumberIn 4 0 9999 year && isNumberIn 2 1 12 month &&
      isNumberIn 2 1 (daysIn ((Text.readNat year).getD 0) ((Text.readNat month).getD 0)) day
  | _ => false

/-- Whether a text is an hour and a minute. -/
def isClock (cs : List Char) : Bool :=
  match Text.splitAt ':' cs with
  | [hour, minute] => isNumberIn 2 0 23 hour && isNumberIn 2 0 59 minute
  | _ => false

/-- Whether a text is the distance to universal time. -/
def isOffset : List Char → Bool
  | [] => true
  | ['Z'] => true
  | ['z'] => true
  | '+' :: rest => isClock rest
  | '-' :: rest => isClock rest
  | _ => false

/-- Whether a text is the part of a second, with what may follow it. -/
def isSecondTail (tail : List Char → Bool) : List Char → Bool
  | '.' :: rest =>
    match rest.span Char.isDigit with
    | ([], _) => false
    | (_, rest) => tail rest
  | rest => tail rest

/-- Whether a text is a time of day, with what may follow it. -/
def isTime (tail : List Char → Bool) (cs : List Char) : Bool :=
  isClock (cs.take 5) && decide ((cs.drop 5).head? = some ':') &&
    isNumberIn 2 0 60 ((cs.drop 6).take 2) && isSecondTail tail (cs.drop 8)

/-- Whether a text is a date, a time, or both. -/
def isDateTime (cs : List Char) : Bool :=
  isTime List.isEmpty cs ||
    (isDate (cs.take 10) &&
      match cs.drop 10 with
      | [] => true
      | c :: rest => (c = 'T' || c = 't' || c = ' ') && isTime isOffset rest)

/-! ## Scalars -/

/-- The characters that a scalar without quotes is made of. -/
def isScalarChar (c : Char) : Bool :=
  c.isAlphanum || c = '_' || c = '+' || c = '-' || c = '.' || c = ':'

/-- The value that a run of scalar characters writes. -/
def scalarOf (cs : List Char) : Option Value :=
  if cs = "true".toList then some (.boolean true)
  else if cs = "false".toList then some (.boolean false)
  else
    match integerOf cs with
    | some n => some (.integer n)
    | none =>
      if isFloat cs then some (.float (String.ofList cs))
      else if isDateTime cs then some (.date (String.ofList cs))
      else none

/-- The characters of a scalar without quotes. A date may go on with a time behind one space. -/
def scalarSpan (cs : List Char) : List Char × List Char :=
  match cs.span isScalarChar with
  | (first, ' ' :: d :: rest) =>
    if isDate first ∧ d.isDigit then
      match (d :: rest).span isScalarChar with
      | (second, rest) => (first ++ ' ' :: second, rest)
    else (first, ' ' :: d :: rest)
  | (first, rest) => (first, rest)

/-- A value that holds no other values. -/
def readScalar (cs : List Char) : Option (Value × List Char) :=
  match cs with
  | '"' :: _ => (readString cs).map fun (text, rest) => (.string (String.ofList text), rest)
  | '\'' :: _ => (readString cs).map fun (text, rest) => (.string (String.ofList text), rest)
  | _ =>
    match scalarSpan cs with
    | (run, rest) => (scalarOf run).map fun value => (value, rest)

end SniffProxy.Toml
