import SniffProxy.Text

/-!
# Durations

Spans of time as configurations write them: numbers with units such as `1h 30m` or `1.5s`, or a
plain number of seconds.

* `Duration.ofParts` — a sum of numbers with units.
* `Duration.ofString` — that, or plain seconds.
* `Duration.millis` — the whole milliseconds of a duration, for timers.
-/

namespace SniffProxy

/-- A span of time: whole seconds and the nanoseconds of the rest. -/
structure Duration where
  seconds : Nat
  nanos : Nat
  deriving DecidableEq, Repr

namespace Duration

/-- A number of seconds. -/
def ofSeconds (seconds : Nat) : Duration := ⟨seconds, 0⟩

/-- The whole milliseconds of a duration, where a part of one counts as one. -/
def millis (d : Duration) : Nat :=
  d.seconds * 1000 + (d.nanos + 999999) / 1000000

/-- The greatest number of seconds, and of nanoseconds where one number holds them. -/
def maxCount : Nat := Nat.pow 2 64 - 1

/-- A number, unless it is too great. -/
def bounded (n : Nat) : Option Nat :=
  if n ≤ maxCount then some n else none

/-! ## Units -/

/-- The units of a duration. A month has 30.44 days, a year 365.25. -/
inductive Unit where
  | nanosecond
  | microsecond
  | millisecond
  | second
  | minute
  | hour
  | day
  | week
  | month
  | year
  deriving DecidableEq, Repr

/-- The unit with this name. -/
def Unit.ofName? (name : List Char) : Option Unit :=
  match String.ofList name with
  | "nanos" | "nsec" | "ns" => some nanosecond
  | "usec" | "us" | "µs" => some microsecond
  | "millis" | "msec" | "ms" => some millisecond
  | "seconds" | "second" | "secs" | "sec" | "s" => some second
  | "minutes" | "minute" | "min" | "mins" | "m" => some minute
  | "hours" | "hour" | "hr" | "hrs" | "h" => some hour
  | "days" | "day" | "d" => some day
  | "weeks" | "week" | "wk" | "wks" | "w" => some week
  | "months" | "month" | "M" => some month
  | "years" | "year" | "yr" | "yrs" | "y" => some year
  | _ => none

/-- What a whole unit counts in: seconds, or nanoseconds for the units below a second. -/
inductive Count where
  | inSeconds (n : Nat)
  | inNanos (n : Nat)
  deriving DecidableEq, Repr

/-- The length of a unit. -/
def Unit.whole : Unit → Count
  | nanosecond => .inNanos 1
  | microsecond => .inNanos 1000
  | millisecond => .inNanos 1000000
  | second => .inSeconds 1
  | minute => .inSeconds 60
  | hour => .inSeconds 3600
  | day => .inSeconds 86400
  | week => .inSeconds 604800
  | month => .inSeconds 2630016
  | year => .inSeconds 31557600

/-- The length of a unit of which a fraction is taken; a nanosecond has no fractions. Fractions of
seconds and minutes count nanoseconds, fractions of longer units whole seconds. -/
def Unit.divisible : Unit → Option Count
  | nanosecond => none
  | second => some (.inNanos 1000000000)
  | minute => some (.inNanos 60000000000)
  | unit => some unit.whole

/-! ## Sums -/

/-- Adds seconds and nanoseconds, none of which may become too great. -/
def add (d : Duration) : Count → Option Duration
  | .inSeconds n => (bounded (d.seconds + n)).map fun seconds => ⟨seconds, d.nanos⟩
  | .inNanos n =>
    match bounded (d.nanos + n) with
    | none => none
    | some nanos =>
      (bounded (d.seconds + nanos / 1000000000)).map fun seconds => ⟨seconds, nanos % 1000000000⟩

/-- A multiple of a count. -/
def Count.times (k : Nat) : Count → Option Count
  | inSeconds n => (bounded (k * n)).map inSeconds
  | inNanos n => (bounded (k * n)).map inNanos

/-- An exact part of a count. -/
def Count.part (divisor : Nat) : Count → Option Count
  | inSeconds n => if n % divisor = 0 then some (inSeconds (n / divisor)) else none
  | inNanos n => if n % divisor = 0 then some (inNanos (n / divisor)) else none

/-- Digits behind a point: their value, and the power of ten that it is divided by. -/
structure Fraction where
  numerator : Nat
  denominator : Nat
  deriving DecidableEq, Repr

/-- Adds a number of units, given by its whole part and its fraction. -/
def addUnits (d : Duration) (unit : Unit) (whole : Nat) (fraction : Option Fraction) :
    Option Duration := do
  let d ← d.add (← unit.whole.times whole)
  match fraction with
  | none => return d
  | some f =>
    let numerator ← (← unit.divisible).times f.numerator
    d.add (← numerator.part f.denominator)

/-! ## Reading -/

/-- The characters of unit names. -/
def isUnitChar (c : Char) : Bool :=
  c.isAlpha || c = 'µ'

/-- The value of digits, unless it is too great. -/
def countOf (digits : List Char) : Option Nat :=
  match Text.readNat digits with
  | some n => bounded n
  | none => none

/-- The value of the digits of a fraction, of which there has to be one. -/
def fractionOf (digits : List Char) : Option Fraction :=
  match countOf digits, bounded (Nat.pow 10 digits.length) with
  | some numerator, some denominator => some ⟨numerator, denominator⟩
  | _, _ => none

/-- The digits and white space in front of a text, without the white space. -/
def spanDigits (cs : List Char) : List Char × List Char :=
  match cs.span fun c => c.isDigit || Text.isBlank c with
  | (number, rest) => (number.filter Char.isDigit, rest)

/-- Adds the numbers with units that a text writes. White space may stand before, within and after
a number; a unit is followed by a digit, by white space or by nothing. -/
def addParts : (fuel : Nat) → Duration → List Char → Option Duration
  | 0, _, _ => none
  | fuel + 1, d, cs =>
    match cs.dropWhile Text.isBlank with
    | [] => some d
    | cs =>
      match spanDigits cs with
      | (whole, rest) =>
        let (fraction, rest) :=
          match rest with
          | '.' :: rest =>
            match spanDigits rest with
            | (digits, rest) => ((fractionOf digits).map some, rest)
          | rest => (some none, rest)
        match countOf whole, fraction, rest.span isUnitChar with
        | some whole, some fraction, (name, rest) =>
          match Unit.ofName? name with
          | none => none
          | some unit =>
            match d.addUnits unit whole fraction with
            | none => none
            | some d =>
              match rest with
              | [] => some d
              | c :: _ => if c.isDigit || Text.isBlank c then addParts fuel d rest else none
        | _, _, _ => none

/-- The sum that a text writes with units; nothing for a text without a number. -/
def ofParts (cs : List Char) : Option Duration :=
  if cs.all Text.isBlank then none else addParts (cs.length + 1) ⟨0, 0⟩ cs

/-- The duration that a text writes: numbers with units, or plain seconds. -/
def ofString (text : String) : Option Duration :=
  match ofParts text.toList with
  | some d => some d
  | none => (Text.readNatUpTo maxCount text.toList).map ofSeconds

end Duration

end SniffProxy
