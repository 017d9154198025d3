import TreeLint.Data.Datum
import TreeLint.Format.Numeral

/-!
# Plain values in TOML

What a value without quotation marks, brackets or braces stands for: a truth value, a number, or a
moment, which is a date, a time of day or both.

## Main definitions

* `TreeLint.Toml.number?` — numbers.
* `TreeLint.Toml.isMoment` — moments.
* `TreeLint.Toml.scalar?` — plain values.
-/

namespace TreeLint.Toml

/-! ## Numbers -/

/-- Digits without the underscores among them, each of which stands between two digits. The flag
tells whether the character before is a digit. -/
def withoutUnderscores? (base : Nat) (behindDigit : Bool) : List Char → Option (List Char)
  | [] => some []
  | c :: cs =>
    if c = '_' then
      if behindDigit ∧ cs.head?.any (isDigitIn base) then withoutUnderscores? base false cs
      else none
    else (withoutUnderscores? base (isDigitIn base c) cs).map (c :: ·)

/-- A whole number that fits into 128 bits, with or without a sign. -/
def fitted (value : Int) : Option Datum :=
  if -capacity 127 ≤ value ∧ value < capacity 128 then some (.integer value) else none

/-- A whole number in a base that is not ten, behind the mark of the base. -/
def based? (base : Nat) (cs : List Char) : Option Datum :=
  if cs.isEmpty then none
  else ((withoutUnderscores? base false cs).bind (numeral? base 0)).bind fun n => fitted n

/-- The characters behind a sign, and whether the sign is a minus. -/
def splitSign : List Char → Bool × List Char
  | '-' :: cs => (true, cs)
  | '+' :: cs => (false, cs)
  | cs => (false, cs)

/-- A decimal number. -/
def decimal? (cs : List Char) : Option Datum := do
  let (negative, body) := splitSign cs
  match ← (withoutUnderscores? 10 false body).bind readNumeral? with
  | (n, []) =>
    if ¬n.isComplete then failure
    else if n.isWhole then fitted (signed negative n.value)
    else if n.isTooLarge then failure
    else return .fraction
  | _ => failure

/-- A number. -/
def number? : List Char → Option Datum
  | '0' :: 'x' :: cs => based? 16 cs
  | '0' :: 'o' :: cs => based? 8 cs
  | '0' :: 'b' :: cs => based? 2 cs
  | cs =>
    if [['i', 'n', 'f'], ['n', 'a', 'n']].contains (splitSign cs).2 then some .fraction
    else decimal? cs

/-! ## Moments -/

/-- The number that a fixed count of digits writes. -/
def digits? (count : Nat) : Reader Char Nat := fun cs =>
  let front := cs.take count
  if front.length = count then (numeral? 10 0 front).map (·, cs.drop count) else none

/-- The years with a day more. -/
def isLeapYear (year : Nat) : Bool := (year % 4 = 0 && year % 100 ≠ 0) || year % 400 = 0

/-- The number of days of a month. -/
def daysOf (year month : Nat) : Nat :=
  if month = 2 then if isLeapYear year then 29 else 28
  else if [4, 6, 9, 11].contains month then 30
  else 31

/-- What follows a date. -/
def behindDate? (cs : List Char) : Option (List Char) := do
  let (year, cs) ← digits? 4 cs
  let (month, cs) ← digits? 2 (← behind? '-' cs)
  let (day, cs) ← digits? 2 (← behind? '-' cs)
  if 1 ≤ month ∧ month ≤ 12 ∧ 1 ≤ day ∧ day ≤ daysOf year month then return cs else failure

/-- What follows a part of a second, if there is one. -/
def behindFraction? (cs : List Char) : Option (List Char) :=
  match behind? '.' cs with
  | none => some cs
  | some rest => if rest.head?.any Char.isDigit then some (rest.dropWhile Char.isDigit) else none

/-- What follows seconds, if there are any. -/
def behindSeconds? (cs : List Char) : Option (List Char) :=
  match behind? ':' cs with
  | none => some cs
  | some rest => do
    let (second, rest) ← digits? 2 rest
    if second ≤ 60 then behindFraction? rest else failure

/-- What follows hours and minutes. -/
def behindMinutes? (cs : List Char) : Option (List Char) := do
  let (hour, cs) ← digits? 2 cs
  let (minute, cs) ← digits? 2 (← behind? ':' cs)
  if hour ≤ 23 ∧ minute ≤ 59 then return cs else failure

/-- What follows a time of day. The seconds may be missing. -/
def behindTime? (cs : List Char) : Option (List Char) := (behindMinutes? cs).bind behindSeconds?

/-- What follows the distance from universal time, if there is one. -/
def behindOffset? : List Char → Option (List Char)
  | 'Z' :: cs | 'z' :: cs => some cs
  | '+' :: cs | '-' :: cs => behindMinutes? cs
  | cs => some cs

/-- What follows a moment. A time of day with a distance from universal time needs a date. -/
def behindMoment? (cs : List Char) : Option (List Char) :=
  match behindDate? cs with
  | none => behindTime? cs
  | some rest =>
    match rest with
    | 'T' :: rest | 't' :: rest | ' ' :: rest => (behindTime? rest).bind behindOffset?
    | rest => some rest

/-- A moment. -/
def isMoment (cs : List Char) : Bool := behindMoment? cs == some []

/-- A moment as data: a table with one entry. -/
def moment (cs : List Char) : Datum := .record [("moment", .text (.ofList cs))]

/-! ## Values -/

/-- A plain value. -/
def scalar? (cs : List Char) : Option Datum :=
  if cs = ['t', 'r', 'u', 'e'] then some (.bool true)
  else if cs = ['f', 'a', 'l', 's', 'e'] then some (.bool false)
  else if isMoment cs then some (moment cs)
  else number? cs

end TreeLint.Toml
