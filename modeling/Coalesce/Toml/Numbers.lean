import Coalesce.Toml.Strings

/-!
# Numbers, dates and times

All three begin with a digit or a sign, so that they are tried one after another: a date or a time
first, then a number with a point or an exponent, then a whole number. Digits may be grouped by
single underscores. Whole numbers have 64 bits with sign; what goes beyond them, a number with a
point that rounds to infinity, and a day or an hour that does not exist are faults at the number's
or field's start.
-/

namespace Coalesce.Toml.Reader

/-- One character of a set. -/
def oneOf (set : List Char) : Reader Char := satisfying set.contains

/-- The digits of a group behind the first one; an underscore needs a digit behind it. -/
def moreDigits (isDigit : Char → Bool) : (fuel : Nat) → Reader (List Char)
  | 0 => pure []
  | fuel + 1 => do
    let run ← takeWhile isDigit
    match ← optional (char '_') with
    | none => return run
    | some _ =>
      let next ← expecting [.described "digit"] (committed (satisfying isDigit))
      return run ++ next :: (← moreDigits isDigit fuel)

/-- A group of digits, zeros in front allowed. -/
def digitGroup (isDigit : Char → Bool) : Reader (List Char) := do
  let first ← satisfying isDigit
  return first :: (← moreDigits isDigit ((← cursor).rest.length + 1))

/-- Whether an optional sign is a minus. -/
def sign : Reader Bool := do return (← optional (oneOf ['+', '-'])) == some '-'

/-- A whole number in base ten: its sign and its digits, no zeros in front. -/
def decimalDigits : Reader (Bool × List Char) :=
  naming .integer do
    let negative ← sign
    match ← optional (char '0') with
    | some _ => return (negative, ['0'])
    | none => return (negative, ← digitGroup Char.isDigit)

/-- A whole number, unless it goes beyond 64 bits with sign. -/
def bounded (start : Nat) (negative : Bool) (magnitude : Nat) : Reader Int :=
  if negative then
    if Nat.pow 2 63 < magnitude then failing (.because start .numberTooSmall)
    else return -(magnitude : Int)
  else if Nat.pow 2 63 ≤ magnitude then failing (.because start .numberTooLarge)
  else return magnitude

/-- The digits behind the two characters that announce another base. -/
def basedInteger (construct : Construct) (base : Nat) (isDigit : Char → Bool) : Reader Int :=
  committed do
    let start ← offset
    let digits ← naming construct do
      let _ ← satisfying fun _ => true
      let _ ← satisfying fun _ => true
      digitGroup isDigit
    bounded start false (numeral base digits)

/-- A whole number in base ten, sixteen, eight or two. -/
def integer : Reader Int := fun c =>
  match c.rest with
  | '0' :: 'x' :: _ => basedInteger .hexadecimalInteger 16 isHexDigit c
  | '0' :: 'o' :: _ => basedInteger .octalInteger 8 (fun x => '0' ≤ x && x ≤ '7') c
  | '0' :: 'b' :: _ => basedInteger .binaryInteger 2 (fun x => x == '0' || x == '1') c
  | _ =>
    (do
      let (negative, digits) ← decimalDigits
      bounded c.offset negative (numeral 10 digits) : Reader Int) c

/-- The exponent of a number. -/
def exponentPart : Reader Int := do
  let _ ← oneOf ['e', 'E']
  let negative ← sign
  let digits ← committed (digitGroup Char.isDigit)
  let magnitude := numeral 10 digits
  return if negative then -(magnitude : Int) else magnitude

/-- The digits behind the point of a number. -/
def fractionPart : Reader (List Char) := do
  let _ ← char '.'
  expecting [.described "digit"] (committed (digitGroup Char.isDigit))

/-- A number with a fraction, an exponent, or both. -/
def decimalFloat : Reader Binary64 := do
  let start ← offset
  let (negative, whole) ← decimalDigits
  let (fraction, exponent) ←
    orElse (do return ([], ← exponentPart)) do
      let fraction ← fractionPart
      return (fraction, (← optional exponentPart).getD 0)
  let value :=
    Binary64.ofDecimal negative (numeral 10 (whole ++ fraction)) (exponent - fraction.length)
  if value = .infinite false then failing (.bare start) else return value

/-- A number by name. -/
def namedFloat : Reader Binary64 := do
  let negative ← sign
  orElse (do literal "inf".toList; return .infinite negative)
    (do literal "nan".toList; return .nan)

/-- A number with a point or an exponent, or one by name. -/
def float : Reader Binary64 := naming .float (decimalFloat.orElse namedFloat)

/-- The number of exactly `count` digits, within bounds. -/
def field (count low high : Nat) : Reader Nat := fun c =>
  let digits := (c.rest.take count).takeWhile Char.isDigit
  let value := numeral 10 digits
  if digits.length ≠ count then .miss (.bare c.offset)
  else if low ≤ value ∧ value ≤ high then
    .done value ⟨c.rest.drop count, c.offset + count⟩
  else .miss (.because c.offset .outOfRange)

/-- A date. -/
def date : Reader Date := do
  let year ← field 4 0 9999
  let _ ← char '-'
  committed do
    let month ← field 2 1 12
    let _ ← char '-'
    let start ← offset
    let day ← field 2 1 31
    if daysInMonth year month < day then missing (.because start .outOfRange)
    else return ⟨year, month, day⟩

/-- The billionths of a second behind a point; what goes beyond them is dropped. -/
def secondFraction : Reader Nat := do
  let _ ← char '.'
  let first ← satisfying Char.isDigit
  let digits := (first :: (← takeWhile Char.isDigit)).take 9
  return numeral 10 digits * Nat.pow 10 (9 - digits.length)

/-- A time of day. -/
def time : Reader Time := do
  let hour ← field 2 0 23
  let _ ← char ':'
  committed do
    let minute ← field 2 0 59
    let _ ← char ':'
    let second ← field 2 0 60
    return ⟨hour, minute, second, (← optional secondFraction).getD 0⟩

/-- A zone. -/
def zone : Reader Zone :=
  naming .timeOffset <| orElse (do let _ ← oneOf ['Z', 'z']; return .utc) do
    let sign ← oneOf ['+', '-']
    committed do
      let hours ← field 2 0 23
      let _ ← char ':'
      let minutes ← field 2 0 59
      let total : Int := (hours * 60 + minutes : Nat)
      return .ahead (if sign = '-' then -total else total)

/-- A date, a time, or both. -/
def datetime : Reader Datetime :=
  orElse
    (naming .datetime do
      let day ← date
      match ← optional (do let _ ← oneOf ['T', 't', ' ']; return (← time, ← optional zone)) with
      | some (clock, zone?) => return ⟨some day, some clock, zone?⟩
      | none => return ⟨some day, none, none⟩)
    (naming .time do return ⟨none, some (← time), none⟩)

end Coalesce.Toml.Reader
