import PresenceTracker.Source.Value
import PresenceTracker.Text

/-!
# Numbers, dates and truth values of TOML text

These are words: nothing separates their characters. Digits may be grouped by single
underscores. Dates and times are kept as texts of one form: a capital T between date and
time, fractions of a second without needless zeros, a capital Z for the prime meridian.
-/

namespace PresenceTracker.Toml

/-- Digits of a class without the underscores between them. -/
def ungroup (isDigit : Char → Bool) : List Char → Option (List Char)
  | [] => none
  | [c] => if isDigit c then some [c] else none
  | c :: '_' :: rest => if isDigit c then (ungroup isDigit rest).map (c :: ·) else none
  | c :: rest => if isDigit c then (ungroup isDigit rest).map (c :: ·) else none

/-- The digits of a whole number, which has no leading zeros. -/
def wholeDigits? (text : List Char) : Option Decimal.Digits :=
  ((ungroup Char.isDigit text).bind Decimal.digits?).filter fun digits =>
    !Decimal.hasLeadingZero digits

/-- The digits behind a point or in an exponent. -/
def trailingDigits? (text : List Char) : Option Decimal.Digits :=
  (ungroup Char.isDigit text).bind Decimal.digits?

/-- The number that digits of a base stand for, if all of them belong to it. -/
def numberIn? (base : Nat) (text : List Char) : Option Nat := do
  let digits ← ungroup (fun c => ((Text.hexValue? c).any fun value => value.val < base)) text
  return digits.foldl (fun found c => found * base + ((Text.hexValue? c).elim 0 (·.val))) 0

/-- The integer that a word stands for. -/
def integer? : List Char → Option Int
  | '0' :: 'x' :: rest => (numberIn? 16 rest).map Int.ofNat
  | '0' :: 'o' :: rest => (numberIn? 8 rest).map Int.ofNat
  | '0' :: 'b' :: rest => (numberIn? 2 rest).map Int.ofNat
  | word =>
    let (negative, body) := Decimal.splitSign word
    (wholeDigits? body).map fun digits =>
      if negative then -(Decimal.toNat digits : Int) else Decimal.toNat digits

/-- The exponent that a word stands for. -/
def exponent? (word : List Char) : Option Int :=
  let (negative, body) := Decimal.splitSign word
  (trailingDigits? body).map fun digits =>
    if negative then -(Decimal.toNat digits : Int) else Decimal.toNat digits

/-- The finite number that a word without a sign stands for: it has a point with digits on
both sides, or an exponent. -/
def unsignedFloat? (negative : Bool) (word : List Char) : Option Decimal.Float64 := do
  let front := word.takeWhile fun c => !Decimal.Float64.isExponentMark c
  let whole := front.takeWhile fun c => c ≠ '.'
  let fraction ← match front.drop whole.length with
    | [] => some []
    | _ :: rest => trailingDigits? rest
  let exponent ← match word.drop front.length with
    | [] => if fraction.isEmpty then none else some 0
    | _ :: rest => exponent? rest
  return .ofDecimal negative ((← wholeDigits? whole) ++ fraction) (exponent - fraction.length)

/-- The floating point number that a word stands for. A number beyond all finite ones is
refused. -/
def float? (word : List Char) : Option Decimal.Float64 :=
  let (negative, body) := Decimal.splitSign word
  if body = ['i', 'n', 'f'] then some (.infinite negative)
  else if body = ['n', 'a', 'n'] then some .nan
  else
    match unsignedFloat? negative body with
    | some (.infinite _) => none
    | found => found

/-- The number of two digits. -/
def twoDigits? (tens ones : Char) : Option Nat :=
  match Decimal.digit? tens, Decimal.digit? ones with
  | some tens, some ones => some (tens.val * 10 + ones.val)
  | _, _ => none

/-- Whether a year has a leap day. -/
def isLeap (year : Nat) : Bool := year % 4 = 0 && (year % 100 ≠ 0 || year % 400 = 0)

/-- The number of days of a month. -/
def daysIn (year month : Nat) : Nat :=
  if month = 2 then if isLeap year then 29 else 28
  else if [4, 6, 9, 11].contains month then 30
  else 31

/-- A date in front of a word. -/
def readDate : List Char → Option (List Char × List Char)
  | a :: b :: c :: d :: '-' :: e :: f :: '-' :: g :: h :: rest => do
    let century ← twoDigits? a b
    let year := century * 100 + (← twoDigits? c d)
    let month ← twoDigits? e f
    let day ← twoDigits? g h
    if 1 ≤ month ∧ month ≤ 12 ∧ 1 ≤ day ∧ day ≤ daysIn year month then
      some ([a, b, c, d, '-', e, f, '-', g, h], rest)
    else none
  | _ => none

/-- An hour and a minute in front of a word. -/
def readMinute : List Char → Option (List Char × List Char)
  | a :: b :: ':' :: c :: d :: rest => do
    let hour ← twoDigits? a b
    let minute ← twoDigits? c d
    if hour ≤ 23 ∧ minute ≤ 59 then some ([a, b, ':', c, d], rest) else none
  | _ => none

/-- A fraction of a second, of which nine digits count. It keeps one digit at least. -/
def readFraction : List Char → Option (List Char × List Char)
  | '.' :: rest =>
    let digits := rest.takeWhile Char.isDigit
    let kept := ((digits.take 9).reverse.dropWhile (· = '0')).reverse
    if digits.isEmpty then none
    else some ('.' :: (if kept.isEmpty then ['0'] else kept), rest.drop digits.length)
  | rest => some ([], rest)

/-- A time in front of a word. It may end with the minute, and the last second of a day may
be a leap second. -/
def readTime (word : List Char) : Option (List Char × List Char) := do
  let (front, rest) ← readMinute word
  match rest with
  | ':' :: e :: f :: rest =>
    let second ← twoDigits? e f
    let (fraction, rest) ← readFraction rest
    if second ≤ 60 then some (front ++ [':', e, f] ++ fraction, rest) else none
  | rest => some (front, rest)

/-- The distance to the time of the prime meridian that a word stands for. -/
def offset? : List Char → Option (List Char)
  | [] => some []
  | [c] => if c = 'Z' || c = 'z' then some ['Z'] else none
  | sign :: rest =>
    if sign = '+' || sign = '-' then
      match readMinute rest with
      | some (distance, []) =>
        some ((if distance = ['0', '0', ':', '0', '0'] then '+' else sign) :: distance)
      | _ => none
    else none

/-- The date, the time or both that a word stands for. -/
def moment? (word : List Char) : Option (List Char) :=
  match readDate word with
  | some (date, []) => some date
  | some (date, mark :: rest) =>
    if mark = 'T' || mark = 't' || mark = ' ' then do
      let (time, rest) ← readTime rest
      return date ++ 'T' :: time ++ (← offset? rest)
    else none
  | none =>
    match readTime word with
    | some (time, []) => some time
    | _ => none

/-- Whether a character belongs to a word. -/
def isWordChar (c : Char) : Bool :=
  c.isAlphanum || c = '_' || c = '+' || c = '-' || c = '.' || c = ':'

/-- A word. A date and a time may be separated by a space. -/
def readWord (text : List Char) : List Char × List Char :=
  let word := text.takeWhile isWordChar
  let rest := text.drop word.length
  match readDate word, rest with
  | some (_, []), ' ' :: c :: _ =>
    if c.isDigit then
      let time := (rest.drop 1).takeWhile isWordChar
      (word ++ ' ' :: time, rest.drop (1 + time.length))
    else (word, rest)
  | _, _ => (word, rest)

/-- The value that a word stands for. Integers have 64 bits. -/
def word? (word : List Char) : Option SourceValue :=
  if word = ['t', 'r', 'u', 'e'] then some (.truth true)
  else if word = ['f', 'a', 'l', 's', 'e'] then some (.truth false)
  else
    match moment? word, integer? word, float? word with
    | some found, _, _ => some (.text (String.ofList found))
    | none, some found, _ =>
      if Int64.minValue.toInt ≤ found ∧ found ≤ Int64.maxValue.toInt then some (.integer found)
      else none
    | none, none, some found => some (.float found)
    | none, none, none => none

end PresenceTracker.Toml
