import QuorumKv.Text.Digits

/-! Reading doubles: an optional sign, then digits with at most one point among them and an optional
exponent, or one of the words for infinity and for no number, in any case. -/
namespace QuorumKv.Text

/-- The double nearest to a whole number, `scale` powers of ten down. Beyond 400 powers of ten
from one there is only infinity or zero. -/
def scaled (digits : Nat) (scale : Int) : Float :=
  let leading : Int := (Nat.toDigits 10 digits).length - scale
  if digits = 0 || leading < -400 then 0
  else if 400 < leading then 1.0 / 0.0
  else Float.ofScientific digits (0 ≤ scale) scale.natAbs

def isDecimalDigit (c : Char) : Bool :=
  '0' ≤ c && c ≤ '9'

/-- The exponent behind a number; nothing at all stands for 0. -/
def exponent? : List Char → Option Int
  | [] => some 0
  | c :: cs =>
    if c == 'e' || c == 'E' then
      match cs with
      | '-' :: cs => (digits? 10 cs).map fun n => -(n : Int)
      | '+' :: cs => (digits? 10 cs).map Int.ofNat
      | cs => (digits? 10 cs).map Int.ofNat
    else none

def magnitude? (cs : List Char) : Option Float :=
  let word := String.ofList (cs.map Char.toLower)
  if word == "inf" || word == "infinity" then some (1.0 / 0.0)
  else if word == "nan" then some (0.0 / 0.0)
  else
    let whole := cs.takeWhile isDecimalDigit
    let rest := cs.dropWhile isDecimalDigit
    let (places, rest) := match rest with
      | '.' :: rest => (rest.takeWhile isDecimalDigit, rest.dropWhile isDecimalDigit)
      | rest => ([], rest)
    match digits? 10 (whole ++ places), exponent? rest with
    | some digits, some power => some (scaled digits (places.length - power))
    | _, _ => none

def real? (text : String) : Option Float :=
  match text.toList with
  | '-' :: cs => (magnitude? cs).map fun x => -x
  | '+' :: cs => magnitude? cs
  | cs => magnitude? cs

end QuorumKv.Text
