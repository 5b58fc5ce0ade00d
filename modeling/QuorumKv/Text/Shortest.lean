/-! The shortest decimal that reads back as a given double. A double stands for every real number
that rounds to it; of the decimals among them we take one with the fewest digits, and of those the
nearest to the double itself. -/
namespace QuorumKv.Text

/-- A positive finite double is `mantissa * 2 ^ power`. `narrow` holds when the next smaller double
is only half as far away as the next larger one. -/
structure Dyadic where
  mantissa : Nat
  power : Int
  narrow : Bool

def Dyadic.ofBits (bits : Nat) : Dyadic :=
  let fraction := bits % Nat.pow 2 52
  let exponent := bits / Nat.pow 2 52 % Nat.pow 2 11
  if exponent = 0 then ⟨fraction, -1074, false⟩
  else ⟨fraction + Nat.pow 2 52, Int.ofNat exponent - 1075, fraction = 0 && exponent > 1⟩

/-- A decimal, `digits * 10 ^ exponent`. -/
structure Decimal where
  digits : Nat
  exponent : Int

/-- The exponent of the leading decimal digit of `num / den`. -/
def leadingExponent (num den : Nat) : Int :=
  if den ≤ num then ((Nat.toDigits 10 (num / den)).length : Int) - 1
  else -((Nat.toDigits 10 ((den - 1) / num)).length : Int)

/-- The decimal on the grid of multiples of `10 ^ exponent` that is nearest to the double, if one
of the two around it rounds to the double. The interval is counted in quarters of the last binary
place, and its ends belong to it when the mantissa is even. -/
def Dyadic.onGrid (d : Dyadic) (exponent : Int) : Option Decimal :=
  let scale := d.power - 2
  let up := Nat.pow 2 scale.toNat * Nat.pow 10 (-exponent).toNat
  let down := Nat.pow 2 (-scale).toNat * Nat.pow 10 exponent.toNat
  let value := 4 * d.mantissa * up
  let least := (4 * d.mantissa - if d.narrow then 1 else 2) * up
  let greatest := (4 * d.mantissa + 2) * up
  let inside (n : Nat) : Bool :=
    if d.mantissa % 2 = 0 then least ≤ n * down && n * down ≤ greatest
    else least < n * down && n * down < greatest
  let below := value / down
  let above := below + 1
  let nearerAbove := above * down - value < value - below * down
  match inside below, inside above with
  | false, false => none
  | true, false => some ⟨below, exponent⟩
  | false, true => some ⟨above, exponent⟩
  | true, true =>
    if nearerAbove || (above * down - value == value - below * down && below % 2 == 1) then
      some ⟨above, exponent⟩
    else some ⟨below, exponent⟩

/-- No grid finer than 17 digits is ever needed. -/
def Dyadic.shortest (d : Dyadic) : Decimal :=
  let leading :=
    leadingExponent (d.mantissa * Nat.pow 2 d.power.toNat) (Nat.pow 2 (-d.power).toNat)
  ((List.range 18).findSome? fun n => d.onGrid (leading - Int.ofNat n)).getD ⟨d.mantissa, 0⟩

/-- How a number is laid out: what a whole number ends in, and between which exponents of the
leading digit no power of ten is written. -/
structure Layout where
  wholeTail : String
  least : Int
  greatest : Int

/-- Drops zeros at the end of the digits. -/
def stripZeros (digits : List Char) : List Char :=
  (digits.reverse.dropWhile (· == '0')).reverse

/-- `digits` has no zero at its end and `leading` is the exponent of its first digit. -/
def Layout.positional (layout : Layout) (digits : List Char) (leading : Int) : String :=
  if leading < 0 then
    "0." ++ String.ofList (List.replicate (-leading - 1).toNat '0' ++ digits)
  else
    let whole := leading.toNat + 1
    let head := digits.take whole ++ List.replicate (whole - digits.length) '0'
    let tail := digits.drop whole
    String.ofList head ++ if tail.isEmpty then layout.wholeTail else "." ++ String.ofList tail

def scientific (digits : List Char) (leading : Int) : String :=
  let tail := digits.drop 1
  let fraction := if tail.isEmpty then "" else "." ++ String.ofList tail
  String.ofList (digits.take 1) ++ fraction ++ "e" ++ leading.repr

def Layout.text (layout : Layout) (x : Float) : String :=
  let bits := x.toBits.toNat
  let sign := if bits / Nat.pow 2 63 = 1 then "-" else ""
  let magnitude := bits % Nat.pow 2 63
  if magnitude > 0x7FF0000000000000 then "NaN"
  else if magnitude = 0x7FF0000000000000 then sign ++ "inf"
  else if magnitude = 0 then sign ++ "0" ++ layout.wholeTail
  else
    let d := (Dyadic.ofBits magnitude).shortest
    let all := Nat.toDigits 10 d.digits
    let leading := d.exponent + all.length - 1
    let digits := stripZeros all
    sign ++
      if layout.least ≤ leading && leading ≤ layout.greatest then layout.positional digits leading
      else scientific digits leading

/-- Plain text: never a power of ten, and whole numbers without a point. -/
def Layout.plain : Layout := ⟨"", -400, 400⟩

/-- Numbers in documents: whole numbers keep a point, so that they read back as fractions. -/
def Layout.document : Layout := ⟨".0", -5, 15⟩

end QuorumKv.Text
