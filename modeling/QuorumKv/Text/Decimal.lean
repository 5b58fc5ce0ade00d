/-! Decimal text of fractions. `roundEven` is division to the nearest whole number, a half going to
the even neighbour; `fixed` writes a fraction with a fixed number of places. -/
namespace QuorumKv.Text

def roundEven (num den : Nat) : Nat :=
  let q := num / den
  let r := num % den
  if 2 * r < den then q
  else if den < 2 * r then q + 1
  else if q % 2 = 0 then q else q + 1

def padLeft (width : Nat) (c : Char) (text : String) : String :=
  String.ofList (List.replicate (width - text.length) c) ++ text

/-- `n` over `10 ^ places`, all places written. -/
def withPlaces (places n : Nat) : String :=
  let scale := Nat.pow 10 places
  if places = 0 then n.repr
  else (n / scale).repr ++ "." ++ padLeft places '0' (n % scale).repr

def fixed (places num den : Nat) : String :=
  withPlaces places (roundEven (num * Nat.pow 10 places) den)

/-- The nearest number that has at most `bits` significant binary digits. -/
def roundBits (bits n : Nat) : Nat :=
  let excess := n.log2 + 1 - bits
  roundEven n (Nat.pow 2 excess) * Nat.pow 2 excess

end QuorumKv.Text
