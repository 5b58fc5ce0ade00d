import QuorumKv.Text.Decimal

/-! Byte counts for people: two decimal places and the largest unit up to petabytes that leaves at
least one. -/
namespace QuorumKv.Text

def sizeUnits : List String := ["KB", "MB", "GB", "TB", "PB"]

/-- Divides by 1024 as long as that leaves at least one and a larger unit is there. `n` over
`scale` is what is shown in `unit`. -/
def scaleSize (n scale : Nat) (unit : String) : List String → Nat × String
  | [] => (scale, unit)
  | larger :: rest =>
    if scale * 1024 ≤ n then scaleSize n (scale * 1024) larger rest else (scale, unit)

/-- The count is first rounded to a double. -/
def humanSize (bytes : Nat) : String :=
  let n := roundBits 53 bytes
  let (scale, unit) := scaleSize n 1 "B" sizeUnits
  fixed 2 n scale ++ " " ++ unit

end QuorumKv.Text
