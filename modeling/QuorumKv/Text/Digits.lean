/-! Reading whole numbers: an optional sign, then digits only, within the bounds of the type that
the number is meant for. -/
namespace QuorumKv.Text

/-- The value of a digit in a base up to 16, in either case. -/
def digit? (base : Nat) (c : Char) : Option Nat :=
  let n := c.toNat
  let value :=
    if 48 ≤ n && n ≤ 57 then n - 48
    else if 97 ≤ n && n ≤ 102 then n - 87
    else if 65 ≤ n && n ≤ 70 then n - 55
    else base
  if value < base then some value else none

/-- A non-empty run of digits. -/
def digits? (base : Nat) : List Char → Option Nat
  | [] => none
  | c :: cs => (c :: cs).foldlM (fun n c => (digit? base c).map (n * base + ·)) 0

/-- A number from 0 up to but not including `bound`; a plus sign may stand in front. -/
def unsigned? (base bound : Nat) (cs : List Char) : Option Nat :=
  let digits := match cs with
    | '+' :: cs => cs
    | cs => cs
  match digits? base digits with
  | some n => if n < bound then some n else none
  | none => none

/-- A number from `-bound` up to but not including `bound`; either sign may stand in front. -/
def signed? (bound : Nat) (cs : List Char) : Option Int :=
  match cs with
  | '-' :: cs =>
    match digits? 10 cs with
    | some n => if n ≤ bound then some (-(n : Int)) else none
    | none => none
  | cs => (unsigned? 10 bound cs).map Int.ofNat

/-! The first number beyond 16, 32, 63 and 64 bits. -/

def bound16 : Nat := 65536

def bound32 : Nat := 4294967296

def bound63 : Nat := 9223372036854775808

def bound64 : Nat := 18446744073709551616

def uint32? (text : String) : Option UInt32 :=
  (unsigned? 10 bound32 text.toList).map UInt32.ofNat

def uint64? (text : String) : Option Nat :=
  unsigned? 10 bound64 text.toList

def int64? (text : String) : Option Int :=
  signed? bound63 text.toList

end QuorumKv.Text
