import QuorumKv.Document
import QuorumKv.Text.Digits
import QuorumKv.Text.Shortest

/-! JSON (RFC 8259). A number with a fraction or an exponent, one beyond 64 bits, and minus zero are
read as doubles; every other number is whole. Doubles are read quickly rather than exactly: digits
that do not fit 64 bits do not count, and the power of ten is applied to a double, so the result may
miss the nearest double by its last bits. -/
namespace QuorumKv.Document.Json

def isSpace (c : Char) : Bool :=
  c == ' ' || c == '\t' || c == '\n' || c == '\r'

def skip (cs : List Char) : List Char :=
  cs.dropWhile isSpace

def hex4? (a b c d : Char) : Option Nat :=
  Text.digits? 16 [a, b, c, d]

/-- The rest of a string behind its opening quote; `done` holds what was read, last first. -/
def string (done : List Char) : List Char → Option (String × List Char)
  | '"' :: rest => some (String.ofList done.reverse, rest)
  | '\\' :: 'u' :: a :: b :: c :: d :: rest =>
    match hex4? a b c d with
    | none => none
    | some unit =>
      if 0xD800 ≤ unit && unit < 0xDC00 then
        match rest with
        | '\\' :: 'u' :: e :: f :: g :: h :: rest =>
          match hex4? e f g h with
          | none => none
          | some low =>
            if 0xDC00 ≤ low && low < 0xE000 then
              let point := 0x10000 + (unit - 0xD800) * 0x400 + (low - 0xDC00)
              string (Char.ofNat point :: done) rest
            else none
        | _ => none
      else if 0xDC00 ≤ unit && unit < 0xE000 then none
      else string (Char.ofNat unit :: done) rest
  | '\\' :: c :: rest =>
    match c with
    | '"' | '\\' | '/' => string (c :: done) rest
    | 'b' => string ('\x08' :: done) rest
    | 'f' => string ('\x0c' :: done) rest
    | 'n' => string ('\n' :: done) rest
    | 'r' => string ('\r' :: done) rest
    | 't' => string ('\t' :: done) rest
    | _ => none
  | c :: rest => if c.toNat < 0x20 then none else string (c :: done) rest
  | [] => none

def isDigit (c : Char) : Bool :=
  '0' ≤ c && c ≤ '9'

/-- Takes digits behind those of `n` while the number fits 64 bits, and tells which are left. -/
def take (n : Nat) : List Char → Nat × List Char
  | [] => (n, [])
  | c :: cs =>
    let more := n * 10 + (c.toNat - '0'.toNat)
    if more < Text.bound64 then take more cs else (n, c :: cs)

/-- A power of ten as a double, for the powers that a double reaches. -/
def tenTo (power : Nat) : Float :=
  Float.ofScientific 1 false power

/-- A 64-bit number times a power of ten, unless that is too great. -/
def scaled? (n : Nat) (power : Int) : Option Float :=
  let x := Float.ofNat n
  if n = 0 then some x
  else if 308 < power then none
  else if 0 ≤ power then
    let y := x * tenTo power.natAbs
    if y.isInf then none else some y
  else if -308 ≤ power then some (x / tenTo power.natAbs)
  else if -616 ≤ power then some (x / tenTo 308 / tenTo (power.natAbs - 308))
  else some 0

def signed (negative : Bool) (x : Float) : Document :=
  .real (if negative then -x else x)

/-- A number with the digits `whole` before and `places` behind its point, times a power of ten.
Each digit before the point that does not count raises the power. -/
def decimal (negative : Bool) (whole places : List Char) (power : Int) : Option Document :=
  let (n, dropped) := take 0 whole
  let (n, unread) := take n places
  let shift : Int := dropped.length - (places.length - unread.length)
  (scaled? n (shift + power)).map (signed negative)

def integer (negative : Bool) (digits : List Char) : Option Document :=
  match take 0 digits with
  | (n, []) =>
    if !negative then some (.int n)
    else if 0 < n && n ≤ Text.bound63 then some (.int (-(n : Int)))
    else some (signed true (Float.ofNat n))
  | (_, _ :: _) => decimal negative digits [] 0

/-- An exponent: its sign, its digits and the rest, or nothing when there are no digits. -/
def exponent? (cs : List Char) : Option (Int × List Char) :=
  let (negative, cs) := match cs with
    | '-' :: cs => (true, cs)
    | '+' :: cs => (false, cs)
    | cs => (false, cs)
  match Text.digits? 10 (cs.takeWhile isDigit) with
  | some n => some (if negative then -(n : Int) else n, cs.dropWhile isDigit)
  | none => none

def number (cs : List Char) : Option (Document × List Char) := do
  let (negative, cs) := match cs with
    | '-' :: cs => (true, cs)
    | cs => (false, cs)
  let whole := cs.takeWhile isDigit
  let cs := cs.dropWhile isDigit
  guard (!whole.isEmpty && (whole.head? != some '0' || whole.length == 1))
  let (places, cs) ← match cs with
    | '.' :: cs =>
      let places := cs.takeWhile isDigit
      if places.isEmpty then none else some (some places, cs.dropWhile isDigit)
    | cs => some (none, cs)
  let (power, cs) ← match cs with
    | 'e' :: cs | 'E' :: cs => (exponent? cs).map fun (e, cs) => (some e, cs)
    | cs => some (none, cs)
  let d ← match places, power with
    | none, none => integer negative whole
    | places, power => decimal negative whole (places.getD []) (power.getD 0)
  return (d, cs)

mutual

/-- A value; `fuel` bounds how many values and separators are read. -/
def value : (fuel : Nat) → List Char → Option (Document × List Char)
  | 0, _ => none
  | fuel + 1, cs =>
    match skip cs with
    | '"' :: cs => (string [] cs).map fun (s, cs) => (.text s, cs)
    | '[' :: cs =>
      match skip cs with
      | ']' :: cs => some (.list [], cs)
      | cs => items fuel [] cs
    | '\x7b' :: cs =>
      match skip cs with
      | '\x7d' :: cs => some (.table [], cs)
      | cs => fields fuel [] cs
    | 't' :: 'r' :: 'u' :: 'e' :: cs => some (.bool true, cs)
    | 'f' :: 'a' :: 'l' :: 's' :: 'e' :: cs => some (.bool false, cs)
    | 'n' :: 'u' :: 'l' :: 'l' :: cs => some (.null, cs)
    | cs => number cs

def items : (fuel : Nat) → List Document → List Char → Option (Document × List Char)
  | 0, _, _ => none
  | fuel + 1, done, cs =>
    match value fuel cs with
    | none => none
    | some (d, cs) =>
      match skip cs with
      | ',' :: cs => items fuel (d :: done) cs
      | ']' :: cs => some (.list (d :: done).reverse, cs)
      | _ => none

def fields : (fuel : Nat) → List (String × Document) → List Char → Option (Document × List Char)
  | 0, _, _ => none
  | fuel + 1, done, cs =>
    match skip cs with
    | '"' :: cs =>
      match string [] cs with
      | none => none
      | some (name, cs) =>
        match skip cs with
        | ':' :: cs =>
          match value fuel cs with
          | none => none
          | some (d, cs) =>
            match skip cs with
            | ',' :: cs => fields fuel ((name, d) :: done) cs
            | '\x7d' :: cs => some (.table ((name, d) :: done).reverse, cs)
            | _ => none
        | _ => none
    | _ => none

end

/-- Reads a whole text as one value. -/
def parse? (text : String) : Option Document :=
  let cs := text.toList
  match value (2 * cs.length + 2) cs with
  | some (d, rest) => if (skip rest).isEmpty then some d else none
  | none => none

def escape (c : Char) : String :=
  if c == '"' then "\\\""
  else if c == '\\' then "\\\\"
  else if c == '\n' then "\\n"
  else if c == '\r' then "\\r"
  else if c == '\t' then "\\t"
  else if c.toNat < 0x20 then
    "\\u" ++ String.ofList (List.replicate (4 - (Nat.toDigits 16 c.toNat).length) '0' ++
      Nat.toDigits 16 c.toNat)
  else c.toString

def quote (s : String) : String :=
  "\"" ++ String.join (s.toList.map escape) ++ "\""

def real (x : Float) : String :=
  if x.isNaN || x.isInf then "null" else Text.Layout.document.text x

/-- The text of a document without blanks. A double that is no number is written as null. -/
def render : Document → String
  | .null => "null"
  | .bool b => if b then "true" else "false"
  | .int n => n.repr
  | .real x => real x
  | .text s => quote s
  | .list items => "[" ++ ",".intercalate (items.attach.map fun ⟨d, _⟩ => render d) ++ "]"
  | .table fields =>
    "\x7b" ++ ",".intercalate (fields.attach.map fun ⟨(name, d), _⟩ =>
      quote name ++ ":" ++ render d) ++ "\x7d"
termination_by d => sizeOf d
decreasing_by
  · rename_i h
    have := List.sizeOf_lt_of_mem h
    simp_all only [list.sizeOf_spec]
    omega
  · rename_i h
    have := List.sizeOf_lt_of_mem h
    simp_all only [table.sizeOf_spec, Prod.mk.sizeOf_spec]
    omega

end QuorumKv.Document.Json
