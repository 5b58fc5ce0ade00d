import QuorumKv.Text.Utf8
import QuorumKv.Text.Digits

/-! Percent escapes: a byte as `%` and two hexadecimal digits. Writing picks the bytes to escape;
reading leaves alone a `%` that no two digits follow. -/
namespace QuorumKv.Text.Percent

def upperDigit (n : Nat) : UInt8 :=
  UInt8.ofNat (if n < 10 then 48 + n else 55 + n)

def escapeByte (b : UInt8) : Bytes :=
  [37, upperDigit (b.toNat / 16), upperDigit (b.toNat % 16)]

/-- Every byte outside ASCII is escaped, and of ASCII those that `special` names. -/
def encodeBytes (special : UInt8 → Bool) (bytes : Bytes) : Bytes :=
  bytes.flatMap fun b => if 0x80 ≤ b || special b then escapeByte b else [b]

/-- Text for text: what is left unescaped is ASCII. -/
def encode (special : UInt8 → Bool) (text : String) : String :=
  String.ofList ((encodeBytes special (Utf8.encode text)).map fun b => Char.ofNat b.toNat)

def hexByte? (b : UInt8) : Option Nat :=
  if b < 0x80 then digit? 16 (Char.ofNat b.toNat) else none

def decodeBytes : Bytes → Bytes
  | 37 :: a :: b :: rest =>
    match hexByte? a, hexByte? b with
    | some high, some low => UInt8.ofNat (high * 16 + low) :: decodeBytes rest
    | _, _ => 37 :: decodeBytes (a :: b :: rest)
  | b :: rest => b :: decodeBytes rest
  | [] => []

end QuorumKv.Text.Percent
