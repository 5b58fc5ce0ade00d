import QuorumKv.Text.Blank
import QuorumKv.Text.Percent
import QuorumKv.Web.Target

/-! The authority of an `http` URL as the URL standard reads it: the host, which is a name, an
address of four numbers or a bracketed address of eight groups, and the port. What stands before the
last `@` says who asks and does not count. -/
namespace QuorumKv.Web

namespace Host

/-- What a host name may not hold: some of ASCII, and what stands for bytes that make no text. -/
def isForbidden (c : Char) : Bool :=
  c.toNat ≤ 0x20 || c.toNat == 0x7F || c == Text.Utf8.replacement ||
    "\"#%/:<>?@[\\]^`\x7b|\x7d".toList.contains c

/-- One of the numbers of an address: hexadecimal behind `0x`, octal behind another `0`. -/
def number? (cs : List Char) : Option Nat :=
  match cs with
  | '0' :: 'x' :: rest | '0' :: 'X' :: rest => if rest.isEmpty then some 0 else Text.digits? 16 rest
  | '0' :: c :: rest => Text.digits? 8 (c :: rest)
  | cs => Text.digits? 10 cs

/-- The labels of a name. A dot at its end does not begin one. -/
def labels (name : List Char) : List (List Char) :=
  let parts := Text.splitAtEach '.' name
  if 1 < parts.length && parts.getLast? = some [] then parts.dropLast else parts

/-- Whether a name has to be an address because of its last label. -/
def endsInNumber (name : List Char) : Bool :=
  match (labels name).getLast? with
  | some label => (number? label).isSome || (Text.digits? 10 label).isSome
  | none => false

/-- At most four numbers. Each is a byte but for the last, which fills the bytes that are left. -/
def isAddress (name : List Char) : Bool :=
  match (labels name).mapM number? with
  | some numbers =>
    let last := numbers.getLastD 0
    numbers.length ≤ 4 && (numbers.dropLast.all fun n => n < 256) &&
      last < Nat.pow 256 (5 - numbers.length)
  | none => false

/-- Four decimal bytes without zeros in front. -/
def isPlainAddress (cs : List Char) : Bool :=
  let parts := Text.splitAtEach '.' cs
  parts.length == 4 && parts.all fun part =>
    (part.length == 1 || part.head? != some '0') && (Text.digits? 10 part).any (· < 256)

/-- How many groups a part of a bracketed address makes; its last may be an address of four
numbers, which makes two. -/
def groups? (isLast : Bool) (cs : List Char) : Option Nat :=
  if cs.isEmpty then some 0
  else
    let parts := Text.splitAtEach ':' cs
    let isGroup (part : List Char) : Bool := part.length ≤ 4 && (Text.digits? 16 part).isSome
    if parts.all isGroup then some parts.length
    else if isLast && parts.dropLast.all isGroup && isPlainAddress (parts.getLastD []) then
      some (parts.length + 1)
    else none

/-- The two sides of the first double colon. -/
def cutAtGap : List Char → Option (List Char × List Char)
  | ':' :: ':' :: cs => some ([], cs)
  | c :: cs => (cutAtGap cs).map fun (left, right) => (c :: left, right)
  | [] => none

/-- Eight groups, or fewer with a gap. -/
def isBracketed (cs : List Char) : Bool :=
  match cutAtGap cs with
  | none => groups? true cs == some 8
  | some (left, right) =>
    match groups? false left, groups? true right with
    | some m, some n => m + n < 8
    | _, _ => false

/-- A name after its escapes are read. -/
def isName (cs : List Char) : Bool :=
  let name := (Text.Utf8.decodeLossy
    (Text.Percent.decodeBytes (Text.Utf8.encode (String.ofList cs)))).toList
  !name.isEmpty && !name.any isForbidden && (!endsInNumber name || isAddress name)

def isValid : List Char → Bool
  | '[' :: cs => cs.getLast? = some ']' && isBracketed cs.dropLast
  | cs => isName cs

end Host

structure Authority where
  host : List Char
  /-- What follows the colon. -/
  port : Option (List Char)

namespace Authority

/-- What follows the last `@`. -/
def afterUser (cs : List Char) : List Char :=
  (cs.reverse.takeWhile (· != '@')).reverse

/-- The host ends at the first colon that is not in brackets. -/
def ofChars (cs : List Char) : Authority :=
  match afterUser cs with
  | '[' :: cs =>
    let (groups, rest) := cutAt ']' cs
    let (more, port) := cutAt ':' (rest.getD [])
    ⟨'[' :: groups ++ (if rest.isSome then ']' :: more else []), port⟩
  | cs =>
    let (host, port) := cutAt ':' cs
    ⟨host, port⟩

/-- A port that is left out, or a number of 16 bits. -/
def isPort : Option (List Char) → Bool
  | none | some [] => true
  | some port => (Text.digits? 10 port).any (· < Text.bound16)

def isValid (a : Authority) : Bool :=
  Host.isValid a.host && isPort a.port

/-- The authority as it is sent: the port of web servers goes without saying. -/
def text (a : Authority) : String :=
  String.ofList a.host ++
    match a.port with
    | none | some [] => ""
    | some port => if Text.digits? 10 port = some 80 then "" else ":" ++ String.ofList port

end Authority

end QuorumKv.Web
