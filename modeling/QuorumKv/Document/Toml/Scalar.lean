import QuorumKv.Document
import QuorumKv.Text.Digits
import QuorumKv.Text.Decimal
import QuorumKv.Text.Real

/-! The values of TOML that hold no other values: texts, numbers, truth values, dates and times.
Each reader takes what it needs from the front and leaves the rest. -/
namespace QuorumKv.Document.Toml

def isSpace (c : Char) : Bool :=
  c == ' ' || c == '\t'

def skipSpace (cs : List Char) : List Char :=
  cs.dropWhile isSpace

/-- Controls other than the tab stand neither in texts nor in comments. -/
def isPlain (c : Char) : Bool :=
  c == '\t' || (0x20 ≤ c.toNat && c.toNat != 0x7F)

/-- The character of a code point that is no surrogate. -/
def scalar? (digits : List Char) : Option Char :=
  match Text.digits? 16 digits with
  | some n => if n < 0xD800 || (0xE000 ≤ n && n < 0x110000) then some (Char.ofNat n) else none
  | none => none

/-- An escape behind its backslash. -/
def escape? : List Char → Option (Char × List Char)
  | 'b' :: cs => some ('\x08', cs)
  | 't' :: cs => some ('\t', cs)
  | 'n' :: cs => some ('\n', cs)
  | 'f' :: cs => some ('\x0c', cs)
  | 'r' :: cs => some ('\r', cs)
  | 'e' :: cs => some ('\x1b', cs)
  | '"' :: cs => some ('"', cs)
  | '\\' :: cs => some ('\\', cs)
  | 'x' :: cs => hex 2 cs
  | 'u' :: cs => hex 4 cs
  | 'U' :: cs => hex 8 cs
  | _ => none
where
  hex (n : Nat) (cs : List Char) : Option (Char × List Char) :=
    if cs.length < n then none else (scalar? (cs.take n)).map fun c => (c, cs.drop n)

/-- The rest of a text in double quotes. -/
def basic : (fuel : Nat) → List Char → List Char → Option (String × List Char)
  | 0, _, _ => none
  | fuel + 1, done, cs =>
    match cs with
    | '"' :: cs => some (String.ofList done.reverse, cs)
    | '\\' :: cs =>
      match escape? cs with
      | some (c, cs) => basic fuel (c :: done) cs
      | none => none
    | c :: cs => if isPlain c then basic fuel (c :: done) cs else none
    | [] => none

/-- The rest of a text in single quotes, which knows no escapes. -/
def literal (done : List Char) : List Char → Option (String × List Char)
  | '\'' :: cs => some (String.ofList done.reverse, cs)
  | c :: cs => if isPlain c then literal (c :: done) cs else none
  | [] => none

/-- A line end, which may have a carriage return. -/
def newline? : List Char → Option (List Char)
  | '\n' :: cs => some cs
  | '\r' :: '\n' :: cs => some cs
  | _ => none

/-- Skips blanks and line ends. -/
def skipBreaks : List Char → List Char
  | '\n' :: cs => skipBreaks cs
  | '\r' :: '\n' :: cs => skipBreaks cs
  | c :: cs => if isSpace c then skipBreaks cs else c :: cs
  | [] => []

/-- The rest of a text that may span lines, whose line ends stay as they are. The closing three
quotes may have up to two more in front of them, which belong to the text. A backslash at a line's
end joins the next text to it. -/
def multiline (escapes : Bool) (q : Char) :
    (fuel : Nat) → List Char → List Char → Option (String × List Char)
  | 0, _, _ => none
  | fuel + 1, done, cs =>
    match cs with
    | [] => none
    | '\n' :: rest => multiline escapes q fuel ('\n' :: done) rest
    | '\r' :: '\n' :: rest => multiline escapes q fuel ('\n' :: '\r' :: done) rest
    | c :: rest =>
      if c == q then
        let quotes := cs.takeWhile (· == q)
        if 3 ≤ quotes.length then
          let extra := min (quotes.length - 3) 2
          some (String.ofList (List.replicate extra q ++ done).reverse, cs.drop (extra + 3))
        else multiline escapes q fuel (c :: done) rest
      else if c == '\\' && escapes then
        match newline? (skipSpace rest) with
        | some after => multiline escapes q fuel done (skipBreaks after)
        | none =>
          match escape? rest with
          | some (c, rest) => multiline escapes q fuel (c :: done) rest
          | none => none
      else if isPlain c then multiline escapes q fuel (c :: done) rest
      else none

/-- A line end right behind the opening quotes is not part of the text. -/
def dropNewline (cs : List Char) : List Char :=
  (newline? cs).getD cs

/-- A text in any of the four notations. -/
def text? (cs : List Char) : Option (String × List Char) :=
  match cs with
  | '"' :: '"' :: '"' :: cs => multiline true '"' (cs.length + 1) [] (dropNewline cs)
  | '\'' :: '\'' :: '\'' :: cs => multiline false '\'' (cs.length + 1) [] (dropNewline cs)
  | '"' :: cs => basic (cs.length + 1) [] cs
  | '\'' :: cs => literal [] cs
  | _ => none

/-- Digits of a base with single underscores between them. -/
def grouped? (base : Nat) (cs : List Char) : Option (List Char) :=
  let rec go : List Char → Option (List Char)
    | [] => some []
    | '_' :: c :: cs => if (Text.digit? base c).isSome then (go cs).map (c :: ·) else none
    | c :: cs => if (Text.digit? base c).isSome then (go cs).map (c :: ·) else none
  match cs with
  | [] => none
  | '_' :: _ => none
  | cs => go cs

def splitSign : List Char → Bool × List Char
  | '-' :: cs => (true, cs)
  | '+' :: cs => (false, cs)
  | cs => (false, cs)

def signedWithin (negative : Bool) (n : Nat) : Option Document :=
  if negative then if n ≤ Text.bound63 then some (.int (-(n : Int))) else none
  else if n < Text.bound63 then some (.int n) else none

/-- No digit may follow a leading zero. -/
def wholeDigits? (cs : List Char) : Option (List Char) :=
  match grouped? 10 cs with
  | some ('0' :: _ :: _) => none
  | other => other

def integer? (word : List Char) : Option Document :=
  match word with
  | '0' :: 'x' :: cs => (grouped? 16 cs).bind (Text.digits? 16) >>= signedWithin false
  | '0' :: 'o' :: cs => (grouped? 8 cs).bind (Text.digits? 8) >>= signedWithin false
  | '0' :: 'b' :: cs => (grouped? 2 cs).bind (Text.digits? 2) >>= signedWithin false
  | word =>
    let (negative, cs) := splitSign word
    (wholeDigits? cs).bind (Text.digits? 10) >>= signedWithin negative

def isExponentMark (c : Char) : Bool :=
  c == 'e' || c == 'E'

/-- A number too great for a double is refused; `inf` is not. -/
def real? (word : List Char) : Option Document := do
  let (negative, cs) := splitSign word
  let sign (x : Float) : Document := .real (if negative then -x else x)
  if cs = ['i', 'n', 'f'] then return sign (1.0 / 0.0)
  if cs = ['n', 'a', 'n'] then return sign (0.0 / 0.0)
  guard (cs.any fun c => c == '.' || isExponentMark c)
  let mantissa := cs.takeWhile (!isExponentMark ·)
  let power ← match cs.dropWhile (!isExponentMark ·) with
    | [] => some 0
    | _ :: cs =>
      let (down, cs) := splitSign cs
      (grouped? 10 cs).bind (Text.digits? 10) |>.map fun n => if down then -(n : Int) else n
  let whole ← wholeDigits? (mantissa.takeWhile (· != '.'))
  let places ← match mantissa.dropWhile (· != '.') with
    | [] => some []
    | _ :: cs => grouped? 10 cs
  let digits ← Text.digits? 10 (whole ++ places)
  let x := Text.scaled digits (places.length - power)
  guard (!x.isInf)
  return sign x

/-- A number of exactly so many digits within bounds, and what follows. -/
def fixedDigits? (n least greatest : Nat) (cs : List Char) : Option (Nat × List Char) :=
  if cs.length < n then none
  else
    match Text.digits? 10 (cs.take n) with
    | some v => if least ≤ v && v ≤ greatest then some (v, cs.drop n) else none
    | none => none

def daysIn (year month : Nat) : Nat :=
  if month = 2 then
    if year % 4 = 0 && (year % 100 != 0 || year % 400 = 0) then 29 else 28
  else if month = 4 || month = 6 || month = 9 || month = 11 then 30
  else 31

def two (n : Nat) : String := Text.padLeft 2 '0' n.repr

def date? (cs : List Char) : Option (String × List Char) := do
  let (year, cs) ← fixedDigits? 4 0 9999 cs
  let ('-' :: cs) := cs | none
  let (month, cs) ← fixedDigits? 2 1 12 cs
  let ('-' :: cs) := cs | none
  let (day, cs) ← fixedDigits? 2 1 (daysIn year month) cs
  let shown := Text.padLeft 4 '0' year.repr
  return (s!"{shown}-{two month}-{two day}", cs)

/-- A fraction of a second to nine places without the zeros at its end; one place always stays. -/
def fraction (places : List Char) : String :=
  let kept := ((places.take 9).reverse.dropWhile (· == '0')).reverse
  if kept.isEmpty then "0" else String.ofList kept

/-- The seconds, which a time need not have, with the colon in front of them. -/
def seconds? : List Char → Option (String × List Char)
  | ':' :: cs => do
    let (second, cs) ← fixedDigits? 2 0 60 cs
    match cs with
    | '.' :: cs =>
      let places := cs.takeWhile Char.isDigit
      guard (!places.isEmpty)
      return (s!":{two second}.{fraction places}", cs.dropWhile Char.isDigit)
    | cs => return (s!":{two second}", cs)
  | cs => some ("", cs)

def time? (cs : List Char) : Option (String × List Char) := do
  let (hour, cs) ← fixedDigits? 2 0 23 cs
  let (':' :: cs) := cs | none
  let (minute, cs) ← fixedDigits? 2 0 59 cs
  let (seconds, cs) ← seconds? cs
  return (s!"{two hour}:{two minute}{seconds}", cs)

/-- The distance from universal time. No distance at all has a plus sign. -/
def offset? : List Char → Option String
  | [] => some ""
  | ['Z'] | ['z'] => some "Z"
  | c :: cs => do
    guard (c == '+' || c == '-')
    let (hour, cs) ← fixedDigits? 2 0 23 cs
    let (':' :: cs) := cs | none
    let (minute, []) ← fixedDigits? 2 0 59 cs | none
    let sign := if hour = 0 && minute = 0 then '+' else c
    return s!"{sign}{two hour}:{two minute}"

/-- A date, a time, or both, as the text that says it. -/
def moment? (word : List Char) : Option Document :=
  match date? word with
  | some (date, []) => some (.text date)
  | some (date, c :: cs) =>
    if c == 'T' || c == 't' || c == ' ' then do
      let (time, cs) ← time? cs
      let offset ← offset? cs
      return .text (date ++ "T" ++ time ++ offset)
    else none
  | none =>
    match time? word with
    | some (time, []) => some (.text time)
    | _ => none

/-- A word ends before a blank, a separator or a comment. -/
def endsWord (c : Char) : Bool :=
  isSpace c || c == ',' || c == ']' || c == '\x7d' || c == '#' || c == '\n' || c == '\r'

/-- A date may be followed by one blank and a time. -/
def takeWord (cs : List Char) : List Char × List Char :=
  let word := cs.takeWhile (!endsWord ·)
  let rest := cs.dropWhile (!endsWord ·)
  match date? word, rest with
  | some (_, []), ' ' :: c :: more =>
    if c.isDigit then
      (word ++ ' ' :: (c :: more).takeWhile (!endsWord ·), (c :: more).dropWhile (!endsWord ·))
    else (word, rest)
  | _, _ => (word, rest)

def word? (word : List Char) : Option Document :=
  if word = ['t', 'r', 'u', 'e'] then some (.bool true)
  else if word = ['f', 'a', 'l', 's', 'e'] then some (.bool false)
  else (integer? word).or ((moment? word).or (real? word))

end QuorumKv.Document.Toml
