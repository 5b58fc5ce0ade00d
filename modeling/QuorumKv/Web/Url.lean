import QuorumKv.Text.Blank
import QuorumKv.Text.Percent
import QuorumKv.Web.Authority
import QuorumKv.Web.Target

/-! `http` URLs as the URL standard reads them. In a path a backslash counts as a slash, dot
segments are resolved, and what a path may not hold is percent-encoded. A URL with a malformed
host or port cannot be asked for, nor one that is too long. -/
namespace QuorumKv.Web.Url

/-- Ends of a URL that do not count. -/
def isMargin (c : Char) : Bool := c.toNat ≤ 0x20

/-- What is dropped wherever it stands. -/
def isLineBreak (c : Char) : Bool := c == '\t' || c == '\n' || c == '\r'

/-- The URL without what does not count. -/
def strip (url : String) : List Char :=
  (Text.trimList isMargin url.toList).filter fun c => !isLineBreak c

def endsAuthority (c : Char) : Bool := "/\\?#".toList.contains c

/-- What follows the scheme and its slashes. -/
def afterScheme (url : String) : List Char :=
  ((cutAt ':' (strip url)).2.getD []).dropWhile fun c => c == '/' || c == '\\'

def authority (url : String) : Authority :=
  .ofChars ((afterScheme url).takeWhile fun c => !endsAuthority c)

/-- What follows the host: up to the fragment, and the fragment if any. -/
def pathAndFragment (url : String) : List Char × Option (List Char) :=
  cutAt '#' ((afterScheme url).dropWhile fun c => !endsAuthority c)

/-- What follows the host, up to the fragment: the path, and the query if any. -/
def pathAndQuery (url : String) : List Char × Option (List Char) :=
  cutAt '?' (pathAndFragment url).1

def segmentsOf (path : List Char) : List (List Char) :=
  match Text.splitAtEach '/' (path.map fun c => if c == '\\' then '/' else c) with
  | [] :: segments => segments
  | segments => segments

/-- A segment that stands for its own directory; the dot may be escaped. -/
def isDot (segment : List Char) : Bool :=
  let s := lower segment
  s == ".".toList || s == "%2e".toList
where
  lower (cs : List Char) : List Char := cs.map Char.toLower

/-- A segment that stands for the directory above. -/
def isDotDot (segment : List Char) : Bool :=
  let s := isDot.lower segment
  s == "..".toList || s == ".%2e".toList || s == "%2e.".toList || s == "%2e%2e".toList

/-- What a path may not hold as it is, of ASCII. -/
def isSpecial (b : UInt8) : Bool :=
  b ≤ 0x20 || b == 0x7F || "\"#<>?`\x7b\x7d".toList.any fun c => b.toNat == c.toNat

/-- Resolves the segments behind those already done. A dot segment at the end leaves a path that
ends in a slash. -/
def resolve (done : List String) : List (List Char) → List String
  | [] => done
  | segment :: rest =>
    let ending := if rest.isEmpty then [""] else []
    if isDotDot segment then resolve (done.dropLast ++ ending) rest
    else if isDot segment then resolve (done ++ ending) rest
    else resolve (done ++ [Text.Percent.encode isSpecial (String.ofList segment)]) rest

/-- What a query may not hold as it is, of ASCII. -/
def isQuerySpecial (b : UInt8) : Bool :=
  b ≤ 0x20 || b == 0x7F || "\"#<>'".toList.any fun c => b.toNat == c.toNat

/-- The segments of the path that is asked for. -/
def segments (url : String) : List String :=
  resolve [] (segmentsOf (pathAndQuery url).1)

/-- What a request for the URL names: its path, and its query if any. -/
def target (url : String) : String :=
  let path := "/" ++ "/".intercalate (segments url)
  match (pathAndQuery url).2 with
  | some query => path ++ "?" ++ Text.Percent.encode isQuerySpecial (String.ofList query)
  | none => path

/-- What a fragment may not hold as it is, of ASCII. -/
def isFragmentSpecial (b : UInt8) : Bool :=
  b ≤ 0x20 || b == 0x7F || "\"<>`".toList.any fun c => b.toNat == c.toNat

/-- The URL in full, as it was read. -/
def text (url : String) : String :=
  "http://" ++ (authority url).text ++ target url ++
    match (pathAndFragment url).2 with
    | some fragment =>
      "#" ++ Text.Percent.encode isFragmentSpecial (String.ofList fragment)
    | none => ""

/-- The most bytes that a URL in full may have. -/
def maxLength : Nat := 65534

/-- Whether a request can be made for the URL. -/
def isUsable (url : String) : Bool :=
  (authority url).isValid && (text url).utf8ByteSize ≤ maxLength

end QuorumKv.Web.Url
