import QuorumKv.Failure
import QuorumKv.Text.Blank
import QuorumKv.Text.Percent
import QuorumKv.Hash.Blake3

/-! Keys: which are accepted, how one stands in a URL, which bucket it belongs to, and when a
requested key asks for a record's metadata instead of its value. -/
namespace QuorumKv.Key

/-- Every character that a key must not hold. U+FFFD is among them because it stands for bytes that
were not UTF-8, so that no two keys on the wire are taken for one. -/
def isForbidden (c : Char) : Bool :=
  Text.isControl c || Text.isBlank c || c == Text.Utf8.replacement

def validate (maxLength : Nat) (key : String) : Except Failure Unit :=
  if key.isEmpty then throw (.badKey "key cannot be empty")
  else if maxLength < key.utf8ByteSize then
    throw (.badKey s!"key too long (max {maxLength} bytes)")
  else if key.toList.any isForbidden then throw (.badKey "key contains invalid characters")
  else pure ()

/-- What a path segment cannot show as it is. -/
def isSpecial (b : UInt8) : Bool :=
  b < 0x20 || b == 0x7F || "/% ?#&".toList.any fun c => b.toNat == c.toNat

def urlSegment (key : String) : String :=
  Text.Percent.encode isSpecial key

def bucket (buckets : Nat) (key : String) : Nat :=
  Bytes.littleEndian ((Hash.Blake3.digest (Text.Utf8.encode key)).take 8) % max buckets 1

/-- The plain key of a query `?key` or `??key`. A key of less than two bytes is never a query. -/
def metaQuery? (key : String) : Option String :=
  match key.toList with
  | ['?', '?'] => some "?"
  | '?' :: '?' :: rest => some (String.ofList rest)
  | '?' :: c :: rest => some (String.ofList (c :: rest))
  | _ => none

/-- The metadata query for a key. -/
def metaQueryFor (key : String) : String :=
  "?" ++ key

/-- The keys of each bucket in the order given, by ascending bucket. -/
def byBucket (buckets : Nat) (keys : List String) : List (Nat × List String) :=
  let tagged := keys.map fun key => (bucket buckets key, key)
  let used := (tagged.map (·.1)).mergeSort (· ≤ ·) |>.eraseReps
  used.map fun b => (b, (tagged.filter fun (c, _) => c = b).map (·.2))

end QuorumKv.Key
