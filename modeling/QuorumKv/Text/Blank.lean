/-! Blanks and control characters as Unicode classes them, and cutting text at blanks, at single
characters and into lines. -/
namespace QuorumKv.Text

/-- The characters with the property White_Space. -/
def isBlank (c : Char) : Bool :=
  let n := c.toNat
  (9 ≤ n && n ≤ 13) || n == 0x20 || n == 0x85 || n == 0xA0 || n == 0x1680 ||
    (0x2000 ≤ n && n ≤ 0x200A) || n == 0x2028 || n == 0x2029 || n == 0x202F || n == 0x205F ||
    n == 0x3000

/-- The general category Cc. -/
def isControl (c : Char) : Bool :=
  c.toNat < 0x20 || (0x7F ≤ c.toNat && c.toNat < 0xA0)

private theorem length_dropWhile_le (p : Char → Bool) (cs : List Char) :
    (cs.dropWhile p).length ≤ cs.length :=
  (List.dropWhile_suffix p).length_le

/-- The maximal runs of characters that are not blank. -/
def words : List Char → List (List Char)
  | [] => []
  | c :: cs =>
    if isBlank c then words cs
    else (c :: cs.takeWhile (!isBlank ·)) :: words (cs.dropWhile (!isBlank ·))
termination_by cs => cs.length
decreasing_by
  · simp
  · exact Nat.lt_succ_of_le (length_dropWhile_le ..)

/-- The words of a text. -/
def splitWords (text : String) : List String :=
  (words text.toList).map String.ofList

def trimList (p : Char → Bool) (cs : List Char) : List Char :=
  ((cs.dropWhile p).reverse.dropWhile p).reverse

/-- The text without the blanks at its two ends. -/
def trim (text : String) : String :=
  String.ofList (trimList isBlank text.toList)

/-- The parts between single occurrences of `sep`; always one more than there are occurrences. -/
def splitAtEach (sep : Char) : List Char → List (List Char)
  | [] => [[]]
  | c :: cs =>
    match splitAtEach sep cs with
    | [] => [[]]
    | part :: parts => if c == sep then [] :: part :: parts else (c :: part) :: parts

/-- A line without the carriage return at its end. -/
def dropReturn (line : List Char) : List Char :=
  if line.getLast? = some '\r' then line.dropLast else line

/-- The lines of a text. Each ends at a line feed, which a carriage return may precede; what follows
the last line feed is a line of its own unless it is empty. -/
def lines (text : String) : List String :=
  let parts := splitAtEach '\n' text.toList
  let last := (parts.getLast?.filter fun part => !part.isEmpty).toList
  (parts.dropLast.map dropReturn ++ last).map String.ofList

/-- Each of the lines with a line feed at its end. -/
def unlines (lines : List String) : String :=
  String.join (lines.map fun line => line ++ "\n")

end QuorumKv.Text
