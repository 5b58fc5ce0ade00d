import QuorumKv.Document.Toml.Scalar

/-! TOML. A document is a list of lines: headers, which open tables, and entries, which put a value
into the open table. A table may be opened once; a dotted key opens tables on its way, and an array
of tables grows by one with each of its headers. -/
namespace QuorumKv.Document.Toml

/-- Arrays and inline tables stand in one another at most this deep, and a key has at most so many
parts. -/
def deepest : Nat := 80

/-- One part of a key, bare or quoted on one line. -/
def keyPart? (cs : List Char) : Option (String × List Char) :=
  match cs with
  | '"' :: cs => basic (cs.length + 1) [] cs
  | '\'' :: cs => literal [] cs
  | cs => bareName? cs

/-- The parts of a dotted key, of which there are at most so many. -/
def parts? : (most : Nat) → List Char → Option (List String × List Char)
  | 0, _ => none
  | most + 1, cs =>
    match keyPart? (skipSpace cs) with
    | none => none
    | some (name, cs) =>
      match skipSpace cs with
      | '.' :: cs => (parts? most cs).map fun (names, cs) => (name :: names, cs)
      | cs => some ([name], cs)

def key? (cs : List Char) : Option (List String × List Char) :=
  parts? deepest cs

/-- Skips a comment up to its line end, which stays. -/
def comment? (cs : List Char) : Option (List Char) :=
  match cs with
  | '#' :: cs =>
    let rest := cs.dropWhile isPlain
    match rest with
    | [] => some []
    | _ => if (newline? rest).isSome then some rest else none
  | cs => some cs

/-- Skips blanks, comments and line ends. -/
def skipLines : (fuel : Nat) → List Char → Option (List Char)
  | 0, cs => some cs
  | fuel + 1, cs =>
    match comment? (skipSpace cs) with
    | none => none
    | some cs =>
      match newline? cs with
      | some cs => skipLines fuel cs
      | none => some cs

/-- How a table came to be, which decides what may still be added to it. -/
inductive Origin where
  /-- On the way to a table that a header opened. -/
  | passed
  | header
  | dotted
  deriving DecidableEq

/-- A table under construction, or something that is finished. -/
inductive Node where
  | value (d : Document)
  | table (origin : Origin) (entries : List (String × Node))
  | tables (elements : List (List (String × Node)))
  deriving Inhabited

abbrev Entries := List (String × Node)

def Entries.get? (es : Entries) (name : String) : Option Node :=
  (es.find? fun (k, _) => k == name).map (·.2)

def Entries.put (es : Entries) (name : String) (node : Node) : Entries :=
  if es.any fun (k, _) => k == name then
    es.map fun (k, old) => if k == name then (k, node) else (k, old)
  else es ++ [(name, node)]

/-- Puts a value under a dotted key. The key may lead through the last element of an array of tables
to a table in it, but puts no value into the element itself. A table that it leads through belongs
to dotted keys from then on. -/
def insert (d : Document) : List String → Entries → Option Entries
  | [], _ => none
  | [name], es => if (es.get? name).isSome then none else some (es.put name (.value d))
  | name :: names, es =>
    match es.get? name with
    | none => (insert d names []).map fun sub => es.put name (.table .dotted sub)
    | some (.table .header _) => none
    | some (.table _ sub) => (insert d names sub).map fun sub => es.put name (.table .dotted sub)
    | some (.tables elements) =>
      match elements.reverse with
      | [] => none
      | last :: before =>
        if names.length < 2 then none
        else
          (insert d names last).map fun last => es.put name (.tables (last :: before).reverse)
    | some (.value _) => none

/-- Changes the table that a path leads to; of an array of tables, the last element. Tables that are
not there yet are opened when `create` says so. -/
def descend (create : Bool) (change : Entries → Option Entries) :
    List String → Entries → Option Entries
  | [], es => change es
  | name :: names, es =>
    match es.get? name with
    | none =>
      if create then
        (descend create change names []).map fun sub => es.put name (.table .passed sub)
      else none
    | some (.table origin sub) =>
      (descend create change names sub).map fun sub => es.put name (.table origin sub)
    | some (.tables elements) =>
      match elements.reverse with
      | [] => none
      | last :: before =>
        (descend create change names last).map fun last =>
          es.put name (.tables (last :: before).reverse)
    | some (.value _) => none

/-- Opens the table of a header in the table that holds it. -/
def openTable (name : String) (es : Entries) : Option Entries :=
  match es.get? name with
  | none => some (es.put name (.table .header []))
  | some (.table .passed sub) => some (es.put name (.table .header sub))
  | some _ => none

/-- Adds an element to an array of tables. -/
def openElement (name : String) (es : Entries) : Option Entries :=
  match es.get? name with
  | none => some (es.put name (.tables [[]]))
  | some (.tables elements) => some (es.put name (.tables (elements ++ [[]])))
  | some _ => none

def splitLast : List String → Option (List String × String)
  | [] => none
  | [name] => some ([], name)
  | name :: names => (splitLast names).map fun (path, last) => (name :: path, last)

/-- The document that finished nodes say. -/
def Node.toDocument : Node → Document
  | .value d => d
  | .table _ es => .table (es.attach.map fun ⟨(name, node), _⟩ => (name, node.toDocument))
  | .tables elements =>
    .list (elements.attach.map fun ⟨es, _inElements⟩ =>
      .table (es.attach.map fun ⟨(name, node), _inTable⟩ => (name, node.toDocument)))
termination_by node => sizeOf node
decreasing_by
  · rename_i h
    have := List.sizeOf_lt_of_mem h
    simp only [table.sizeOf_spec, Prod.mk.sizeOf_spec] at *
    omega
  · have := List.sizeOf_lt_of_mem _inElements
    have := List.sizeOf_lt_of_mem _inTable
    simp only [tables.sizeOf_spec, Prod.mk.sizeOf_spec] at *
    omega

/-- The key of a pair in an inline table, and what follows its equals sign. -/
def pairKey? (cs : List Char) : Option (List String × List Char) := do
  let (names, cs) ← key? cs
  let '=' :: cs ← skipLines cs.length cs | none
  return (names, ← skipLines cs.length cs)

mutual

/-- A value of any kind, in which `room` more brackets may stand in one another. -/
def value : (fuel room : Nat) → List Char → Option (Document × List Char)
  | 0, _, _ => none
  | fuel + 1, room, cs =>
    match cs, room with
    | '[' :: _, 0 | '\x7b' :: _, 0 => none
    | '[' :: cs, room + 1 => elements fuel room [] cs
    | '\x7b' :: cs, room + 1 => pairs fuel room [] cs
    | '"' :: _, _ | '\'' :: _, _ => (text? cs).map fun (s, cs) => (.text s, cs)
    | cs, _ =>
      let (word, rest) := takeWord cs
      (word? word).map fun d => (d, rest)

/-- The rest of an array. -/
def elements : (fuel room : Nat) → List Document → List Char → Option (Document × List Char)
  | 0, _, _, _ => none
  | fuel + 1, room, done, cs =>
    match skipLines cs.length cs with
    | none => none
    | some (']' :: cs) => some (.list done.reverse, cs)
    | some cs =>
      match value fuel room cs with
      | none => none
      | some (d, cs) =>
        match skipLines cs.length cs with
        | some (',' :: cs) => elements fuel room (d :: done) cs
        | some (']' :: cs) => some (.list (d :: done).reverse, cs)
        | _ => none

/-- The rest of an inline table. Lines may end anywhere between its keys, signs and values. -/
def pairs : (fuel room : Nat) → Entries → List Char → Option (Document × List Char)
  | 0, _, _, _ => none
  | fuel + 1, room, es, cs =>
    match skipLines cs.length cs with
    | none => none
    | some ('\x7d' :: cs) => some ((Node.table .header es).toDocument, cs)
    | some cs =>
      match pairKey? cs with
      | none => none
      | some (names, cs) =>
        match value fuel room cs with
        | none => none
        | some (d, cs) =>
          match insert d names es with
          | none => none
          | some es =>
            match skipLines cs.length cs with
            | some (',' :: cs) => pairs fuel room es cs
            | some ('\x7d' :: cs) => some ((Node.table .header es).toDocument, cs)
            | _ => none

end

/-- The end of a line, which may have a comment. -/
def lineEnd? (cs : List Char) : Option (List Char) :=
  match comment? (skipSpace cs) with
  | some [] => some []
  | some cs => newline? cs
  | none => none

/-- The key of a header and what follows its closing brackets. -/
def header? (closing : List Char) (cs : List Char) : Option (List String × List Char) :=
  match key? cs with
  | some (names, cs) =>
    if closing.isPrefixOf cs then some (names, cs.drop closing.length) else none
  | none => none

/-- One line: the path of the table that is open behind it, the document so far, and the rest. -/
def line (path : List String) (es : Entries) (cs : List Char) :
    Option (List String × Entries × List Char) :=
  match cs with
  | '[' :: '[' :: cs => do
    let (names, cs) ← header? [']', ']'] cs
    let (outer, name) ← splitLast names
    return (names, ← descend true (openElement name) outer es, ← lineEnd? cs)
  | '[' :: cs => do
    let (names, cs) ← header? [']'] cs
    let (outer, name) ← splitLast names
    return (names, ← descend true (openTable name) outer es, ← lineEnd? cs)
  | cs => do
    let (names, '=' :: cs) ← key? cs | none
    let (d, cs) ← value (cs.length + 1) deepest (skipSpace cs)
    return (path, ← descend false (insert d names) path es, ← lineEnd? cs)

def lines : (fuel : Nat) → List String → Entries → List Char → Option Entries
  | 0, _, _, _ => none
  | fuel + 1, path, es, cs =>
    match skipLines cs.length cs with
    | none => none
    | some [] => some es
    | some cs =>
      match line path es cs with
      | none => none
      | some (path, es, cs) => lines fuel path es cs

/-- Reads a whole text as one table. -/
def parse? (text : String) : Option Document :=
  let cs := match text.toList with
    | '\uFEFF' :: cs => cs
    | cs => cs
  (lines (cs.length + 1) [] [] cs).map fun es => (Node.table .header es).toDocument

end QuorumKv.Document.Toml
