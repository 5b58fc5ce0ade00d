import QuorumKv.Config
import QuorumKv.Document.Path
import QuorumKv.Document.Toml
import QuorumKv.Text.Utf8

/-! Where a configuration comes from: a TOML file, and on top of it environment variables whose name
spells the path of a field. -/
namespace QuorumKv.Config

/-- Puts a value where a name leads, which is a path or else the name of a single field. -/
def setNamed (root : Document) (name : String) (d : Document) : Document :=
  Document.put d ((Document.path? name).getD [.field name]) root

/-- Variables under this beginning set fields. -/
def environmentStart : List Char := "beanproxy__".toList

/-- Two underscores stand for a step into a record. -/
def splitSteps : List Char → List Char
  | '_' :: '_' :: cs => '.' :: splitSteps cs
  | c :: cs => c :: splitSteps cs
  | [] => []

/-- Lower case as it matters for names: beyond ASCII only the Kelvin sign has a plain letter for its
lower case. -/
def lower (c : Char) : Char :=
  if c == '\u212A' then 'k' else c.toLower

/-- The path that a variable's name spells, in lower case. -/
def variablePath? (name : String) : Option String :=
  let cs := name.toList.map lower
  if environmentStart.isPrefixOf cs then
    some (String.ofList (splitSteps (cs.drop environmentStart.length)))
  else none

def applyVariables (environment : List (String × String)) (root : Document) : Document :=
  environment.foldl (fun root (name, value) =>
    match variablePath? name with
    | some path => setNamed root path (.text value)
    | none => root) root

/-- The table of a TOML text, whose outermost names are paths. -/
def parse (text : String) : Except Failure Document :=
  match Document.Toml.parse? text with
  | some d => pure (d.fields.foldl (fun root (name, d) => setNamed root name d) (.table []))
  | none => throw .badDocument

def orBad {α : Type} : Option α → Except Failure α
  | some a => pure a
  | none => throw .badDocument

/-- Reads and checks a configuration. -/
def ofText (environment : List (String × String)) (text : String) : Except Failure Config := do
  let root ← parse text
  let c ← orBad (read Typing.lenient (applyVariables environment root))
  c.check
  return c

def routeOfText (text : String) : Except Failure Route.Plan := do
  orBad (readRoute Typing.lenient (← parse text))

/-- The files of a configuration directory and the variables of the environment. -/
structure Directory where
  files : List (String × Bytes)
  environment : List (String × String)

def Directory.file? (d : Directory) (name : String) : Option Bytes :=
  (d.files.find? fun (n, _) => n == name).map (·.2)

/-- The text of a file without the byte order mark that may open it. A file that is not there may
lie under its name with the ending written once more. -/
def Directory.read (d : Directory) (name : String) : Except Failure String := do
  let bytes ← orBad ((d.file? name).or (d.file? (name ++ ".toml")))
  return Text.Utf8.decodeLossy (Text.Utf8.dropMark bytes)

def Directory.config (d : Directory) : Except Failure Config := do
  ofText d.environment (← d.read "proxy.toml")

def Directory.route (d : Directory) : Except Failure Route.Plan := do
  routeOfText (← d.read "route.toml")

end QuorumKv.Config
