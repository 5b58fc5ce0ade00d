/-! The order in which texts are shown: by their characters, without repetitions. -/
namespace QuorumKv.Text

def sorted (texts : List String) : List String :=
  texts.mergeSort fun a b => decide (a ≤ b)

def sortedSet (texts : List String) : List String :=
  (sorted texts).eraseReps

/-- Pairs in the order of their first components. -/
def byName {α : Type} (fields : List (String × α)) : List (String × α) :=
  fields.mergeSort fun a b => decide (a.1 ≤ b.1)

/-- Pairs by their first component; of several with one name, the last stays. -/
def sortedFields {α : Type} (fields : List (String × α)) : List (String × α) :=
  (sortedSet (fields.map (·.1))).filterMap fun name =>
    fields.reverse.find? fun (k, _) => k == name

end QuorumKv.Text
