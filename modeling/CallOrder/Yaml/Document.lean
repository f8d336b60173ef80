import CallOrder.Yaml.Node
import Std.Data.ExtTreeMap

/-!
YAML documents, and what it takes to read one: an alias stands for the last node that bears its
label, before it, behind it or around it, and only so many aliases are followed.
-/

namespace CallOrder.Yaml

namespace Node

mutual

/-- What a node counts: one for itself, and a collection one more for its end. -/
def weight : Node → Nat
  | scalar _ _ _ => 1
  | sequence _ items => weightOfItems items + 2
  | mapping _ pairs => weightOfPairs pairs + 2
  | reference _ => 1

def weightOfItems : List Node → Nat
  | [] => 0
  | item :: items => item.weight + weightOfItems items

def weightOfPairs : List (Node × Node) → Nat
  | [] => 0
  | (key, value) :: pairs => key.weight + value.weight + weightOfPairs pairs

end

def withLabel (p : Properties) (n : Node) (rest : List (Nat × Node)) : List (Nat × Node) :=
  match p.label with
  | some label => (label, n) :: rest
  | none => rest

mutual

/-- The nodes with labels, in the order in which they begin, in front of `rest`. -/
def labelled (rest : List (Nat × Node)) : Node → List (Nat × Node)
  | scalar p style text => withLabel p (scalar p style text) rest
  | sequence p items => withLabel p (sequence p items) (labelledItems rest items)
  | mapping p pairs => withLabel p (mapping p pairs) (labelledPairs rest pairs)
  | reference _ => rest

def labelledItems (rest : List (Nat × Node)) : List Node → List (Nat × Node)
  | [] => rest
  | item :: items => item.labelled (labelledItems rest items)

def labelledPairs (rest : List (Nat × Node)) : List (Node × Node) → List (Nat × Node)
  | [] => rest
  | (key, value) :: pairs => key.labelled (value.labelled (labelledPairs rest pairs))

end

end Node

structure Document where
  root : Node
  targets : Std.ExtTreeMap Nat Node

namespace Document

/-- The document with a given root. Of the nodes with one label the last one holds. -/
def ofRoot (root : Node) : Document := ⟨root, .ofList (root.labelled [])⟩

/-- How many aliases are followed at most where a document is read. -/
def aliasLimit (d : Document) : Nat := 100 * d.root.weight

def parse? (s : String) : Option Document := do
  return ofRoot (← Node.ofTokens? (← tokens? s).toList)

end Document

/-- Reading a part of a document, given what aliases stand for and how many of them may still be
followed. -/
abbrev Reading := ReaderT (Std.ExtTreeMap Nat Node) (StateT Nat Option)

def Document.read? {α : Type} (d : Document) (read : Node → Reading α) : Option α :=
  ((read d.root).run d.targets).run' d.aliasLimit

namespace Node

def follow : Node → Reading Node
  | reference label => do
    match ← get with
    | 0 => failure
    | left + 1 =>
      set left
      (← read)[label]?
  | n => pure n

end Node

end CallOrder.Yaml
