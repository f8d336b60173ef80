import CallOrder.Content
import CallOrder.Field
import CallOrder.RuleDocument.Basic

/-!
The entries of an order in a document: a text is a token, and a table of one entry is a list under
the name of its form. Fields and forms may also be told by their number.
-/

namespace CallOrder

namespace Content

/-- The name that a key of a table stands for, where a number counts in `names`. -/
def keyName? (names : List String) : Content → Option String
  | text name => some name
  | natural n => some (names.getD n "")
  | _ => none

def record? (fs : List Field) : Content → Option (List (Option Content))
  | list items => Field.placed? fs items
  | table entries => do
    let named ← entries.mapM fun entry => do
      return (← entry.1.keyName? (fs.map (·.name)), entry.2)
    Field.allNamed? fs named
  | _ => none

end Content

namespace Form

def keys : List String :=
  ["group", "set", "maybe", "option", "some", "zero_or_more", "exactly", "at_least", "between"]

/-- The form of a name and the entries that come with it. -/
def ofContent? (name : String) (content : Content) : Option (Form × List Content) :=
  match name with
  | "group" => plain group
  | "set" => plain set
  | "maybe" => plain maybe
  | "option" => plain option
  | "some" => plain oneOrMore
  | "zero_or_more" => plain zeroOrMore
  | "exactly" => counted exactly
  | "at_least" => counted atLeast
  | "between" => do
    match ← content.record? [.required "min", .required "max", .required "order"] with
    | [some min, some max, some (.list items)] =>
      return (between (← min.word?) (← max.word?), items)
    | _ => none
  | _ => none
where
  plain (form : Form) : Option (Form × List Content) :=
    match content with
    | .list items => some (form, items)
    | _ => none
  counted (form : Nat → Form) : Option (Form × List Content) := do
    match ← content.record? [.required "count", .required "order"] with
    | [some n, some (.list items)] => return (form (← n.word?), items)
    | _ => none

end Form

namespace Entry

def ofContentWithin? : (levels : Nat) → Content → Option Entry
  | 0, _ => none
  | _ + 1, .text name => some (token name)
  | levels + 1, .table [(key, content)] => do
    let (form, items) ← Form.ofContent? (← key.keyName? Form.keys) content
    return block form (← items.mapM (ofContentWithin? levels))
  | _, _ => none

/-- An entry nests no deeper than its content. -/
def ofContent? (c : Content) : Option Entry := ofContentWithin? (c.depth + 1) c

end Entry

end CallOrder
