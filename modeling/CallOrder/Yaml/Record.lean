import CallOrder.Field
import CallOrder.Yaml.Document
import CallOrder.Yaml.Plain

/-!
Reading records, variants and lists from YAML nodes. Text may be any scalar, whatever it looks like;
a plain scalar without text is an empty list or mapping too.
-/

namespace CallOrder.Yaml.Node

variable {α : Type}

def text? (n : Node) : Reading String := do
  match ← n.follow with
  | scalar _ _ text => return text
  | _ => failure

def isEmpty : Node → Bool
  | scalar _ .plain "" => true
  | _ => false

/-- The text of a scalar that may be a number or truth value, which has the given standard tag. -/
def typedText? (name : String) (n : Node) : Reading String := do
  match ← n.follow with
  | scalar _ .plain text => return text
  | scalar p .literal text => if p.tag = some (.standard name) then return text else failure
  | _ => failure

def bool? (n : Node) : Reading Bool := do Yaml.bool? (← n.typedText? "bool")

def natural? (n : Node) : Reading Nat := do
  let value ← Yaml.natural? (← n.typedText? "int")
  if value < UInt64.size then return value else failure

/-- A whole number of at most 32 bits, without a minus sign. -/
def word? (n : Node) : Reading Nat := do
  let value ← n.natural?
  if value < UInt32.size then return value else failure

/-- Whether a node that is no alias is null, unless its tag says so in vain. -/
def isNull? : Node → Option Bool
  | scalar p .plain text =>
    match p.tag with
    | none => some (text.isEmpty || isNull text)
    | some tag =>
      if tag ≠ .standard "null" then some false else if isNull text then some true else none
  | _ => some false

def nullable? (read : Node → Reading α) (n : Node) : Reading (Option α) := do
  let n ← n.follow
  if ← n.isNull? then return none else return some (← read n)

def nullableField? (read : Node → Reading α) : Option Node → Reading (Option α)
  | none => return none
  | some n => nullable? read n

def optionalField? (read : Node → Reading α) (standard : α) : Option Node → Reading α
  | none => return standard
  | some n => read n

def items? (n : Node) : Reading (List Node) := do
  match ← n.follow with
  | sequence _ items => return items
  | n => if n.isEmpty then return [] else failure

def list? (read : Node → Reading α) (n : Node) : Reading (List α) := do (← n.items?).mapM read

/-- The pairs of a mapping whose keys are text. -/
def named? (n : Node) : Reading (List (String × Node)) := do
  match ← n.follow with
  | mapping _ pairs => pairs.mapM fun pair => do return (← pair.1.text?, pair.2)
  | n => if n.isEmpty then return [] else failure

def record? (fs : List Field) (n : Node) : Reading (List (Option Node)) := do
  Field.allNamed? fs (← n.named?)

def strictRecord? (fs : List Field) (n : Node) : Reading (List (Option Node)) := do
  let values ← n.named?
  if values.all fun value => fs.any (·.name == value.1) then Field.allNamed? fs values else failure

/-- The name of a variant, with the node that comes with it where the name is a tag of the document's
own. -/
def variant? (n : Node) : Reading (String × Option Node) := do
  match ← n.follow with
  | scalar p style text =>
    match p.localName? with
    | some name => return (name, some (scalar .bare style text))
    | none => return (text, none)
  | sequence p items => return (← p.localName?, some (sequence .bare items))
  | mapping p pairs => return (← p.localName?, some (mapping .bare pairs))
  | reference _ => failure

def isUnit : Option Node → Bool
  | none => true
  | some (scalar _ .plain text) => text.isEmpty || isNull text
  | some _ => false

end CallOrder.Yaml.Node
