import CallOrder.Yaml.Document
import CallOrder.Yaml.Plain

/-!
YAML nodes as content, for what is told by its shape.
-/

namespace CallOrder.Yaml

/-- The content of a scalar, which a tag may say. A tag of the document's own leaves none, unless
its name is no text. -/
def scalarContent? (tag : Option Tag) (style : Style) (text : String) : Option Content :=
  let untagged := if style = .plain then plainContent? text else some (.text text)
  match tag with
  | none => untagged
  | some tag =>
    if tag.localName?.isSome then none
    else if tag.isLocal then untagged
    else if tag = .standard "bool" then (bool? text).map .bool
    else if tag = .standard "int" then
      match plainContent?.wholeContent text with
      | some (.natural n) => some (.natural n)
      | some (.negative n) => some (.negative n)
      | _ => none
    else if tag = .standard "float" then if isFloat text then some .fraction else none
    else if tag = .standard "null" then if isNull text then some .null else none
    else some (.text text)

namespace Node

def toContent? (levels : Nat) (n : Node) : Reading Content := do
  match ← n.follow, levels with
  | scalar p style text, _ => scalarContent? p.tag style text
  | sequence p items, levels + 1 =>
    if p.localName?.isSome then failure
    return .list (← items.mapM (toContent? levels))
  | mapping p pairs, levels + 1 =>
    if p.localName?.isSome then failure
    return .table (← pairs.mapM fun pair => do
      return (← toContent? levels pair.1, ← toContent? levels pair.2))
  | _, _ => failure

end Node

end CallOrder.Yaml
