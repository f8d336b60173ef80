import CallOrder.Content
import CallOrder.Decimal
import CallOrder.Yaml.Scalar

/-!
What plain scalars mean: null, truth values, whole numbers in four bases, numbers with a fraction,
and otherwise their own text.
-/

namespace CallOrder.Yaml

def isNull (s : String) : Bool := ["null", "Null", "NULL", "~"].contains s

def bool? (s : String) : Option Bool :=
  if ["true", "True", "TRUE"].contains s then some true
  else if ["false", "False", "FALSE"].contains s then some false
  else none

def digit? (base : Nat) (c : Char) : Option Nat := do
  let d ← Text.hexValue? c
  if d < base then return d else none

def digits? (base : Nat) (cs : List Char) : Option Nat := do
  let ds ← cs.mapM (digit? base)
  if ds.isEmpty then none else return ds.foldl (fun n d => n * base + d) 0

/-- Digits that begin with a zero are text and no number. -/
def hasLeadingZero (cs : List Char) : Bool :=
  match cs with
  | '0' :: c :: rest => (c :: rest).all Char.isDigit
  | _ => false

def magnitude? : List Char → Option Nat
  | '0' :: 'x' :: rest => digits? 16 rest
  | '0' :: 'o' :: rest => digits? 8 rest
  | '0' :: 'b' :: rest => digits? 2 rest
  | cs => if hasLeadingZero cs then none else digits? 10 cs

def natural? (s : String) : Option Nat :=
  match s.toList with
  | '+' :: cs => magnitude? cs
  | cs => magnitude? cs

/-- The magnitude of a whole number with a minus sign. -/
def negative? (s : String) : Option Nat :=
  match s.toList with
  | '-' :: cs => magnitude? cs
  | _ => none

def exponent? : List Char → Option Int
  | [] => some 0
  | c :: rest =>
    if c = 'e' ∨ c = 'E' then
      let (negative, ds) := match rest with
        | '-' :: ds => (true, ds)
        | '+' :: ds => (false, ds)
        | ds => (false, ds)
      if ds.isEmpty || !ds.all Char.isDigit then none
      else some (if negative then -(Decimal.natOf ds : Int) else Decimal.natOf ds)
    else none

/-- Reads a decimal number without a sign, with a digit before the point or behind it. -/
def decimal? (cs : List Char) : Option Decimal := do
  let whole := Decimal.run cs
  let rest := cs.drop whole.length
  let (fraction, rest) := match rest with
    | '.' :: rest => (Decimal.run rest, rest.drop (Decimal.run rest).length)
    | rest => ([], rest)
  if whole.isEmpty && fraction.isEmpty then none
  let e ← exponent? rest
  return ⟨Decimal.natOf (whole ++ fraction), e - fraction.length⟩

def isSpecialNumber (s : String) : Bool :=
  [".inf", ".Inf", ".INF", "+.inf", "+.Inf", "+.INF", "-.inf", "-.Inf", "-.INF", ".nan", ".NaN",
    ".NAN"].contains s

def unsigned (s : String) : List Char :=
  match s.toList with
  | '+' :: cs | '-' :: cs => cs
  | cs => cs

def isFloat (s : String) : Bool := isSpecialNumber s || (decimal? (unsigned s)).any (!·.exceedsDouble)

/-- The content of a plain scalar. Whole numbers wider than 64 bits are no content at all as long as
they fit 128 bits, and fractions beyond that. -/
def plainContent? (s : String) : Option Content :=
  if s.isEmpty || isNull s then some .null
  else match bool? s with
  | some b => some (.bool b)
  | none => wholeContent s
where
  wholeContent (s : String) : Option Content :=
    match natural? s, negative? s with
    | some n, _ =>
      if n < UInt64.size then some (.natural n)
      else if n < UInt64.size * UInt64.size then none
      else otherContent s
    | none, some n =>
      if 2 * n ≤ UInt64.size then some (.negative n)
      else if 2 * n ≤ UInt64.size * UInt64.size then none
      else otherContent s
    | none, none => otherContent s
  otherContent (s : String) : Option Content :=
    if !hasLeadingZero (unsigned s) && isFloat s then some .fraction else some (.text s)

end CallOrder.Yaml
