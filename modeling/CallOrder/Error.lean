import CallOrder.Occurrence
import CallOrder.Pattern.Text

/-!
Everything that can go wrong, by cause, and the message that tells it. Findings are no errors: a
program that breaks a rule has been judged, an error means that it could not be.
-/

namespace CallOrder

/-- Why a complete pattern or order cannot be used. -/
inductive SpecificationError where
  | tooDeep (limit : Nat)
  | boundTooLarge (kind : Quantifier) (bound limit : Nat)
  /-- A bound where none belongs. -/
  | unexpectedBound (kind : Quantifier)
  | reversedRange (min max : Nat)
  /-- A count in place of a range or the other way round. -/
  | unsuitableBound (kind : Quantifier) (bound : Bound)
  | unboundToken (token : Token)
  /-- The token that is to select the bases has no operation. -/
  | unboundSelector (token : Token)
  deriving DecidableEq, Repr

inductive DocumentError where
  | malformed
  | unknownToken (name : String)
  deriving DecidableEq, Repr

inductive SettingsError where
  | outOfRange (field : String) (value min max : Nat) (hint : String)
  | missingVersion
  | unsupportedVersion (found : Nat)
  | unknownPreset (name : String)
  | unreadableFile
  | malformed
  deriving DecidableEq, Repr

inductive QueryError where
  | failed (reason : String)
  | unknownOccurrence (id : OccurrenceId)
  | other (reason : String)
  deriving DecidableEq, Repr

inductive Error where
  | construction (cause : ConstructionError)
  | specification (cause : SpecificationError)
  | automatonLimit (limit reached : Nat)
  | document (cause : DocumentError)
  | settings (cause : SettingsError)
  | query (cause : QueryError)
  deriving DecidableEq, Repr

def ConstructionError.message : ConstructionError → String
  | emptyGroup => "Groups and sets must have at least one element"
  | missingBound kind => s!"Quantifier '{kind.name}' requires a bound"

def Bound.description : Bound → String
  | count n => "Count(" ++ toString n ++ ")"
  | range min max => "Range \x7b min: " ++ toString min ++ ", max: " ++ toString max ++ " \x7d"

def SpecificationError.message : SpecificationError → String
  | tooDeep limit => s!"Order rule nests deeper than {limit} levels"
  | boundTooLarge kind bound limit =>
    s!"Quantifier '{kind.name}' bound {bound} exceeds the maximum of {limit}"
  | unexpectedBound kind => s!"Quantifier '{kind.name}' does not take a bound"
  | reversedRange min max => s!"Quantifier 'between' has min {min} greater than max {max}"
  | unsuitableBound kind bound =>
    s!"Quantifier '{kind.name}' does not accept bound {bound.description}"
  | unboundToken token => s!"Token '{token}' is not bound to an operation"
  | unboundSelector token => s!"Base operation '{token}' is not bound"

def DocumentError.message : DocumentError → String
  | malformed => "Syntax error: not a rule document"
  | unknownToken name => s!"Unknown token '{name}': declare it under 'operations'"

def SettingsError.message : SettingsError → String
  | outOfRange field value min max hint =>
    s!"Invalid range for field '{field}': {value} not in {min}..={max}. {hint}"
  | missingVersion => "Missing 'version' field in configuration file. " ++
    "Add 'version: 1' to the top of your YAML file."
  | unsupportedVersion found =>
    s!"Unsupported configuration version {found}. Supported versions: 1"
  | unknownPreset name => s!"Unknown preset '{name}'. Valid presets: fast, balanced, thorough"
  | unreadableFile => "IO error: the file cannot be read as text"
  | malformed => "YAML parsing error: not a configuration"

def QueryError.message : QueryError → String
  | failed reason => s!"Backend query failed: {reason}"
  | unknownOccurrence id => s!"Unknown occurrence {id.text}"
  | other reason => reason

namespace Error

def message : Error → String
  | construction cause => "Construction error: " ++ cause.message
  | specification cause => "Invalid specification: " ++ cause.message
  | automatonLimit limit reached =>
    s!"Automaton limit exceeded: {reached} states (limit {limit})"
  | document cause => cause.message
  | settings cause => cause.message
  | query cause => cause.message

def isSpecification : Error → Bool
  | construction _ | specification _ | automatonLimit _ _ | document _ => true
  | settings _ | query _ => false

end Error

def error? {ε α : Type} : Except ε α → Option ε
  | .ok _ => none
  | .error e => some e

end CallOrder
