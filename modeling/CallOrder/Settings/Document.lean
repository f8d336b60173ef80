import CallOrder.Settings.Basic
import CallOrder.Yaml.Record

/-!
Settings documents, in their first and only version: a preset, and whatever is to differ from it.
-/

namespace CallOrder

open Yaml (Document Node Reading)

/-- What a settings document says; what it does not say is left open. -/
structure SettingsDocument where
  version : Option Nat
  preset : Option String
  parallelBases : Option Bool
  reportPassing : Option Bool
  maxNfaStates : Option Nat
  maxDfaStates : Option Nat
  maxBound : Option Nat
  deriving DecidableEq, Repr

namespace SettingsDocument

def supportedVersion : Nat := 1

def fields : List Field :=
  [.nullable "version", .nullable "preset", .nullable "parallel_bases", .nullable "report_passing",
    .nullable "max_nfa_states", .nullable "max_dfa_states", .nullable "max_quantifier_bound"]

def ofNode? (n : Node) : Reading SettingsDocument := do
  match ← n.strictRecord? fields with
  | [version, preset, parallelBases, reportPassing, maxNfaStates, maxDfaStates, maxBound] =>
    return ⟨← Node.nullableField? Node.word? version, ← Node.nullableField? Node.text? preset,
      ← Node.nullableField? Node.bool? parallelBases,
      ← Node.nullableField? Node.bool? reportPassing,
      ← Node.nullableField? Node.natural? maxNfaStates,
      ← Node.nullableField? Node.natural? maxDfaStates,
      ← Node.nullableField? Node.word? maxBound⟩
  | _ => failure

/-- `base` with what the document says in its place. -/
def overlay (d : SettingsDocument) (base : Settings) : Settings where
  parallelBases := d.parallelBases.getD base.parallelBases
  reportPassing := d.reportPassing.getD base.reportPassing
  maxNfaStates := d.maxNfaStates.getD base.maxNfaStates
  maxDfaStates := d.maxDfaStates.getD base.maxDfaStates
  maxBound := d.maxBound.getD base.maxBound

def resolve (d : SettingsDocument) : Except Error Settings := do
  match d.version with
  | none => throw (.settings .missingVersion)
  | some version =>
    if version ≠ supportedVersion then throw (.settings (.unsupportedVersion version))
    let preset ← match d.preset with
      | some name => Preset.ofName name
      | none => pure .standard
    let settings := d.overlay preset.settings
    settings.validate
    return settings

def ofSettings (s : Settings) : SettingsDocument where
  version := some supportedVersion
  preset := none
  parallelBases := some s.parallelBases
  reportPassing := some s.reportPassing
  maxNfaStates := some s.maxNfaStates
  maxDfaStates := some s.maxDfaStates
  maxBound := some s.maxBound

def written {α : Type} (write : α → String) : Option α → String
  | some value => write value
  | none => "null"

/-- The text of a document whose preset, if any, has a name that needs no quotes. -/
def toYaml (d : SettingsDocument) : String :=
  String.join (entries.map fun entry => entry.1 ++ ": " ++ entry.2 ++ "\n")
where
  entries : List (String × String) :=
    [("version", written toString d.version), ("preset", written id d.preset),
      ("parallel_bases", written toString d.parallelBases),
      ("report_passing", written toString d.reportPassing),
      ("max_nfa_states", written toString d.maxNfaStates),
      ("max_dfa_states", written toString d.maxDfaStates),
      ("max_quantifier_bound", written toString d.maxBound)]

end SettingsDocument

namespace Settings

def toYaml (s : Settings) : String := (SettingsDocument.ofSettings s).toYaml

def ofYaml (text : String) : Except Error Settings :=
  match (Document.parse? text).bind (·.read? SettingsDocument.ofNode?) with
  | some d => d.resolve
  | none => .error (.settings .malformed)

def ofFile (content : Option ByteArray) : Except Error Settings :=
  match content.bind fun bytes => String.fromUTF8? bytes with
  | some text => ofYaml text
  | none => .error (.settings .unreadableFile)

end Settings

end CallOrder
