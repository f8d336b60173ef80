import CallOrder.Json.Record
import CallOrder.Settings.Basic

/-!
Settings, presets and limits as JSON.
-/

namespace CallOrder

namespace Limits

def toJson (l : Limits) : Json :=
  .object [("max_nfa_states", .natural l.maxNfaStates), ("max_dfa_states", .natural l.maxDfaStates),
    ("max_quantifier_bound", .natural l.maxBound), ("max_depth", .natural l.maxDepth)]

def fields : List Field :=
  [.required "max_nfa_states", .required "max_dfa_states", .required "max_quantifier_bound",
    .optional "max_depth"]

def ofJson? (j : Json) : Option Limits := do
  match ← j.record? fields with
  | [some maxNfaStates, some maxDfaStates, some maxBound, maxDepth] =>
    return ⟨← maxNfaStates.natural?, ← maxDfaStates.natural?, ← maxBound.word?,
      ← Json.optionalField? Json.natural? standard.maxDepth maxDepth⟩
  | _ => none

end Limits

namespace Preset

def toJson (p : Preset) : Json := .text p.name

def ofJson? (j : Json) : Option Preset := do
  match ← j.unitVariant? with
  | "fast" => some fast
  | "balanced" => some balanced
  | "thorough" => some thorough
  | _ => none

end Preset

namespace Settings

def toJson (s : Settings) : Json :=
  .object [("parallel_bases", .bool s.parallelBases), ("report_passing", .bool s.reportPassing),
    ("max_nfa_states", .natural s.maxNfaStates), ("max_dfa_states", .natural s.maxDfaStates),
    ("max_quantifier_bound", .natural s.maxBound)]

def fields : List Field :=
  [.optional "parallel_bases", .optional "report_passing", .optional "max_nfa_states",
    .optional "max_dfa_states", .optional "max_quantifier_bound"]

def ofJson? (j : Json) : Option Settings := do
  match ← j.record? fields with
  | [parallelBases, reportPassing, maxNfaStates, maxDfaStates, maxBound] =>
    return ⟨← Json.optionalField? Json.bool? standard.parallelBases parallelBases,
      ← Json.optionalField? Json.bool? standard.reportPassing reportPassing,
      ← Json.optionalField? Json.natural? standard.maxNfaStates maxNfaStates,
      ← Json.optionalField? Json.natural? standard.maxDfaStates maxDfaStates,
      ← Json.optionalField? Json.word? standard.maxBound maxBound⟩
  | _ => none

end Settings

end CallOrder
