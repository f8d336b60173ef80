import CallOrder.Error
import CallOrder.Limits

/-!
Settings of a judgement, the presets they start from, and the ranges they must keep to.
-/

namespace CallOrder

inductive Preset where
  | fast
  | balanced
  | thorough
  deriving DecidableEq, Repr

structure Settings where
  /-- Whether bases are walked at the same time. Where several of these walks fail, it is then up to
  the schedule whose failure is told. -/
  parallelBases : Bool
  reportPassing : Bool
  maxNfaStates : Nat
  maxDfaStates : Nat
  maxBound : Nat
  deriving DecidableEq, Repr

namespace Preset

def standard : Preset := balanced

def name : Preset → String
  | fast => "fast"
  | balanced => "balanced"
  | thorough => "thorough"

/-- The preset of a name in letters of any case. The names hold no letter that a letter beyond ASCII
has as its lower case, so the lower case of ASCII is enough. -/
def ofName (name : String) : Except Error Preset :=
  match name.toLower with
  | "fast" => .ok fast
  | "balanced" => .ok balanced
  | "thorough" => .ok thorough
  | _ => .error (.settings (.unknownPreset name))

def settings : Preset → Settings
  | fast => ⟨true, false, 2000, 512, 32⟩
  | balanced =>
    ⟨true, false, Limits.standard.maxNfaStates, Limits.standard.maxDfaStates,
      Limits.standard.maxBound⟩
  | thorough => ⟨false, true, 100000, 65536, 1024⟩

end Preset

namespace Settings

def standard : Settings := Preset.standard.settings

def title : String := "EvaluationConfig"

def limits (s : Settings) : Limits where
  maxNfaStates := s.maxNfaStates
  maxDfaStates := s.maxDfaStates
  maxBound := s.maxBound
  maxDepth := Limits.standard.maxDepth

def checkRange (field : String) (value min max : Nat) (hint : String) : Except Error Unit :=
  if min ≤ value ∧ value ≤ max then .ok ()
  else .error (.settings (.outOfRange field value min max hint))

def validate (s : Settings) : Except Error Unit := do
  checkRange "max_nfa_states" s.maxNfaStates 2 10000000
    "An NFA needs at least a start and an accepting state"
  checkRange "max_dfa_states" s.maxDfaStates 1 1000000 "Use at least 1"
  checkRange "max_quantifier_bound" s.maxBound 1 65536
    "Large counted repetitions blow up the automaton"

end Settings

end CallOrder
