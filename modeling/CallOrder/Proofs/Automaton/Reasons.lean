import CallOrder.Proofs.Limits

/-! Why a pattern does not compile: for a reason that lies in the pattern itself or in the limits. -/

namespace CallOrder

/-- What can be wrong with a pattern as it is compiled. -/
def SpecificationError.OfPattern : SpecificationError → Prop
  | tooDeep _ | boundTooLarge _ _ _ | unexpectedBound _ | reversedRange _ _
  | unsuitableBound _ _ => True
  | unboundToken _ | unboundSelector _ => False

theorem SpecificationError.OfBound.ofPattern {cause : SpecificationError} (ofBound : cause.OfBound) :
    cause.OfPattern := by
  cases cause with
  | unexpectedBound | reversedRange | unsuitableBound => trivial
  | tooDeep | boundTooLarge | unboundToken | unboundSelector => cases ofBound

def Error.OfPattern : Error → Prop
  | construction _ | automatonLimit _ _ => True
  | specification cause => cause.OfPattern
  | document _ | settings _ | query _ => False

namespace Work

variable {limits : Limits}

end Work

namespace Pattern

variable {limits : Limits} {p : Pattern} {e : Error}

end Pattern

end CallOrder
