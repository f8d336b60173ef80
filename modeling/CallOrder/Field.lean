/-!
The declared fields of a record, and looking them up among named values.
-/

namespace CallOrder

inductive Presence where
  | required
  /-- May be left out where fields are named, but not where they are told by their place. -/
  | nullable
  | optional
  deriving DecidableEq, Repr

structure Field where
  name : String
  presence : Presence
  deriving DecidableEq, Repr

namespace Field

variable {α : Type}

def required (name : String) : Field := ⟨name, .required⟩

def nullable (name : String) : Field := ⟨name, .nullable⟩

def optional (name : String) : Field := ⟨name, .optional⟩

/-- The value of a field among named values, which may give it once at most. -/
def named? (values : List (String × α)) (f : Field) : Option (Option α) :=
  match values.filter (·.1 == f.name) with
  | [] => if f.presence = .required then none else some none
  | [(_, value)] => some (some value)
  | _ => none

def placed? : (fs : List Field) → (values : List α) → Option (List (Option α))
  | [], [] => some []
  | [], _ :: _ => none
  | f :: fs, [] => if f.presence = .optional then (placed? fs []).map (none :: ·) else none
  | _ :: fs, value :: values => (placed? fs values).map (some value :: ·)

/-- The values of the fields `fs` by their names; other names are ignored. -/
def allNamed? (fs : List Field) (values : List (String × α)) : Option (List (Option α)) :=
  fs.mapM (named? values)

end Field

end CallOrder
