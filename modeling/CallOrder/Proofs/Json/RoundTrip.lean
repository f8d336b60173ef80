import CallOrder.Json.Dfa
import CallOrder.Json.Pattern
import CallOrder.Proofs.Json.Record
import CallOrder.RuleDocument.Json

/-!
Patterns, automata and rule documents as JSON. Main statement: what has been written is read back as
it was, however it nests and whatever its texts are.
-/

namespace CallOrder

/-! ### Numbers of 32 bits -/

def Bound.FitsWord : Bound → Prop
  | .count n => n < UInt32.size
  | .range min max => min < UInt32.size ∧ max < UInt32.size

def Pattern.FitsWord : Pattern → Prop
  | .terminal _ _ => True
  | .sequence left right | .alternative left right => left.FitsWord ∧ right.FitsWord
  | .quantified child _ bound => child.FitsWord ∧ ∀ b ∈ bound, b.FitsWord

def Form.FitsWord : Form → Prop
  | .exactly n | .atLeast n => n < UInt32.size
  | .between min max => min < UInt32.size ∧ max < UInt32.size
  | _ => True

mutual

def Entry.FitsWord : Entry → Prop
  | .token _ => True
  | .block form entries => form.FitsWord ∧ Entry.AllFitWord entries

def Entry.AllFitWord : List Entry → Prop
  | [] => True
  | entry :: entries => entry.FitsWord ∧ Entry.AllFitWord entries

end

/-! ### Patterns -/

theorem Quantifier.ofJson?_toJson (kind : Quantifier) : ofJson? kind.toJson = some kind := by
  cases kind <;> rfl

theorem Bound.ofJson?_toJson {bound : Bound} (fits : bound.FitsWord) :
    ofJson? bound.toJson = some bound := by
  cases bound with
  | count n => simp [toJson, ofJson?, Json.variant?, Json.word?_natural fits]
  | range min max =>
      have fields : (Json.object [("min", .natural min), ("max", .natural max)]).record?
          [.required "min", .required "max"] = some [some (.natural min), some (.natural max)] :=
        Json.record?_object _ [.natural min, .natural max] (by decide) rfl
      simp [toJson, ofJson?, Json.variant?, fields, Json.word?_natural fits.1,
        Json.word?_natural fits.2]

namespace Pattern

theorem nullableField?_boundJson {bound : Option Bound} (fits : ∀ b ∈ bound, b.FitsWord) :
    Json.nullableField? Bound.ofJson? (some (boundJson bound)) = some bound := by
  cases bound with
  | none => rfl
  | some bound =>
      have back := Bound.ofJson?_toJson (fits bound rfl)
      cases bound <;> exact congrArg (Option.map some) back

/-- A pattern is read back within any number of levels that its JSON has. -/
theorem ofJsonWithin?_toJson {p : Pattern} (fits : p.FitsWord) (levels : Nat)
    (enough : p.toJson.depth < levels) : ofJsonWithin? levels p.toJson = some p := by
  induction levels generalizing p with
  | zero => exact absurd enough (Nat.not_lt_zero _)
  | succ levels ih =>
      cases p with
      | terminal base token =>
          have fields : (Json.object [("base", .text base), ("op", .text token)]).record?
              terminalFields = some [some (.text base), some (.text token)] :=
            Json.record?_object _ [.text base, .text token] (by decide) rfl
          simp [toJson, ofJsonWithin?, Json.variant?, fields, Json.text?]
      | sequence left right | alternative left right =>
          simp only [toJson, Json.depth, Json.depthOfFields, Json.depthOfItems] at enough
          have first := ih fits.1 (by omega)
          have second := ih fits.2 (by omega)
          simp [toJson, ofJsonWithin?, Json.variant?, first, second]
      | quantified child kind bound =>
          simp only [toJson, Json.depth, Json.depthOfFields] at enough
          have inside := ih fits.1 (by omega)
          have fields : (Json.object [("child", child.toJson), ("kind", kind.toJson),
              ("bound", boundJson bound)]).record? quantifiedFields =
                some [some child.toJson, some kind.toJson, some (boundJson bound)] :=
            Json.record?_object _ [child.toJson, kind.toJson, boundJson bound] (by decide) rfl
          simp [toJson, ofJsonWithin?, Json.variant?, fields, inside, Quantifier.ofJson?_toJson,
            nullableField?_boundJson fits.2]

theorem ofJson?_toJson {p : Pattern} (fits : p.FitsWord) : ofJson? p.toJson = some p :=
  ofJsonWithin?_toJson fits _ (Nat.lt_succ_self _)

end Pattern

/-! ### Automata -/

namespace Dfa

theorem State.ofJson?_toJson (state : State) : State.ofJson? state.toJson = some state := by
  have fields : state.toJson.record? State.fields = some [some (.natural state.id),
      some (.naturals state.members.toList), some (.bool state.accepting),
      some (Json.ofMap .natural state.transitions)] :=
    Json.record?_object _ [.natural state.id, .naturals state.members.toList,
      .bool state.accepting, Json.ofMap .natural state.transitions] (by decide) rfl
  have transitions : (Json.ofMap .natural state.transitions).map? Json.natural? =
      some state.transitions := Json.map?_ofMap Json.natural Json.natural? (fun _ => rfl) _
  simp [State.ofJson?, fields, transitions, Json.natural?, Json.bool?, Json.set_ofList_toList]

theorem ofJson?_toJson (d : Dfa) : ofJson? d.toJson = some d := by
  have fields : d.toJson.record? [.required "states", .required "start", .required "bases"] =
      some [some (.array (d.states.toList.map State.toJson)), some (.natural d.start),
        some (.texts d.bases.toList)] :=
    Json.record?_object _ [.array (d.states.toList.map State.toJson), .natural d.start,
      .texts d.bases.toList] (by decide) rfl
  have states : (Json.array (d.states.toList.map State.toJson)).list? State.ofJson? =
      some d.states.toList := Json.list?_array _ _ fun state _ => state.ofJson?_toJson
  simp [ofJson?, fields, states, Json.natural?, Json.set_ofList_toList]

end Dfa

/-! ### Entries -/

theorem Content.word?_natural {n : Nat} (fits : n < UInt32.size) :
    (Content.natural n).word? = some n := if_pos fits

namespace Form

def key : Form → String
  | group => "group"
  | set => "set"
  | maybe => "maybe"
  | option => "option"
  | oneOrMore => "some"
  | zeroOrMore => "zero_or_more"
  | exactly _ => "exactly"
  | atLeast _ => "at_least"
  | between _ _ => "between"

def body (items : List Json) : Form → Json
  | exactly n | atLeast n => .object [("count", .natural n), ("order", .array items)]
  | between min max =>
    .object [("min", .natural min), ("max", .natural max), ("order", .array items)]
  | _ => .array items

theorem toJson_eq (form : Form) (items : List Json) :
    form.toJson items = .object [(form.key, form.body items)] := by
  cases form <;> rfl

theorem body_read {form : Form} (fits : form.FitsWord) {items : List Json}
    {contents : List Content} (known : Json.toContents? items = some contents) :
    ∃ content, (form.body items).toContent? = some content ∧
      ofContent? form.key content = some (form, contents) ∧
      Content.depthOfItems contents < content.depth := by
  cases form with
  | exactly n | atLeast n =>
      have fields : Field.allNamed? [.required "count", .required "order"]
          [("count", Content.natural n), ("order", .list contents)] =
            some [some (.natural n), some (.list contents)] :=
        Field.allNamed?_zip _ [Content.natural n, .list contents] (by decide) rfl
      have number := Content.word?_natural fits
      refine ⟨.table [(.text "count", .natural n), (.text "order", .list contents)], ?_, ?_, ?_⟩
      · simp [body, Json.toContent?, Json.toEntries?, known]
      · simp [key, ofContent?, ofContent?.counted, Content.record?, Content.keyName?, fields,
          number]
      · simp only [Content.depth, Content.depthOfEntries]
        omega
  | between min max =>
      have fields : Field.allNamed? [.required "min", .required "max", .required "order"]
          [("min", Content.natural min), ("max", .natural max), ("order", .list contents)] =
            some [some (.natural min), some (.natural max), some (.list contents)] :=
        Field.allNamed?_zip _ [Content.natural min, .natural max, .list contents] (by decide) rfl
      have least := Content.word?_natural fits.1
      have most := Content.word?_natural fits.2
      refine ⟨.table [(.text "min", .natural min), (.text "max", .natural max),
        (.text "order", .list contents)], ?_, ?_, ?_⟩
      · simp [body, Json.toContent?, Json.toEntries?, known]
      · simp [key, ofContent?, Content.record?, Content.keyName?, fields, least, most]
      · simp only [Content.depth, Content.depthOfEntries]
        omega
  | group | set | maybe | option | oneOrMore | zeroOrMore =>
      refine ⟨.list contents, ?_, rfl, Nat.lt_succ_self _⟩
      simp [body, Json.toContent?, known]

end Form

namespace Entry

mutual

theorem content_read : ∀ entry : Entry, entry.FitsWord →
    ∃ content, entry.toJson.toContent? = some content ∧
      ∀ levels, content.depth < levels → ofContentWithin? levels content = some entry
  | token name, _ => by
      refine ⟨.text name, rfl, fun levels enough => ?_⟩
      cases levels with
      | zero => cases enough
      | succ levels => rfl
  | block form entries, fits => by
      obtain ⟨contents, known, list⟩ := contents_read entries fits.2
      obtain ⟨content, written, read, deeper⟩ := form.body_read fits.1 known
      refine ⟨.table [(.text form.key, content)], ?_, fun levels enough => ?_⟩
      · simp [toJson, Form.toJson_eq, Json.toContent?, Json.toEntries?, written]
      · simp only [Content.depth, Content.depthOfEntries] at enough
        cases levels with
        | zero => cases enough
        | succ levels =>
            have inside := list levels (by omega)
            simp [ofContentWithin?, Content.keyName?, read, inside]

theorem contents_read : ∀ entries : List Entry, AllFitWord entries →
    ∃ contents, Json.toContents? (toJsons entries) = some contents ∧
      ∀ levels, Content.depthOfItems contents < levels →
        contents.mapM (ofContentWithin? levels) = some entries
  | [], _ => ⟨[], rfl, fun _ _ => rfl⟩
  | entry :: entries, fits => by
      obtain ⟨content, written, read⟩ := content_read entry fits.1
      obtain ⟨contents, known, list⟩ := contents_read entries fits.2
      refine ⟨content :: contents, ?_, fun levels enough => ?_⟩
      · simp [toJsons, Json.toContents?, written, known]
      · simp only [Content.depthOfItems] at enough
        have first := read levels (by omega)
        have others := list levels (by omega)
        simp [first, others]

end

theorem ofJson?_toJson {entry : Entry} (fits : entry.FitsWord) :
    ofJson? entry.toJson = some entry := by
  obtain ⟨content, written, read⟩ := content_read entry fits
  simp [ofJson?, written, ofContent?, read]

theorem mapM_toJsons {entries : List Entry} (fit : AllFitWord entries) :
    (toJsons entries).mapM ofJson? = some entries := by
  induction entries with
  | nil => rfl
  | cons entry entries ih => simp [toJsons, ofJson?_toJson fit.1, ih fit.2]

end Entry

/-! ### Rule documents -/

theorem Severity.ofJson?_toJson (severity : Severity) :
    ofJson? severity.toJson = some severity := by
  cases severity <;> rfl

theorem ArgumentPattern.ofJson?_toJson (condition : ArgumentPattern) :
    ofJson? condition.toJson = some condition := by
  cases condition with
  | oneOf literals => simp [toJson, ofJson?, Json.variant?]
  | wildcard | value literal | type name => rfl

namespace Operation

theorem nullableField?_signatureJson (signature : Option (List ArgumentPattern)) :
    Json.nullableField? (Json.list? ArgumentPattern.ofJson?) (some (signatureJson signature)) =
      some signature := by
  cases signature with
  | none => rfl
  | some conditions =>
      have back : (Json.array (conditions.map ArgumentPattern.toJson)).list?
          ArgumentPattern.ofJson? = some conditions :=
        Json.list?_array _ _ fun condition _ => condition.ofJson?_toJson
      exact congrArg (Option.map some) back

theorem ofJson?_toJson (operation : Operation) : ofJson? operation.toJson = some operation := by
  have found : operation.toJson.record? fields =
      some [some (.text operation.target), some (signatureJson operation.signature)] :=
    Json.record?_object _ [.text operation.target, signatureJson operation.signature] (by decide)
      rfl
  simp [ofJson?, found, nullableField?_signatureJson, Json.text?]

end Operation

namespace RuleDocument

def FitsWord (d : RuleDocument) : Prop := Entry.AllFitWord d.order

theorem ofJson?_toJson {d : RuleDocument} (fits : d.FitsWord) : ofJson? d.toJson = some d := by
  have found : d.toJson.record? fields = some [some (.text d.rule), some (.text d.base),
      some (.textOrNull d.failMessage), some (.textOrNull d.passMessage), some d.severity.toJson,
      some (Json.ofMap Operation.toJson d.operations), some (.array (Entry.toJsons d.order))] :=
    Json.record?_object _ [.text d.rule, .text d.base, .textOrNull d.failMessage,
      .textOrNull d.passMessage, d.severity.toJson, Json.ofMap Operation.toJson d.operations,
      .array (Entry.toJsons d.order)] (by decide) rfl
  have operations := Json.map?_ofMap Operation.toJson Operation.ofJson? Operation.ofJson?_toJson
    d.operations
  have order := Entry.mapM_toJsons fits
  simp [ofJson?, found, Json.text?, Json.optionalField?, Severity.ofJson?_toJson, operations,
    Json.list?, order]

end RuleDocument

/-- Patterns, automata and rule documents are read back from their JSON as they were. A text in an
order is always a token, whatever it is, and a list under the name of a form is always that list. -/
theorem json_round_trip :
    (∀ p : Pattern, p.FitsWord → Pattern.ofJson? p.toJson = some p) ∧
    (∀ d : Dfa, Dfa.ofJson? d.toJson = some d) ∧
    (∀ d : RuleDocument, d.FitsWord → RuleDocument.ofJson? d.toJson = some d) ∧
    (∀ name : Token, Entry.ofJson? (.text name) = some (.token name)) ∧
    ∀ (form : Form) (entries : List Entry), form.FitsWord → Entry.AllFitWord entries →
      Entry.ofJson? (.object [(form.key, form.body (Entry.toJsons entries))]) =
        some (.block form entries) := by
  refine ⟨fun _ => Pattern.ofJson?_toJson, Dfa.ofJson?_toJson, fun _ => RuleDocument.ofJson?_toJson,
    fun _ => rfl, ?_⟩
  intro form entries fits allFit
  have list : (Entry.block form entries).FitsWord := ⟨fits, allFit⟩
  rw [← Form.toJson_eq]
  exact Entry.ofJson?_toJson list

/-- An order whose tokens are called like the parts of a document. -/
def lookalikes : List Entry :=
  [.token "group", .block .group [.token "set", .block .set [.token "order", .token "count"]],
    .block .maybe [.block .option []], .block .oneOrMore [.token "some", .token "null"],
    .block .zeroOrMore [.block (.exactly 0) [.token "exactly"]],
    .block (.atLeast 4294967295) [.block (.between 3 1) [.token "", .token "between"]]]

def lookalikeRule : RuleDocument where
  rule := "rule"
  base := "base"
  failMessage := some "null"
  passMessage := none
  severity := .info
  operations := .ofList [("target", Operation.any ""), ("signature", Operation.mk "null"
    (some [.wildcard, .value "wildcard", .type "type", .oneOf ["value", "one_of"], .oneOf []]))]
  order := lookalikes

def unsuited : Pattern :=
  .quantified (.sequence (.terminal "" "op") (.quantified (.terminal "base" "") .maybe
    (some (.range 3 1)))) .between none

theorem lookalikes_round_trip : lookalikeRule.FitsWord ∧ unsuited.FitsWord ∧
    RuleDocument.ofJson? lookalikeRule.toJson = some lookalikeRule ∧
    Pattern.ofJson? unsuited.toJson = some unsuited ∧
    Entry.ofJson? (.object [("group", .array [.text "group"])]) =
      some (.block .group [.token "group"]) := by
  obtain ⟨patterns, _, documents, _, lists⟩ := json_round_trip
  have fits : lookalikeRule.FitsWord := by
    simp [RuleDocument.FitsWord, lookalikeRule, lookalikes, Entry.AllFitWord, Entry.FitsWord,
      Form.FitsWord, UInt32.size]
  have fitsToo : unsuited.FitsWord := by
    simp [unsuited, Pattern.FitsWord, Bound.FitsWord, UInt32.size]
  exact ⟨fits, fitsToo, documents _ fits, patterns _ fitsToo,
    lists .group [.token "group"] trivial ⟨trivial, trivial⟩⟩

end CallOrder
