import CallOrder.Proofs.Result
import CallOrder.Proofs.Yaml.Mapping
import CallOrder.Settings.Document
import Mathlib.Data.List.Forall2

/-!
Settings in documents. Main statement: settings are loaded as they were saved if they keep to their
ranges, and nothing else is ever loaded than a preset with what a document says in its place.
-/

namespace CallOrder

open Yaml (Document Node Reading PlainWord PlainPair wordNode)

/-! ### Words -/

theorem plainWord_toString (n : Nat) : PlainWord (toString n).toList where
  present := by simp
  plain c member := by
    have digit : c.isDigit = true := isDigit_of_mem_toDigits (by simpa using member)
    simp [Yaml.isPlainChar, Char.isAlphanum, digit]

theorem toString_ne_empty (n : Nat) : toString n ≠ "" := by
  intro empty
  exact (plainWord_toString n).present (by rw [empty]; rfl)

theorem isNull_toString (n : Nat) : Yaml.isNull (toString n) = false := by
  have digits : ∀ c ∈ (toString n).toList, c.isDigit = true := by
    intro c member
    exact isDigit_of_mem_toDigits (by simpa using member)
  rw [Yaml.isNull, List.contains_eq_mem, decide_eq_false_iff_not]
  intro member
  have letters :
      ["null", "Null", "NULL", "~"].any (fun name => name.toList.all Char.isDigit) = false := by
    decide
  exact List.any_eq_false.mp letters _ member (List.all_eq_true.mpr digits)

theorem plainWord_toString_bool (b : Bool) : PlainWord (toString b).toList := by
  cases b <;> exact ⟨by decide, List.all_eq_true.mp (by decide)⟩

namespace SettingsDocument

/-- All that the document says is a word that stands for itself, or a number of the width that is
read in its place. -/
structure Plain (d : SettingsDocument) : Prop where
  version : ∀ n ∈ d.version, n < UInt32.size
  preset : ∀ name ∈ d.preset, PlainWord name.toList ∧ Yaml.isNull name = false
  maxNfaStates : ∀ n ∈ d.maxNfaStates, n < UInt64.size
  maxDfaStates : ∀ n ∈ d.maxDfaStates, n < UInt64.size
  maxBound : ∀ n ∈ d.maxBound, n < UInt32.size

variable {α : Type} {write : α → String} {value : Option α}

theorem plainWord_written (plain : ∀ a ∈ value, PlainWord (write a).toList) :
    PlainWord (written write value).toList := by
  cases value with
  | none =>
      have null : PlainWord "null".toList := ⟨by decide, List.all_eq_true.mp (by decide)⟩
      exact null
  | some a => exact plain a rfl

theorem nullableField?_written {read : Node → Reading α}
    (back : ∀ a ∈ value, write a ≠ "" ∧ Yaml.isNull (write a) = false ∧
      read (wordNode (write a)) = pure a) :
    Node.nullableField? read (some (wordNode (written write value))) = pure value := by
  cases value with
  | none => exact Node.nullableField?_null
  | some a =>
      obtain ⟨present, named, reads⟩ := back a rfl
      exact Node.nullableField?_word present named reads

variable {d : SettingsDocument}

theorem plainPair_entries (plain : d.Plain) : ∀ pair ∈ toYaml.entries d, PlainPair pair := by
  have keys : ∀ name ∈ fields.map Field.name, name.toList ≠ [] ∧
      name.toList.all Yaml.isPlainChar = true ∧ Yaml.byteCount name.toList ≤ 1024 := by
    decide
  have values : ∀ pair ∈ toYaml.entries d, PlainWord pair.2.toList := by
    simp only [toYaml.entries, List.forall_mem_cons]
    exact ⟨plainWord_written fun n _ => plainWord_toString n,
      plainWord_written fun name said => (plain.preset name said).1,
      plainWord_written fun b _ => plainWord_toString_bool b,
      plainWord_written fun b _ => plainWord_toString_bool b,
      plainWord_written fun n _ => plainWord_toString n,
      plainWord_written fun n _ => plainWord_toString n,
      plainWord_written fun n _ => plainWord_toString n, List.forall_mem_nil _⟩
  intro pair member
  have declared : (toYaml.entries d).map Prod.fst = fields.map Field.name := rfl
  obtain ⟨present, word, short⟩ := keys pair.1 (declared ▸ List.mem_map_of_mem member)
  exact ⟨⟨present, List.all_eq_true.mp word⟩, short, values pair member⟩

theorem ofNode?_toYaml (plain : d.Plain) : ofNode? (.mapping .bare
    ((toYaml.entries d).map (Prod.map wordNode wordNode))) = pure d := by
  have number : ∀ {read : Node → Reading Nat} {value : Option Nat},
      (∀ n ∈ value, read (wordNode (toString n)) = pure n) →
        Node.nullableField? read (some (wordNode (written toString value))) = pure value :=
    fun back => nullableField?_written fun n said =>
      ⟨toString_ne_empty n, isNull_toString n, back n said⟩
  have flag : ∀ value : Option Bool,
      Node.nullableField? Node.bool? (some (wordNode (written toString value))) = pure value :=
    fun value => nullableField?_written fun b _ =>
      ⟨by cases b <;> decide, by cases b <;> decide, Node.bool?_word b⟩
  have preset : Node.nullableField? Node.text? (some (wordNode (written id d.preset))) =
      pure d.preset :=
    nullableField?_written fun name said =>
      ⟨fun empty => (plain.preset name said).1.present (String.toList_eq_nil_iff.mpr empty),
        (plain.preset name said).2, Node.text?_wordNode name⟩
  rw [ofNode?, Node.strictRecord?_mapping (by decide) rfl, pure_bind]
  simp only [toYaml.entries, List.map_cons, List.map_nil]
  rw [number fun n said => Node.word?_word (plain.version n said), preset, flag, flag,
    number fun n said => Node.natural?_word (plain.maxNfaStates n said),
    number fun n said => Node.natural?_word (plain.maxDfaStates n said),
    number fun n said => Node.word?_word (plain.maxBound n said)]
  rfl

theorem read_toYaml (plain : d.Plain) :
    (Document.parse? d.toYaml).bind (·.read? ofNode?) = some d := by
  have spelt : d.toYaml.toList = (toYaml.entries d).flatMap Yaml.lineText := by
    rw [toYaml, String.toList_join, List.flatMap_map]
    congr 1
    funext pair
    simp [Yaml.lineText]
  rw [Yaml.parse?_lines (plainPair_entries plain) (List.cons_ne_nil _ _) spelt]
  exact Yaml.read?_eq_some (ofNode?_toYaml plain)

end SettingsDocument

/-! ### Presets -/

namespace Preset

/-- A name of the preset, each letter of it small or large. -/
def Called (p : Preset) (name : String) : Prop :=
  List.Forall₂ (fun letter c => c = letter ∨ c = letter.toUpper) p.name.toList name.toList

theorem isLower_iff (c : Char) : c.isLower = true ↔ 97 ≤ c.toNat ∧ c.toNat ≤ 122 := by
  have bounds : c.isLower = (decide (97 ≤ c.toNat) && decide (c.toNat ≤ 122)) := rfl
  rw [bounds, Bool.and_eq_true, decide_eq_true_iff, decide_eq_true_iff]

theorem toNat_toLower (c : Char) :
    c.toLower.toNat = if 65 ≤ c.toNat ∧ c.toNat ≤ 90 then c.toNat + 32 else c.toNat := by
  by_cases large : 65 ≤ c.toNat ∧ c.toNat ≤ 90
  · have moved : (c.val + 32).toNat = (c.toNat + 32) % 4294967296 := UInt32.toNat_add c.val 32
    rw [if_pos large]
    exact (congrArg Char.toNat (dif_pos large)).trans (moved.trans (by omega))
  · rw [if_neg large]
    exact congrArg Char.toNat (dif_neg large)

theorem toNat_toUpper {c : Char} (small : c.isLower = true) : c.toUpper.toNat = c.toNat - 32 := by
  have bounds := (isLower_iff c).mp small
  have moved : (c.val + ('A'.val - 'a'.val)).toNat = (c.toNat + 4294967264) % 4294967296 :=
    UInt32.toNat_add c.val _
  exact (congrArg Char.toNat (dif_pos bounds)).trans (moved.trans (by omega))

theorem toLower_eq_iff {c letter : Char} (small : letter.isLower = true) :
    c.toLower = letter ↔ c = letter ∨ c = letter.toUpper := by
  have bounds := (isLower_iff letter).mp small
  rw [← Char.toNat_inj, ← Char.toNat_inj, ← Char.toNat_inj, toNat_toLower, toNat_toUpper small]
  split <;> omega

theorem toLower_eq_name_iff (p : Preset) (name : String) :
    name.toLower = p.name ↔ p.Called name := by
  have small : ∀ letter ∈ p.name.toList, letter.isLower = true :=
    List.all_eq_true.mp (by cases p <;> decide)
  have lowered : name.toLower.toList = name.toList.map Char.toLower := String.toList_map
  rw [Called, ← String.toList_inj, lowered]
  generalize p.name.toList = letters at small
  generalize name.toList = spelt
  induction letters generalizing spelt with
  | nil => cases spelt <;> simp
  | cons letter letters ih =>
      obtain ⟨first, others⟩ := List.forall_mem_cons.mp small
      cases spelt with
      | nil => simp
      | cons c spelt => simp [toLower_eq_iff first, ih others]

theorem ofName_eq_ok_iff (p : Preset) (name : String) : ofName name = .ok p ↔ p.Called name := by
  rw [← toLower_eq_name_iff, ofName]
  split
  case h_1 spelt | h_2 spelt | h_3 spelt =>
    rw [spelt]
    cases p <;> simp [Preset.name]
  case h_4 =>
    cases p <;> simp_all [Preset.name]

end Preset

/-! ### Ranges -/

namespace Settings

structure Valid (s : Settings) : Prop where
  nfaStates : 2 ≤ s.maxNfaStates ∧ s.maxNfaStates ≤ 10000000
  dfaStates : 1 ≤ s.maxDfaStates ∧ s.maxDfaStates ≤ 1000000
  bound : 1 ≤ s.maxBound ∧ s.maxBound ≤ 65536

def IsRangeError (e : Error) : Prop :=
  ∃ field value min max hint, ¬ (min ≤ value ∧ value ≤ max) ∧
    e = .settings (.outOfRange field value min max hint)

theorem checkRange_cases (field : String) (value min max : Nat) (hint : String) :
    (min ≤ value ∧ value ≤ max) ∧ checkRange field value min max hint = .ok () ∨
    ¬ (min ≤ value ∧ value ≤ max) ∧ ∃ e, IsRangeError e ∧
      checkRange field value min max hint = .error e := by
  by_cases within : min ≤ value ∧ value ≤ max
  · exact Or.inl ⟨within, if_pos within⟩
  · exact Or.inr ⟨within, _, ⟨field, value, min, max, hint, within, rfl⟩, if_neg within⟩

theorem validate_cases (s : Settings) : s.Valid ∧ s.validate = .ok () ∨
    ¬ s.Valid ∧ ∃ e, IsRangeError e ∧ s.validate = .error e := by
  rcases checkRange_cases "max_nfa_states" s.maxNfaStates 2 10000000
    "An NFA needs at least a start and an accepting state" with
      ⟨nfa, first⟩ | ⟨nfa, e, range, first⟩
  · rcases checkRange_cases "max_dfa_states" s.maxDfaStates 1 1000000 "Use at least 1" with
      ⟨dfa, second⟩ | ⟨dfa, e, range, second⟩
    · rcases checkRange_cases "max_quantifier_bound" s.maxBound 1 65536
        "Large counted repetitions blow up the automaton" with
          ⟨bound, third⟩ | ⟨bound, e, range, third⟩
      · exact Or.inl ⟨⟨nfa, dfa, bound⟩, by rw [validate, first, second, third]; rfl⟩
      · exact Or.inr ⟨fun valid => bound valid.bound, e, range,
          by rw [validate, first, second, third]; rfl⟩
    · exact Or.inr ⟨fun valid => dfa valid.dfaStates, e, range,
        by rw [validate, first, second]; rfl⟩
  · exact Or.inr ⟨fun valid => nfa valid.nfaStates, e, range, by rw [validate, first]; rfl⟩

end Settings

/-! ### What a document comes to -/

namespace SettingsDocument

/-- The preset that the document names, or else the one that needs no name. -/
def StartsFrom (d : SettingsDocument) (p : Preset) : Prop :=
  d.preset = none ∧ p = .standard ∨ ∃ name, d.preset = some name ∧ p.Called name

theorem resolve_eq_bind {d : SettingsDocument} (version : d.version = some supportedVersion) :
    d.resolve = (match d.preset with
      | some name => Preset.ofName name
      | none => pure .standard) >>= fun p =>
        (d.overlay p.settings).validate >>= fun _ => pure (d.overlay p.settings) := by
  rw [resolve, version]
  cases d.preset <;> rfl

theorem startsFrom_iff (d : SettingsDocument) (p : Preset) : (match d.preset with
    | some name => Preset.ofName name
    | none => pure .standard) = .ok p ↔ d.StartsFrom p := by
  cases named : d.preset with
  | none => simp [StartsFrom, named, pure, Except.pure, eq_comm]
  | some name => simp [StartsFrom, named, Preset.ofName_eq_ok_iff]

theorem version_of_resolve {d : SettingsDocument} {s : Settings} (resolved : d.resolve = .ok s) :
    d.version = some supportedVersion := by
  rw [resolve] at resolved
  cases said : d.version with
  | none => rw [said] at resolved; cases resolved
  | some version =>
      by_cases supported : version = supportedVersion
      · rw [supported]
      · simp [said, supported, bind, Except.bind, throw, throwThe, MonadExceptOf.throw] at resolved

theorem resolve_eq_ok_iff (d : SettingsDocument) (s : Settings) : d.resolve = .ok s ↔
    d.version = some 1 ∧ ∃ p, d.StartsFrom p ∧ s = d.overlay p.settings ∧ s.validate = .ok () := by
  constructor
  · intro resolved
    have version := version_of_resolve resolved
    rw [resolve_eq_bind version] at resolved
    obtain ⟨p, start, checked⟩ := bind_eq_ok resolved
    obtain ⟨_, valid, kept⟩ := bind_eq_ok checked
    cases kept
    exact ⟨version, p, (startsFrom_iff d p).mp start, rfl, valid⟩
  · rintro ⟨version, p, start, rfl, valid⟩
    rw [resolve_eq_bind version, (startsFrom_iff d p).mpr start, ok_bind, valid]
    rfl

theorem plain_ofSettings {c : Settings} (nfaStates : c.maxNfaStates < UInt64.size)
    (dfaStates : c.maxDfaStates < UInt64.size) (bound : c.maxBound < UInt32.size) :
    (ofSettings c).Plain where
  version := by rintro n ⟨⟩; decide
  preset := by rintro name ⟨⟩
  maxNfaStates := by rintro n ⟨⟩; exact nfaStates
  maxDfaStates := by rintro n ⟨⟩; exact dfaStates
  maxBound := by rintro n ⟨⟩; exact bound

theorem resolve_ofSettings (c : Settings) :
    (ofSettings c).resolve = c.validate.map fun _ => c := by
  have whole : (ofSettings c).resolve = c.validate >>= fun _ => pure c := resolve_eq_bind rfl
  rw [whole]
  cases c.validate <;> rfl

def IsReadFrom (d : SettingsDocument) (text : String) : Prop :=
  (Document.parse? text).bind (·.read? ofNode?) = some d

theorem ofYaml_eq_resolve {d : SettingsDocument} {text : String} (read : d.IsReadFrom text) :
    Settings.ofYaml text = d.resolve := by
  rw [Settings.ofYaml, read]

end SettingsDocument

namespace Settings

theorem isReadFrom_of_ofYaml {text : String} {s : Settings} (loaded : ofYaml text = .ok s) :
    ∃ d : SettingsDocument, d.IsReadFrom text := by
  cases read : (Document.parse? text).bind (·.read? SettingsDocument.ofNode?) with
  | some d => exact ⟨d, read⟩
  | none => rw [ofYaml, read] at loaded; cases loaded

theorem ofYaml_toYaml {c : Settings} (nfaStates : c.maxNfaStates < UInt64.size)
    (dfaStates : c.maxDfaStates < UInt64.size) (bound : c.maxBound < UInt32.size) :
    ofYaml c.toYaml = c.validate.map fun _ => c := by
  have plain := SettingsDocument.plain_ofSettings nfaStates dfaStates bound
  rw [toYaml, SettingsDocument.ofYaml_eq_resolve (SettingsDocument.read_toYaml plain),
    SettingsDocument.resolve_ofSettings]

/-- Saved settings of any numbers that their types can hold are loaded again, or else are refused as
checking them refuses them, which it does only over a number out of its range. A text is loaded only
if it is a document; a document is loaded exactly if it has the first version and a preset that is
known, in letters of any case, or none, and what it lays over that preset passes the check; and that
is then what is loaded. Documents are read as they were written. -/
theorem load_faithful :
    (∀ c : Settings, c.maxNfaStates < UInt64.size → c.maxDfaStates < UInt64.size →
      c.maxBound < UInt32.size → ofYaml c.toYaml = c.validate.map fun _ => c) ∧
    (∀ s : Settings, s.Valid ∧ s.validate = .ok () ∨
      ¬ s.Valid ∧ ∃ e, IsRangeError e ∧ s.validate = .error e) ∧
    (∀ text s, ofYaml text = .ok s → ∃ d : SettingsDocument, d.IsReadFrom text) ∧
    (∀ (d : SettingsDocument) text, d.IsReadFrom text → ∀ s, ofYaml text = .ok s ↔
      d.version = some 1 ∧ ∃ p, d.StartsFrom p ∧ s = d.overlay p.settings ∧ s.validate = .ok ()) ∧
    ∀ d : SettingsDocument, d.Plain → d.IsReadFrom d.toYaml := by
  refine ⟨fun c => ofYaml_toYaml, validate_cases, fun text s => isReadFrom_of_ofYaml, ?_,
    fun d => SettingsDocument.read_toYaml⟩
  intro d text read s
  rw [SettingsDocument.ofYaml_eq_resolve read]
  exact d.resolve_eq_ok_iff s

theorem extremes_load :
    let edges : Settings := ⟨false, true, 2, 1000000, 65536⟩
    let oversized : Settings := ⟨true, true, 18446744073709551615, 0, 0⟩
    let hasty : SettingsDocument := ⟨some 1, some "Fast", none, none, none, some 7, none⟩
    ofYaml edges.toYaml = .ok edges ∧
    ofYaml oversized.toYaml = .error (.settings (.outOfRange "max_nfa_states" 18446744073709551615 2
      10000000 "An NFA needs at least a start and an accepting state")) ∧
    ofYaml hasty.toYaml = .ok ⟨true, false, 2000, 7, 32⟩ := by
  intro edges oversized hasty
  obtain ⟨saved, -, -, loaded, written⟩ := load_faithful
  have plain : hasty.Plain :=
    { version := by rintro n ⟨⟩; decide
      preset := by rintro name ⟨⟩; exact ⟨⟨by decide, List.all_eq_true.mp (by decide)⟩, by decide⟩
      maxNfaStates := by rintro n ⟨⟩
      maxDfaStates := by rintro n ⟨⟩; decide
      maxBound := by rintro n ⟨⟩ }
  have fast : Preset.fast.Called "Fast" :=
    .cons (Or.inr rfl) (.cons (Or.inl rfl) (.cons (Or.inl rfl) (.cons (Or.inl rfl) .nil)))
  refine ⟨(saved edges (by decide) (by decide) (by decide)).trans rfl,
    (saved oversized (by decide) (by decide) (by decide)).trans rfl, ?_⟩
  exact (loaded hasty hasty.toYaml (written hasty plain) _).mpr
    ⟨rfl, .fast, Or.inr ⟨"Fast", rfl, fast⟩, rfl, rfl⟩

end Settings

end CallOrder
