import CallGate.Abi.Load
import CallGate.Proofs.Abi.TableReading

/-!
# How loading a table can fail

A table that cannot be loaded is to be refused with the label of its source, and the reader of the
document is taken at its word: it either has a value for a text or calls the text malformed.
`Table.load_isLabelled_iff` says when that is enough. Everything that can be wrong with a value, at
whatever depth, is a fault that is reported under the label, except for one thing: calls that are
given by a value without items end the reading before a fault is there.
-/

namespace CallGate.Abi

open CallGate.Data

/-- What is reported of a document that is refused: either that it is none, or at least one
fault. -/
inductive InvalidTable.IsFounded : InvalidTable → Prop
  | document : IsFounded .document
  | issues {is : List Issue} (hne : is ≠ []) : IsFounded (.issues is)

/-- A table was loaded, or refused for a good reason and with a label. -/
inductive IsLabelled (source : String) : Except LoadError Table → Prop
  | loaded (t : Table) : IsLabelled source (.ok t)
  | refused {reason : InvalidTable} (h : reason.IsFounded) :
      IsLabelled source (.error (.invalid source reason))

namespace Table

variable {text source : String}

theorem load_of_malformed (h : Yaml.load text depth = .error .malformed) :
    load text source = .error (.invalid source .document) := by
  rw [load, h]

theorem load_of_value {v : Value} {t : Table} (hdoc : Yaml.load text depth = .ok v)
    (h : Table.ofValue v = .ok t) : load text source = .ok t := by
  simp only [load, hdoc, h]

theorem load_of_issues {v : Value} {is : List Issue} (hdoc : Yaml.load text depth = .ok v)
    (h : Table.ofValue v = .error (.issues is)) :
    load text source = .error (.invalid source (.issues is)) := by
  simp only [load, hdoc, h]

theorem load_of_notIterable {v : Value} {kind : String} (hdoc : Yaml.load text depth = .ok v)
    (h : Table.ofValue v = .error (.notIterable kind)) :
    load text source = .error (.notIterable kind) := by
  simp only [load, hdoc, h]

/-- **Loading fails with a label, or for want of items.** Of a text for which the reader of
documents has a value or nothing but the complaint that it is malformed, the table is loaded or
refused under the label of its source, unless the document is a record that gives its calls by a
value without items; then what comes out says no more than the kind of that value. -/
theorem load_isLabelled_iff
    (hyaml : ∀ fault, Yaml.load text depth = .error fault → fault = .malformed) (source : String) :
    (IsLabelled source (load text source) ↔
        ∀ fields, Yaml.load text depth = .ok (.map fields) → ¬ HasNoItems (callsField fields)) ∧
      ∀ fields, Yaml.load text depth = .ok (.map fields) → HasNoItems (callsField fields) →
        load text source = .error (.notIterable (callsField fields).kindName) := by
  have hnone {fields : List (Value × Value)} (hdoc : Yaml.load text depth = .ok (.map fields))
      (h : HasNoItems (callsField fields)) :
      load text source = .error (.notIterable (callsField fields).kindName) :=
    load_of_notIterable hdoc (ofValue_of_no_items (callItems_eq_error.mpr ⟨h, rfl⟩))
  refine ⟨⟨?_, fun h ↦ ?_⟩, fun fields ↦ hnone⟩
  · intro h fields hdoc hbare
    rw [hnone hdoc hbare] at h
    cases h
  · cases hdoc : Yaml.load text depth with
    | error fault =>
      obtain rfl := hyaml fault hdoc
      rw [load_of_malformed hdoc]
      exact .refused .document
    | ok v =>
      cases hread : Table.ofValue v with
      | ok t =>
        rw [load_of_value hdoc hread]
        exact .loaded t
      | error fault =>
        rcases ofValue_eq_error hread with ⟨is, hne, rfl⟩ | ⟨fields, rfl, hbare, -⟩
        · rw [load_of_issues hdoc hread]
          exact .refused (.issues hne)
        · exact absurd hbare (h fields hdoc)

/-- A call without a name, two levels down. -/
theorem load_isLabelled_nameless :
    IsLabelled "table.yaml" (load "name: t\ncalls: [{args: [fd]}]\n" "table.yaml") := by
  have hread : (Yaml.load "name: t\ncalls: [{args: [fd]}]\n" depth).map
      (fun v ↦ (Table.ofValue v).map fun _ ↦ ()) =
        .ok (.error (.issues [⟨[.key "calls", .index 0, .key "name"], .missing⟩])) := by
    decide +kernel
  obtain ⟨v, hv, hrefused⟩ := map_eq_ok.mp hread
  refine (load_isLabelled_iff ?_ _).1.mpr ?_
  · intro fault hfault
    rw [hv] at hfault
    cases hfault
  · intro fields hfields hbare
    rw [hv] at hfields
    cases hfields
    rw [ofValue_of_no_items (callItems_eq_error.mpr ⟨hbare, rfl⟩)] at hrefused
    cases hrefused

/-- A number in the place of the calls, and no label on what comes out. -/
theorem not_isLabelled_number :
    load "name: t\ncalls: 5\n" "table.yaml" = .error (.notIterable "int") ∧
      ¬ IsLabelled "table.yaml" (load "name: t\ncalls: 5\n" "table.yaml") := by
  have hload : load "name: t\ncalls: 5\n" "table.yaml" = .error (.notIterable "int") := by
    decide +kernel
  refine ⟨hload, ?_⟩
  rw [hload]
  rintro ⟨⟩

end Table

end CallGate.Abi
