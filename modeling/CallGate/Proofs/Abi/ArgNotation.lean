import CallGate.Proofs.Abi.TableReading
import Mathlib.Data.Int.Notation

/-!
# Notations for arguments

An argument has a name, a size, and perhaps a type, which fixes the size. Few of them have to be
written down: `Arg.Settles` says what type and what size are meant where one or both are missing,
and `Arg.IsGivenBy` which records give which argument. What is read from a record is just what the
record gives (`Arg.ofFields_eq_ok`), so whatever holds of all that is given holds of all arguments
there are, in whatever notation they come.

A size beside a type is compared with that of the type before it is read as an integer. The two do
not drift apart in between: what equals an integer is read as this integer, or not at all
(`eq_of_lenientInteger`).
-/

namespace CallGate.Abi

open CallGate.Data

/-! ## Values that stand for integers -/

theorem equal_int {v : Value} {n : ℤ} : v.equal (.int n) = true ↔ v.integer? = some n := by
  cases v with
  | real x =>
    cases hx : x.toInt? with
    | none => simp [Value.equal, Value.integer?, hx]
    | some m => simp [Value.equal, Value.integer?, hx]
  | _ => simp [Value.equal, Value.integer?]

/-- A double is read as the integer that it is, if that fits a word. -/
theorem lenientInteger_real {x : Number.Binary64} {n : ℤ} :
    lenientInteger (.real x) = .ok n ↔
      x.toInt? = some n ∧ -0x8000000000000000 < n ∧ n < 0x8000000000000000 := by
  simp only [lenientInteger, Number.Binary64.toInt?]
  cases x.truncate? with
  | none => simp [Checked.fail]
  | some k =>
    cases x.isIntegral with
    | false => simp [Checked.fail]
    | true =>
      by_cases hword : -0x8000000000000000 < k ∧ k < 0x8000000000000000
      · simp only [hword, and_self, if_true, Bool.not_true, Bool.false_eq_true, if_false,
          Except.ok.injEq, Option.some.injEq]
        exact ⟨fun h ↦ ⟨h, h ▸ hword⟩, And.left⟩
      · simp only [hword, if_false, if_true, Bool.not_true, Bool.false_eq_true, Checked.fail,
          reduceCtorEq, Option.some.injEq, false_iff, not_and]
        rintro rfl hlow hhigh
        exact hword ⟨hlow, hhigh⟩

/-- What equals an integer is read as nothing else. -/
theorem eq_of_lenientInteger {v : Value} {m n : ℤ} (hv : v.integer? = some m)
    (h : lenientInteger v = .ok n) : m = n := by
  cases v with
  | int k =>
    cases hv
    cases h
    rfl
  | bool b =>
    cases hv
    cases h
    rfl
  | real x => exact Option.some.inj (hv.symm.trans (lenientInteger_real.mp h).1)
  | _ => cases hv

/-! ## Records -/

namespace Arg

variable {a : Arg} {fields : List (Value × Value)}

/-- The type and the size that a record means, the size as it is written. -/
inductive Settles (fields : List (Value × Value)) : Option ArgType → Value → Prop
  | neither (htype : present? "type" fields = none) (hsize : Value.field? "size" fields = none) :
      Settles fields (some .default) (.int ArgType.default.size)
  | size {size : Value} (htype : present? "type" fields = none)
      (hsize : Value.field? "size" fields = some size) : Settles fields none size
  | type {t : ArgType} (htype : Value.field? "type" fields = some (.text t.name))
      (hsize : Value.field? "size" fields = none) : Settles fields (some t) (.int t.size)
  | both {t : ArgType} {size : Value} (htype : Value.field? "type" fields = some (.text t.name))
      (hsize : Value.field? "size" fields = some size) (hfits : size.integer? = some (t.size : ℤ)) :
      Settles fields (some t) size

/-- The argument that a record gives. -/
structure IsGivenBy (a : Arg) (fields : List (Value × Value)) : Prop where
  name : ∃ v, Value.field? "name" fields = some v ∧ v.Spells a.name
  name_ne : a.name ≠ ""
  size : ∃ v, Settles fields a.type v ∧ lenientInteger v = .ok a.size
  size_pos : 0 < a.size
  keys : KeysAmong ["name", "size", "type"] fields

theorem ofValue?_eq_some {v : Value} {t : ArgType} :
    ArgType.ofValue? v = some t ↔ v = .text t.name := by
  constructor
  · intro h
    cases v with
    | text s =>
      have hname := List.find?_some h
      rw [beq_iff_eq] at hname
      rw [hname]
    | _ => cases h
  · rintro rfl
    exact ArgType.ofName?_name t

theorem present?_eq_some {key : String} {v : Value} (hv : v ≠ .null) :
    present? key fields = some v ↔ Value.field? key fields = some v := by
  rw [present?]
  cases Value.field? key fields with
  | none => rfl
  | some w =>
    cases w with
    | null => simpa using hv.symm
    | _ => rfl

theorem completed_eq_ok {type : Option ArgType} {size : Value} :
    completed fields = .ok (type, size) ↔ Settles fields type size := by
  have hnamed {t : ArgType} : present? "type" fields = some (.text t.name) ↔
      Value.field? "type" fields = some (.text t.name) := present?_eq_some (by rintro ⟨⟩)
  constructor
  · intro h
    rw [completed] at h
    split at h
    · next htype hsize =>
      cases h
      exact .neither htype hsize
    · next size' htype hsize =>
      cases h
      exact .size htype hsize
    · next htype =>
      split at h
      · cases h
      · next t ht =>
        rw [ofValue?_eq_some.mp ht, hnamed] at htype
        split at h
        · next hsize =>
          cases h
          exact .type htype hsize
        · next size' hsize =>
          split at h
          · next hequal =>
            cases h
            exact .both htype hsize (equal_int.mp hequal)
          · cases h
  · intro h
    cases h with
    | neither htype hsize => rw [completed, htype, hsize]
    | size htype hsize => rw [completed, htype, hsize]
    | type htype hsize =>
      rw [completed, hnamed.mpr htype, hsize]
      simp only [ofValue?_eq_some.mpr rfl]
    | both htype hsize hfits =>
      rw [completed, hnamed.mpr htype, hsize]
      simp only [ofValue?_eq_some.mpr rfl, equal_int.mpr hfits, if_true]

theorem positive_eq_ok {v : Value} {n : ℕ} :
    positive v = .ok n ↔ lenientInteger v = .ok (n : ℤ) ∧ 0 < n := by
  rw [positive]
  cases lenientInteger v with
  | error is => simp
  | ok k =>
    by_cases hk : 0 < k
    · simp only [hk, if_true, Except.ok.injEq]
      omega
    · simp only [hk, if_false, Checked.fail, Except.ok.injEq, reduceCtorEq, false_iff]
      omega

/-- **What is read from a record is what it gives.** -/
theorem ofFields_eq_ok : ofFields fields = .ok a ↔ a.IsGivenBy fields := by
  constructor
  · intro h
    cases hsettled : completed fields with
    | error fault =>
      rw [ofFields, hsettled] at h
      cases h
    | ok p =>
      obtain ⟨type, size⟩ := p
      rw [ofFields_eq hsettled, map_eq_ok] at h
      obtain ⟨⟨name, n, ⟨⟩⟩, hrecord, rfl⟩ := h
      obtain ⟨hname, hsize, hkeys⟩ := Checked.record_eq_ok.mp hrecord
      obtain ⟨v, hfield, hv⟩ := Checked.required_eq_ok.mp hname
      obtain ⟨hspells, hne⟩ := nonEmptyText_eq_ok.mp hv
      obtain ⟨hread, hpos⟩ := positive_eq_ok.mp (Checked.under_eq_ok.mp hsize)
      exact ⟨⟨v, hfield, hspells⟩, hne, ⟨size, completed_eq_ok.mp hsettled, hread⟩, hpos, hkeys⟩
  · rintro ⟨⟨v, hfield, hspells⟩, hne, ⟨size, hsettles, hread⟩, hpos, hkeys⟩
    rw [ofFields_eq (completed_eq_ok.mpr hsettles), map_eq_ok]
    have hname := Checked.required_eq_ok.mpr ⟨v, hfield, nonEmptyText_eq_ok.mpr ⟨hspells, hne⟩⟩
    have hsize : Checked.under (.key "size") (positive size) = .ok a.size :=
      Checked.under_eq_ok.mpr (positive_eq_ok.mpr ⟨hread, hpos⟩)
    exact ⟨(a.name, a.size, ()), Checked.record_eq_ok.mpr ⟨hname, hsize, hkeys⟩, rfl⟩

/-! ## Notations -/

theorem key_of_field? {key : String} {k v w : Value} (h : Value.field? key [(k, v)] = some w) :
    k = .text key := by
  cases k with
  | text s =>
    rw [Value.field?] at h
    split at h
    · next hs => rw [hs]
    · cases h
  | _ => cases h

/-- Other maps are records. -/
theorem ofValue_map (h : ∀ k v, fields = [(k, v)] → k = .text "name") :
    ofValue (.map fields) = ofFields fields := by
  have hspelled : spelledOut (.map fields) = .map fields := by
    match fields with
    | [] => rfl
    | [(k, v)] =>
      rw [h k v rfl]
      rfl
    | e :: e' :: fields => rw [spelledOut] <;> nofun
  rw [ofValue, hspelled]

/-- What is written in a record, in whatever order. -/
structure Notes (fields : List (Value × Value)) (name : Value) (type size : Option Value) :
    Prop where
  name_eq : Value.field? "name" fields = some name
  type_eq : Value.field? "type" fields = type
  size_eq : Value.field? "size" fields = size
  keys : KeysAmong ["name", "size", "type"] fields

section

variable {n : String} {t : ArgType} {type size : Option Value}

theorem Notes.ofValue_eq_ofFields (h : Notes fields (.text n) type size) :
    ofValue (.map fields) = ofFields fields := by
  refine ofValue_map ?_
  rintro k v rfl
  exact key_of_field? h.name_eq

theorem Notes.ofValue_eq (h : Notes fields (.text a.name) type size) (hne : a.name ≠ "")
    {v : Value} (hsettles : Settles fields a.type v) (hread : lenientInteger v = .ok (a.size : ℤ))
    (hpos : 0 < a.size) : ofValue (.map fields) = .ok a := by
  rw [h.ofValue_eq_ofFields, ofFields_eq_ok]
  exact ⟨⟨_, h.name_eq, .text _⟩, hne, ⟨v, hsettles, hread⟩, hpos, h.keys⟩

theorem size_pos (t : ArgType) : 0 < t.size := by
  cases t <;> decide

theorem present?_eq_none {key : String} (h : Value.field? key fields = none ∨
    Value.field? key fields = some .null) : present? key fields = none := by
  rcases h with h | h
  · rw [present?, h]
  · rw [present?, h]

theorem Settles.integer?_eq {v : Value} (h : Settles fields (some t) v) :
    v.integer? = some (t.size : ℤ) := by
  cases h with
  | neither => rfl
  | type => rfl
  | both _ _ hfits => exact hfits

/-- With a type comes its size. -/
theorem IsGivenBy.size_eq (h : a.IsGivenBy fields) : ∀ t ∈ a.type, a.size = t.size := by
  intro t ht
  obtain ⟨v, hsettles, hread⟩ := h.size
  rw [ht] at hsettles
  have hsame := eq_of_lenientInteger hsettles.integer?_eq hread
  omega

end

end Arg

end CallGate.Abi
