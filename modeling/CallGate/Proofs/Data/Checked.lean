import CallGate.Data.Issue
import CallGate.Proofs.Data.Outcome

/-!
# What readers of plain data take

A reader of a record is put together from readers of its fields, and takes the record if each of
them takes its field and there is no other key. The lemmas here say so for each way of putting
readers together, so that what a whole reader takes can be read off without running it.

A refusal comes with the faults that it was made for. `IsFounded` says that there is at least one,
and is kept by everything that puts readers together.
-/

namespace CallGate.Data

/-! ## Texts -/

/-- A value stands for a text: it is one, or the bytes of one. -/
inductive Value.Spells : Value → String → Prop
  | text (s : String) : Spells (.text s) s
  | bytes {content : List UInt8} {s : String} (h : decodedText? content = some s) :
      Spells (.bytes content) s

theorem lenientText_eq_ok {v : Value} {s : String} : lenientText v = .ok s ↔ v.Spells s := by
  constructor
  · intro h
    unfold lenientText at h
    split at h
    · cases h
      exact .text _
    · cases h
    · next content =>
      split at h
      · next hs =>
        cases h
        exact .bytes hs
      · cases h
    · cases h
  · rintro (_ | h)
    · rfl
    · simp [lenientText, h]

theorem Value.Spells.unique {v : Value} {s t : String} (hs : v.Spells s) (ht : v.Spells t) :
    s = t := by
  rw [← lenientText_eq_ok] at hs ht
  exact Except.ok.inj (hs.symm.trans ht)

theorem nonEmptyText_eq_ok {v : Value} {s : String} :
    nonEmptyText v = .ok s ↔ v.Spells s ∧ s ≠ "" := by
  rw [← lenientText_eq_ok, nonEmptyText]
  cases lenientText v with
  | error is => simp
  | ok s' =>
    by_cases hs : s' = ""
    · subst hs
      constructor
      · rintro ⟨⟩
      · rintro ⟨⟨⟩, hne⟩
        exact absurd rfl hne
    · simp only [String.isEmpty_iff, hs, if_false, Except.ok.injEq]
      constructor
      · rintro rfl
        exact ⟨rfl, hs⟩
      · rintro ⟨rfl, -⟩
        rfl

/-! ## Records -/

/-- A record has no keys but some known ones. -/
def KeysAmong (known : List String) (fields : List (Value × Value)) : Prop :=
  ∀ e ∈ fields, ∃ s ∈ known, e.1 = .text s

/-- A record without what it has under a key. -/
def without (key : String) (fields : List (Value × Value)) : List (Value × Value) :=
  fields.filter fun e ↦
    match e.1 with
    | .text k => k != key
    | _ => true

theorem mem_without {key : String} {fields : List (Value × Value)} {e : Value × Value} :
    e ∈ without key fields ↔ e ∈ fields ∧ e.1 ≠ .text key := by
  rw [without, List.mem_filter]
  refine and_congr_right fun _ ↦ ?_
  split
  · next k hk => simp [hk]
  · next hk => exact iff_of_true rfl (hk key)

theorem field?_without {key key' : String} (h : key' ≠ key) (fields : List (Value × Value)) :
    Value.field? key' (without key fields) = Value.field? key' fields := by
  induction fields with
  | nil => rfl
  | cons e fields ih =>
    obtain ⟨k, v⟩ := e
    cases k with
    | text k =>
      by_cases hk : k = key
      · have hdrop : without key ((.text k, v) :: fields) = without key fields := by
          simp [without, hk]
        have hother : k ≠ key' := fun h' ↦ h (h'.symm.trans hk)
        rw [hdrop, ih, Value.field?, if_neg hother]
      · have hkeep : without key ((.text k, v) :: fields) = (.text k, v) :: without key fields := by
          simp [without, hk]
        rw [hkeep, Value.field?, Value.field?, ih]
    | _ => exact ih

theorem KeysAmong.of_without {known : List String} {key : String} (hkey : key ∈ known)
    {fields : List (Value × Value)} (h : KeysAmong known (without key fields)) :
    KeysAmong known fields := by
  intro e he
  by_cases hk : e.1 = .text key
  · exact ⟨key, hkey, hk⟩
  · exact h e (mem_without.mpr ⟨he, hk⟩)

namespace Checked

variable {α β : Type}

/-! ## Putting readers together -/

theorem under_eq_ok {step : PathStep} {x : Checked α} {a : α} :
    under step x = .ok a ↔ x = .ok a := by
  cases x with
  | ok a' => rfl
  | error is => simp [under]

theorem both_eq_ok {x : Checked α} {y : Checked β} {a : α} {b : β} :
    both x y = .ok (a, b) ↔ x = .ok a ∧ y = .ok b := by
  cases x with
  | error is => simp [both]
  | ok a' =>
    cases y with
    | error is => simp [both]
    | ok b' => simp [both]

theorem each_eq_ok {check : Value → Checked α} {first : Nat} {vs : List Value} {as : List α} :
    each check first vs = .ok as ↔ List.Forall₂ (fun v a ↦ check v = .ok a) vs as := by
  -- Positions are for the paths of faults, and do not matter where there are none.
  induction vs generalizing first as with
  | nil => rw [each, Except.ok.injEq, List.forall₂_nil_left_iff, eq_comm]
  | cons v vs ih =>
    rw [each, List.forall₂_cons_left_iff]
    constructor
    · intro h
      split at h
      · next a as' hboth =>
        cases h
        obtain ⟨ha, has⟩ := both_eq_ok.mp hboth
        exact ⟨a, as', under_eq_ok.mp ha, ih.mp has, rfl⟩
      · cases h
    · rintro ⟨a, as', ha, has, rfl⟩
      rw [both_eq_ok.mpr ⟨under_eq_ok.mpr ha, ih.mpr has⟩]

theorem required_eq_ok {key : String} {check : Value → Checked α} {fields : List (Value × Value)}
    {a : α} :
    required key check fields = .ok a ↔
      ∃ v, Value.field? key fields = some v ∧ check v = .ok a := by
  rw [required, under_eq_ok]
  cases Value.field? key fields with
  | none => simp [fail]
  | some v => simp

theorem optional_eq_ok {key : String} {default : α} {check : Value → Checked α}
    {fields : List (Value × Value)} {a : α} :
    optional key default check fields = .ok a ↔
      (Value.field? key fields).elim (default = a) (check · = .ok a) := by
  rw [optional, under_eq_ok]
  cases Value.field? key fields with
  | none => simp
  | some v => simp

theorem unknownKey?_eq_none {known : List String} {key : Value} :
    unknownKey? known key = none ↔ ∃ s ∈ known, key = .text s := by
  unfold unknownKey?
  split
  · next s => simp
  · next hkey =>
    simp only [reduceCtorEq, false_iff]
    rintro ⟨s, -, rfl⟩
    exact hkey s rfl

theorem noOtherKeys_eq_ok {known : List String} {fields : List (Value × Value)} :
    noOtherKeys known fields = .ok () ↔ KeysAmong known fields := by
  have hnil : (fields.filterMap fun e ↦ unknownKey? known e.1) = [] ↔ KeysAmong known fields := by
    simp only [List.filterMap_eq_nil_iff, unknownKey?_eq_none, KeysAmong]
  rw [← hnil, noOtherKeys]
  split
  · next h => exact iff_of_true rfl h
  · next h => exact iff_of_false (by rintro ⟨⟩) h

theorem withKeys_eq_ok {fields : List (Value × Value)} {x : Checked α} {a : α} :
    withKeys fields x = .ok a ↔ x = .ok a ∧ ∀ e ∈ fields, ∀ ps, e.1 ≠ .broken ps := by
  rw [withKeys]
  split
  · next h =>
    obtain ⟨e, he, hmatch⟩ := List.any_eq_true.mp h
    have hbroken : ∃ ps, e.1 = .broken ps := by
      split at hmatch
      · exact ⟨_, ‹_›⟩
      · cases hmatch
    obtain ⟨ps, hps⟩ := hbroken
    refine iff_of_false (by rintro ⟨⟩) ?_
    rintro ⟨-, hnone⟩
    exact hnone e he ps hps
  · next h =>
    refine (and_iff_left ?_).symm
    intro e he ps hps
    exact h (List.any_eq_true.mpr ⟨e, he, by rw [hps]⟩)

/-- A record with two fields, read by their readers, and with no other key. -/
theorem record_eq_ok {known : List String} {fields : List (Value × Value)} {x : Checked α}
    {y : Checked β} {a : α} {b : β} :
    withKeys fields (both x (both y (noOtherKeys known fields))) = .ok (a, b, ()) ↔
      x = .ok a ∧ y = .ok b ∧ KeysAmong known fields := by
  rw [withKeys_eq_ok, both_eq_ok, both_eq_ok, noOtherKeys_eq_ok, and_iff_left_of_imp]
  -- A key that is known consists of characters.
  rintro ⟨-, -, hkeys⟩ e he ps hbroken
  obtain ⟨s, -, hs⟩ := hkeys e he
  rw [hs] at hbroken
  cases hbroken

/-! ## Refusals -/

/-- A refusal has at least one fault. -/
def IsFounded (x : Checked α) : Prop := ∀ is, x = .error is → is ≠ []

theorem isFounded_ok (a : α) : IsFounded (.ok a : Checked α) := by
  rintro is ⟨⟩

theorem isFounded_fail (c : Complaint) : IsFounded (fail c : Checked α) := by
  rintro is ⟨⟩
  exact List.cons_ne_nil _ _

theorem IsFounded.map {x : Checked α} (h : x.IsFounded) (f : α → β) :
    IsFounded (Except.map f x) := by
  cases x with
  | ok a => exact isFounded_ok (f a)
  | error is =>
    rintro is' ⟨⟩
    exact h is rfl

theorem IsFounded.under {x : Checked α} (h : x.IsFounded) (step : PathStep) :
    (under step x).IsFounded := by
  cases x with
  | ok a => exact isFounded_ok a
  | error is =>
    rintro is' ⟨⟩
    exact mt List.map_eq_nil_iff.mp (h is rfl)

theorem IsFounded.both {x : Checked α} {y : Checked β} (hx : x.IsFounded) (hy : y.IsFounded) :
    (both x y).IsFounded := by
  cases x with
  | error is =>
    rintro is' ⟨⟩
    exact List.append_ne_nil_of_left_ne_nil (hx is rfl) _
  | ok a =>
    cases y with
    | ok b => exact isFounded_ok (a, b)
    | error is =>
      rintro is' ⟨⟩
      exact List.append_ne_nil_of_right_ne_nil _ (hy is rfl)

theorem isFounded_each {check : Value → Checked α} (h : ∀ v, (check v).IsFounded) (first : Nat)
    (vs : List Value) : (each check first vs).IsFounded := by
  induction vs generalizing first with
  | nil => exact isFounded_ok []
  | cons v vs ih =>
    have hboth := ((h v).under (.index first)).both (ih (first + 1))
    rw [each]
    split
    · exact isFounded_ok _
    · next is his =>
      rintro is' ⟨⟩
      exact hboth is his

theorem isFounded_required {check : Value → Checked α} (h : ∀ v, (check v).IsFounded) (key : String)
    (fields : List (Value × Value)) : (required key check fields).IsFounded := by
  refine IsFounded.under ?_ _
  split
  · exact h _
  · exact isFounded_fail _

theorem isFounded_optional {check : Value → Checked α} (h : ∀ v, (check v).IsFounded) (key : String)
    (default : α) (fields : List (Value × Value)) :
    (optional key default check fields).IsFounded := by
  refine IsFounded.under ?_ _
  split
  · exact h _
  · exact isFounded_ok _

theorem isFounded_noOtherKeys (known : List String) (fields : List (Value × Value)) :
    (noOtherKeys known fields).IsFounded := by
  rw [noOtherKeys]
  split
  · exact isFounded_ok ()
  · next hne =>
    rintro is ⟨⟩
    exact hne

theorem isFounded_record {x : Checked α} {y : Checked β} (hx : x.IsFounded) (hy : y.IsFounded)
    (known : List String) (fields : List (Value × Value)) :
    (withKeys fields (Checked.both x (Checked.both y (noOtherKeys known fields)))).IsFounded := by
  rw [withKeys]
  split
  · exact isFounded_fail _
  · exact hx.both (hy.both (isFounded_noOtherKeys known fields))

end Checked

theorem isFounded_lenientText (v : Value) : (lenientText v).IsFounded := by
  unfold lenientText
  split
  · exact Checked.isFounded_ok _
  · exact Checked.isFounded_fail _
  · split
    · exact Checked.isFounded_ok _
    · exact Checked.isFounded_fail _
  · exact Checked.isFounded_fail _

theorem isFounded_nonEmptyText (v : Value) : (nonEmptyText v).IsFounded := by
  unfold nonEmptyText
  split
  · split
    · exact Checked.isFounded_fail _
    · exact Checked.isFounded_ok _
  · next is his =>
    rintro is' ⟨⟩
    exact isFounded_lenientText v is his

theorem isFounded_spelledInteger (s : String) : (spelledInteger s).IsFounded := by
  unfold spelledInteger
  split
  · exact Checked.isFounded_ok _
  · exact Checked.isFounded_fail _
  · exact Checked.isFounded_fail _

theorem isFounded_lenientInteger (v : Value) : (lenientInteger v).IsFounded := by
  cases v with
  | int n => exact Checked.isFounded_ok n
  | bool b => exact Checked.isFounded_ok _
  | real x =>
    simp only [lenientInteger]
    split
    · exact Checked.isFounded_fail _
    · split
      · exact Checked.isFounded_fail _
      · split
        · exact Checked.isFounded_ok _
        · exact Checked.isFounded_fail _
  | text s => exact isFounded_spelledInteger s
  | bytes content =>
    simp only [lenientInteger]
    split
    · exact isFounded_spelledInteger _
    · exact Checked.isFounded_fail _
  | _ => exact Checked.isFounded_fail _

end CallGate.Data
