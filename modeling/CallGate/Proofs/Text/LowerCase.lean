import CallGate.Text.LowerCase
import Mathlib.Data.List.Basic

/-!
# Texts whose lower case is ASCII

Which texts have a given word as their lower case, if the word is made of ASCII characters? The two
letters that need more than the table do not occur in them: the capital I with a dot leaves a mark
behind, and a sigma stays Greek. So the characters can be looked at one by one
(`lowerCase_eq_iff`), and outside ASCII a single one has an ASCII lower case, the Kelvin sign
(`isAscii_or_eq_of_lowerChar`).
-/

namespace CallGate.Text

def IsAscii (c : Char) : Prop := c.toNat < 0x80

instance decidableIsAscii (c : Char) : Decidable (IsAscii c) :=
  inferInstanceAs (Decidable (c.toNat < 0x80))

theorem toNat_ofNat_or_eq (n : Nat) : (Char.ofNat n).toNat = n ∨ Char.ofNat n = '\x00' := by
  by_cases hn : n.isValidChar
  · rw [Char.ofNat, dif_pos hn]
    exact .inl rfl
  · rw [Char.ofNat, dif_neg hn]
    exact .inr rfl

theorem isAscii_ofNat {n : Nat} (h : n < 0x80) : IsAscii (Char.ofNat n) := by
  rcases toNat_ofNat_or_eq n with heq | heq
  · rwa [IsAscii, heq]
  · rw [heq]
    decide

/-- What holds of all ASCII characters can be checked one by one. -/
instance decidableForallIsAscii {P : Char → Prop} [DecidablePred P] :
    Decidable (∀ c, IsAscii c → P c) :=
  decidable_of_iff (∀ n < 0x80, P (Char.ofNat n))
    ⟨fun h c hc ↦ Char.ofNat_toNat c ▸ h c.toNat hc, fun h n hn ↦ h (Char.ofNat n) (isAscii_ofNat hn)⟩

/-- What holds of the characters of a text is checked for these only, and not for all that there
are. -/
instance decidableForallMem {P : Char → Prop} [DecidablePred P] (cs : List Char) :
    Decidable (∀ c ∈ cs, P c) := List.decidableBAll P cs

/-! ## Single characters -/

/-- Of the runs outside ASCII only that of the Kelvin sign leads inside. -/
theorem caseRuns_distance :
    ∀ r ∈ caseRuns, r.last < 0x80 ∨ (r.first = 0x212A ∧ r.last = 0x212A) ∨
      (0x80 : Int) ≤ r.first + r.distance := by
  decide +kernel

/-- The only letter outside ASCII with its lower case inside is the Kelvin sign. -/
theorem isAscii_or_eq_of_lowerChar {c : Char} (h : IsAscii (lowerChar c))
    (hnul : lowerChar c ≠ '\x00') : IsAscii c ∨ c = '\u212a' := by
  by_contra hc
  obtain ⟨hcode, hkelvin⟩ : ¬ c.toNat < 0x80 ∧ c ≠ '\u212a' := not_or.mp hc
  rw [lowerChar, if_neg hcode] at h hnul
  cases hfind : caseRuns.find? (·.contains c.toNat) with
  | none =>
    rw [hfind] at h
    exact hcode h
  | some r =>
    have hcontains := List.find?_some hfind
    simp only [CaseRun.contains, Bool.and_eq_true, decide_eq_true_eq] at hcontains
    rw [hfind] at h hnul
    rcases caseRuns_distance r (List.mem_of_find?_eq_some hfind) with hlast | ⟨hfirst, hlast⟩ | hfar
    · omega
    · refine hkelvin ?_
      rw [← Char.ofNat_toNat c, show c.toNat = 0x212A by omega]
    · rcases toNat_ofNat_or_eq (c.toNat + r.distance).toNat with heq | heq
      · simp only [IsAscii, heq] at h
        omega
      · exact hnul heq

/-! ## Texts -/

variable {b : Bool} {cs ds : List Char}

theorem isAscii_lowerChar_of_lowerFrom (h : ∀ d ∈ lowerFrom b cs, IsAscii d) :
    ∀ c ∈ cs, IsAscii (lowerChar c) := by
  induction cs generalizing b with
  | nil => exact fun _ hc ↦ absurd hc List.not_mem_nil
  | cons c cs ih =>
    rw [lowerFrom, List.forall_mem_append] at h
    obtain ⟨hfirst, hrest⟩ := h
    refine List.forall_mem_cons.mpr ⟨?_, ih hrest⟩
    split at hfirst
    · exact absurd (hfirst '\u0307' (by simp)) (by decide)
    · split at hfirst
      · exact absurd (hfirst '\u03C2' (by simp)) (by decide)
      · exact hfirst _ (by simp)

theorem lowerFrom_eq_map (h : ∀ c ∈ cs, IsAscii (lowerChar c)) :
    lowerFrom b cs = cs.map lowerChar := by
  induction cs generalizing b with
  | nil => rfl
  | cons c cs ih =>
    obtain ⟨hfirst, hrest⟩ := List.forall_mem_cons.mp h
    have hdot : c ≠ '\u0130' := by
      rintro rfl
      exact absurd hfirst (by decide)
    have hsigma : c ≠ '\u03A3' := by
      rintro rfl
      exact absurd hfirst (by decide)
    rw [lowerFrom, ih hrest]
    simp [hdot, hsigma]

/-- **Texts with an ASCII lower case are taken one character at a time.** -/
theorem lowerCase_eq_iff (hds : ∀ d ∈ ds, IsAscii d) :
    lowerCase cs = ds ↔ cs.map lowerChar = ds := by
  constructor
  · rintro rfl
    exact (lowerFrom_eq_map (isAscii_lowerChar_of_lowerFrom hds)).symm
  · rintro rfl
    exact lowerFrom_eq_map (List.forall_mem_map.mp hds)

end CallGate.Text
