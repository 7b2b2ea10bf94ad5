import CallGate.Policy.Action
import Mathlib.Order.BoundedOrder.Basic

/-!
# The order of actions

Actions are compared by severity first, and by their error numbers where severity does not decide.
The outcome is one of four words, and what has to be known of it is that the words belong to a
partial order. They do because severity and error number together leave nothing of an action open
(`eq_iff_severity_errno?`). So each word has a meaning in which nothing is said about how actions
are compared, `Comparison.Means`, and the laws of the order are read off the meanings.

Only different error numbers are incomparable, and they are of one severity. To all other actions
they stand alike, so that the order is a chain of four steps, one of which is as broad as there are
error numbers.
-/

namespace CallGate.Policy.Action

variable {a b c : Action}

/-! ## What a comparison means -/

/-- The outcome when the two sides of a comparison change places. -/
def Comparison.swap : Comparison → Comparison
  | less => greater
  | equal => equal
  | greater => less
  | incomparable => incomparable

/-- What an outcome says about the two sides. -/
def Comparison.Means : Comparison → Action → Action → Prop
  | less, a, b => a.severity < b.severity
  | equal, a, b => a = b
  | greater, a, b => b.severity < a.severity
  | incomparable, a, b => a.severity = b.severity ∧ a ≠ b

theorem Comparison.means_swap {o : Comparison} : o.swap.Means b a ↔ o.Means a b := by
  cases o with
  | less => exact Iff.rfl
  | equal => exact eq_comm
  | greater => exact Iff.rfl
  | incomparable => exact and_congr eq_comm ne_comm

/-- Severity and error number tell actions apart. -/
theorem eq_iff_severity_errno? : a = b ↔ a.severity = b.severity ∧ a.errno? = b.errno? := by
  cases a <;> cases b <;> simp [severity, errno?]

/-- A comparison comes out as it is meant. -/
theorem compare_eq_iff {o : Comparison} : compare a b = o ↔ o.Means a b := by
  constructor
  · rintro rfl
    rw [compare]
    split_ifs with hless hgreater herrno
    · exact hless
    · exact hgreater
    · exact eq_iff_severity_errno?.mpr ⟨by omega, herrno⟩
    · exact ⟨by omega, fun h ↦ herrno (eq_iff_severity_errno?.mp h).2⟩
  · intro h
    rw [compare]
    cases o with
    | less => exact if_pos h
    | equal =>
      obtain rfl : a = b := h
      rw [if_neg (Nat.lt_irrefl _), if_neg (Nat.lt_irrefl _), if_pos rfl]
    | greater =>
      have hgreater : b.severity < a.severity := h
      rw [if_neg (Nat.lt_asymm hgreater), if_pos hgreater]
    | incomparable =>
      obtain ⟨hseverity, hne⟩ := h
      have herrno : a.errno? ≠ b.errno? := fun h ↦ hne (eq_iff_severity_errno?.mpr ⟨hseverity, h⟩)
      rw [hseverity, if_neg (Nat.lt_irrefl _), if_neg (Nat.lt_irrefl _), if_neg herrno]

theorem compare_swap (a b : Action) : compare b a = (compare a b).swap :=
  compare_eq_iff.mpr (Comparison.means_swap.mpr (compare_eq_iff.mp rfl))

/-- Different actions of one severity are error numbers. -/
theorem severity_eq_and_ne : a.severity = b.severity ∧ a ≠ b ↔
    ∃ m n, m ≠ n ∧ a = .returnErrno m ∧ b = .returnErrno n := by
  cases a <;> cases b <;> simp [severity]

/-- Where severity decides, nothing else is looked at. -/
theorem compare_of_severity_ne (h : a.severity ≠ b.severity) :
    compare a b = if a.severity < b.severity then .less else .greater := by
  rw [compare_eq_iff]
  split_ifs with hless
  · exact hless
  · exact Nat.lt_of_le_of_ne (Nat.le_of_not_lt hless) h.symm

/-- Error numbers stand alike to whatever is none. -/
theorem compare_congr_of_incomparable (hab : compare a b = .incomparable)
    (hc : ∀ n, c ≠ .returnErrno n) : compare a c = compare b c := by
  obtain ⟨m, n, -, rfl, rfl⟩ := severity_eq_and_ne.mp (compare_eq_iff.mp hab)
  have hseverity (k : UInt16) : (returnErrno k).severity ≠ c.severity := by
    intro h
    by_cases heq : returnErrno k = c
    · exact hc k heq.symm
    · obtain ⟨-, l, -, -, hl⟩ := severity_eq_and_ne.mp ⟨h, heq⟩
      exact hc l hl
  rw [compare_of_severity_ne (hseverity m), compare_of_severity_ne (hseverity n)]
  rfl

/-! ## The order -/

/-- An action is at most another one if it is less, or the same. -/
instance : LE Action := ⟨fun a b ↦ compare a b = .less ∨ compare a b = .equal⟩

theorem le_iff : a ≤ b ↔ a.severity < b.severity ∨ a = b := or_congr compare_eq_iff compare_eq_iff

instance : PartialOrder Action where
  le_refl a := le_iff.mpr (.inr rfl)
  le_trans a b c hab hbc := by
    rcases le_iff.mp hab with hab | rfl
    · rcases le_iff.mp hbc with hbc | rfl
      · exact le_iff.mpr (.inl (Nat.lt_trans hab hbc))
      · exact le_iff.mpr (.inl hab)
    · exact hbc
  le_antisymm a b hab hba := by
    rcases le_iff.mp hab with hab | rfl
    · rcases le_iff.mp hba with hba | rfl
      · exact absurd hba (Nat.lt_asymm hab)
      · rfl
    · rfl

/-- To let a call run is the least that can be decided, and to end the guest the most. -/
instance : BoundedOrder Action where
  bot := .allow
  bot_le a := by cases a <;> simp [le_iff, severity]
  top := .kill
  le_top a := by cases a <;> simp [le_iff, severity]

/-- **A comparison is the word of a partial order.** It comes out as equal for the same action only,
turns round with its sides, and is undecided between different error numbers only. To be less or
equal is transitive; everything is above `allow` and below `kill`, with `log` and then all error
numbers in between; and two actions that cannot be compared stand alike to everything that is no
error number. -/
theorem compare_isPartialOrder :
    (∀ a b, compare a b = .equal ↔ a = b) ∧
    (∀ a b, compare b a = (compare a b).swap) ∧
    (∀ a b, compare a b = .incomparable ↔
      ∃ m n, m ≠ n ∧ a = .returnErrno m ∧ b = .returnErrno n) ∧
    (∀ a b c, compare a b = .less ∨ compare a b = .equal →
      compare b c = .less ∨ compare b c = .equal → compare a c = .less ∨ compare a c = .equal) ∧
    (∀ a, (compare .allow a = .less ∨ compare .allow a = .equal) ∧
      (compare a .kill = .less ∨ compare a .kill = .equal)) ∧
    (∀ n, compare .allow .log = .less ∧ compare .log (.returnErrno n) = .less ∧
      compare (.returnErrno n) .kill = .less) ∧
    ∀ a b c, compare a b = .incomparable → (∀ n, c ≠ .returnErrno n) →
      compare a c = compare b c ∧ compare c a = compare c b := by
  refine ⟨fun a b ↦ compare_eq_iff, compare_swap,
    fun a b ↦ compare_eq_iff.trans severity_eq_and_ne, fun a b c ↦ @le_trans Action _ a b c,
    fun a ↦ ⟨@bot_le Action _ _ a, @le_top Action _ _ a⟩, fun n ↦ ⟨rfl, rfl, rfl⟩,
    fun a b c hab hc ↦ ?_⟩
  have hsame := compare_congr_of_incomparable hab hc
  refine ⟨hsame, ?_⟩
  rw [compare_swap a c, compare_swap b c, hsame]

/-- The error numbers of two calls, which cannot be compared and are both less than `kill`. -/
theorem compare_isPartialOrder_errnos :
    compare (.returnErrno 8) (.returnErrno 63) = .incomparable ∧
      compare (.returnErrno 8) .kill = compare (.returnErrno 63) .kill ∧
      (compare .log .kill = .less ∨ compare .log .kill = .equal) := by
  obtain ⟨-, -, hincomparable, htrans, hbounds, hchain, halike⟩ := compare_isPartialOrder
  have hundecided := (hincomparable (.returnErrno 8) (.returnErrno 63)).mpr
    ⟨8, 63, by decide, rfl, rfl⟩
  refine ⟨hundecided, (halike _ _ .kill hundecided nofun).1, ?_⟩
  exact htrans _ (.returnErrno 8) _ (.inl (hchain 8).2.1) (hbounds _).2

end CallGate.Policy.Action
