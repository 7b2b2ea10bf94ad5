import CallGate.Policy.Action.Reading
import CallGate.Proofs.Data.Checked
import CallGate.Proofs.Number.Literal
import CallGate.Proofs.Text.LowerCase
import Mathlib.Data.List.TakeWhile

/-!
# How actions are spelled

A text that spells an action is laid out in a certain way, and what is laid out has to mean
something. `Phrase.Layout` says where the word stands, the parentheses, and the blanks.
`Phrase.Means` says which action a word stands for, with the literal of an error number or without.
Neither of them says how to find the parts. `parse_exact` says that reading finds them whenever they
are there, and never anything else.

A word may be written in upper or lower case or in both. It is the lower case of the text that has
to be a known word, so the Kelvin sign may stand for a k. A capital I with a dot is a letter of
words too, but there is no word that it could be in.
-/

namespace CallGate.Policy

open CallGate.Data CallGate.Number CallGate.Text

/-! ## Grammar -/

def AreBlank (cs : List Char) : Prop := ∀ c ∈ cs, isBlank c = true

/-- Letters of words, and at least one of them. -/
structure IsWord (cs : List Char) : Prop where
  ne_nil : cs ≠ []
  letters : ∀ c ∈ cs, isWordChar c = true

/-- The pieces of a text stand one behind the other, with blanks around each of them. -/
inductive Phrase.Layout : List Char → Phrase → Prop
  | word {before word after : List Char} (hbefore : AreBlank before) (hword : IsWord word)
      (hafter : AreBlank after) : Layout (before ++ (word ++ after)) ⟨word, none⟩
  | call {before word between inner after : List Char} (hbefore : AreBlank before)
      (hword : IsWord word) (hbetween : AreBlank between) (hinner : ')' ∉ inner)
      (hafter : AreBlank after) :
      Layout (before ++ (word ++ (between ++ '(' :: (inner ++ ')' :: after))))
        ⟨word, some (strip isBlank inner)⟩

/-- The base that a literal announces with its first two characters, and otherwise ten. -/
def announcedBase (cs : List Char) : ℕ :=
  if lowerCase (cs.take 2) = ['0', 'x'] then 16
  else if lowerCase (cs.take 2) = ['0', 'o'] then 8
  else if lowerCase (cs.take 2) = ['0', 'b'] then 2
  else 10

/-- A literal of an error number. There may be a limit to its digits if it is decimal. -/
structure IsErrno (limit : Option ℕ) (cs : List Char) (errno : UInt16) : Prop where
  denotes : Denotes (announcedBase cs) cs errno.toNat
  within : ∀ m ∈ limit, announcedBase cs = 10 → digitCount 10 cs ≤ m

/-- The action that a word and what is between its parentheses stand for. -/
inductive Phrase.Means (limit : Option ℕ) : Phrase → Action → Prop
  | word {word : List Char} {a : Action} (ha : a ∈ [Action.allow, .log, .kill])
      (hword : lowerCase word = a.kind.toList) : Means limit ⟨word, none⟩ a
  | errno {word argument : List Char} {errno : UInt16}
      (hword : ∃ w ∈ errnoWords, lowerCase word = w.toList)
      (hargument : IsErrno limit argument errno) :
      Means limit ⟨word, some argument⟩ (.returnErrno errno)

/-- A text spells an action. -/
def Action.Spells (limit : Option ℕ) (cs : List Char) (a : Action) : Prop :=
  ∃ p : Phrase, p.Layout cs ∧ p.Means limit a

/-! ## Letters and blanks -/

section

variable {c d : Char}

/-- The letters of words that are not ASCII. -/
def wideLetters : List Char := ['\u0130', '\u0131', '\u017f', '\u212a']

theorem isAscii_or_mem_wideLetters (h : isWordChar c = true) : IsAscii c ∨ c ∈ wideLetters := by
  simp only [isWordChar, Bool.or_eq_true, Bool.and_eq_true, decide_eq_true_eq, beq_iff_eq,
    Char.le_def, UInt32.le_iff_toNat_le] at h
  rcases h with (((((⟨-, h⟩ | ⟨-, h⟩) | rfl) | rfl) | rfl) | rfl) | rfl
  · exact .inl (lt_of_le_of_lt h (by decide))
  · exact .inl (lt_of_le_of_lt h (by decide))
  · exact .inl (by decide)
  all_goals exact .inr (by decide)

/-- Words are put in lower case as any text is. -/
theorem lowerWordChar_eq (h : isWordChar c = true) : lowerWordChar c = lowerChar c := by
  rcases isAscii_or_mem_wideLetters h with hc | hc
  · have hkelvin : c ≠ '\u212a' := by
      rintro rfl
      exact absurd hc (by decide)
    have hcode : c.toNat < 0x80 := hc
    rw [lowerWordChar, lowerChar, if_neg hkelvin, if_pos hcode]
  · have hall : ∀ c ∈ wideLetters, lowerWordChar c = lowerChar c := by decide
    exact hall c hc

theorem not_isBlank_of_isWordChar (h : isWordChar c = true) : isBlank c = false := by
  rcases isAscii_or_mem_wideLetters h with hc | hc
  · have hall : ∀ c, IsAscii c → isWordChar c = true → isBlank c = false := by decide
    exact hall c hc h
  · have hall : ∀ c ∈ wideLetters, isBlank c = false := by decide
    exact hall c hc

theorem not_isWordChar_of_isBlank (h : isBlank c = true) : isWordChar c = false := by
  rw [Bool.eq_false_iff]
  intro hword
  rw [not_isBlank_of_isWordChar hword] at h
  cases h

/-- What becomes a letter of a word was one. -/
theorem isWordChar_of_lowerChar (hascii : IsAscii (lowerChar c))
    (h : isWordChar (lowerChar c) = true) : isWordChar c = true := by
  have hnul : lowerChar c ≠ '\x00' := by
    intro heq
    rw [heq] at h
    cases h
  rcases isAscii_or_eq_of_lowerChar hascii hnul with hc | rfl
  · have hall : ∀ c, IsAscii c → isWordChar (lowerChar c) = true → isWordChar c = true := by
      decide
    exact hall c hc h
  · rfl

/-- What becomes an ASCII character other than a letter was that character. -/
theorem eq_of_lowerChar (h : lowerChar c = d) (hascii : IsAscii d) (halpha : d.isAlpha = false)
    (hnul : d ≠ '\x00') : c = d := by
  subst h
  rcases isAscii_or_eq_of_lowerChar hascii hnul with hc | rfl
  · have hall : ∀ c, IsAscii c → (lowerChar c).isAlpha = false → c = lowerChar c := by decide
    exact hall c hc halpha
  · cases halpha

end

/-! ## Layout -/

theorem takeWhile_append_of_head? {α : Type} {f : α → Bool} {as bs : List α}
    (has : ∀ a ∈ as, f a = true) (hbs : ∀ b ∈ bs.head?, f b = false) :
    (as ++ bs).takeWhile f = as := by
  rw [List.takeWhile_append_of_pos has]
  cases bs with
  | nil => simp
  | cons b bs => simp [hbs b rfl]

theorem dropWhile_append_of_head? {α : Type} {f : α → Bool} {as bs : List α}
    (has : ∀ a ∈ as, f a = true) (hbs : ∀ b ∈ bs.head?, f b = false) :
    (as ++ bs).dropWhile f = bs := by
  rw [List.dropWhile_append_of_pos has]
  cases bs with
  | nil => rfl
  | cons b bs => simp [hbs b rfl]

/-- A word is told from the blanks in front of it and from what is behind it. -/
theorem IsWord.span {before word rest : List Char} (hword : IsWord word)
    (hbefore : AreBlank before) (hrest : ∀ c ∈ rest.head?, isWordChar c = false) :
    ((before ++ (word ++ rest)).dropWhile isBlank).takeWhile isWordChar = word ∧
      ((before ++ (word ++ rest)).dropWhile isBlank).dropWhile isWordChar = rest := by
  have hhead : ∀ c ∈ (word ++ rest).head?, isBlank c = false := by
    obtain ⟨c, word', rfl⟩ := List.exists_cons_of_ne_nil hword.ne_nil
    rintro _ ⟨⟩
    exact not_isBlank_of_isWordChar (hword.letters c List.mem_cons_self)
  rw [dropWhile_append_of_head? hbefore hhead]
  exact ⟨takeWhile_append_of_head? hword.letters hrest,
    dropWhile_append_of_head? hword.letters hrest⟩

namespace Phrase

variable {cs : List Char} {p : Phrase}

theorem ofText?_of_layout (h : p.Layout cs) : ofText? cs = some p := by
  cases h with
  | @word before word after hbefore hword hafter =>
    have hrest : ∀ c ∈ after.head?, isWordChar c = false := fun c hc ↦
      not_isWordChar_of_isBlank (hafter c (List.mem_of_mem_head? hc))
    obtain ⟨htake, hdrop⟩ := hword.span hbefore hrest
    have hempty : word.isEmpty = false := List.isEmpty_eq_false_iff.mpr hword.ne_nil
    have hend : after.dropWhile isBlank = [] := List.dropWhile_eq_nil_iff.mpr hafter
    simp [ofText?, htake, hdrop, hempty, hend]
  | @call before word between inner after hbefore hword hbetween hinner hafter =>
    have hrest : ∀ c ∈ (between ++ '(' :: (inner ++ ')' :: after)).head?, isWordChar c = false := by
      cases between with
      | nil =>
        rintro _ ⟨⟩
        rfl
      | cons c between =>
        rintro _ ⟨⟩
        exact not_isWordChar_of_isBlank (hbetween c List.mem_cons_self)
    obtain ⟨htake, hdrop⟩ := hword.span hbefore hrest
    have hempty : word.isEmpty = false := List.isEmpty_eq_false_iff.mpr hword.ne_nil
    have hopen : (between ++ '(' :: (inner ++ ')' :: after)).dropWhile isBlank =
        '(' :: (inner ++ ')' :: after) :=
      dropWhile_append_of_head? hbetween (by rintro _ ⟨⟩; rfl)
    have hnone : ∀ c ∈ inner, (c != ')') = true := by
      intro c hc
      rw [bne_iff_ne]
      rintro rfl
      exact hinner hc
    have hclose : ∀ c ∈ (')' :: after).head?, (c != ')') = false := by
      rintro _ ⟨⟩
      rfl
    have hall : after.all isBlank = true := List.all_eq_true.mpr hafter
    simp [ofText?, htake, hdrop, hempty, hopen, takeWhile_append_of_head? hnone hclose,
      dropWhile_append_of_head? hnone hclose, hall]

theorem layout_of_ofText? (h : ofText? cs = some p) : p.Layout cs := by
  simp only [ofText?] at h
  -- The runs that were skipped or taken make up the text.
  have hcs : cs = cs.takeWhile isBlank ++ ((cs.dropWhile isBlank).takeWhile isWordChar ++
      (((cs.dropWhile isBlank).dropWhile isWordChar).takeWhile isBlank ++
        ((cs.dropWhile isBlank).dropWhile isWordChar).dropWhile isBlank)) := by
    simp only [List.takeWhile_append_dropWhile]
  have hbefore : AreBlank (cs.takeWhile isBlank) := fun c hc ↦ List.mem_takeWhile_imp hc
  have hgap : AreBlank (((cs.dropWhile isBlank).dropWhile isWordChar).takeWhile isBlank) :=
    fun c hc ↦ List.mem_takeWhile_imp hc
  split at h
  · cases h
  · next hempty =>
    have hword : IsWord ((cs.dropWhile isBlank).takeWhile isWordChar) :=
      ⟨by simpa using hempty, fun c hc ↦ List.mem_takeWhile_imp hc⟩
    split at h
    · next hend =>
      cases h
      rw [hend, List.append_nil] at hcs
      have hlayout := Layout.word hbefore hword hgap
      rwa [← hcs] at hlayout
    · next inner hopen =>
      split at h
      · next after hclose =>
        split at h
        · next hall =>
          cases h
          have hinner : ')' ∉ inner.takeWhile (· != ')') := fun hmem ↦ by
            simpa using List.mem_takeWhile_imp hmem
          have hafter : AreBlank after := List.all_eq_true.mp hall
          have hlayout := Layout.call hbefore hword hgap hinner hafter
          rwa [← hclose, List.takeWhile_append_dropWhile, ← hopen, ← hcs] at hlayout
        · cases h
      · cases h
    · cases h

/-- **A text is taken apart as it is laid out.** -/
theorem ofText?_eq_some : ofText? cs = some p ↔ p.Layout cs :=
  ⟨layout_of_ofText?, ofText?_of_layout⟩

end Phrase

/-! ## Meaning -/

theorem lowerCase_eq_word {cs : List Char} {w : String} (hw : ∀ d ∈ w.toList, IsAscii d) :
    lowerCase cs = w.toList ↔ String.ofList (cs.map lowerChar) = w := by
  rw [lowerCase_eq_iff hw, ← String.toList_inj, String.toList_ofList]

theorem Action.ofWord?_eq_some {word : List Char} {a : Action} :
    Action.ofWord? (String.ofList (word.map lowerChar)) = some a ↔
      a ∈ [Action.allow, .log, .kill] ∧ lowerCase word = a.kind.toList := by
  have hascii : ∀ a ∈ [Action.allow, .log, .kill], ∀ d ∈ a.kind.toList, IsAscii d := by
    decide +kernel
  constructor
  · intro h
    have ha : a ∈ [Action.allow, .log, .kill] := List.mem_of_find?_eq_some h
    refine ⟨ha, (lowerCase_eq_word (hascii a ha)).mpr ?_⟩
    have hkind := List.find?_some h
    exact (beq_iff_eq.mp hkind).symm
  · rintro ⟨ha, hlower⟩
    rw [(lowerCase_eq_word (hascii a ha)).mp hlower]
    have hall : ∀ a ∈ [Action.allow, .log, .kill], Action.ofWord? a.kind = some a := by decide
    exact hall a ha

theorem mem_errnoWords {word : List Char} :
    String.ofList (word.map lowerChar) ∈ errnoWords ↔
      ∃ w ∈ errnoWords, lowerCase word = w.toList := by
  have hascii : ∀ w ∈ errnoWords, ∀ d ∈ w.toList, IsAscii d := by decide +kernel
  constructor
  · intro h
    exact ⟨_, h, (lowerCase_eq_word (hascii _ h)).mpr rfl⟩
  · rintro ⟨w, hw, hlower⟩
    rwa [(lowerCase_eq_word (hascii w hw)).mp hlower]

/-- A zero or a letter that announces a base, in upper or in lower case. -/
theorem lowerChar_eq_iff {c d : Char} (hd : d ∈ ['0', 'x', 'o', 'b']) :
    lowerChar c = d ↔ c = d ∨ c = d.toUpper := by
  constructor
  · rintro rfl
    have hall : ∀ d ∈ ['0', 'x', 'o', 'b'], IsAscii d ∧ d ≠ '\x00' ∧ lowerChar '\u212a' ≠ d := by
      decide
    obtain ⟨hascii, hnul, hkelvin⟩ := hall _ hd
    rcases isAscii_or_eq_of_lowerChar hascii hnul with hc | rfl
    · have hcases : ∀ c, IsAscii c → lowerChar c ∈ ['0', 'x', 'o', 'b'] →
          c = lowerChar c ∨ c = (lowerChar c).toUpper := by decide
      exact hcases c hc hd
    · exact absurd rfl hkelvin
  · have hall : ∀ d ∈ ['0', 'x', 'o', 'b'], lowerChar d = d ∧ lowerChar d.toUpper = d := by decide
    obtain ⟨hlower, hupper⟩ := hall d hd
    rintro (rfl | rfl)
    · exact hlower
    · exact hupper

theorem lowerCase_take_eq {cs : List Char} {d : Char} {base : ℕ}
    (hd : (d, base) ∈ [('x', 16), ('o', 8), ('b', 2)]) :
    lowerCase (cs.take 2) = ['0', d] ↔ ∃ rest, splitBase? cs = some (base, rest) := by
  have hall : ∀ p ∈ [('x', 16), ('o', 8), ('b', 2)],
      p.1 ∈ ['0', 'x', 'o', 'b'] ∧ ∀ c ∈ ['0', p.1], IsAscii c := by decide
  have hletters : ∀ p ∈ [('x', 16), ('o', 8), ('b', 2)], ∀ c,
      (c, p.2) ∈ baseLetters ↔ c = p.1 ∨ c = p.1.toUpper := by
    simp [baseLetters]
  obtain ⟨hletter, hascii⟩ := hall _ hd
  rw [lowerCase_eq_iff hascii]
  simp only [splitBase?_eq_some, hletters _ hd]
  rcases cs with _ | ⟨c₀, _ | ⟨c₁, cs⟩⟩
  · simp
  · simp
  · simp [lowerChar_eq_iff, hletter]

theorem announcedBase_eq (cs : List Char) :
    announcedBase cs = (splitBase? cs).elim 10 (·.1) := by
  have hx := @lowerCase_take_eq cs 'x' 16 (by simp)
  have ho := @lowerCase_take_eq cs 'o' 8 (by simp)
  have hb := @lowerCase_take_eq cs 'b' 2 (by simp)
  cases hsplit : splitBase? cs with
  | none => simp [announcedBase, hx, ho, hb, hsplit]
  | some p =>
    obtain ⟨c, -, hc⟩ := splitBase?_eq_some.mp hsplit
    have hbases : ∀ q ∈ baseLetters, q.2 = 16 ∨ q.2 = 8 ∨ q.2 = 2 := by decide
    obtain ⟨base, rest⟩ := p
    rcases hbases _ hc with rfl | rfl | rfl <;> simp [announcedBase, hx, ho, hb, hsplit]

theorem Action.ofErrno_eq_ok {n : ℤ} {a : Action} :
    Action.ofErrno n = .ok a ↔ ∃ errno : UInt16, n = errno.toNat ∧ a = .returnErrno errno := by
  constructor
  · intro h
    rw [Action.ofErrno] at h
    split at h
    · next errno herrno =>
      cases h
      refine ⟨errno, ?_, rfl⟩
      rw [Checked.under_eq_ok, checkedErrno] at herrno
      split at herrno
      · cases herrno
      · split at herrno
        · cases herrno
        · cases herrno
          rw [UInt16.toNat_ofNat_of_lt' (by simp only [UInt16.size]; omega)]
          omega
    · cases h
  · rintro ⟨errno, rfl, rfl⟩
    have hlt : errno.toNat < 65536 := errno.toNat_lt
    have hchecked : checkedErrno errno.toNat = .ok errno := by
      rw [checkedErrno, if_neg (by omega), if_neg (by omega), Int.toNat_natCast,
        UInt16.ofNat_toNat]
    rw [Action.ofErrno, hchecked]
    rfl

theorem readErrno_eq_ok {cs : List Char} {a : Action} :
    readErrno (cs.map .char) = .ok a ↔
      ∃ errno, a = .returnErrno errno ∧ IsErrno (some digitLimit) cs errno := by
  have hshown : (cs.map CodePoint.char).map CodePoint.shown = cs := by
    rw [List.map_map]
    exact List.map_id cs
  obtain ⟨f, hread⟩ : ∃ f, readErrno (cs.map .char) =
      (readInteger (announcedBase cs) cs).mapError f >>= Action.ofErrno := by
    rw [readErrno, hshown, announcedBase_eq]
    cases splitBase? cs with
    | none =>
      refine ⟨fun fault ↦ .integer (.ofLiteral 10 (cs.map .char) fault), ?_⟩
      rw [readPoints, hshown]
      simp only [Option.elim_none]
      cases readInteger 10 cs with
      | ok n => rfl
      | error fault => rfl
    | some p =>
      refine ⟨fun fault ↦ .integer (.ofLiteral 0 (cs.map .char) fault), ?_⟩
      simp only [Option.elim_some]
      cases readInteger p.1 cs with
      | ok n => rfl
      | error fault => rfl
  rw [hread]
  simp only [bind_eq_ok, mapError_eq_ok, readInteger_eq_ok, Action.ofErrno_eq_ok]
  constructor
  · rintro ⟨_, ⟨hdenotes, hwithin⟩, errno, rfl, rfl⟩
    exact ⟨errno, rfl, hdenotes, by rintro _ ⟨⟩; exact hwithin⟩
  · rintro ⟨errno, rfl, hdenotes, hwithin⟩
    exact ⟨errno.toNat, ⟨hdenotes, hwithin digitLimit rfl⟩, errno, rfl, rfl⟩

/-! ## Reading -/

theorem Phrase.Layout.letters {cs : List Char} {p : Phrase} (h : p.Layout cs) :
    ∀ c ∈ p.word, isWordChar c = true := by
  cases h with
  | word _ hword _ => exact hword.letters
  | call _ hword _ _ _ => exact hword.letters

namespace Phrase

variable {limit : Option ℕ} {word argument : List Char} {a : Action}

theorem means_word_iff :
    Means limit ⟨word, none⟩ a ↔
      a ∈ [Action.allow, .log, .kill] ∧ lowerCase word = a.kind.toList := by
  constructor
  · rintro ⟨ha, hword⟩
    exact ⟨ha, hword⟩
  · exact fun ⟨ha, hword⟩ ↦ .word ha hword

theorem means_call_iff :
    Means limit ⟨word, some argument⟩ a ↔
      (∃ w ∈ errnoWords, lowerCase word = w.toList) ∧
        ∃ errno, a = .returnErrno errno ∧ IsErrno limit argument errno := by
  constructor
  · rintro ⟨⟩
    next errno hword herrno => exact ⟨hword, errno, rfl, herrno⟩
  · rintro ⟨hword, errno, rfl, herrno⟩
    exact .errno hword herrno

end Phrase

theorem strip_sublist {α : Type} (f : α → Bool) (as : List α) : (strip f as).Sublist as := by
  have hend := (List.dropWhile_sublist f (l := (as.dropWhile f).reverse)).reverse
  rw [List.reverse_reverse] at hend
  exact hend.trans (List.dropWhile_sublist f)

theorem strip_of_forall {α : Type} {f : α → Bool} {as : List α} (h : ∀ a ∈ as, f a = false) :
    strip f as = as := by
  have hdrop {bs : List α} (hbs : ∀ b ∈ bs, f b = false) : bs.dropWhile f = bs := by
    cases bs with
    | nil => rfl
    | cons b bs => simp [hbs b List.mem_cons_self]
  rw [strip, hdrop h, hdrop (by simpa using h), List.reverse_reverse]

theorem Phrase.Layout.digitCount_le {cs word argument : List Char}
    (h : Phrase.Layout cs ⟨word, some argument⟩) : digitCount 10 argument ≤ digitCount 10 cs := by
  cases h with
  | @call before _ between inner after _ _ _ _ _ =>
    have hinner : inner <:+: before ++ (word ++ (between ++ '(' :: (inner ++ ')' :: after))) :=
      ⟨before ++ (word ++ (between ++ ['('])), ')' :: after, by simp⟩
    exact ((strip_sublist isBlank inner).trans hinner.sublist).countP_le

namespace Action

variable {text : String} {a : Action} {limit : Option ℕ}

/-- There is one way to take a text apart. -/
theorem spells_iff {cs : List Char} {p : Phrase} (hp : Phrase.ofText? cs = some p) :
    Spells limit cs a ↔ p.Means limit a := by
  constructor
  · rintro ⟨q, hlayout, hmeans⟩
    rw [Phrase.ofText?_eq_some.mpr hlayout] at hp
    cases hp
    exact hmeans
  · exact fun h ↦ ⟨p, Phrase.ofText?_eq_some.mp hp, h⟩

theorem parse_of_none (hp : Phrase.ofText? text.toList = none) :
    parse text = .error ⟨codePoints text, none⟩ := by
  rw [parse, hp]

/-- A lone word is looked up in lower case. -/
theorem parse_of_word {word : List Char} (hp : Phrase.ofText? text.toList = some ⟨word, none⟩) :
    parse text = (ofWord? (String.ofList (word.map lowerChar))).elim
      (.error ⟨codePoints text, none⟩) .ok := by
  have hlower : word.map lowerWordChar = word.map lowerChar := List.map_congr_left fun c hc ↦
    lowerWordChar_eq ((Phrase.ofText?_eq_some.mp hp).letters c hc)
  simp only [parse, hp, hlower]
  cases ofWord? (String.ofList (word.map lowerChar)) with
  | none => rfl
  | some a => rfl

/-- With parentheses, the word has to be one that announces an error number. -/
theorem parse_of_call {word argument : List Char}
    (hp : Phrase.ofText? text.toList = some ⟨word, some argument⟩) :
    parse text =
      if String.ofList (word.map lowerChar) ∈ errnoWords ∧ argument ≠ [] then
        (readErrno (argument.map .char)).mapError fun fault ↦ ⟨codePoints text, some fault⟩
      else .error ⟨codePoints text, none⟩ := by
  have hlower : word.map lowerWordChar = word.map lowerChar := List.map_congr_left fun c hc ↦
    lowerWordChar_eq ((Phrase.ofText?_eq_some.mp hp).letters c hc)
  simp only [parse, hp, hlower]
  cases readErrno (argument.map .char) with
  | ok a => rfl
  | error fault => rfl

/-- What is read is what is spelled. -/
theorem parse_eq_ok : parse text = .ok a ↔ Spells (some digitLimit) text.toList a := by
  cases hp : Phrase.ofText? text.toList with
  | none =>
    rw [parse_of_none hp]
    refine iff_of_false nofun ?_
    rintro ⟨p, hlayout, -⟩
    rw [Phrase.ofText?_eq_some.mpr hlayout] at hp
    cases hp
  | some p =>
    rw [spells_iff hp]
    obtain ⟨word, _ | argument⟩ := p
    · rw [parse_of_word hp, Phrase.means_word_iff, ← ofWord?_eq_some]
      cases ofWord? (String.ofList (word.map lowerChar)) with
      | none => simp
      | some b => simp
    · rw [parse_of_call hp, Phrase.means_call_iff, ← readErrno_eq_ok, ← mem_errnoWords]
      -- That something stands between the parentheses is asked for once more than is necessary.
      by_cases hword : String.ofList (word.map lowerChar) ∈ errnoWords ∧ argument ≠ []
      · rw [if_pos hword, mapError_eq_ok, and_iff_right hword.1]
      · rw [if_neg hword]
        refine iff_of_false nofun fun ⟨hmem, hread⟩ ↦ hword ⟨hmem, ?_⟩
        obtain ⟨errno, -, herrno⟩ := readErrno_eq_ok.mp hread
        exact herrno.denotes.ne_nil

/-- The text that is refused is named. -/
theorem spelling_of_parse {e : InvalidAction} (h : parse text = .error e) :
    e.spelling = codePoints text := by
  cases hp : Phrase.ofText? text.toList with
  | none =>
    rw [parse_of_none hp] at h
    cases h
    rfl
  | some p =>
    obtain ⟨word, _ | argument⟩ := p
    · rw [parse_of_word hp] at h
      cases hword : ofWord? (String.ofList (word.map lowerChar)) with
      | none =>
        rw [hword] at h
        cases h
        rfl
      | some a =>
        rw [hword] at h
        cases h
    · rw [parse_of_call hp] at h
      split at h
      · obtain ⟨fault, -, rfl⟩ := mapError_eq_error.mp h
        rfl
      · cases h
        rfl

/-! ## Digits without a limit -/

/-- A text with few digits needs no limit to them. -/
theorem spells_some_iff {cs : List Char} {m : ℕ} (h : digitCount 10 cs ≤ m) :
    Spells (some m) cs a ↔ Spells none cs a := by
  constructor
  · rintro ⟨p, hlayout, hmeans⟩
    refine ⟨p, hlayout, ?_⟩
    cases hmeans with
    | word ha hword => exact .word ha hword
    | errno hword herrno => exact .errno hword ⟨herrno.denotes, nofun⟩
  · rintro ⟨p, hlayout, hmeans⟩
    refine ⟨p, hlayout, ?_⟩
    cases hmeans with
    | word ha hword => exact .word ha hword
    | errno hword herrno =>
      refine .errno hword ⟨herrno.denotes, ?_⟩
      rintro _ ⟨⟩ -
      exact hlayout.digitCount_le.trans h

/-! ## The written form of an action -/

theorem isWord_of_map_lowerChar {cs ds : List Char} (h : cs.map lowerChar = ds) (hds : ds ≠ [])
    (hletters : ∀ d ∈ ds, IsAscii d ∧ isWordChar d = true) : IsWord cs := by
  subst h
  refine ⟨by simpa using hds, fun c hc ↦ ?_⟩
  obtain ⟨hascii, hletter⟩ := hletters _ (List.mem_map_of_mem hc)
  exact isWordChar_of_lowerChar hascii hletter

theorem of_isDigit {d : Char} (h : d.isDigit = true) :
    IsAscii d ∧ d.isAlpha = false ∧ d ≠ '\x00' ∧ isBlank d = false ∧ d ≠ ')' := by
  have hascii : IsAscii d := by
    simp only [Char.isDigit, Bool.and_eq_true, decide_eq_true_eq, UInt32.le_iff_toNat_le] at h
    exact lt_of_le_of_lt h.2 (by decide)
  have hall : ∀ d, IsAscii d → d.isDigit = true →
      d.isAlpha = false ∧ d ≠ '\x00' ∧ isBlank d = false ∧ d ≠ ')' := by decide
  exact ⟨hascii, hall d hascii h⟩

/-- The digits of an error number are a literal of it. -/
theorem isErrno_toDigits (errno : UInt16) :
    IsErrno (some digitLimit) (Nat.toDigits 10 errno.toNat) errno := by
  have hlt : errno.toNat < 65536 := errno.toNat_lt
  -- No base is announced, because behind the first digit there is no letter.
  have hbase : announcedBase (Nat.toDigits 10 errno.toNat) = 10 := by
    rw [announcedBase_eq]
    cases hsplit : splitBase? (Nat.toDigits 10 errno.toNat) with
    | none => rfl
    | some p =>
      obtain ⟨c, hcs, hc⟩ := splitBase?_eq_some.mp hsplit
      have hdigit : c.isDigit = true := by
        refine Nat.isDigit_of_mem_toDigits (by omega) le_rfl (n := errno.toNat) ?_
        rw [hcs]
        simp
      have hletters : ∀ q ∈ baseLetters, q.1.isDigit = false := by decide
      rw [hletters _ hc] at hdigit
      cases hdigit
  constructor
  · rw [hbase]
    have hliteral := @Denotes.literal 10 [] [] [] (Nat.toDigits 10 errno.toNat) [] false
      errno.toNat (by simp) .missing .missing (numeral_toDigits _) (by simp)
    simpa [withSign] using hliteral
  · rintro _ ⟨⟩ -
    have hlength : (Nat.toDigits 10 errno.toNat).length ≤ 5 :=
      (Nat.length_toDigits_le_iff (by omega) (by omega)).mpr (by omega)
    calc digitCount 10 (Nat.toDigits 10 errno.toNat)
        ≤ (Nat.toDigits 10 errno.toNat).length := List.countP_le_length
      _ ≤ 5 := hlength
      _ ≤ digitLimit := by decide

theorem toList_text_returnErrno (errno : UInt16) :
    (returnErrno errno).text.toList =
      "return_errno".toList ++ '(' :: (Nat.toDigits 10 errno.toNat ++ [')']) := by
  simp [text, String.toList_append, toString]

theorem isAscii_text (a : Action) : ∀ d ∈ a.text.toList, IsAscii d := by
  cases a with
  | returnErrno errno =>
    have hword : ∀ d ∈ "return_errno".toList, IsAscii d := by decide +kernel
    rw [toList_text_returnErrno]
    intro d hd
    simp only [List.mem_append, List.mem_cons, List.not_mem_nil, or_false] at hd
    rcases hd with hd | rfl | hd | rfl
    · exact hword d hd
    · decide
    · exact (of_isDigit (Nat.isDigit_of_mem_toDigits (by omega) le_rfl hd)).1
    · decide
  | _ => decide +kernel

section

variable {before cs after : List Char}

theorem spells_kind (hbefore : AreBlank before) (hafter : AreBlank after)
    (ha : a ∈ [allow, .log, .kill]) (hcs : cs.map lowerChar = a.kind.toList) :
    Spells limit (before ++ (cs ++ after)) a := by
  have hall : ∀ a ∈ [allow, .log, .kill], a.kind.toList ≠ [] ∧
      ∀ d ∈ a.kind.toList, IsAscii d ∧ isWordChar d = true := by decide +kernel
  obtain ⟨hne, hletters⟩ := hall a ha
  have hword : IsWord cs := isWord_of_map_lowerChar hcs hne hletters
  have hlower : lowerCase cs = a.kind.toList :=
    (lowerCase_eq_iff fun d hd ↦ (hletters d hd).1).mpr hcs
  exact ⟨⟨cs, none⟩, .word hbefore hword hafter, .word ha hlower⟩

theorem spells_returnErrno {errno : UInt16} (hbefore : AreBlank before) (hafter : AreBlank after)
    (hcs : cs.map lowerChar = (returnErrno errno).text.toList) :
    Spells (some digitLimit) (before ++ (cs ++ after)) (returnErrno errno) := by
  have hdigits : ∀ d ∈ Nat.toDigits 10 errno.toNat, IsAscii d ∧ d.isAlpha = false ∧ d ≠ '\x00' ∧
      isBlank d = false ∧ d ≠ ')' := fun d hd ↦
    of_isDigit (Nat.isDigit_of_mem_toDigits (by omega) le_rfl hd)
  rw [toList_text_returnErrno, List.map_eq_append_iff] at hcs
  obtain ⟨word, rest, rfl, hword, hrest⟩ := hcs
  obtain ⟨c, inner, rfl, hc, hinner⟩ := List.map_eq_cons_iff.mp hrest
  obtain ⟨digits, close, rfl, hds, hclose⟩ := List.map_eq_append_iff.mp hinner
  obtain ⟨c', rfl, hc'⟩ := List.map_eq_singleton_iff.mp hclose
  -- What is not a letter is the same in upper and lower case.
  obtain rfl : c = '(' := eq_of_lowerChar hc (by decide) rfl (by decide)
  obtain rfl : c' = ')' := eq_of_lowerChar hc' (by decide) rfl (by decide)
  have hsame : digits.map id = digits.map lowerChar := by
    refine List.map_congr_left fun c hc ↦ ?_
    obtain ⟨hascii, halpha, hnul, -⟩ := hdigits (lowerChar c) (hds ▸ List.mem_map_of_mem hc)
    exact eq_of_lowerChar rfl hascii halpha hnul
  obtain rfl : digits = Nat.toDigits 10 errno.toNat := by
    rw [← hds, ← hsame, List.map_id]
  have hletters : ∀ d ∈ "return_errno".toList, IsAscii d ∧ isWordChar d = true := by
    decide +kernel
  have hlower : lowerCase word = "return_errno".toList :=
    (lowerCase_eq_iff fun d hd ↦ (hletters d hd).1).mpr hword
  have hstrip : strip isBlank (Nat.toDigits 10 errno.toNat) = Nat.toDigits 10 errno.toNat :=
    strip_of_forall fun d hd ↦ (hdigits d hd).2.2.2.1
  have hbetween : AreBlank [] := nofun
  have hinside : ')' ∉ Nat.toDigits 10 errno.toNat := fun hmem ↦ (hdigits ')' hmem).2.2.2.2 rfl
  have hlayout := Phrase.Layout.call hbefore
    (isWord_of_map_lowerChar hword (by decide +kernel) hletters) hbetween hinside hafter
  rw [hstrip] at hlayout
  exact ⟨_, by simpa using hlayout,
    .errno ⟨"return_errno", by decide, hlower⟩ (isErrno_toDigits errno)⟩

/-- A written action is spelled by its text in any case, and with blanks around it. -/
theorem spells_text (hbefore : AreBlank before) (hafter : AreBlank after)
    (hcs : lowerCase cs = a.text.toList) :
    Spells (some digitLimit) (before ++ (cs ++ after)) a := by
  rw [lowerCase_eq_iff a.isAscii_text] at hcs
  cases a with
  | returnErrno errno => exact spells_returnErrno hbefore hafter hcs
  | allow => exact spells_kind hbefore hafter (by decide) hcs
  | log => exact spells_kind hbefore hafter (by decide) hcs
  | kill => exact spells_kind hbefore hafter (by decide) hcs

end

/-- **Reading an action is recognizing its spelling.** Exactly the texts that spell an action are
read, and as the action that they spell; where the digits are few, there is no limit to them. A text
that is refused is named in the failure, also one with halves of surrogate pairs, which spells
nothing. Every action is read from its own text, whatever case it is in and whatever blanks stand
around it. -/
theorem parse_exact :
    (∀ (text : String) (a : Action), parse text = .ok a ↔
      Spells (some digitLimit) text.toList a) ∧
    (∀ (text : String) (a : Action), digitCount 10 text.toList ≤ digitLimit →
      (parse text = .ok a ↔ Spells none text.toList a)) ∧
    (∀ (text : String) (e : InvalidAction), parse text = .error e →
      e.spelling = codePoints text) ∧
    (∀ ps : List CodePoint, CodePoint.chars? ps = none →
      ∃ e, ofSpelling (.broken ps) = .error e ∧ e.spelling = ps) ∧
    ∀ (a : Action) (before cs after : List Char), AreBlank before → AreBlank after →
      lowerCase cs = a.text.toList → parse (String.ofList (before ++ (cs ++ after))) = .ok a := by
  refine ⟨fun text a ↦ parse_eq_ok, fun text a hfew ↦ ?_, fun text e ↦ spelling_of_parse,
    fun ps _ ↦ ⟨_, rfl, rfl⟩, fun a before cs after hbefore hafter hcs ↦ ?_⟩
  · rw [parse_eq_ok, spells_some_iff hfew]
  · rw [parse_eq_ok, String.toList_ofList]
    exact spells_text hbefore hafter hcs

/-- A capital K may be the Kelvin sign, and a base prefix may have its letter in upper case and an
underscore behind it; two underscores in a row are one too many. -/
theorem parse_exact_kelvin :
    parse "\u2003\u212aIll\n" = .ok .kill ∧
      Spells none "ret_err( 0X_ff\u001c)".toList (.returnErrno 255) ∧
      ∀ a, ¬ Spells none "ret_err(1__0)".toList a := by
  obtain ⟨-, hfew, -, -, htext⟩ := parse_exact
  refine ⟨?_, ?_, fun a ha ↦ ?_⟩
  · have hblank : AreBlank ['\u2003'] ∧ AreBlank ['\n'] :=
      ⟨List.forall_mem_singleton.mpr rfl, List.forall_mem_singleton.mpr rfl⟩
    exact htext .kill ['\u2003'] ['\u212a', 'I', 'l', 'l'] ['\n'] hblank.1 hblank.2
      (by decide +kernel)
  · exact (hfew _ _ (by decide +kernel)).mp (by decide +kernel)
  · have hread := (hfew "ret_err(1__0)" a (by decide +kernel)).mpr ha
    have hrefused : parse "ret_err(1__0)" =
        .error ⟨codePoints "ret_err(1__0)", some (.integer (.ofLiteral 10 _ .malformed))⟩ := rfl
    rw [hrefused] at hread
    cases hread

end Action

end CallGate.Policy
