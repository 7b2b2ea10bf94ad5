import CallGate.Proofs.Abi.Registry
import CallGate.Proofs.Data.Outcome
import Mathlib.Data.List.Nodup

/-!
# Registries and their ledgers

A registry overwrites: a descriptor that is replaced is gone. A `Ledger` only ever grows. It holds
every descriptor that was taken in, one after the other, and the names and look-ups of a registry
can be read off it: a name stands where it was first entered, and what is found under it was entered
last.

`Represents` says that a registry and a ledger tell the same. A command keeps it so and gets the
same answer from both (`Represents.perform`), hence so does a run of commands, whether they succeed
or fail (`Represents.after`). What is left to be said of a ledger are facts about lists that grow at
their end, and `after_follows_ledger` brings them together.
-/

namespace CallGate.Abi

/-! ## Ledgers -/

/-- The descriptors taken in, one after the other, and whether no more are. -/
structure Ledger where
  entries : List Descriptor := []
  isClosed : Bool := false

namespace Ledger

/-- The names, each in the place of its first entry. -/
def names (l : Ledger) : List String := (l.entries.map (·.name)).eraseDups

/-- The last entry under a name. -/
def find? (l : Ledger) (name : String) : Option Descriptor :=
  l.entries.reverse.find? (·.name == name)

/-- The ledger with more descriptors behind all others. -/
def append (l : Ledger) (ds : List Descriptor) : Ledger := { l with entries := l.entries ++ ds }

/-- Why a descriptor is not entered, unless it is. -/
def refusal? (replace : Bool) (d : Descriptor) (l : Ledger) : Option RegistryError :=
  if l.isClosed then some (.frozen d.name)
  else if d.name ∈ l.names ∧ replace = false then some (.duplicate d.name)
  else none

/-- Enter descriptors up to the first that is refused. -/
def enter (replace : Bool) : List Descriptor → Ledger → Option RegistryError × Ledger
  | [], l => (none, l)
  | d :: ds, l =>
    match l.refusal? replace d with
    | some e => (some e, l)
    | none => enter replace ds (l.append [d])

variable {l : Ledger} {ds : List Descriptor} {replace : Bool}

@[simp] theorem append_nil (l : Ledger) : l.append [] = l := by
  rw [append, List.append_nil]

@[simp] theorem append_append (l : Ledger) (ds es : List Descriptor) :
    (l.append ds).append es = l.append (ds ++ es) := by
  simp [append]

theorem names_append_singleton (l : Ledger) (d : Descriptor) : (l.append [d]).names =
    if d.name ∈ l.names then l.names else l.names ++ [d.name] := by
  rw [names, append, List.map_append, List.eraseDups_append, ← names, List.map_singleton]
  by_cases h : d.name ∈ l.names
  · have hold : d.name ∈ l.entries.map (·.name) := List.mem_eraseDups.mp h
    rw [if_pos h, List.removeAll, List.filter_cons_of_neg (by simpa using hold), List.filter_nil,
      List.eraseDups_nil, List.append_nil]
  · have hnew : d.name ∉ l.entries.map (·.name) := mt List.mem_eraseDups.mpr h
    rw [if_neg h, List.removeAll, List.filter_cons_of_pos (by simpa using hnew), List.filter_nil,
      List.eraseDups_cons, List.filter_nil, List.eraseDups_nil]

theorem find?_append (l : Ledger) (ds : List Descriptor) (name : String) :
    (l.append ds).find? name = (ds.reverse.find? (·.name == name)).or (l.find? name) := by
  rw [find?, append, List.reverse_append, List.find?_append, find?]

theorem find?_append_singleton (l : Ledger) (d : Descriptor) (name : String) :
    (l.append [d]).find? name = if d.name = name then some d else l.find? name := by
  by_cases h : d.name = name <;> simp [find?_append, h]

/-- What is entered last is found, unless its name comes twice. -/
theorem find?_append_of_mem (hnodup : (ds.map (·.name)).Nodup) {d : Descriptor} (hd : d ∈ ds) :
    (l.append ds).find? d.name = some d := by
  have hreverse : (ds.reverse.map (·.name)).Nodup := by
    rw [List.map_reverse]
    exact List.nodup_reverse.mpr hnodup
  rw [find?_append, (Data.find?_key_eq_some _ hreverse).mpr ⟨List.mem_reverse.mpr hd, rfl⟩,
    Option.some_or]

theorem find?_append_of_notMem {name : String} (h : name ∉ ds.map (·.name)) :
    (l.append ds).find? name = l.find? name := by
  have hnone : ds.reverse.find? (·.name == name) = none := by simpa using h
  rw [find?_append, hnone, Option.none_or]

theorem eraseDups_of_nodup {names : List String} (h : names.Nodup) : names.eraseDups = names := by
  induction names with
  | nil => rfl
  | cons name names ih =>
    obtain ⟨hname, h⟩ := List.nodup_cons.mp h
    have hfilter : names.filter (fun b ↦ !b == name) = names :=
      List.filter_eq_self.mpr fun b hb ↦ by simpa using ne_of_mem_of_not_mem hb hname
    rw [List.eraseDups_cons, hfilter, ih h]

/-- New names stand behind the old ones. -/
theorem names_append (hl : (l.entries.map (·.name)).Nodup) (hds : (ds.map (·.name)).Nodup) :
    (l.append ds).names = l.names ++ (ds.map (·.name)).filter (· ∉ l.names) := by
  have hnames : l.names = l.entries.map (·.name) := eraseDups_of_nodup hl
  rw [names, append, List.map_append, List.eraseDups_append, ← names, hnames, List.removeAll,
    eraseDups_of_nodup (hds.filter _)]
  exact congrArg _ (List.filter_congr fun name _ ↦ by rw [List.elem_eq_mem, decide_not])

/-! ### What is refused -/

theorem refusal?_eq_none_iff {d : Descriptor} : l.refusal? replace d = none ↔
    l.isClosed = false ∧ (d.name ∈ l.names → replace = true) := by
  rw [refusal?]
  cases l.isClosed with
  | true => simp
  | false => simp

theorem refusal?_eq_some_iff {d : Descriptor} {e : RegistryError} :
    l.refusal? replace d = some e ↔ l.isClosed = true ∧ e = .frozen d.name ∨
      l.isClosed = false ∧ d.name ∈ l.names ∧ replace = false ∧ e = .duplicate d.name := by
  rw [refusal?]
  cases l.isClosed with
  | true => simp [eq_comm]
  | false => by_cases h : d.name ∈ l.names <;> cases replace <;> simp [h, eq_comm]

theorem enter_cons_of_some {d : Descriptor} {e : RegistryError}
    (h : l.refusal? replace d = some e) : l.enter replace (d :: ds) = (some e, l) := by
  rw [enter, h]

theorem enter_cons_of_none {d : Descriptor} (h : l.refusal? replace d = none) :
    l.enter replace (d :: ds) = (l.append [d]).enter replace ds := by
  rw [enter, h]

/-- If nothing is refused, everything is entered. -/
theorem enter_eq_of_fst (h : (l.enter replace ds).1 = none) :
    l.enter replace ds = (none, l.append ds) := by
  induction ds generalizing l with
  | nil => rw [enter, append_nil]
  | cons d ds ih =>
    cases hd : l.refusal? replace d with
    | some e =>
      rw [enter_cons_of_some hd] at h
      cases h
    | none =>
      rw [enter_cons_of_none hd] at h ⊢
      rw [ih h, append_append, List.singleton_append]

/-- In an open ledger nothing is refused that may replace what is there. -/
theorem enter_true (h : l.isClosed = false) (ds : List Descriptor) :
    l.enter true ds = (none, l.append ds) := by
  refine enter_eq_of_fst ?_
  induction ds generalizing l with
  | nil => rfl
  | cons d ds ih =>
    rw [enter_cons_of_none (refusal?_eq_none_iff.mpr ⟨h, fun _ ↦ rfl⟩)]
    exact ih h

/-- Otherwise nothing is refused if no name comes twice. -/
theorem enter_false_fst_eq_none_iff (h : l.isClosed = false) (ds : List Descriptor) :
    (l.enter false ds).1 = none ↔ (ds.map (·.name)).Nodup ∧ ∀ d ∈ ds, d.name ∉ l.names := by
  induction ds generalizing l with
  | nil => simp [enter]
  | cons d ds ih =>
    rw [List.map_cons, List.nodup_cons, List.forall_mem_cons]
    by_cases hd : d.name ∈ l.names
    · have hsome : l.refusal? false d = some (.duplicate d.name) := by simp [refusal?, h, hd]
      simp [enter_cons_of_some hsome, hd]
    · have hnone : l.refusal? false d = none :=
        refusal?_eq_none_iff.mpr ⟨h, fun hmem ↦ absurd hmem hd⟩
      have hopen : (l.append [d]).isClosed = false := h
      have hnames : (l.append [d]).names = l.names ++ [d.name] := by
        rw [names_append_singleton, if_neg hd]
      rw [enter_cons_of_none hnone, ih hopen, hnames]
      simp only [List.mem_append, List.mem_singleton, not_or, List.mem_map, not_exists, not_and]
      constructor
      · rintro ⟨hnodup, hds⟩
        exact ⟨⟨fun e he ↦ (hds e he).2, hnodup⟩, hd, fun e he ↦ (hds e he).1⟩
      · rintro ⟨⟨hne, hnodup⟩, -, hds⟩
        exact ⟨hnodup, fun e he ↦ ⟨hds e he, hne e he⟩⟩

end Ledger

/-! ## Commands -/

/-- What can be done to a registry. -/
inductive Registry.Command where
  | register (d : Descriptor) (replace : Bool)
  | registerTable (t : Table) (replace : Bool)
  | freeze

namespace Registry

/-- Registering some descriptors, each by a command of its own. -/
def registrations (replace : Bool) (ds : List Descriptor) : List Command :=
  ds.map (.register · replace)

/-- Carry out a command. -/
def Command.perform : Command → Registration Unit
  | register d replace => Registry.register d replace
  | registerTable t replace => Registry.registerTable t replace
  | freeze => Registry.freeze

/-- The registry that a command leaves behind, whether it fails or not. -/
def step (r : Registry) (c : Command) : Registry :=
  match c.perform r with
  | .ok _ r' | .error _ r' => r'

/-- The registry after some commands. A failure of one of them does not keep the next from being
carried out. -/
def after (r : Registry) (cs : List Command) : Registry := cs.foldl step r

@[simp] theorem after_nil (r : Registry) : r.after [] = r := rfl

@[simp] theorem after_cons (r : Registry) (c : Command) (cs : List Command) :
    r.after (c :: cs) = (r.step c).after cs := rfl

theorem after_append (r : Registry) (cs cs' : List Command) :
    r.after (cs ++ cs') = (r.after cs).after cs' := List.foldl_append

end Registry

namespace Ledger

/-- Write down a command, and say why it fails, unless it does not. -/
def perform (l : Ledger) : Registry.Command → Option RegistryError × Ledger
  | .register d replace => l.enter replace [d]
  | .registerTable t replace => l.enter replace t.calls
  | .freeze => (none, { l with isClosed := true })

def step (l : Ledger) (c : Registry.Command) : Ledger := (l.perform c).2

/-- The ledger of some commands. -/
def after (l : Ledger) (cs : List Registry.Command) : Ledger := cs.foldl step l

end Ledger

/-! ## A registry and its ledger -/

/-- A registry tells the same as a ledger. -/
structure Represents (r : Registry) (l : Ledger) : Prop where
  isFrozen_eq : r.isFrozen = l.isClosed
  names_eq : r.names = l.names
  find?_eq : ∀ name, r.find? name = l.find? name

/-- A change to a registry and to its ledger end alike: both succeed or both fail for the same
reason, and the registry still tells the same as the ledger. -/
inductive EndAlike :
    EStateM.Result RegistryError Registry Unit → Option RegistryError × Ledger → Prop
  | ok {r : Registry} {l : Ledger} (h : Represents r l) : EndAlike (.ok () r) (none, l)
  | error {e : RegistryError} {r : Registry} {l : Ledger} (h : Represents r l) :
      EndAlike (.error e r) (some e, l)

theorem EndAlike.of_ok {r : Registry} {y : Option RegistryError × Ledger}
    (h : EndAlike (.ok () r) y) : y.1 = none ∧ Represents r y.2 := by
  cases h with
  | ok h => exact ⟨rfl, h⟩

theorem EndAlike.of_none {x : EStateM.Result RegistryError Registry Unit} {l : Ledger}
    (h : EndAlike x (none, l)) : ∃ r, x = .ok () r ∧ Represents r l := by
  cases h with
  | ok h => exact ⟨_, rfl, h⟩

namespace Represents

open Registry

variable {r : Registry} {l : Ledger}

theorem empty : Represents .empty {} := ⟨rfl, rfl, fun _ ↦ rfl⟩

theorem put (h : Represents r l) (d : Descriptor) : Represents (r.put d) (l.append [d]) where
  isFrozen_eq := h.isFrozen_eq
  names_eq := by rw [names_put, Ledger.names_append_singleton, h.names_eq]
  find?_eq name := by rw [find?_put, Ledger.find?_append_singleton, h.find?_eq]

theorem register_of_refusal (h : Represents r l) {d : Descriptor} {replace : Bool}
    {e : RegistryError} (hd : l.refusal? replace d = some e) :
    Registry.register d replace r = .error e r := by
  rw [Ledger.refusal?_eq_some_iff, ← h.isFrozen_eq, ← h.names_eq] at hd
  exact register_eq_error_iff.mpr ⟨rfl, hd⟩

theorem register_of_no_refusal (h : Represents r l) {d : Descriptor} {replace : Bool}
    (hd : l.refusal? replace d = none) : Registry.register d replace r = .ok () (r.put d) := by
  rw [Ledger.refusal?_eq_none_iff, ← h.isFrozen_eq, ← h.names_eq] at hd
  exact register_eq_ok_iff.mpr ⟨rfl, hd⟩

theorem forM_register (h : Represents r l) (replace : Bool) (ds : List Descriptor) :
    EndAlike (ds.forM (Registry.register · replace) r) (l.enter replace ds) := by
  -- The registry and the ledger both go on from where the first descriptor left them.
  induction ds generalizing r l with
  | nil => exact .ok h
  | cons d ds ih =>
    cases hd : l.refusal? replace d with
    | some e =>
      rw [Data.forM_cons_of_error (Registry.register · replace) (h.register_of_refusal hd),
        Ledger.enter_cons_of_some hd]
      exact .error h
    | none =>
      rw [Data.forM_cons_of_ok (Registry.register · replace) (h.register_of_no_refusal hd),
        Ledger.enter_cons_of_none hd]
      exact ih (h.put d)

/-- What one command preserves, and that it is answered alike. -/
theorem perform (h : Represents r l) (c : Command) : EndAlike (c.perform r) (l.perform c) := by
  cases c with
  | register d replace =>
    cases hd : l.refusal? replace d with
    | some e =>
      rw [Command.perform, h.register_of_refusal hd, Ledger.perform, Ledger.enter_cons_of_some hd]
      exact .error h
    | none =>
      rw [Command.perform, h.register_of_no_refusal hd, Ledger.perform,
        Ledger.enter_cons_of_none hd]
      exact .ok (h.put d)
  | registerTable t replace => exact h.forM_register replace t.calls
  | freeze => exact .ok ⟨rfl, h.names_eq, h.find?_eq⟩

theorem step (h : Represents r l) (c : Command) : Represents (r.step c) (l.step c) := by
  have hc := h.perform c
  rw [Registry.step, Ledger.step]
  generalize c.perform r = x, l.perform c = y at hc
  cases hc with
  | ok h => exact h
  | error h => exact h

/-- What a run preserves. -/
theorem after (h : Represents r l) (cs : List Command) : Represents (r.after cs) (l.after cs) := by
  induction cs generalizing r l with
  | nil => exact h
  | cons c cs ih => exact ih (h.step c)

end Represents

namespace Registry

variable {r : Registry}

/-! ## Tables and freezing -/

theorem after_registrations_cons (r : Registry) (replace : Bool) (d : Descriptor)
    (ds : List Descriptor) : r.after (registrations replace (d :: ds)) =
      (r.step (.register d replace)).after (registrations replace ds) := rfl

/-- A table is taken in one descriptor after the other, all of them or those before the first that
is refused. -/
theorem registerTable_cases (r : Registry) (t : Table) (replace : Bool) :
    registerTable t replace r = .ok () (r.after (registrations replace t.calls)) ∨
      ∃ before d rest e r', t.calls = before ++ d :: rest ∧
        r' = r.after (registrations replace before) ∧
        before.forM (register · replace) r = .ok () r' ∧
        register d replace r' = .error e r' ∧ registerTable t replace r = .error e r' := by
  obtain ⟨_, ds⟩ := t
  simp only [registerTable]
  induction ds generalizing r with
  | nil => exact .inl rfl
  | cons d ds ih =>
    cases hd : register d replace r with
    | error e r' =>
      obtain ⟨rfl, -⟩ := register_eq_error_iff.mp hd
      exact .inr ⟨[], d, ds, e, r, rfl, rfl, rfl, hd,
        Data.forM_cons_of_error (register · replace) hd ds⟩
    | ok u r' =>
      have hstep : r.step (.register d replace) = r' := by rw [step, Command.perform, hd]
      rcases ih r' with hall | ⟨before, d', rest, e, r'', rfl, rfl, hbefore, hd', hall⟩
      · left
        rw [after_registrations_cons, hstep]
        exact (Data.forM_cons_of_ok (register · replace) hd ds).trans hall
      · refine .inr ⟨d :: before, d', rest, e, _, rfl, ?_, ?_, hd', ?_⟩
        · rw [after_registrations_cons, hstep]
        · exact (Data.forM_cons_of_ok (register · replace) hd before).trans hbefore
        · exact (Data.forM_cons_of_ok (register · replace) hd _).trans hall

theorem step_of_isFrozen (h : r.isFrozen = true) (c : Command) : r.step c = r := by
  have hregister (d : Descriptor) (replace : Bool) :
      register d replace r = .error (.frozen d.name) r :=
    register_eq_error_iff.mpr ⟨rfl, .inl ⟨h, rfl⟩⟩
  cases c with
  | register d replace => rw [step, Command.perform, hregister]
  | registerTable t replace =>
    obtain ⟨_, ds⟩ := t
    cases ds with
    | nil => rfl
    | cons d ds =>
      rw [step, Command.perform, registerTable,
        Data.forM_cons_of_error (register · replace) (hregister d replace)]
  | freeze =>
    obtain ⟨ds, isFrozen, hnodup⟩ := r
    cases h
    rfl

theorem after_of_isFrozen (h : r.isFrozen = true) (cs : List Command) : r.after cs = r := by
  induction cs with
  | nil => rfl
  | cons c cs ih => rw [after_cons, step_of_isFrozen h, ih]

/-! ## Beginnings -/

theorem ofList_eq_ok_iff {ds : List Descriptor} :
    ofList ds = .ok r ↔ ds.forM (register · false) empty = .ok () r := by
  rw [ofList]
  split
  · next h => rw [h, Except.ok.injEq, EStateM.Result.ok.injEq, eq_self, true_and]
  · next h => simp [h]

theorem represents_of_ofList {ds : List Descriptor} (h : ofList ds = .ok r) :
    Represents r { entries := ds } := by
  have hds := Represents.empty.forM_register false ds
  rw [ofList_eq_ok_iff.mp h] at hds
  obtain ⟨hnone, hr⟩ := hds.of_ok
  rwa [Ledger.enter_eq_of_fst hnone] at hr

theorem exists_ofList_iff {ds : List Descriptor} :
    (∃ r, ofList ds = .ok r) ↔ (ds.map (·.name)).Nodup := by
  have hds := Represents.empty.forM_register false ds
  have hiff := Ledger.enter_false_fst_eq_none_iff (l := {}) rfl ds
  simp only [ofList_eq_ok_iff]
  constructor
  · rintro ⟨r, h⟩
    rw [h] at hds
    exact (hiff.mp hds.of_ok.1).1
  · intro hnodup
    have hnone := hiff.mpr ⟨hnodup, fun _ _ ↦ List.not_mem_nil⟩
    rw [Ledger.enter_eq_of_fst hnone] at hds
    obtain ⟨r, hr, -⟩ := hds.of_none
    exact ⟨r, hr⟩

/-- Two tables one after the other, the second replacing what it shares with the first. -/
theorem exists_registerTable_registerTable {t₁ t₂ : Table} (h₁ : (t₁.calls.map (·.name)).Nodup)
    (h₂ : (t₂.calls.map (·.name)).Nodup) :
    ∃ r₁ r, registerTable t₁ false empty = .ok () r₁ ∧ registerTable t₂ true r₁ = .ok () r ∧
      r.names = t₁.calls.map (·.name) ++
        (t₂.calls.map (·.name)).filter (· ∉ t₁.calls.map (·.name)) ∧
      (∀ d ∈ t₂.calls, r.get d.name = .ok d) ∧
      ∀ d ∈ t₁.calls, d.name ∉ t₂.calls.map (·.name) → r.get d.name = .ok d := by
  obtain ⟨r₁, hr₁⟩ := exists_ofList_iff.mpr h₁
  have hl₁ := represents_of_ofList hr₁
  have hall := hl₁.forM_register true t₂.calls
  rw [Ledger.enter_true rfl] at hall
  obtain ⟨r, hr, hl⟩ := hall.of_none
  have hnames : Ledger.names { entries := t₁.calls } = t₁.calls.map (·.name) :=
    Ledger.eraseDups_of_nodup h₁
  refine ⟨r₁, r, ofList_eq_ok_iff.mp hr₁, hr, ?_, fun d hd ↦ ?_, fun d hd hnew ↦ ?_⟩
  · rw [hl.names_eq, Ledger.names_append h₁ h₂, hnames]
  · rw [get_eq_ok_iff, hl.find?_eq, Ledger.find?_append_of_mem h₂ hd]
  · rw [get_eq_ok_iff, hl.find?_eq, Ledger.find?_append_of_notMem hnew]
    exact Ledger.find?_append_of_mem (l := {}) h₁ hd

/-- **A registry follows its ledger.** Registries begin with any descriptors whose names are
distinct. From there, carry out any commands, whether they succeed or not. All questions to the
registry are then about one ordered map, which can be read off the ledger of the commands: each name
stands where it was first entered, and what is found under it was entered last. The next command is
answered as the ledger says. A descriptor that is refused leaves no trace, a table leaves what is
before its first descriptor that is refused, and nothing comes after a freeze. So of two tables, the
second replacing, the names of the first come before what is new in the second, and the descriptors
of the second hold. -/
theorem after_represents (ds : List Descriptor) :
    ((∃ r₀, ofList ds = .ok r₀) ↔ (ds.map (·.name)).Nodup) ∧
    (∀ r₀, ofList ds = .ok r₀ → ∀ cs : List Command,
      let r := r₀.after cs
      let l := Ledger.after { entries := ds } cs
      r.Coherent ∧ Represents r l ∧ (∀ c, EndAlike (c.perform r) (l.perform c)) ∧
      (∀ d replace e r', register d replace r = .error e r' ↔
        r = r' ∧ (r.isFrozen = true ∧ e = .frozen d.name ∨
          r.isFrozen = false ∧ d.name ∈ r.names ∧ replace = false ∧ e = .duplicate d.name)) ∧
      (∀ t replace,
        registerTable t replace r = .ok () (r.after (registrations replace t.calls)) ∨
        ∃ before d rest e r', t.calls = before ++ d :: rest ∧
          r' = r.after (registrations replace before) ∧
          before.forM (register · replace) r = .ok () r' ∧
          register d replace r' = .error e r' ∧ registerTable t replace r = .error e r') ∧
      ∀ cs', r₀.after (cs ++ .freeze :: cs') = r₀.after (cs ++ [.freeze])) ∧
    ∀ t₁ t₂ : Table, (t₁.calls.map (·.name)).Nodup → (t₂.calls.map (·.name)).Nodup →
      ∃ r₁ r, registerTable t₁ false empty = .ok () r₁ ∧ registerTable t₂ true r₁ = .ok () r ∧
        r.names = t₁.calls.map (·.name) ++
          (t₂.calls.map (·.name)).filter (· ∉ t₁.calls.map (·.name)) ∧
        (∀ d ∈ t₂.calls, r.get d.name = .ok d) ∧
        ∀ d ∈ t₁.calls, d.name ∉ t₂.calls.map (·.name) → r.get d.name = .ok d := by
  refine ⟨exists_ofList_iff, fun r₀ h₀ cs ↦ ?_, fun t₁ t₂ ↦ exists_registerTable_registerTable⟩
  have hafter := (represents_of_ofList h₀).after cs
  refine ⟨coherent _, hafter, hafter.perform, fun d replace e r' ↦ register_eq_error_iff,
    registerTable_cases _, fun cs' ↦ ?_⟩
  have hfrozen : ((r₀.after cs).step .freeze).isFrozen = true := rfl
  rw [after_append, after_append, after_cons, after_cons, after_of_isFrozen hfrozen, after_nil]

/-- A table that fails at its second call has left its first one, and the call that was replaced
before stands at its old place. -/
theorem after_represents_failing_table :
    ∃ r₀, ofList [⟨"a", []⟩, ⟨"b", []⟩] = .ok r₀ ∧
      let r := r₀.after [.register ⟨"a", [.typed "fd" .u32]⟩ true,
        .registerTable ⟨"t", [⟨"c", []⟩, ⟨"b", []⟩, ⟨"d", []⟩]⟩ false, .freeze,
        .register ⟨"e", []⟩ true]
      r.names = ["a", "b", "c"] ∧ r.find? "a" = some ⟨"a", [.typed "fd" .u32]⟩ ∧
        r.isFrozen = true := by
  obtain ⟨hbegin, hrun, -⟩ := after_represents [⟨"a", []⟩, ⟨"b", []⟩]
  obtain ⟨r₀, h₀⟩ := hbegin.mpr (by decide)
  obtain ⟨-, ⟨hfrozen, hnames, hfind⟩, -⟩ := hrun r₀ h₀
    [.register ⟨"a", [.typed "fd" .u32]⟩ true,
      .registerTable ⟨"t", [⟨"c", []⟩, ⟨"b", []⟩, ⟨"d", []⟩]⟩ false, .freeze,
      .register ⟨"e", []⟩ true]
  exact ⟨r₀, h₀, hnames.trans (by decide +kernel), (hfind "a").trans (by decide +kernel), hfrozen⟩

end Registry

end CallGate.Abi
