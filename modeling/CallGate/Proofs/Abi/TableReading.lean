import CallGate.Abi.Reading
import CallGate.Proofs.Data.Checked

/-!
# What a table is read from

A table is a record of a name and some calls, a call a bare name or a record of a name and some
arguments. `Descriptor.IsGivenBy` says which values stand for which call, and a call that is read is
just the one that its value stands for: `Descriptor.ofItem_eq_ok`. The arguments that are written
are the arguments that are read, one for one.

The same does not hold of a whole table. Its calls are gone through whatever they are given by, and
the arguments that a map has beside the names of its calls are not looked at. `Table.ofValue_calls`
therefore tells lists from what is stray, `IsStray`, and from what has no items at all,
`HasNoItems`.
-/

namespace CallGate.Abi

open CallGate.Data CallGate.Text

/-! ## Arguments -/

/-- The arguments that may stand under the key for them: none if nothing or null does, and otherwise
one for each item, in the order in which the items come. -/
inductive ArgsGivenBy : Option Value → List Arg → Prop
  | absent : ArgsGivenBy none []
  | null : ArgsGivenBy (some .null) []
  | list {items : List Value} {args : List Arg}
      (h : List.Forall₂ (fun v a ↦ Arg.ofValue v = .ok a) items args) :
      ArgsGivenBy (some (.list items)) args
  | tuple {items : List Value} {args : List Arg}
      (h : List.Forall₂ (fun v a ↦ Arg.ofValue v = .ok a) items args) :
      ArgsGivenBy (some (.tuple items)) args
  | set {members : List Value} {args : List Arg}
      (h : List.Forall₂ (fun v a ↦ Arg.ofValue v = .ok a) members args) :
      ArgsGivenBy (some (.set members)) args

theorem optional_args_eq_ok {fields : List (Value × Value)} {args : List Arg} :
    Checked.optional "args" [] argsOfValue fields = .ok args ↔
      ArgsGivenBy (Value.field? "args" fields) args := by
  rw [Checked.optional_eq_ok]
  cases Value.field? "args" fields with
  | none =>
    constructor
    · rintro ⟨⟩
      exact .absent
    · rintro ⟨⟩
      rfl
  | some v =>
    rw [Option.elim_some]
    constructor
    · intro h
      unfold argsOfValue at h
      split at h
      · cases h
        exact .null
      · exact .list (Checked.each_eq_ok.mp h)
      · exact .tuple (Checked.each_eq_ok.mp h)
      · exact .set (Checked.each_eq_ok.mp h)
      · cases h
    · intro h
      cases h with
      | null => rfl
      | list h => exact Checked.each_eq_ok.mpr h
      | tuple h => exact Checked.each_eq_ok.mpr h
      | set h => exact Checked.each_eq_ok.mpr h

theorem isFounded_positive (v : Value) : (positive v).IsFounded := by
  unfold positive
  split
  · next is his =>
    rintro is' ⟨⟩
    exact isFounded_lenientInteger v is his
  · split
    · exact Checked.isFounded_ok _
    · exact Checked.isFounded_fail _

theorem Arg.ofFields_eq {fields : List (Value × Value)} {type : Option ArgType} {size : Value}
    (h : Arg.completed fields = .ok (type, size)) :
    Arg.ofFields fields =
      (Checked.withKeys fields (Checked.both (Checked.required "name" nonEmptyText fields)
        (Checked.both (Checked.under (.key "size") (positive size))
          (Checked.noOtherKeys ["name", "size", "type"] fields)))).map
        fun p ↦ ⟨p.1, p.2.1, type⟩ := by
  simp only [Arg.ofFields, h]
  cases Checked.withKeys fields _ with
  | error is => rfl
  | ok p => rfl

theorem isFounded_argOfValue (v : Value) : (Arg.ofValue v).IsFounded := by
  unfold Arg.ofValue
  split
  · next fields _ =>
    cases h : Arg.completed fields with
    | error fault =>
      rw [Arg.ofFields, h]
      exact Checked.isFounded_fail _
    | ok p =>
      rw [Arg.ofFields_eq h]
      have hname := Checked.isFounded_required isFounded_nonEmptyText "name" fields
      have hsize := (isFounded_positive p.2).under (.key "size")
      exact (Checked.isFounded_record hname hsize _ fields).map _
  · exact Checked.isFounded_fail _

theorem isFounded_argsOfValue (v : Value) : (argsOfValue v).IsFounded := by
  unfold argsOfValue
  split
  · exact Checked.isFounded_ok _
  · exact Checked.isFounded_each isFounded_argOfValue 0 _
  · exact Checked.isFounded_each isFounded_argOfValue 0 _
  · exact Checked.isFounded_each isFounded_argOfValue 0 _
  · exact Checked.isFounded_fail _

/-! ## Calls -/

/-- The call that a value stands for: a bare name is a call without arguments, and a record gives
the name and the arguments, and nothing else. -/
inductive Descriptor.IsGivenBy : Descriptor → Value → Prop
  | bare {name : String} (hne : name ≠ "") : IsGivenBy ⟨name, []⟩ (.text name)
  | record {fields : List (Value × Value)} {v : Value} {name : String} {args : List Arg}
      (hfield : Value.field? "name" fields = some v) (hname : v.Spells name) (hne : name ≠ "")
      (hargs : ArgsGivenBy (Value.field? "args" fields) args)
      (hkeys : KeysAmong ["name", "args"] fields) :
      IsGivenBy ⟨name, args⟩ (.map fields)

theorem Descriptor.ofValue_map (fields : List (Value × Value)) :
    Descriptor.ofValue (.map fields) =
      (Checked.withKeys fields (Checked.both (Checked.required "name" nonEmptyText fields)
        (Checked.both (Checked.optional "args" [] argsOfValue fields)
          (Checked.noOtherKeys ["name", "args"] fields)))).map fun p ↦ ⟨p.1, p.2.1⟩ := by
  simp only [Descriptor.ofValue]
  cases Checked.withKeys fields _ with
  | error is => rfl
  | ok p => rfl

theorem Descriptor.ofValue_map_eq_ok {fields : List (Value × Value)} {d : Descriptor} :
    Descriptor.ofValue (.map fields) = .ok d ↔ d.IsGivenBy (.map fields) := by
  rw [Descriptor.ofValue_map, map_eq_ok]
  constructor
  · rintro ⟨⟨name, args, ⟨⟩⟩, h, rfl⟩
    obtain ⟨hname, hargs, hkeys⟩ := Checked.record_eq_ok.mp h
    obtain ⟨v, hfield, hv⟩ := Checked.required_eq_ok.mp hname
    obtain ⟨hspells, hne⟩ := nonEmptyText_eq_ok.mp hv
    exact .record hfield hspells hne (optional_args_eq_ok.mp hargs) hkeys
  · intro h
    cases h with
    | record hfield hname hne hargs hkeys =>
      have hread := Checked.required_eq_ok.mpr ⟨_, hfield, nonEmptyText_eq_ok.mpr ⟨hname, hne⟩⟩
      have hrest := optional_args_eq_ok.mpr hargs
      exact ⟨(_, _, ()), Checked.record_eq_ok.mpr ⟨hread, hrest, hkeys⟩, rfl⟩

theorem isFounded_descriptorOfValue (v : Value) : (Descriptor.ofValue v).IsFounded := by
  cases v with
  | map fields =>
    rw [Descriptor.ofValue_map]
    have hname := Checked.isFounded_required isFounded_nonEmptyText "name" fields
    have hargs := Checked.isFounded_optional isFounded_argsOfValue "args" [] fields
    exact (Checked.isFounded_record hname hargs _ fields).map _
  | _ => exact Checked.isFounded_fail _

/-- A call is read from an item just if the item stands for it. -/
theorem Descriptor.ofItem_eq_ok {v : Value} {d : Descriptor} :
    Descriptor.ofItem v = .ok d ↔ d.IsGivenBy v := by
  cases v with
  | map fields => exact Descriptor.ofValue_map_eq_ok
  | text name =>
    -- A bare name is read as the record of that name and nothing else.
    rw [Descriptor.ofItem, Descriptor.ofValue_map_eq_ok]
    constructor
    · rintro (_ | ⟨hfield, hname, hne, hargs, -⟩)
      cases hfield
      cases hname
      cases hargs
      exact .bare hne
    · rintro ⟨hne⟩
      exact .record rfl (.text name) hne .absent (by simp [KeysAmong])
  | broken ps =>
    -- So is one that does not consist of characters, but then the record is refused.
    rw [Descriptor.ofItem, Descriptor.ofValue_map_eq_ok]
    constructor
    · rintro (_ | ⟨hfield, hname, -, -, -⟩)
      cases hfield
      cases hname
    · rintro ⟨⟩
  | _ =>
    constructor
    · rintro ⟨⟩
    · rintro ⟨⟩

theorem isFounded_descriptorOfItem (v : Value) : (Descriptor.ofItem v).IsFounded := by
  unfold Descriptor.ofItem
  split
  · exact isFounded_descriptorOfValue _
  · exact isFounded_descriptorOfValue _
  · exact isFounded_descriptorOfValue _

/-! ## Tables -/

/-- The values that can be gone through for calls although they are no list. -/
inductive IsStray : Value → Prop
  | tuple (items : List Value) : IsStray (.tuple items)
  | set (members : List Value) : IsStray (.set members)
  | map (entries : List (Value × Value)) : IsStray (.map entries)
  | text (s : String) : IsStray (.text s)
  | broken (points : List CodePoint) : IsStray (.broken points)
  | bytes (content : List UInt8) : IsStray (.bytes content)

/-- The values that there is nothing to go through in. -/
inductive HasNoItems : Value → Prop
  | bool (b : Bool) : HasNoItems (.bool b)
  | int (n : Int) : HasNoItems (.int n)
  | real (x : Number.Binary64) : HasNoItems (.real x)
  | moment (m : Moment) : HasNoItems (.moment m)
  | cut (isMap : Bool) : HasNoItems (.cut isMap)

theorem callItems_eq_error {v : Value} {kind : String} :
    callItems v = .error kind ↔ HasNoItems v ∧ v.kindName = kind := by
  constructor
  · intro h
    cases v with
    | bool b => exact ⟨.bool b, Except.error.inj h⟩
    | int n => exact ⟨.int n, Except.error.inj h⟩
    | real x => exact ⟨.real x, Except.error.inj h⟩
    | moment m => exact ⟨.moment m, Except.error.inj h⟩
    | cut isMap => exact ⟨.cut isMap, Except.error.inj h⟩
    | _ => cases h
  · rintro ⟨h, rfl⟩
    cases h with
    | _ => rfl

theorem eq_or_isStray_of_callItems {v : Value} {items : List Value} (h : callItems v = .ok items) :
    (v = .null ∧ items = []) ∨ v = .list items ∨ IsStray v := by
  cases v with
  | null =>
    cases h
    exact .inl ⟨rfl, rfl⟩
  | list items' =>
    cases h
    exact .inr (.inl rfl)
  | tuple items' => exact .inr (.inr (.tuple items'))
  | set members => exact .inr (.inr (.set members))
  | map entries => exact .inr (.inr (.map entries))
  | text s => exact .inr (.inr (.text s))
  | broken ps => exact .inr (.inr (.broken ps))
  | bytes content => exact .inr (.inr (.bytes content))
  | bool | int | real | moment | cut => cases h

/-- The calls that a table is asked to go through. -/
def callsField (fields : List (Value × Value)) : Value := (Value.field? "calls" fields).getD .null

theorem Table.ofValue_of_callItems {fields : List (Value × Value)} {items : List Value}
    (h : callItems (callsField fields) = .ok items) :
    Table.ofValue (.map fields) =
      ((Checked.withKeys fields (Checked.both (Checked.required "name" nonEmptyText fields)
        (Checked.both (Checked.under (.key "calls") (Checked.each Descriptor.ofItem 0 items))
          (Checked.noOtherKeys ["name", "calls"] fields)))).map
        fun p ↦ (⟨p.1, p.2.1⟩ : Table)).mapError .issues := by
  rw [callsField] at h
  simp only [Table.ofValue, h]
  cases Checked.withKeys fields _ with
  | error is => rfl
  | ok p => rfl

theorem Table.ofValue_of_no_items {fields : List (Value × Value)} {kind : String}
    (h : callItems (callsField fields) = .error kind) :
    Table.ofValue (.map fields) = .error (.notIterable kind) := by
  rw [callsField] at h
  simp only [Table.ofValue, h]

/-- A table is read if its name is, and each item that is gone through stands for a call. -/
theorem Table.ofValue_map_eq_ok {fields : List (Value × Value)} {t : Table} :
    Table.ofValue (.map fields) = .ok t ↔ ∃ items, callItems (callsField fields) = .ok items ∧
      (∃ v, Value.field? "name" fields = some v ∧ v.Spells t.name) ∧ t.name ≠ "" ∧
      List.Forall₂ (fun item d ↦ d.IsGivenBy item) items t.calls ∧
      KeysAmong ["name", "calls"] fields := by
  cases hitems : callItems (callsField fields) with
  | error kind => simp [Table.ofValue_of_no_items hitems]
  | ok items =>
    rw [Table.ofValue_of_callItems hitems, mapError_eq_ok, map_eq_ok]
    simp only [Except.ok.injEq, exists_eq_left']
    constructor
    · rintro ⟨⟨name, calls, ⟨⟩⟩, h, rfl⟩
      obtain ⟨hname, hcalls, hkeys⟩ := Checked.record_eq_ok.mp h
      obtain ⟨v, hfield, hv⟩ := Checked.required_eq_ok.mp hname
      obtain ⟨hspells, hne⟩ := nonEmptyText_eq_ok.mp hv
      refine ⟨⟨v, hfield, hspells⟩, hne, ?_, hkeys⟩
      have heach := Checked.each_eq_ok.mp (Checked.under_eq_ok.mp hcalls)
      simpa only [Descriptor.ofItem_eq_ok] using heach
    · rintro ⟨⟨v, hfield, hspells⟩, hne, hcalls, hkeys⟩
      have hname := Checked.required_eq_ok.mpr ⟨_, hfield, nonEmptyText_eq_ok.mpr ⟨hspells, hne⟩⟩
      have heach : Checked.each Descriptor.ofItem 0 items = .ok t.calls := by
        simpa only [Checked.each_eq_ok, Descriptor.ofItem_eq_ok] using hcalls
      exact ⟨(t.name, t.calls, ()),
        Checked.record_eq_ok.mpr ⟨hname, Checked.under_eq_ok.mpr heach, hkeys⟩, rfl⟩

/-- A table that is refused has a fault, unless it asks to go through a value without items. -/
theorem Table.ofValue_eq_error {v : Value} {fault : TableFault}
    (h : Table.ofValue v = .error fault) :
    (∃ is, is ≠ [] ∧ fault = .issues is) ∨
      ∃ fields, v = .map fields ∧ HasNoItems (callsField fields) ∧
        fault = .notIterable (callsField fields).kindName := by
  cases v with
  | map fields =>
    cases hitems : callItems (callsField fields) with
    | error kind =>
      obtain ⟨hnone, rfl⟩ := callItems_eq_error.mp hitems
      rw [Table.ofValue_of_no_items hitems] at h
      exact .inr ⟨fields, rfl, hnone, (Except.error.inj h).symm⟩
    | ok items =>
      have hname := Checked.isFounded_required isFounded_nonEmptyText "name" fields
      have hcalls := Checked.isFounded_each isFounded_descriptorOfItem 0 items
      have hrecord := Checked.isFounded_record hname (hcalls.under (.key "calls")) ["name", "calls"]
        fields
      rw [Table.ofValue_of_callItems hitems] at h
      cases hread : Checked.withKeys fields _ with
      | error is =>
        rw [hread] at h
        exact .inl ⟨is, hrecord is hread, (Except.error.inj h).symm⟩
      | ok p =>
        rw [hread] at h
        cases h
  | _ =>
    cases h
    exact .inl ⟨_, List.cons_ne_nil _ _, rfl⟩

/-- **What a table may have under the key of its calls.** Let a record be a table if it says nothing
about its calls. With null under their key it is the table without calls. With a list it is a table
just if each item stands for a call, and then has these calls, one for each item and in order. With
anything else it may only be a table if that is stray, and where it is none, it has been refused
with all its faults unless there was nothing to go through. -/
theorem Table.ofValue_calls {fields : List (Value × Value)} {base : Table} {v : Value}
    (hbase : Table.ofValue (.map (without "calls" fields)) = .ok base)
    (hv : Value.field? "calls" fields = some v) :
    (v = .null → Table.ofValue (.map fields) = .ok ⟨base.name, []⟩) ∧
      (∀ items, v = .list items → ∀ t, Table.ofValue (.map fields) = .ok t ↔
        t.name = base.name ∧ List.Forall₂ (fun item d ↦ d.IsGivenBy item) items t.calls) ∧
      (∀ t, Table.ofValue (.map fields) = .ok t →
        v = .null ∨ (∃ items, v = .list items) ∨ IsStray v) ∧
      ∀ fault, Table.ofValue (.map fields) = .error fault →
        (∃ is, is ≠ [] ∧ fault = .issues is) ∨
          HasNoItems v ∧ fault = .notIterable v.kindName := by
  obtain ⟨-, -, ⟨n, hfield, hspells⟩, hne, -, hkeys⟩ := Table.ofValue_map_eq_ok.mp hbase
  rw [field?_without (by decide)] at hfield
  have hkeys' : KeysAmong ["name", "calls"] fields := hkeys.of_without (by decide)
  have hcalls : callsField fields = v := by rw [callsField, hv, Option.getD_some]
  -- What is gone through decides about the rest, since the name and the keys are those of a table.
  have hread {items : List Value} (hitems : callItems v = .ok items) (t : Table) :
      Table.ofValue (.map fields) = .ok t ↔
        t.name = base.name ∧ List.Forall₂ (fun item d ↦ d.IsGivenBy item) items t.calls := by
    rw [Table.ofValue_map_eq_ok, hcalls, hitems]
    simp only [Except.ok.injEq, exists_eq_left']
    constructor
    · rintro ⟨⟨n', hfield', hspells'⟩, -, hgiven, -⟩
      obtain rfl : n = n' := Option.some.inj (hfield.symm.trans hfield')
      exact ⟨hspells'.unique hspells, hgiven⟩
    · rintro ⟨hname, hgiven⟩
      rw [hname]
      exact ⟨⟨n, hfield, hspells⟩, hne, hgiven, hkeys'⟩
  refine ⟨?_, ?_, ?_, ?_⟩
  · rintro rfl
    exact (hread rfl _).mpr ⟨rfl, .nil⟩
  · rintro items rfl
    exact hread rfl
  · intro t ht
    obtain ⟨items, hitems, -⟩ := Table.ofValue_map_eq_ok.mp ht
    rw [hcalls] at hitems
    rcases eq_or_isStray_of_callItems hitems with ⟨hnull, -⟩ | hlist | hstray
    · exact .inl hnull
    · exact .inr (.inl ⟨items, hlist⟩)
    · exact .inr (.inr hstray)
  · intro fault hfault
    rcases Table.ofValue_eq_error hfault with hissues | ⟨fields', hfields, hnone, hkind⟩
    · exact .inl hissues
    · cases hfields
      rw [hcalls] at hnone hkind
      exact .inr ⟨hnone, hkind⟩

/-- A bare name and a record with an argument, each as a call. -/
theorem Table.ofValue_calls_two_items :
    Table.ofValue (.map [(.text "name", .text "t"), (.text "calls", .list [.text "sched_yield",
      .map [(.text "name", .text "proc_exit"),
        (.text "args", .list [.map [(.text "code", .text "u32")]])]])]) =
      .ok ⟨"t", [⟨"sched_yield", []⟩, ⟨"proc_exit", [.typed "code" .u32]⟩]⟩ := by
  have hargs : ArgsGivenBy (some (.list [.map [(.text "code", .text "u32")]]))
      [.typed "code" .u32] := .list (.cons rfl .nil)
  have hexit : Descriptor.IsGivenBy ⟨"proc_exit", [.typed "code" .u32]⟩
      (.map [(.text "name", .text "proc_exit"),
        (.text "args", .list [.map [(.text "code", .text "u32")]])]) :=
    .record rfl (.text _) (by decide) hargs (by simp [KeysAmong])
  refine ((@Table.ofValue_calls _ ⟨"t", []⟩ _ rfl rfl).2.1 _ rfl _).mpr ⟨rfl, ?_⟩
  exact .cons (.bare (by decide)) (.cons hexit .nil)

/-- What lists are kept apart from: a map of calls is read as their names, so that the arguments are
lost, and a number ends the reading without saying what is wrong with the table. -/
theorem Table.ofValue_calls_stray :
    Table.ofValue (.map [(.text "name", .text "t"), (.text "calls",
      .map [(.text "fd_write", .list [.text "fd", .text "iovs"])])]) =
        .ok ⟨"t", [⟨"fd_write", []⟩]⟩ ∧
      Table.ofValue (.map [(.text "name", .text "t"), (.text "calls", .int 5)]) =
        .error (.notIterable "int") :=
  ⟨rfl, rfl⟩

end CallGate.Abi
