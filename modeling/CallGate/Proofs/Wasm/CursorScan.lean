import CallGate.Proofs.Data.Outcome
import CallGate.Wasm.ByteCursor
import CallGate.Wasm.Import

/-!
# The scan on a cursor

What runs is a scan on windows. A decoder there cannot look beyond its window, whatever it does, and
a type is found without a position ever being taken for granted. On a machine the scan is another
one: there are the bytes of the whole module, a position in them that is moved on, and lists of
types and members that are indexed. This module has that scan, step for step on a `ByteCursor`, and
whatever is looked for and not there is a `Stop` of its own: a byte at a position, a type in the
index space, a member of a group, the results of a type that is none of a function.

None of this ever happens, which is shown where the two scans are compared. Here it only has to be
seen that the loop over the sections comes to its end, because each section moves the cursor on.
-/

namespace CallGate.Wasm

open Data

/-! ## Steps -/

/-- Why a scan on a cursor stopped. The first three are reasons to reject a module; the others would
be faults of the scan. -/
inductive Stop where
  | malformed (offset : Int) (fault : Fault)
  | nonFunctionImport (module name : String) (kind : ImportKind)
  | unresolvedType (module name : String) (index : Nat)
  /-- There is no byte at a position in front of the end. -/
  | noByte (fault : PositionFault)
  /-- There is no type with an index. -/
  | noType (index : Nat)
  /-- There is no member of a group at a place. -/
  | noMember (place : Nat)
  /-- The results of a type were asked for that is none of a function. -/
  | noResults
deriving DecidableEq, Repr

def Stop.ofCursorError : CursorError → Stop
  | .malformed offset fault => malformed offset fault
  | .position fault => noByte fault

def Stop.ofScanError : ScanError → Stop
  | .malformed offset fault => malformed offset fault
  | .nonFunctionImport module name kind => nonFunctionImport module name kind
  | .unresolvedType module name index => unresolvedType module name index

/-- A step of a scan on a cursor. -/
abbrev CursorScan := EStateM Stop ByteCursor

namespace CursorScan

variable {α : Type}

/-- What a cursor can do by itself. -/
def ofCursor (s : CursorStep α) : CursorScan α := fun c ↦
  match s c with
  | .ok a c' => .ok a c'
  | .error e c' => .error (.ofCursorError e) c'

instance : MonadLift CursorStep CursorScan := ⟨ofCursor⟩

def position : CursorScan Int := do return (← get).pos

def failAt (offset : Int) (fault : Fault) : CursorScan α := throw (.malformed offset fault)

/-- `count` items one after the other. -/
def repeated (item : CursorScan α) : (count : Nat) → CursorScan (List α)
  | 0 => return []
  | count + 1 => do
    let first ← item
    return first :: (← repeated item count)

/-- A vector: a count and as many items. -/
def vector (item : CursorScan α) : CursorScan (List α) := do
  let count ← ByteCursor.u32
  repeated item count.toNat

/-- A vector that fills its section. -/
def wholeVector (item : CursorScan α) (place : String) : CursorScan (List α) := do
  let items ← vector item
  ByteCursor.expectEnd place
  return items

/-- The value that a step finds where a cursor stands. -/
def valueAt (s : CursorScan α) (c : ByteCursor) : Except Stop α :=
  match s c with
  | .ok a _ => .ok a
  | .error e _ => .error e

end CursorScan

open CursorScan

/-! ## Types -/

def HeapType.read : CursorScan HeapType := do
  match AbstractHeap.ofByte? (← ByteCursor.peek) with
  | some heap =>
    let _ ← ByteCursor.byte
    return .abstract heap
  | none =>
    let start ← position
    let index ← ByteCursor.s33
    if index < 0 then failAt start (.heapType index) else return .declared index.toNat

def ValueType.read : CursorScan ValueType := do
  let start ← position
  let b ← ByteCursor.byte
  match NumType.ofByte? b, AbstractHeap.ofByte? b with
  | some type, _ => return .number type
  | none, some heap => return .reference ⟨true, .abstract heap⟩
  | none, none =>
    if b = nullableMarker ∨ b = referenceMarker then
      return .reference ⟨b = nullableMarker, ← HeapType.read⟩
    else
      failAt start (.valueType b)

def StorageType.read : CursorScan StorageType := do
  match PackedType.ofByte? (← ByteCursor.peek) with
  | some type =>
    let _ ← ByteCursor.byte
    return .packed type
  | none => return .value (← ValueType.read)

def FieldType.read : CursorScan FieldType := do
  let storage ← StorageType.read
  let start ← position
  let b ← ByteCursor.byte
  if b = 0 then return ⟨storage, false⟩
  else if b = 1 then return ⟨storage, true⟩
  else failAt start (.mutability b)

def CompositeType.read : CursorScan CompositeType := do
  let start ← position
  let form ← ByteCursor.byte
  if form = functionForm then
    let params ← vector ValueType.read
    let results ← vector ValueType.read
    return .function ⟨params, results⟩
  else if form = structForm then
    return .struct (← vector FieldType.read)
  else if form = arrayForm then
    return .array (← FieldType.read)
  else
    failAt start (.compositeForm form)

/-- An unsigned integer as an index. -/
def readIndex : CursorScan Nat := do return (← ByteCursor.u32).toNat

def SubType.read : CursorScan SubType := do
  let b ← ByteCursor.peek
  if b = subMarker ∨ b = finalSubMarker then
    let _ ← ByteCursor.byte
    let supertypes ← vector readIndex
    let composite ← CompositeType.read
    return ⟨composite, b = finalSubMarker, supertypes⟩
  else
    return { composite := ← CompositeType.read }

def RecGroup.read : CursorScan RecGroup := do
  if (← ByteCursor.peek) = groupMarker then
    let _ ← ByteCursor.byte
    return ⟨← vector SubType.read, true⟩
  else
    return ⟨[← SubType.read], false⟩

/-! ## Sections -/

def ImportEntry.read : CursorScan ImportEntry := do
  let module ← ByteCursor.name
  let name ← ByteCursor.name
  let start ← position
  let b ← ByteCursor.byte
  match ImportKind.ofByte? b with
  | none => failAt start (.importKind b)
  | some .function => return ⟨module, name, ← readIndex⟩
  | some kind => throw (.nonFunctionImport module name kind)

/-- A section: where its frame begins, its id, and a cursor on its content. -/
structure CursorSection where
  offset : Int
  id : UInt8
  payload : ByteCursor

def CursorSection.read : CursorScan CursorSection := do
  let offset ← position
  let id ← ByteCursor.byte
  let size ← ByteCursor.u32
  return ⟨offset, id, ← ByteCursor.part size⟩

/-- Take in one more section. -/
def Declarations.addCursor (d : Declarations) (s : CursorSection) : Except Stop Declarations :=
  if s.id = 0 then do
    let _ ← (ofCursor ByteCursor.name).valueAt s.payload
    return d
  else
    match sectionRank? s.id with
    | none => .error (.malformed s.offset (.unknownSection s.id))
    | some rank =>
      if rank ≤ d.rank then .error (.malformed s.offset (.misplacedSection s.id))
      else if s.id = 1 then do
        let groups ← (CursorScan.wholeVector RecGroup.read "type section").valueAt s.payload
        return { d with rank, groups }
      else if s.id = 2 then do
        let imports ← (CursorScan.wholeVector ImportEntry.read "import section").valueAt s.payload
        return { d with rank, imports }
      else
        return { d with rank }

/-! ## The loop over the sections -/

/-- Whenever `s` succeeds, it leaves the stop where it is, has moved the cursor on by at least `n`,
and has a value as `P` says. -/
def Moves {ε α : Type} (n : Int) (P : α → Prop) (s : EStateM ε ByteCursor α) : Prop :=
  ∀ ⦃c c' : ByteCursor⦄ ⦃a : α⦄, s c = .ok a c' → c'.stop = c.stop ∧ c.pos + n ≤ c'.pos ∧ P a

namespace Moves

variable {ε α β : Type} {k m n : Int} {P : α → Prop} {Q : β → Prop}

theorem pure {a : α} (ha : P a) : Moves 0 P (Pure.pure a : EStateM ε ByteCursor α) := by
  intro c c' b h
  cases h
  exact ⟨rfl, by omega, ha⟩

theorem bind {s : EStateM ε ByteCursor α} {f : α → EStateM ε ByteCursor β} (hs : Moves m P s)
    (hf : ∀ a, P a → Moves n Q (f a)) (hmn : k ≤ m + n) : Moves k Q (s >>= f) := by
  intro c c'' b h
  cases hsc : s c with
  | error e c' =>
    rw [bind_of_error hsc] at h
    cases h
  | ok a c' =>
    rw [bind_of_ok hsc] at h
    obtain ⟨hstop, hpos, ha⟩ := hs hsc
    obtain ⟨hstop', hpos', hb⟩ := hf a ha h
    exact ⟨hstop'.trans hstop, by omega, hb⟩

theorem throw (e : ε) : Moves n P (MonadExcept.throw e : EStateM ε ByteCursor α) := by
  intro c c' a h
  cases h

theorem ofCursor {s : CursorStep α} (hs : Moves n P s) : Moves n P (CursorScan.ofCursor s) := by
  intro c c' a h
  rw [CursorScan.ofCursor] at h
  split at h
  · next hsc =>
    cases h
    exact hs hsc
  · cases h

end Moves

namespace ByteCursor

/-- Any value will do. -/
abbrev anyValue {α : Type} (_ : α) : Prop := True

theorem moves_peek : Moves 0 anyValue peek := by
  intro c c' b h
  rw [peek] at h
  split at h
  · cases h
  · split at h
    · cases h
      exact ⟨rfl, by omega, trivial⟩
    · cases h

theorem moves_skip (count : Int) : Moves count anyValue (skip count) := by
  intro c c' b h
  cases h
  exact ⟨rfl, Int.le_refl _, trivial⟩

theorem moves_byte : Moves 1 anyValue byte := by
  refine moves_peek.bind (fun b _ ↦ ?_) (Int.le_refl (0 + 1))
  exact (moves_skip 1).bind (fun _ _ ↦ .pure trivial) (Int.le_refl (1 + 0))

theorem moves_sevenBitGroups (start : Int) (left : Nat) :
    Moves 1 anyValue (sevenBitGroups start left) := by
  induction left with
  | zero => exact .throw _
  | succ left ih =>
    have hrest (b : UInt8) : Moves 0 anyValue
        (if b < 0x80 then pure [b] else do return b :: (← sevenBitGroups start left)) := by
      split
      · exact .pure trivial
      · exact ih.bind (fun _ _ ↦ .pure trivial) (by decide)
    exact moves_byte.bind (fun b _ ↦ hrest b) (Int.le_refl (1 + 0))

theorem moves_get : Moves 0 anyValue (get : CursorStep ByteCursor) := by
  intro c c' a h
  cases h
  exact ⟨rfl, by omega, trivial⟩

/-- An integer is within its bounds. -/
theorem moves_integer (value : List UInt8 → Int) (least most : Int) :
    Moves 1 (least ≤ ·) (integer value least most) := by
  refine moves_get.bind (fun c _ ↦ ?_) (Int.le_refl (0 + 1))
  refine (moves_sevenBitGroups c.pos 5).bind (fun groups _ ↦ ?_) (Int.le_refl (1 + 0))
  split
  · next h => exact .pure h.1
  · exact .throw _

theorem moves_part (size : Int) : Moves size anyValue (part size) := by
  refine moves_get.bind (fun c _ ↦ ?_) (Int.le_of_eq (Int.zero_add size).symm)
  split
  · intro c' c'' a h
    cases h
  · exact (moves_skip size).bind (fun _ _ ↦ .pure trivial) (Int.le_of_eq (Int.add_zero size).symm)

end ByteCursor

open ByteCursor in
/-- A section uses at least the byte of its id, so the scan does not go on forever. -/
theorem CursorSection.moves_read : Moves 1 anyValue CursorSection.read := by
  have hposition : Moves 0 anyValue CursorScan.position := by
    intro c c' a h
    cases h
    exact ⟨rfl, by omega, trivial⟩
  refine hposition.bind (fun offset _ ↦ ?_) (Int.le_refl (0 + 1))
  refine moves_byte.ofCursor.bind (fun id _ ↦ ?_) (Int.le_refl (1 + 0))
  refine (moves_integer _ _ _).ofCursor.bind (fun size hsize ↦ ?_) (by decide : (0 : Int) ≤ 1 + 0)
  exact (moves_part size).ofCursor.bind (fun _ _ ↦ .pure trivial)
    (by omega)

/-- Take in all sections up to the stop. -/
def Declarations.addAllCursor (d : Declarations) (c : ByteCursor) : Except Stop Declarations :=
  if hend : c.isAtEnd then .ok d
  else
    match h : CursorSection.read c with
    | .error e _ => .error e
    | .ok s rest =>
      have _shorter : rest.remaining.toNat < c.remaining.toNat := by
        obtain ⟨hstop, hpos, -⟩ := CursorSection.moves_read h
        simp only [ByteCursor.isAtEnd, decide_eq_true_eq, Int.not_le] at hend
        simp only [ByteCursor.remaining]
        omega
      match d.addCursor s with
      | .error e => .error e
      | .ok d => d.addAllCursor rest
termination_by c.remaining.toNat

/-- The header of a module. -/
def readHeader : CursorScan Unit := do
  let c ← get
  if c.remaining < 8 then failAt 0 .noMagic
  else
    let first ← ByteCursor.bytes 4
    if first ≠ magic then failAt 0 .noMagic
    else
      let second ← ByteCursor.bytes 4
      if second ≠ version then failAt 4 (.version second)

/-- The declarations of a whole module. -/
def Declarations.ofCursor (c : ByteCursor) : Except Stop Declarations :=
  match readHeader c with
  | .error e _ => .error e
  | .ok _ rest => addAllCursor {} rest

/-! ## Imported functions -/

/-- An entry of the index space: a group, which one of the module it is, and a place in it. -/
structure TypeSlot where
  ordinal : Nat
  group : RecGroup
  place : Nat

/-- The type in a slot. -/
def TypeSlot.ref (t : TypeSlot) : Except Stop TypeRef :=
  if h : t.place < t.group.types.length then .ok ⟨t.ordinal, t.group, ⟨t.place, h⟩⟩
  else .error (.noMember t.place)

/-- The slots of all groups, in the order of their indices. -/
def typeSlots (groups : List RecGroup) : List TypeSlot :=
  groups.zipIdx.flatMap fun (g, ordinal) ↦
    (List.range g.types.length).map fun place ↦ ⟨ordinal, g, place⟩

/-- The results of a type, which only a function has. -/
def CompositeType.results : CompositeType → Except Stop (List ValueType)
  | function type => .ok type.results
  | struct _ | array _ => .error .noResults

/-- Whether functions of the type can be called like C functions. The results are looked at last. -/
def TypeRef.checkCAbi (t : TypeRef) : Except Stop Bool :=
  if t.group.explicit || !t.subType.isFinal || !t.subType.isFunction then .ok false
  else do return (← t.subType.composite.results).length ≤ 1

/-- Find the type of an import. -/
def ImportEntry.lookUp (slots : List TypeSlot) (requireCAbi : Bool) (e : ImportEntry) :
    Except Stop Import :=
  if slots.length ≤ e.typeIndex then .error (.unresolvedType e.module e.name e.typeIndex)
  else
    match slots[e.typeIndex]? with
    | none => .error (.noType e.typeIndex)
    | some slot => do
      let type ← slot.ref
      if !type.subType.isFunction then
        .error (.malformed 0 (.notFunctionType e.module e.name e.typeIndex))
      else if requireCAbi then
        if ← type.checkCAbi then return ⟨e.module, e.name, e.typeIndex, type⟩
        else .error (.malformed 0 (.notCAbi e.module e.name))
      else
        return ⟨e.module, e.name, e.typeIndex, type⟩

/-- The functions that a module imports, read with a cursor on its bytes. -/
def importsOfCursor (bytes : List UInt8) (requireCAbi : Bool) : Except Stop (List Import) := do
  let d ← Declarations.ofCursor ⟨bytes, 0, bytes.length⟩
  d.imports.mapM (ImportEntry.lookUp (typeSlots d.groups) requireCAbi)

end CallGate.Wasm
