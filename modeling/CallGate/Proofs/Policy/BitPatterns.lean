import CallGate.Proofs.Abi.Reduction
import CallGate.Proofs.Policy.Combination
import Mathlib.Data.List.MinMax

/-!
# Bounds that see bit patterns only

The arguments of a call come from the guest, as words. The guest is free to extend the sign of one
or to leave something in its high bits, and a condition should not be impressed by that. It is not
if it reads every argument at a type. Reading keeps the residue modulo two to the width of the type
and nothing else, so arguments that have it in common are the same arguments to everything behind.

## Widths

A combination has many parts, and each reads the arguments for itself, at types of its own. What
two lists of arguments have to have in common is the most that any of them looks at: at each
position the residue for the largest width that is declared there (`Bound.widest`). With this,
`AgreeUpTo` is a property of the arguments alone. It is asked of integers, and of whatever counts
as one when it is read.

`ParamTypes.read_congr` takes the step from the arguments to what is read, and
`CombinedFrom.holds_congr` the step from the parts to the whole. The inside of a part needs no look
at all, since it gets to see what was read and nothing else.
-/

namespace CallGate.Policy

open CallGate.Abi CallGate.Data

/-! ## Arguments that agree -/

/-- Two values are read as integers that agree in their low bits. -/
def SameBits (width : ℕ) (v w : Value) : Prop :=
  ∃ m n : ℤ, v.toInteger = .ok m ∧ w.toInteger = .ok n ∧ m ≡ n [ZMOD 2 ^ width]

theorem SameBits.mono {width width' : ℕ} {v w : Value} (h : SameBits width v w)
    (hwidth : width' ≤ width) : SameBits width' v w := by
  obtain ⟨m, n, hm, hn, hmod⟩ := h
  exact ⟨m, n, hm, hn, hmod.of_dvd (pow_dvd_pow 2 hwidth)⟩

/-- Two lists of arguments are equally long and agree at each position in as many low bits as are
asked for there. -/
structure AgreeUpTo (widths : ℕ → ℕ) (args args' : List Value) : Prop where
  length_eq : args.length = args'.length
  sameBits : ∀ i v w, args[i]? = some v → args'[i]? = some w → SameBits (widths i) v w

namespace AgreeUpTo

variable {widths widths' : ℕ → ℕ} {args args' : List Value} {v w : Value}

theorem mono (h : AgreeUpTo widths args args') (hwidths : ∀ i, widths' i ≤ widths i) :
    AgreeUpTo widths' args args' :=
  ⟨h.length_eq, fun i v w hv hw ↦ (h.sameBits i v w hv hw).mono (hwidths i)⟩

theorem head (h : AgreeUpTo widths (v :: args) (w :: args')) : SameBits (widths 0) v w :=
  h.sameBits 0 v w rfl rfl

theorem tail (h : AgreeUpTo widths (v :: args) (w :: args')) :
    AgreeUpTo (fun i ↦ widths (i + 1)) args args' :=
  ⟨Nat.succ.inj h.length_eq, fun i ↦ h.sameBits (i + 1)⟩

theorem cons (hhead : SameBits (widths 0) v w)
    (htail : AgreeUpTo (fun i ↦ widths (i + 1)) args args') :
    AgreeUpTo widths (v :: args) (w :: args') := by
  refine ⟨congrArg Nat.succ htail.length_eq, fun i v' w' hv hw ↦ ?_⟩
  cases i with
  | zero =>
    cases hv
    cases hw
    exact hhead
  | succ i => exact htail.sameBits i v' w' hv hw

/-- Integers agree where they are congruent. -/
theorem of_int {ms ns : List ℤ} (hlength : ms.length = ns.length)
    (h : ∀ i m n, ms[i]? = some m → ns[i]? = some n → m ≡ n [ZMOD 2 ^ widths i]) :
    AgreeUpTo widths (ms.map .int) (ns.map .int) := by
  refine ⟨by rw [List.length_map, List.length_map, hlength], fun i v w hv hw ↦ ?_⟩
  rw [List.getElem?_map, Option.map_eq_some_iff] at hv hw
  obtain ⟨m, hm, rfl⟩ := hv
  obtain ⟨n, hn, rfl⟩ := hw
  exact ⟨m, n, rfl, rfl, h i m n hm hn⟩

end AgreeUpTo

/-! ## Reading -/

namespace ParamTypes

/-- The width that is declared at a position, and zero where there is no type. -/
def widthAt (types : ParamTypes) (i : ℕ) : ℕ := types[i]?.join.elim 0 ArgType.bits

variable {types : ParamTypes} {args args' : List Value}

/-- Where a type is declared for everything, arguments that agree in the bits that are declared are
read as the same. -/
theorem read_congr (htyped : none ∉ types) (h : AgreeUpTo types.widthAt args args') :
    types.read args = types.read args' := by
  induction types generalizing args args' with
  | nil => rfl
  | cons type types ih =>
    obtain ⟨htype, htypes⟩ := not_or.mp (mt List.mem_cons.mpr htyped)
    obtain ⟨t, rfl⟩ := Option.ne_none_iff_exists'.mp (Ne.symm htype)
    cases args with
    | nil =>
      obtain rfl := List.length_eq_zero_iff.mp h.length_eq.symm
      rfl
    | cons v args =>
      obtain ⟨w, args', rfl⟩ := List.exists_cons_of_length_eq_add_one h.length_eq.symm
      obtain ⟨m, n, hm, hn, hmod⟩ := h.head
      have hreduce : t.reduce m = t.reduce n := ArgType.reduce_eq_of_modEq le_rfl hmod
      have hhead : readAs (some t) v = readAs (some t) w := by
        simp only [readAs, hm, hn, hreduce]
      have hrest := ih htypes h.tail
      rw [read, read] at hrest ⊢
      simp only [List.zip_cons_cons, List.mapM_cons]
      rw [hhead, hrest]

end ParamTypes

/-! ## Bounds -/

namespace Bound

/-- Every argument has a type at which it is read. -/
def IsTyped (b : Bound) : Prop := ∃ types ∈ b.types, none ∉ types

/-- The width that a bound declares at a position. -/
def widthAt (b : Bound) (i : ℕ) : ℕ := b.types.elim 0 (·.widthAt i)

/-- The largest width that any of some bounds declares at a position. -/
def widest (parts : List Bound) (i : ℕ) : ℕ := (parts.map (·.widthAt i)).foldr max 0

variable {b : Bound} {parts : List Bound} {args args' : List Value}

theorem widthAt_le_widest (hb : b ∈ parts) (i : ℕ) : b.widthAt i ≤ widest parts i :=
  List.le_max_of_le' 0 (List.mem_map_of_mem hb) le_rfl

theorem IsTyped.holds_congr (hb : b.IsTyped) (h : AgreeUpTo b.widthAt args args') :
    b.holds args = b.holds args' := by
  obtain ⟨types, htypes, htyped⟩ := hb
  have hwidths : b.widthAt = types.widthAt := by
    funext i
    rw [widthAt, htypes, Option.elim_some]
  have hread : b.read args = b.read args' := by
    rw [read, read, htypes, h.length_eq]
    simp only [ParamTypes.read_congr htyped (hwidths ▸ h)]
  rw [holds, holds, hread]

theorem CombinedFrom.holds_eq_of_agreeUpTo (hb : b.CombinedFrom parts)
    (htyped : ∀ p ∈ parts, p.IsTyped) (h : AgreeUpTo (widest parts) args args') :
    b.holds args = b.holds args' :=
  hb.holds_congr h.length_eq fun p hp ↦
    (htyped p hp).holds_congr (h.mono (widthAt_le_widest hp))

/-- The arguments differ at most in bits that the bound does not look at: it is made from parts that
all read at types, and the arguments agree in as many low bits as any part reads. -/
def IsBlindTo (b : Bound) (args args' : List Value) : Prop :=
  ∃ parts, b.CombinedFrom parts ∧ (∀ p ∈ parts, p.IsTyped) ∧ AgreeUpTo (widest parts) args args'

theorem IsBlindTo.holds_eq (h : b.IsBlindTo args args') : b.holds args = b.holds args' := by
  obtain ⟨parts, hb, htyped, hagree⟩ := h
  exact hb.holds_eq_of_agreeUpTo htyped hagree

end Bound

/-! ## Decisions -/

section

variable {args args' : List Value}

theorem Statement.triggers_congr {s : Statement} (hlength : args.length = args'.length)
    (h : ∀ b ∈ s.bound, b.holds args = b.holds args') : s.triggers args = s.triggers args' := by
  rw [triggers, triggers, hlength]
  cases hbound : s.bound with
  | none => rfl
  | some b => simp only [h b hbound]

namespace Guard

theorem triggered_congr {statements : List Statement}
    (h : ∀ s ∈ statements, s.triggers args = s.triggers args') :
    triggered args statements = triggered args' statements := by
  induction statements with
  | nil => rfl
  | cons s ss ih =>
    obtain ⟨hs, hss⟩ := List.forall_mem_cons.mp h
    rw [triggered, triggered, hs, ih hss]

theorem evaluate_congr {g : Guard} (hlength : args.length = args'.length)
    (h : ∀ s ∈ g.statements, ∀ b ∈ s.bound, b.holds args = b.holds args') :
    g.evaluate args = g.evaluate args' := by
  have hstatements : ∀ s ∈ g.statements, s.triggers args = s.triggers args' := fun s hs ↦
    Statement.triggers_congr hlength (h s hs)
  rw [evaluate, evaluate, hlength, triggered_congr hstatements]

end Guard

theorem evaluate_congr {p : Policy} {name : String}
    (h : ∀ g ∈ p.guard? name, g.evaluate args = g.evaluate args') :
    p.evaluate name args = p.evaluate name args' := by
  rw [evaluate, evaluate]
  cases hg : p.guard? name with
  | none => rfl
  | some g => simp only [h g hg]

end

/-- **Only the bits that are read count.** A bound that is made, by any combination, from parts that
read every argument at a type makes the same calls with the same values and gives the same verdict
on all arguments that are congruent at each position modulo two to the largest width that a part
declares there. So does a guard, and with it a policy, where each statement is unconditional or has
such a bound. -/
theorem decisions_eq_of_agreeUpTo :
    (∀ (parts : List Bound) (b : Bound), b.CombinedFrom parts → (∀ p ∈ parts, p.IsTyped) →
      ∀ args args' : List Value, AgreeUpTo (Bound.widest parts) args args' →
        b.holds args = b.holds args') ∧
    (∀ (g : Guard) (args args' : List Value), args.length = args'.length →
      (∀ s ∈ g.statements, ∀ b ∈ s.bound, b.IsBlindTo args args') →
        g.evaluate args = g.evaluate args') ∧
    ∀ (p : Policy) (name : String) (args args' : List Value), args.length = args'.length →
      (∀ g ∈ p.guard? name, ∀ s ∈ g.statements, ∀ b ∈ s.bound, b.IsBlindTo args args') →
        p.evaluate name args = p.evaluate name args' := by
  refine ⟨fun parts b hb htyped args args' ↦ hb.holds_eq_of_agreeUpTo htyped,
    fun g args args' hlength h ↦ ?_, fun p name args args' hlength h ↦ ?_⟩
  · exact Guard.evaluate_congr hlength fun s hs b hb ↦ (h s hs b hb).holds_eq
  · exact evaluate_congr fun g hg ↦
      Guard.evaluate_congr hlength fun s hs b hb ↦ (h g hg s hs b hb).holds_eq

/-- A byte and a signed half word, both read from one argument: minus one and 65535 agree in the
sixteen bits that are looked at, and a guest that extends the sign changes nothing. -/
theorem decisions_eq_of_agreeUpTo_sign :
    let call : Descriptor := ⟨"fd_close", [.typed "fd" .u32]⟩
    let f : HostFunction := ⟨some "f", some [.positional], fun _ ↦ ⟨[], .ok true⟩⟩
    let byte : Bound := {
      predicate := .function f 1, types := some [some .u8]
      length_types := by rintro _ ⟨⟩; rfl }
    let half : Bound := {
      predicate := .function f 1, types := some [some .i16]
      length_types := by rintro _ ⟨⟩; rfl }
    ∃ b, byte.and half = .ok b ∧ b.CombinedFrom [byte, half] ∧
      AgreeUpTo (Bound.widest [byte, half]) [.int (-1)] [.int 65535] ∧
      b.holds [.int 65535] = ⟨[.called f [.int 255], .called f [.int (-1)]], .ok true⟩ ∧
      ∃ g : Guard, g.call = call ∧ g.statements.map Statement.bound = [none, some b] ∧
        g.evaluate [.int (-1)] = g.evaluate [.int 65535] := by
  intro call f byte half
  obtain ⟨b, hb, harity, hminus⟩ : ∃ b, byte.and half = .ok b ∧ b.arity = 1 ∧
      b.holds [.int (-1)] = ⟨[.called f [.int 255], .called f [.int (-1)]], .ok true⟩ :=
    ⟨_, rfl, rfl, rfl⟩
  have hparts : b.CombinedFrom [byte, half] := .and (.part byte) (.part half) hb
  have htyped : ∀ p ∈ [byte, half], p.IsTyped :=
    List.forall_mem_cons.mpr ⟨⟨_, rfl, by decide⟩,
      List.forall_mem_singleton.mpr ⟨_, rfl, by decide⟩⟩
  have hagree : AgreeUpTo (Bound.widest [byte, half]) ([-1].map .int) ([65535].map .int) := by
    refine AgreeUpTo.of_int rfl fun i m n hm hn ↦ ?_
    cases i with
    | zero =>
      cases hm
      cases hn
      have hwidth : Bound.widest [byte, half] 0 = 16 := rfl
      rw [hwidth]
      decide
    | succ i => cases hm
  let kill : Statement := {
    call, action := .kill, bound := some b
    arity_bound := by rintro _ ⟨⟩; exact harity }
  let g : Guard := ⟨call, [.unconditional call .log, kill],
    List.forall_mem_cons.mpr ⟨rfl, List.forall_mem_singleton.mpr rfl⟩⟩
  obtain ⟨hbound, hguard, -⟩ := decisions_eq_of_agreeUpTo
  refine ⟨b, hb, hparts, hagree, ?_, g, rfl, rfl, hguard g _ _ rfl ?_⟩
  · exact (hbound [byte, half] b hparts htyped _ _ hagree).symm.trans hminus
  · refine List.forall_mem_cons.mpr ⟨nofun, List.forall_mem_singleton.mpr ?_⟩
    rintro _ ⟨⟩
    exact ⟨[byte, half], hparts, htyped, hagree⟩

end CallGate.Policy
