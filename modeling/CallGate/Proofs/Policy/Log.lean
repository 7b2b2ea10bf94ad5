import CallGate.Policy.Builder
import CallGate.Proofs.Policy.Evaluation
import Mathlib.Data.List.Induction

/-!
# The policy of a log

A builder makes its policy out of the log alone. `exists_build_of_log` says that it can whenever
the statements of the log are about calls as the registry has them, and that each name then has the
guard that is due to it, `GuardOf`: with what the log says about it, in order, or no guard if that
is nothing.

The guards are filed name by name, and what is found under a name is what was filed last. It does
not matter which that is, since two guards that are made from one log for one name are the same.
-/

namespace CallGate.Policy

open CallGate.Abi CallGate.Data

/-! ## Tables that are filed one guard after the other -/

theorem Guard.build_eq_ok {call : Descriptor} {statements : List Statement} {g : Guard} :
    Guard.build call statements = .ok g ↔
      (∀ s ∈ statements, s.call.name = call.name) ∧ g.call = call ∧ g.statements = statements := by
  obtain ⟨call', statements', hnames⟩ := g
  unfold Guard.build
  split
  · next s hs =>
    have hne : s.call.name ≠ call.name := by simpa using List.find?_some hs
    constructor
    · rintro ⟨⟩
    · rintro ⟨hall, -⟩
      exact absurd (hall s (List.mem_of_find?_eq_some hs)) hne
  · next hs =>
    have hall : ∀ s ∈ statements, s.call.name = call.name := by
      simpa [List.find?_eq_none] using hs
    simp only [Except.ok.injEq, Guard.mk.injEq]
    constructor
    · rintro ⟨rfl, rfl⟩
      exact ⟨hall, rfl, rfl⟩
    · rintro ⟨-, rfl, rfl⟩
      exact ⟨rfl, rfl⟩

namespace GuardTable

theorem find?_insert (t : GuardTable) (name : String) (g : Guard) (key : String) :
    (t.insert name g).find? key = if name = key then some g else t.find? key := by
  rw [find?, insert, find?_place]
  split
  · rfl
  · rw [find?]

/-- The last guard that was filed under a name is the one that is found. -/
theorem find?_ofList (entries : List (String × Guard)) (name : String) :
    (ofList entries).find? name = (entries.reverse.find? (·.1 == name)).map (·.2) := by
  -- Induction from the end, since it is the last entry that overwrites.
  induction entries using List.reverseRecOn with
  | nil => rfl
  | append_singleton es e ih =>
    rw [ofList] at ih ⊢
    rw [List.foldl_append, List.foldl_cons, List.foldl_nil, find?_insert, List.reverse_append,
      List.reverse_singleton, List.singleton_append]
    by_cases he : e.1 = name
    · rw [if_pos he, List.find?_cons_of_pos (by simpa using he), Option.map_some]
    · rw [if_neg he, List.find?_cons_of_neg (by simpa using he), ih]

theorem mem_of_find?_ofList {entries : List (String × Guard)} {name : String} {g : Guard}
    (h : (ofList entries).find? name = some g) : (name, g) ∈ entries := by
  rw [find?_ofList] at h
  obtain ⟨⟨key, g'⟩, he, rfl⟩ := Option.map_eq_some_iff.mp h
  obtain rfl : key = name := by simpa using List.find?_some he
  exact List.mem_reverse.mp (List.mem_of_find?_eq_some he)

theorem exists_find?_ofList {entries : List (String × Guard)} {e : String × Guard}
    (he : e ∈ entries) : ∃ g, (ofList entries).find? e.1 = some g := by
  rw [find?_ofList]
  cases hfind : entries.reverse.find? (·.1 == e.1) with
  | some e' => exact ⟨e'.2, rfl⟩
  | none =>
    have hne := List.find?_eq_none.mp hfind e (List.mem_reverse.mpr he)
    exact absurd (beq_self_eq_true e.1) hne

end GuardTable

theorem exists_build {default : Action} {table : GuardTable} {registry : Registry}
    (h : ∀ e ∈ table.entries, registry.contains e.1 = true ∧ e.2.call.name = e.1) :
    ∃ p, build default table registry = .ok p := by
  have hfiled : ∀ e ∈ table.withoutEmpty.entries,
      registry.contains e.1 = true ∧ e.2.call.name = e.1 ∧ ¬ e.2.isEmpty := by
    intro e he
    obtain ⟨hmem, hne⟩ := List.mem_filter.mp he
    obtain ⟨hknown, hname⟩ := h e hmem
    exact ⟨hknown, hname, by simpa using hne⟩
  exact ⟨⟨default, table.withoutEmpty, registry, hfiled⟩, build_eq_ok.mpr ⟨h, rfl, rfl, rfl⟩⟩

/-! ## The policy of a log -/

/-- What a statement says about its call. -/
def Statement.content (s : Statement) : Action × Option Bound := (s.action, s.bound)

/-- The guard that is due to a name for what was said about it: none if nothing was, and otherwise
one for the call as the registry knows it, whose statements are about that call and say just
this. -/
inductive GuardOf (registry : Registry) (name : String) :
    List (Action × Option Bound) → Option Guard → Prop
  | none : GuardOf registry name [] none
  | some {g : Guard} {c : Action × Option Bound} {cs : List (Action × Option Bound)}
      (call : registry.find? name = some g.call) (own : ∀ s ∈ g.statements, s.call = g.call)
      (content : g.statements.map Statement.content = c :: cs) :
      GuardOf registry name (c :: cs) (some g)

namespace Builder

/-- The statements of a builder about the call of a name. -/
def about (b : Builder) (name : String) : List Statement := b.log.filter (·.call.name == name)

variable {b : Builder}

theorem mem_about {name : String} {s : Statement} :
    s ∈ b.about name ↔ s ∈ b.log ∧ s.call.name = name := by
  rw [about, List.mem_filter, beq_iff_eq]

/-- The guard that a builder files under a name. -/
def guardEntry (b : Builder) (name : String) : Except PolicyError (String × Guard) := do
  let some call := b.registry.find? name | throw (.unknownAbi name)
  return (name, ← Guard.build call (b.about name))

theorem guards_eq_ok {t : GuardTable} :
    b.guards = .ok t ↔ ∃ entries, (b.log.map (·.call.name)).eraseDups.mapM b.guardEntry =
      .ok entries ∧ GuardTable.ofList entries = t := by
  have hguards : b.guards = (b.log.map (·.call.name)).eraseDups.mapM b.guardEntry >>=
      fun entries ↦ pure (GuardTable.ofList entries) := rfl
  simp only [hguards, bind_eq_ok, pure_eq_ok]

theorem guardEntry_eq_ok {name : String} {e : String × Guard} :
    b.guardEntry name = .ok e ↔
      e.1 = name ∧ b.registry.find? name = some e.2.call ∧ e.2.statements = b.about name := by
  obtain ⟨key, g⟩ := e
  unfold guardEntry
  cases hcall : b.registry.find? name with
  | none =>
    constructor
    · rintro ⟨⟩
    · rintro ⟨-, ⟨⟩, -⟩
  | some call =>
    -- Whatever is said about a name is said about the call that the registry has under it.
    have hnames : ∀ s ∈ b.about name, s.call.name = call.name := fun s hs ↦
      (mem_about.mp hs).2.trans (Registry.name_of_find? hcall).symm
    simp only [bind_eq_ok, Guard.build_eq_ok, pure_eq_ok, Prod.mk.injEq, Option.some.injEq]
    constructor
    · rintro ⟨g, ⟨-, hg, hstatements⟩, rfl, rfl⟩
      exact ⟨rfl, hg.symm, hstatements⟩
    · rintro ⟨rfl, hg, hstatements⟩
      exact ⟨g, ⟨hnames, hg.symm, hstatements⟩, rfl, rfl⟩

/-- A log whose statements are about calls of the registry can be made into guards, and each holds
what the log has about its name. -/
theorem exists_guards (hknown : ∀ s ∈ b.log, b.registry.find? s.call.name = some s.call) :
    ∃ t, b.guards = .ok t ∧ ∀ name g, t.find? name = some g ↔
      b.about name ≠ [] ∧ b.registry.find? name = some g.call ∧ g.statements = b.about name := by
  have hnames {name : String} :
      name ∈ (b.log.map (·.call.name)).eraseDups ↔ ∃ s ∈ b.log, s.call.name = name := by
    rw [List.mem_eraseDups, List.mem_map]
  have hentry : ∀ name ∈ (b.log.map (·.call.name)).eraseDups, ∃ e, b.guardEntry name = .ok e := by
    intro name hname
    obtain ⟨s, hs, rfl⟩ := hnames.mp hname
    have hsame : ∀ s' ∈ b.about s.call.name, s'.call.name = s.call.name := fun s' hs' ↦
      (mem_about.mp hs').2
    exact ⟨(s.call.name, ⟨s.call, b.about s.call.name, hsame⟩),
      guardEntry_eq_ok.mpr ⟨rfl, hknown s hs, rfl⟩⟩
  obtain ⟨entries, hentries⟩ := exists_mapM_eq_ok hentry
  have hfound {name : String} {g : Guard} (hg : (GuardTable.ofList entries).find? name = some g) :
      name ∈ (b.log.map (·.call.name)).eraseDups ∧
        b.registry.find? name = some g.call ∧ g.statements = b.about name := by
    obtain ⟨name', hname', he⟩ := exists_of_mem_mapM hentries (GuardTable.mem_of_find?_ofList hg)
    obtain ⟨rfl, hcall, hstatements⟩ := guardEntry_eq_ok.mp he
    exact ⟨hname', hcall, hstatements⟩
  refine ⟨_, guards_eq_ok.mpr ⟨entries, hentries, rfl⟩, fun name g ↦ ⟨fun hg ↦ ?_, ?_⟩⟩
  · obtain ⟨hname, hcall, hstatements⟩ := hfound hg
    obtain ⟨s, hs⟩ := hnames.mp hname
    exact ⟨List.ne_nil_of_mem (mem_about.mpr hs), hcall, hstatements⟩
  · rintro ⟨hne, hcall, hstatements⟩
    obtain ⟨s, hs⟩ := List.exists_mem_of_ne_nil _ hne
    obtain ⟨e, he, hname⟩ := exists_mem_of_mapM hentries (hnames.mpr ⟨s, mem_about.mp hs⟩)
    obtain ⟨rfl, -, -⟩ := guardEntry_eq_ok.mp hname
    obtain ⟨g', hg'⟩ := GuardTable.exists_find?_ofList he
    -- The guard that is found is the due one, since it has the same call and the same statements.
    obtain ⟨-, hcall', hstatements'⟩ := hfound hg'
    have hsame : g' = g := by
      obtain ⟨call, statements, hown⟩ := g
      obtain ⟨call', statements', hown'⟩ := g'
      obtain rfl : call = call' := Option.some.inj (hcall.symm.trans hcall')
      obtain rfl : statements = statements' := hstatements.trans hstatements'.symm
      rfl
    rw [hg', hsame]

/-- A log whose statements are about calls of the registry can be made into a policy. -/
theorem exists_build_of_log (hknown : ∀ s ∈ b.log, b.registry.find? s.call.name = some s.call) :
    ∃ p, b.build = .ok p ∧ p.default = b.default ∧ p.registry = b.registry ∧
      ∀ name, GuardOf b.registry name ((b.about name).map Statement.content) (p.guard? name) := by
  obtain ⟨t, ht, hfind⟩ := exists_guards hknown
  have hfiled : ∀ e ∈ t.entries, b.registry.contains e.1 = true ∧ e.2.call.name = e.1 := by
    intro e he
    obtain ⟨-, hcall, -⟩ := (hfind e.1 e.2).mp (GuardTable.find?_eq_some.mpr he)
    exact ⟨Registry.contains_of_find? hcall, Registry.name_of_find? hcall⟩
  obtain ⟨p, hp⟩ := @exists_build b.default _ _ hfiled
  obtain ⟨-, hdefault, hguards, hregistry⟩ := build_eq_ok.mp hp
  refine ⟨p, by simpa [build, ht, bind_eq_ok] using hp, hdefault, hregistry, fun name ↦ ?_⟩
  have hguard {g : Guard} : p.guard? name = some g ↔ b.about name ≠ [] ∧
      b.registry.find? name = some g.call ∧ g.statements = b.about name := by
    rw [guard?, hguards, GuardTable.find?_withoutEmpty_eq_some, hfind]
    constructor
    · exact And.left
    · rintro ⟨hne, hcall, hstatements⟩
      refine ⟨⟨hne, hcall, hstatements⟩, ?_⟩
      rw [Guard.isEmpty, hstatements]
      simpa using hne
  cases habout : b.about name with
  | nil =>
    have hnone : p.guard? name = none := by
      rw [Option.eq_none_iff_forall_ne_some]
      intro g hg
      exact (hguard.mp hg).1 habout
    rw [hnone]
    exact .none
  | cons s ss =>
    obtain ⟨hs, hname⟩ := mem_about.mp (habout ▸ List.mem_cons_self : s ∈ b.about name)
    have hcall : b.registry.find? name = some s.call := hname ▸ hknown s hs
    have hown : ∀ s' ∈ s :: ss, s'.call = s.call := by
      intro s' hs'
      obtain ⟨hlog, hname'⟩ := mem_about.mp (habout ▸ hs' : s' ∈ b.about name)
      have hcall' := hknown s' hlog
      rw [hname', hcall] at hcall'
      exact (Option.some.inj hcall').symm
    have hsame : ∀ s' ∈ s :: ss, s'.call.name = s.call.name := fun s' hs' ↦
      congrArg (·.name) (hown s' hs')
    have hsome : p.guard? name = some ⟨s.call, s :: ss, hsame⟩ :=
      hguard.mpr ⟨by simp [habout], hcall, habout.symm⟩
    rw [hsome]
    exact .some hcall hown rfl

end Builder

end CallGate.Policy
