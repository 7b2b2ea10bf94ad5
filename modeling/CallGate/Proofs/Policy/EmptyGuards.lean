import CallGate.Proofs.Policy.FatalNames

/-!
# Guards without statements

A guard without statements has nothing to say about its call, and a policy treats it as if it were
not there. It does so in two places: when it is made it drops such guards from its table, and when
the list of fatal calls is derived a call is unguarded if there are no statements for it, whether or
not there is a guard. `withoutEmpty_insert` and `fatalNames_withoutEmpty` say that both are blind to
the same guards.

What is then left of a table splits the registry in two, the calls with a guard and those without.
The list of fatal calls keeps to that division: a default of `kill` adds the unguarded calls, and
these only.
-/

namespace CallGate.Data

variable {α : Type} {key : α → String} {p : α → Bool}

theorem eq_or_mem_of_mem_place {a b : α} {l : List α} (h : b ∈ place key a l) : b = a ∨ b ∈ l := by
  induction l with
  | nil => exact .inl (List.mem_singleton.mp h)
  | cons c cs ih =>
    rw [place] at h
    split at h
    · exact (List.mem_cons.mp h).imp_right (List.mem_cons_of_mem c)
    · rcases List.mem_cons.mp h with rfl | h
      · exact .inr List.mem_cons_self
      · exact (ih h).imp_right (List.mem_cons_of_mem c)

/-- An item that is filtered out, in the place of one that is filtered out if there is any. -/
theorem filter_place {a : α} {l : List α} (ha : p a = false)
    (hl : ∀ b ∈ l, key b = key a → p b = false) : (place key a l).filter p = l.filter p := by
  induction l with
  | nil => simp [place, ha]
  | cons b bs ih =>
    rw [place]
    split
    · next hkey => simp [ha, hl b List.mem_cons_self hkey]
    · rw [List.filter_cons, List.filter_cons, ih fun c hc ↦ hl c (List.mem_cons_of_mem b hc)]

end CallGate.Data

namespace CallGate.Policy

open CallGate.Abi CallGate.Data

/-! ## Tables -/

namespace GuardTable

variable {t u : GuardTable} {name : String} {g : Guard}

theorem eq_of_entries (h : t.entries = u.entries) : t = u := by
  cases t
  cases u
  cases h
  rfl

theorem withoutEmpty_withoutEmpty (t : GuardTable) :
    t.withoutEmpty.withoutEmpty = t.withoutEmpty := by
  refine eq_of_entries ?_
  simp only [withoutEmpty, List.filter_filter, Bool.and_self]

/-- Without its empty guards, a table is as before one was added where there were no statements. -/
theorem withoutEmpty_insert (hg : g.isEmpty = true) (hname : t.statements name = []) :
    (t.insert name g).withoutEmpty = t.withoutEmpty := by
  refine eq_of_entries (filter_place (by simp [hg]) fun e he hkey ↦ ?_)
  -- What stood under the name was empty as well.
  obtain ⟨name', g'⟩ := e
  obtain rfl : name' = name := hkey
  rw [statements, find?_eq_some.mpr he, Option.elim_some] at hname
  simp [Guard.isEmpty, hname]

theorem covers_withoutEmpty (t : GuardTable) (name : String) :
    t.withoutEmpty.covers name = t.covers name := by
  rw [Bool.eq_iff_iff, covers_eq_true, covers_eq_true, statements_withoutEmpty]

/-- Empty guards do not matter to which calls are fatal. -/
theorem fatalNames_withoutEmpty (t : GuardTable) (default : Action) (names : List String) :
    t.withoutEmpty.fatalNames default names = t.fatalNames default names := by
  have hfatal : t.withoutEmpty.entries.filter (·.2.isFatal) = t.entries.filter (·.2.isFatal) := by
    rw [withoutEmpty, List.filter_filter]
    refine List.filter_congr fun e _ ↦ ?_
    cases hstatements : e.2.statements with
    | nil => simp [Guard.isFatal, hstatements]
    | cons s ss => simp [Guard.isEmpty, hstatements]
  simp only [fatalNames, hfatal, covers_withoutEmpty]

end GuardTable

/-! ## The two parts of a registry -/

variable {default : Action} {table : GuardTable} {registry : Registry} {p : Policy} {name : String}

/-- A guard that a policy has kept has statements. -/
theorem guard?_eq_none_iff : p.guard? name = none ↔ p.guards.statements name = [] := by
  rw [guard?, GuardTable.statements]
  cases hg : p.guards.find? name with
  | none => simp
  | some g =>
    have hne := (p.filed _ (GuardTable.find?_eq_some.mp hg)).2.2
    simpa [Guard.isEmpty] using hne

theorem mem_unguardedNames :
    name ∈ p.unguardedNames ↔ name ∈ p.registry.names ∧ p.guards.statements name = [] := by
  rw [unguardedNames, List.mem_filter, Option.isNone_iff_eq_none, guard?_eq_none_iff]

theorem mem_guardNames : name ∈ p.guardNames ↔ p.guards.statements name ≠ [] := by
  rw [← not_iff_not, not_not, ← guard?_eq_none_iff, guard?, Option.eq_none_iff_forall_ne_some]
  simp only [ne_eq, GuardTable.find?_eq_some, guardNames, GuardTable.names, List.mem_map,
    Prod.exists, exists_and_right, exists_eq_right, not_exists]

/-! ## Policies -/

theorem statements_of_build (hp : build default table registry = .ok p) (name : String) :
    p.guards.statements name = table.statements name := by
  rw [(build_eq_ok.mp hp).2.2.1, GuardTable.statements_withoutEmpty]

theorem mem_unguardedNames_of_build (hp : build default table registry = .ok p) :
    name ∈ p.unguardedNames ↔ name ∈ registry.names ∧ table.statements name = [] := by
  rw [mem_unguardedNames, statements_of_build hp, (build_eq_ok.mp hp).2.2.2]

theorem mem_fatalNames_of_build (hp : build default table registry = .ok p) :
    name ∈ p.fatalNames ↔ (∃ s ∈ table.statements name, s.isFatal = true) ∨
      default = .kill ∧ name ∈ p.unguardedNames := by
  obtain ⟨-, hdefault, -, -⟩ := build_eq_ok.mp hp
  rw [fatalNames, GuardTable.mem_fatalNames, statements_of_build hp, hdefault, mem_unguardedNames,
    statements_of_build hp]

/-- What makes a table acceptable has nothing to do with the default. -/
theorem build_default (hp : build default table registry = .ok p) (d : Action) :
    build d table registry = .ok { p with default := d } := by
  obtain ⟨hknown, -, hguards, hregistry⟩ := build_eq_ok.mp hp
  exact build_eq_ok.mpr ⟨hknown, rfl, hguards, hregistry⟩

theorem build_withoutEmpty (hp : build default table registry = .ok p) :
    build default table.withoutEmpty registry = .ok p := by
  obtain ⟨hknown, hdefault, hguards, hregistry⟩ := build_eq_ok.mp hp
  refine build_eq_ok.mpr ⟨fun e he ↦ hknown e (List.mem_of_mem_filter he), hdefault, ?_, hregistry⟩
  rw [GuardTable.withoutEmpty_withoutEmpty, hguards]

theorem build_insert {g : Guard} (hp : build default table registry = .ok p)
    (hname : registry.contains name = true) (hcall : g.call.name = name) (hg : g.isEmpty = true)
    (hunguarded : p.guard? name = none) :
    build default (table.insert name g) registry = .ok p := by
  obtain ⟨hknown, hdefault, hguards, hregistry⟩ := build_eq_ok.mp hp
  rw [guard?_eq_none_iff, statements_of_build hp] at hunguarded
  refine build_eq_ok.mpr ⟨fun e he ↦ ?_, hdefault, ?_, hregistry⟩
  · rcases eq_or_mem_of_mem_place he with rfl | he
    · exact ⟨hname, hcall⟩
    · exact hknown e he
  · rw [GuardTable.withoutEmpty_insert hg hunguarded, hguards]

/-- **Empty guards are invisible, and the registry splits in two.** If a policy can be made of a
table, the very same policy is made of the table without its empty guards, and of the table with an
empty guard for any call that is registered and unguarded; and the list of fatal calls that is
derived from such a table is that of the table as it was, for any default and any names. Each name
of the registry either has a guard or is among the unguarded names, which come in the order of the
registry. A policy on the same table and registry can be made with any other default, and to the
fatal calls under a default that does not kill, one that does adds the unguarded names, of which
none was there before. -/
theorem emptyGuards_invisible (hp : build default table registry = .ok p) :
    (build default table.withoutEmpty registry = .ok p ∧
      ∀ d names, table.withoutEmpty.fatalNames d names = table.fatalNames d names) ∧
    (∀ name g, registry.contains name = true → p.guard? name = none → g.call.name = name →
      g.isEmpty = true → build default (table.insert name g) registry = .ok p ∧
        ∀ d names, (table.insert name g).fatalNames d names = table.fatalNames d names) ∧
    (∀ name ∈ registry.names, (name ∈ p.guardNames ↔ name ∉ p.unguardedNames)) ∧
    p.unguardedNames.Sublist registry.names ∧
    (∀ d, ∃ q, build d table registry = .ok q ∧ q.unguardedNames = p.unguardedNames) ∧
    ∀ d q k, d ≠ .kill → build d table registry = .ok q → build .kill table registry = .ok k →
      q.fatalNames.Disjoint p.unguardedNames ∧
        ∀ name, name ∈ k.fatalNames ↔ name ∈ q.fatalNames ∨ name ∈ p.unguardedNames := by
  refine ⟨⟨build_withoutEmpty hp, table.fatalNames_withoutEmpty⟩,
    fun name g hname hnone hcall hg ↦ ⟨build_insert hp hname hcall hg hnone, fun d names ↦ ?_⟩,
    fun name hname ↦ ?_, ?_, fun d ↦ ⟨_, build_default hp d, rfl⟩,
    fun d q k hd hq hk ↦ ⟨fun name hfatal hnone ↦ ?_, fun name ↦ ?_⟩⟩
  · rw [guard?_eq_none_iff, statements_of_build hp] at hnone
    rw [← GuardTable.fatalNames_withoutEmpty, GuardTable.withoutEmpty_insert hg hnone,
      GuardTable.fatalNames_withoutEmpty]
  · rw [mem_guardNames, mem_unguardedNames_of_build hp, statements_of_build hp, not_and]
    exact ⟨fun h _ ↦ h, fun h ↦ h hname⟩
  · rw [← (build_eq_ok.mp hp).2.2.2]
    exact List.filter_sublist
  · have hnil := ((mem_unguardedNames_of_build hp).mp hnone).2
    rcases (mem_fatalNames_of_build hq).mp hfatal with ⟨s, hs, -⟩ | ⟨hkill, -⟩
    · rw [hnil] at hs
      exact List.not_mem_nil hs
    · exact hd hkill
  · rw [mem_fatalNames_of_build hk, mem_fatalNames_of_build hq, mem_unguardedNames_of_build hk,
      mem_unguardedNames_of_build hp]
    simp only [true_and, hd, false_and, or_false]

/-- Two calls, one without a guard and one with an empty guard, behind a default that kills. -/
theorem emptyGuards_invisible_two_calls :
    let close : Descriptor := ⟨"fd_close", [.typed "fd" .u32]⟩
    let exit : Descriptor := ⟨"proc_exit", [.typed "code" .u32]⟩
    let registry : Registry := ⟨[close, exit], true, by decide⟩
    let table : GuardTable := .ofList [("fd_close", { call := close })]
    ∃ p, build .kill table registry = .ok p ∧
      build .kill (table.insert "proc_exit" { call := exit }) registry = .ok p ∧
      "fd_close" ∈ p.unguardedNames ∧ "fd_close" ∈ p.fatalNames := by
  intro close exit registry table
  have hp : build .kill table registry = .ok ⟨.kill, .empty, registry, nofun⟩ := rfl
  have hallow : build .allow table registry = .ok ⟨.allow, .empty, registry, nofun⟩ := rfl
  obtain ⟨-, hinsert, -, -, -, hkill⟩ := emptyGuards_invisible hp
  have hnone : "fd_close" ∈ unguardedNames ⟨.kill, .empty, registry, nofun⟩ := by decide
  refine ⟨_, hp, (hinsert "proc_exit" { call := exit } (by decide) rfl rfl rfl).1, hnone, ?_⟩
  exact ((hkill .allow _ _ (by decide) hallow hp).2 "fd_close").mpr (.inr hnone)

end CallGate.Policy
