import CallGate.Proofs.Policy.Building
import CallGate.Proofs.Policy.FatalNames

/-!
# The order of entries

A policy is made from entries about calls, and the calls may come in any order, come again, or come
with nothing to say. None of this can be told from the policy. What it holds about a call are the
entries about that call, in order, wherever they stood between the others: `entriesAbout` collects
them, `exists_ofEntries` says that the policy is made of them, and `ofEntries_congr` that two ways
to give the same entries about each call make policies that decide alike.

The guards themselves may be filed in another order. Nothing that is asked of a policy looks at that
order, so it is enough that both policies find the same guard under each name. That is `Alike`, and
its consequences hold however the policies came about.
-/

namespace CallGate.Policy

open CallGate.Abi CallGate.Data

/-! ## Policies that decide alike -/

/-- Two policies on one registry with the same default and the same guard under each name. -/
structure Alike (p q : Policy) : Prop where
  default_eq : p.default = q.default
  registry_eq : p.registry = q.registry
  guard?_eq : ∀ name, p.guard? name = q.guard? name

namespace Alike

variable {p q : Policy}

theorem evaluate_eq (h : Alike p q) (name : String) (args : List Value) :
    p.evaluate name args = q.evaluate name args := by
  rw [evaluate, evaluate, h.guard?_eq, h.default_eq]

theorem unguardedNames_eq (h : Alike p q) : p.unguardedNames = q.unguardedNames := by
  simp only [unguardedNames, h.registry_eq, h.guard?_eq]

theorem statements_eq (h : Alike p q) (name : String) :
    p.guards.statements name = q.guards.statements name := by
  have hfind : p.guards.find? name = q.guards.find? name := h.guard?_eq name
  rw [GuardTable.statements, GuardTable.statements, hfind]

/-- The names may be listed in another order. -/
theorem mem_fatalNames_iff (h : Alike p q) (name : String) :
    name ∈ p.fatalNames ↔ name ∈ q.fatalNames := by
  rw [fatalNames, fatalNames, GuardTable.mem_fatalNames, GuardTable.mem_fatalNames,
    h.statements_eq, h.default_eq, h.registry_eq]

end Alike

/-! ## The guard that is due -/

/-- A statement is its call and what it says about it. -/
theorem Statement.ext_content {s t : Statement} (hcall : s.call = t.call)
    (hcontent : s.content = t.content) : s = t := by
  obtain ⟨call, action, bound, harity⟩ := s
  obtain ⟨call', action', bound', harity'⟩ := t
  obtain ⟨rfl, rfl⟩ := Prod.mk.inj hcontent
  cases hcall
  rfl

theorem eq_of_map_content {call : Descriptor} {ss ts : List Statement}
    (hss : ∀ s ∈ ss, s.call = call) (hts : ∀ t ∈ ts, t.call = call)
    (h : ss.map Statement.content = ts.map Statement.content) : ss = ts := by
  induction ss generalizing ts with
  | nil => exact (List.map_eq_nil_iff.mp h.symm).symm
  | cons s ss ih =>
    cases ts with
    | nil => cases h
    | cons t ts =>
      obtain ⟨hs, hss⟩ := List.forall_mem_cons.mp hss
      obtain ⟨ht, hts⟩ := List.forall_mem_cons.mp hts
      obtain ⟨hcontent, h⟩ := List.cons.inj h
      rw [Statement.ext_content (hs.trans ht.symm) hcontent, ih hss hts h]

/-- There is only one guard that is due for some contents. -/
theorem GuardOf.unique {registry : Registry} {name : String} {cs : List (Action × Option Bound)}
    {g g' : Option Guard} (h : GuardOf registry name cs g) (h' : GuardOf registry name cs g') :
    g = g' := by
  cases h with
  | none =>
    cases h'
    rfl
  | @some g _ _ hcall hown hcontent =>
    cases h' with
    | @some g' _ _ hcall' hown' hcontent' =>
      obtain ⟨call, statements, hnames⟩ := g
      obtain ⟨call', statements', hnames'⟩ := g'
      obtain rfl : call = call' := Option.some.inj (hcall.symm.trans hcall')
      obtain rfl : statements = statements' :=
        eq_of_map_content hown hown' (hcontent.trans hcontent'.symm)
      rfl

/-! ## Entries -/

/-- All that is said about a call, in order. -/
def entriesAbout (name : String) (given : List (String × List Entry)) : List Entry :=
  (given.filter (·.1 == name)).flatMap (·.2)

theorem mem_entriesAbout {name : String} {given : List (String × List Entry)} {e : Entry} :
    e ∈ entriesAbout name given ↔ ∃ es, (name, es) ∈ given ∧ e ∈ es := by
  simp only [entriesAbout, List.mem_flatMap, List.mem_filter, beq_iff_eq]
  constructor
  · rintro ⟨⟨_, es⟩, ⟨hmem, rfl⟩, he⟩
    exact ⟨es, hmem, he⟩
  · rintro ⟨es, hmem, he⟩
    exact ⟨(name, es), ⟨hmem, rfl⟩, he⟩

/-- Each entry that is given can be added for its call. -/
def AllHaveContent (registry : Registry) (given : List (String × List Entry)) : Prop :=
  ∀ name, ∀ e ∈ entriesAbout name given, (e.content? registry name).isSome

theorem allHaveContent_iff {registry : Registry} {given : List (String × List Entry)} :
    AllHaveContent registry given ↔
      ∀ item ∈ given, ∀ e ∈ item.2, (e.content? registry item.1).isSome := by
  simp only [AllHaveContent, mem_entriesAbout]
  constructor
  · rintro h ⟨name, es⟩ hmem e he
    exact h name e ⟨es, hmem, he⟩
  · rintro h name e ⟨es, hmem, he⟩
    exact h (name, es) hmem e he

/-- What entries add about a call if each of them can be added. -/
theorem flatMap_additions {registry : Registry} {given : List (String × List Entry)}
    (h : AllHaveContent registry given) (about : String) :
    (given.map fun item ↦ Command.entries item.1 item.2).flatMap (·.additions registry about) =
      (entriesAbout about given).filterMap (·.content? registry about) := by
  rw [allHaveContent_iff] at h
  induction given with
  | nil => rfl
  | cons item given ih =>
    obtain ⟨hitem, hgiven⟩ := List.forall_mem_cons.mp h
    rw [List.map_cons, List.flatMap_cons, ih hgiven, Command.additions, entriesAbout,
      entriesAbout, List.takeWhile_eq_self_iff.mpr hitem]
    by_cases hname : item.1 = about
    · subst hname
      simp
    · simp [hname]

/-! ## The policy of entries -/

namespace Builder

variable {b : Builder}

/-- Add the entries about one call after those about another, as `ofEntries` does. -/
def addGiven (given : List (String × List Entry)) : Building Unit :=
  given.forM fun item ↦ addEntries item.1 item.2

theorem addGiven_cons_of_ok {item : String × List Entry} {b' : Builder}
    (h : addEntries item.1 item.2 b = .ok () b') (given : List (String × List Entry)) :
    addGiven (item :: given) b = addGiven given b' :=
  forM_cons_of_ok (fun item : String × List Entry ↦ addEntries item.1 item.2) h given

theorem addGiven_cons_of_error {item : String × List Entry} {fault : PolicyError} {b' : Builder}
    (h : addEntries item.1 item.2 b = .error fault b') (given : List (String × List Entry)) :
    addGiven (item :: given) b = .error fault b' :=
  forM_cons_of_error (fun item : String × List Entry ↦ addEntries item.1 item.2) h given

theorem addEntries_eq_step {name : String} {es : List Entry}
    (h : ∀ e ∈ es, (e.content? b.registry name).isSome) :
    addEntries name es b = .ok () (b.step (.entries name es)) := by
  have hadd := addEntries_of_content h
  have hstep : b.step (.entries name es) = b.after (es.map (.statement name)) := step_of_ok hadd
  rw [hadd, hstep]

/-- Where all entries have content, adding them is a run of commands, one for each list. -/
theorem addGiven_of_content {registry : Registry} {d₀ : Action} {cs : List Command}
    (hb : Follows registry d₀ cs b) {given : List (String × List Entry)}
    (h : ∀ item ∈ given, ∀ e ∈ item.2, (e.content? registry item.1).isSome) :
    addGiven given b = .ok () (b.after (given.map fun item ↦ .entries item.1 item.2)) := by
  induction given generalizing b cs with
  | nil => rfl
  | cons item given ih =>
    obtain ⟨hitem, hgiven⟩ := List.forall_mem_cons.mp h
    rw [← hb.registry_eq] at hitem
    rw [addGiven_cons_of_ok (addEntries_eq_step hitem), List.map_cons, after_cons]
    exact ih (hb.step (.entries item.1 item.2)) hgiven

/-- The first entry without content is the end of it, whatever comes after. -/
theorem addGiven_of_no_content {registry : Registry} {d₀ : Action} {cs : List Command}
    (hb : Follows registry d₀ cs b) {given : List (String × List Entry)}
    (h : ¬ ∀ item ∈ given, ∀ e ∈ item.2, (e.content? registry item.1).isSome) :
    ∃ fault b', addGiven given b = .error fault b' := by
  induction given generalizing b cs with
  | nil => exact absurd (List.forall_mem_nil _) h
  | cons item given ih =>
    rw [List.forall_mem_cons, not_and] at h
    rcases content_or_exists_first registry item.1 item.2 with
      hall | ⟨before, e, rest, hitem, hbefore, he⟩
    · have hnext := h hall
      rw [← hb.registry_eq] at hall
      rw [addGiven_cons_of_ok (addEntries_eq_step hall)]
      exact ih (hb.step (.entries item.1 item.2)) hnext
    · rw [← hb.registry_eq] at hbefore he
      obtain ⟨fault, hfault⟩ : ∃ fault, addEntries item.1 (before ++ e :: rest) b =
        .error fault _ := addEntries_of_content_eq_none hbefore he
      rw [← hitem] at hfault
      exact ⟨fault, _, addGiven_cons_of_error hfault given⟩

end Builder

variable {registry : Registry} {default : Option ActionLike}

/-- The default action that is asked for, if it can be read. -/
def defaultOf (default : Option ActionLike) : Except PolicyError Action :=
  default.elim (.ok .default) ActionLike.toAction

theorem Builder.start_eq (registry : Registry) (default : Option ActionLike) :
    Builder.start registry default =
      (defaultOf default).map fun d ↦ { registry, default := d } := by
  cases default with
  | none => rfl
  | some a =>
    have hstart : Builder.start registry (some a) =
        a.toAction >>= fun d ↦ pure { registry, default := d } := rfl
    rw [hstart, defaultOf, Option.elim_some]
    cases a.toAction <;> rfl

theorem ofEntries_eq (given : List (String × List Entry)) :
    ofEntries given default registry = (Builder.start registry default >>= fun b ↦
      match Builder.addGiven given b with
      | .ok () b => b.build
      | .error e _ => throw e) := rfl

/-- Entries that can all be added make a policy: it has the default that is asked for, and under
each name the guard that is due for what is said about it. -/
theorem exists_ofEntries {d : Action} (hd : defaultOf default = .ok d)
    {given : List (String × List Entry)} (h : AllHaveContent registry given) :
    ∃ p, ofEntries given default registry = .ok p ∧ p.default = d ∧ p.registry = registry ∧
      ∀ name, GuardOf registry name
        ((entriesAbout name given).filterMap (·.content? registry name)) (p.guard? name) := by
  have hempty : Builder.Follows registry d [] { registry, default := d } :=
    ⟨rfl, rfl, by simp, fun name ↦ rfl⟩
  have hadd := Builder.addGiven_of_content hempty (allHaveContent_iff.mp h)
  have hafter := hempty.after (given.map fun item ↦ .entries item.1 item.2)
  rw [List.nil_append] at hafter
  obtain ⟨p, hp, hdefault, hregistry, hguards⟩ := Builder.exists_build_of_log hafter.known_here
  refine ⟨p, ?_, ?_, hregistry.trans hafter.registry_eq, fun name ↦ ?_⟩
  · rw [ofEntries_eq, Builder.start_eq, hd]
    simp only [Except.map, bind, Except.bind, hadd, hp]
  · rw [hdefault, hafter.default_eq]
    have hnone :
        (given.map fun item ↦ Command.entries item.1 item.2).filterMap (·.default?) = [] := by
      simp [Command.default?]
    rw [hnone, List.getLastD_nil]
  · have hguard := hguards name
    rwa [hafter.content_eq, hafter.registry_eq, flatMap_additions h] at hguard

/-- A policy is made of entries exactly if its default can be read and each entry can be added. -/
theorem exists_ofEntries_iff {given : List (String × List Entry)} :
    (∃ p, ofEntries given default registry = .ok p) ↔
      (∃ d, defaultOf default = .ok d) ∧ AllHaveContent registry given := by
  constructor
  · rintro ⟨p, hp⟩
    rw [ofEntries_eq, Builder.start_eq, bind_eq_ok] at hp
    obtain ⟨b, hb, hp⟩ := hp
    obtain ⟨d, hd, rfl⟩ := map_eq_ok.mp hb
    refine ⟨⟨d, hd⟩, ?_⟩
    by_contra hnot
    have hempty : Builder.Follows registry d [] { registry, default := d } :=
      ⟨rfl, rfl, by simp, fun name ↦ rfl⟩
    rw [allHaveContent_iff] at hnot
    obtain ⟨fault, b', hfault⟩ := Builder.addGiven_of_no_content hempty hnot
    rw [hfault] at hp
    cases hp
  · rintro ⟨⟨d, hd⟩, h⟩
    obtain ⟨p, hp, -⟩ := exists_ofEntries hd h
    exact ⟨p, hp⟩

/-- **Only the order within one call matters.** Two lists that give the same entries about each call
are both made into a policy, or both refused. They are made into one if the default can be read and
each entry can be added; then each call has the guard that is due for its entries, and the two
policies have the same guards, decide about each call in the same way, and have the same fatal and
the same unguarded calls. -/
theorem ofEntries_congr {given₁ given₂ : List (String × List Entry)}
    (h : ∀ name, entriesAbout name given₁ = entriesAbout name given₂)
    (default : Option ActionLike) (registry : Registry) :
    ((∃ e₁ e₂, ofEntries given₁ default registry = .error e₁ ∧
        ofEntries given₂ default registry = .error e₂) ∧
      ¬ ((∃ d, defaultOf default = .ok d) ∧ AllHaveContent registry given₁)) ∨
    ∃ p q, ofEntries given₁ default registry = .ok p ∧ ofEntries given₂ default registry = .ok q ∧
      (defaultOf default = .ok p.default ∧ AllHaveContent registry given₁) ∧
      (∀ name, p.guard? name = q.guard? name ∧ GuardOf registry name
        ((entriesAbout name given₁).filterMap (·.content? registry name)) (p.guard? name)) ∧
      (∀ name args, p.evaluate name args = q.evaluate name args) ∧
      (∀ name, name ∈ p.fatalNames ↔ name ∈ q.fatalNames) ∧
      p.unguardedNames = q.unguardedNames := by
  have hcontent : AllHaveContent registry given₁ ↔ AllHaveContent registry given₂ := by
    simp only [AllHaveContent, h]
  by_cases hbuilds : (∃ d, defaultOf default = .ok d) ∧ AllHaveContent registry given₁
  · obtain ⟨⟨d, hd⟩, h₁⟩ := hbuilds
    obtain ⟨p, hp, rfl, hpregistry, hpguards⟩ := exists_ofEntries hd h₁
    obtain ⟨q, hq, hqdefault, hqregistry, hqguards⟩ := exists_ofEntries hd (hcontent.mp h₁)
    have halike : Alike p q := by
      refine ⟨hqdefault.symm, hpregistry.trans hqregistry.symm, fun name ↦ ?_⟩
      exact (hpguards name).unique (h name ▸ hqguards name)
    exact .inr ⟨p, q, hp, hq, ⟨hd, h₁⟩, fun name ↦ ⟨halike.guard?_eq name, hpguards name⟩,
      halike.evaluate_eq, halike.mem_fatalNames_iff, halike.unguardedNames_eq⟩
  · have hrefused {given : List (String × List Entry)}
        (hnot : ¬ ((∃ d, defaultOf default = .ok d) ∧ AllHaveContent registry given)) :
        ∃ e, ofEntries given default registry = .error e := by
      cases hof : ofEntries given default registry with
      | error e => exact ⟨e, rfl⟩
      | ok p => exact absurd (exists_ofEntries_iff.mp ⟨p, hof⟩) hnot
    obtain ⟨e₁, he₁⟩ := hrefused hbuilds
    obtain ⟨e₂, he₂⟩ := hrefused (by rwa [← hcontent])
    exact .inl ⟨⟨e₁, e₂, he₁, he₂⟩, hbuilds⟩

/-- Entries about two calls, once in turns and once call by call, with an unknown call of which
nothing is said. -/
theorem ofEntries_congr_interleaved :
    let registry : Registry := ⟨[⟨"sched_yield", []⟩, ⟨"proc_raise", []⟩], true, by decide⟩
    let entry (a : Action) : Entry := ⟨.absent, .action a⟩
    let given₁ := [("sched_yield", [entry .log]), ("proc_raise", [entry .kill]),
      ("sched_yield", [entry .kill, entry .allow])]
    let given₂ := [("no_such_call", []), ("proc_raise", [entry .kill]),
      ("sched_yield", [entry .log, entry .kill]), ("sched_yield", [entry .allow])]
    (∀ name, entriesAbout name given₁ = entriesAbout name given₂) ∧
    ∃ p q, ofEntries given₁ none registry = .ok p ∧ ofEntries given₂ none registry = .ok q ∧
      p.guardNames = ["sched_yield", "proc_raise"] ∧ q.guardNames = ["proc_raise", "sched_yield"] ∧
      (∀ name args, p.evaluate name args = q.evaluate name args) ∧
      (∀ name, name ∈ p.fatalNames ↔ name ∈ q.fatalNames) ∧
      p.unguardedNames = q.unguardedNames := by
  intro registry entry given₁ given₂
  have hsame : ∀ name, entriesAbout name given₁ = entriesAbout name given₂ := by
    intro name
    by_cases hyield : "sched_yield" = name
    · subst hyield
      rfl
    · by_cases hraise : "proc_raise" = name
      · subst hraise
        rfl
      · simp [entriesAbout, given₁, given₂, List.filter_cons, hyield, hraise, apply_ite]
  refine ⟨hsame, ?_⟩
  rcases ofEntries_congr hsame none registry with ⟨⟨e, -, he, -⟩, -⟩ | ⟨p, q, hp, hq, -, -, h⟩
  · cases he
  · refine ⟨p, q, hp, hq, ?_, ?_, h⟩
    · cases hp
      rfl
    · cases hq
      rfl

end CallGate.Policy
