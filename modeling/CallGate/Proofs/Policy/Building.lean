import CallGate.Proofs.Policy.Log
import Mathlib.Data.List.TakeWhile

/-!
# Building a policy is keeping a log

A builder is driven by commands, some of which fail; a failure is caught and the next command goes
on with whatever the failing one left behind. `build_after` says what comes of any sequence of
commands. The policy can always be built, and everything in it can be read off the commands: its
default is that of the last command that could set one, and what it holds about a name are the
contents of the entries that could be added for it, in order.

`Entry.content?` says which entries can be added, by looking at the entry and the registry alone. A
list of entries is a command of its own, but comes to the same as adding one by one the entries
before the first that cannot be added; `Builder.step_entries` is that reduction, so that the
invariant `Builder.Follows` has to be carried over only one entry at a time.
-/

namespace CallGate.Policy

open CallGate.Abi CallGate.Data

/-! ## Entries -/

/-- What an entry says about a call, provided that the registry knows the call, the action can be
read, and the bound can be made and takes as many arguments as the call has. -/
def Entry.content? (registry : Registry) (name : String) (e : Entry) :
    Option (Action × Option Bound) :=
  match registry.find? name, e.action.toAction, e.bound.toBound? with
  | some call, .ok action, .ok bound =>
    if ∀ b ∈ bound, b.arity = call.arity then some (action, bound) else none
  | _, _, _ => none

theorem Statement.build_eq_ok {call : Descriptor} {action : Action} {bound : Option Bound}
    {s : Statement} :
    Statement.build call action bound = .ok s ↔
      s.call = call ∧ s.action = action ∧ s.bound = bound := by
  obtain ⟨call', action', bound', harity⟩ := s
  cases bound with
  | none => simp [Statement.build, eq_comm]
  | some b =>
    by_cases hb : b.arity = call.arity
    · simp [Statement.build, hb, eq_comm]
    · simp only [Statement.build, hb, dite_false, reduceCtorEq, false_iff]
      rintro ⟨rfl, -, rfl⟩
      exact hb (harity b rfl)

namespace Builder

variable {b : Builder} {name : String} {e : Entry}

theorem statementOf_eq_ok {registry : Registry} {s : Statement} :
    statementOf registry name e = .ok s ↔
      registry.find? name = some s.call ∧ e.content? registry name = some s.content := by
  rw [statementOf, Entry.content?]
  -- The call, the action and the bound, in the order in which they can fail.
  cases registry.find? name with
  | none => simp
  | some call =>
    simp only [bind_eq_ok, Statement.build_eq_ok]
    cases e.action.toAction with
    | error fault => simp
    | ok action =>
      cases e.bound.toBound? with
      | error fault => simp
      | ok bound =>
        simp only [Except.ok.injEq, Option.some.injEq, Statement.content]
        constructor
        · rintro ⟨_, rfl, _, rfl, rfl, rfl, rfl⟩
          exact ⟨rfl, if_pos s.arity_bound⟩
        · rintro ⟨rfl, hcontent⟩
          split at hcontent
          · obtain ⟨rfl, rfl⟩ := Prod.mk.inj (Option.some.inj hcontent)
            exact ⟨_, rfl, _, rfl, rfl, rfl, rfl⟩
          · cases hcontent

theorem exists_statementOf {registry : Registry} {c : Action × Option Bound}
    (h : e.content? registry name = some c) :
    ∃ s, statementOf registry name e = .ok s ∧ s.content = c := by
  have hcontent := h
  unfold Entry.content? at h
  split at h
  · next call action bound hcall _ _ =>
    split at h
    · next harity =>
      cases h
      let s : Statement := ⟨call, action, bound, harity⟩
      exact ⟨s, statementOf_eq_ok.mpr ⟨hcall, hcontent⟩, rfl⟩
    · cases h
  · cases h

theorem addStatement_of_content {c : Action × Option Bound}
    (h : e.content? b.registry name = some c) :
    ∃ s, addStatement name e b = .ok () { b with log := b.log ++ [s] } ∧
      b.registry.find? name = some s.call ∧ s.content = c := by
  obtain ⟨s, hs, hc⟩ := exists_statementOf h
  refine ⟨s, ?_, (statementOf_eq_ok.mp hs).1, hc⟩
  rw [addStatement, hs]

theorem addStatement_of_content_eq_none (h : e.content? b.registry name = none) :
    ∃ fault, addStatement name e b = .error fault b := by
  rw [addStatement]
  cases hs : statementOf b.registry name e with
  | error fault => exact ⟨fault, rfl⟩
  | ok s =>
    rw [(statementOf_eq_ok.mp hs).2] at h
    cases h

end Builder

/-! ## Commands -/

/-- What a builder can be told to do. -/
inductive Command where
  | default (action : ActionLike)
  | statement (name : String) (entry : Entry)
  | entries (name : String) (entries : List Entry)
  | build

namespace Command

/-- Carry out a command. What is built is not kept. -/
def perform : Command → Building Unit
  | default action => Builder.setDefault action
  | statement name entry => Builder.addStatement name entry
  | entries name es => Builder.addEntries name es
  | build => fun b ↦
    match b.build with
    | .ok _ => .ok () b
    | .error fault => .error fault b

/-- The default action that a command sets, if its action can be read. -/
def default? : Command → Option Action
  | default action => action.toAction.toOption
  | _ => none

/-- What a command adds about a name. Of a list of entries these are the contents of the ones before
the first without any. -/
def additions (registry : Registry) (about : String) : Command → List (Action × Option Bound)
  | statement name entry => if name = about then (entry.content? registry name).toList else []
  | entries name es =>
    if name = about then
      (es.takeWhile fun e ↦ (e.content? registry name).isSome).filterMap
        (·.content? registry name)
    else []
  | default _ | build => []

/-- A list of entries adds what the ones before the first without content add one by one. -/
theorem additions_entries (registry : Registry) (about name : String) (es : List Entry) :
    (entries name es).additions registry about =
      ((es.takeWhile fun e ↦ (e.content? registry name).isSome).map (statement name)).flatMap
        (·.additions registry about) := by
  rw [List.flatMap_map]
  by_cases h : name = about
  · simp [additions, h, List.filterMap_eq_flatMap_toList]
  · simp [additions, h]

end Command

namespace Builder

/-- The builder that a command leaves behind, whether it fails or not. -/
def step (b : Builder) (c : Command) : Builder :=
  match c.perform b with
  | .ok _ b' | .error _ b' => b'

/-- The builder after some commands. A failure of one of them does not keep the next from being
carried out. -/
def after (b : Builder) (cs : List Command) : Builder := cs.foldl step b

end Builder

/-- How a command can fail, and with what it leaves a builder behind: as it was, or, for a list of
entries, as adding the ones before the first without content would. Building a policy cannot fail.
-/
inductive Command.FailsWith (registry : Registry) (b : Builder) : Command → Builder → Prop
  | default {action : ActionLike} (h : action.toAction.toOption = none) :
      FailsWith registry b (.default action) b
  | statement {name : String} {entry : Entry} (h : entry.content? registry name = none) :
      FailsWith registry b (.statement name entry) b
  | entries {name : String} {before rest : List Entry} {entry : Entry}
      (hbefore : ∀ e ∈ before, (e.content? registry name).isSome)
      (h : entry.content? registry name = none) :
      FailsWith registry b (.entries name (before ++ entry :: rest))
        (b.after (before.map (.statement name)))

namespace Builder

variable {b : Builder} {name : String} {e : Entry}

@[simp] theorem after_nil (b : Builder) : b.after [] = b := rfl

@[simp] theorem after_cons (b : Builder) (c : Command) (cs : List Command) :
    b.after (c :: cs) = (b.step c).after cs := rfl

theorem after_append (b : Builder) (cs cs' : List Command) :
    b.after (cs ++ cs') = (b.after cs).after cs' := List.foldl_append

theorem step_of_ok {c : Command} {b' : Builder} (h : c.perform b = .ok () b') : b.step c = b' := by
  rw [step, h]

theorem step_of_error {c : Command} {fault : PolicyError} {b' : Builder}
    (h : c.perform b = .error fault b') : b.step c = b' := by
  rw [step, h]

theorem perform_build (b : Builder) : Command.build.perform b =
    match b.build with
    | .ok _ => .ok () b
    | .error fault => .error fault b := rfl

/-- Whether it succeeds or not, building leaves the builder as it was. -/
theorem step_build (b : Builder) : b.step .build = b := by
  rw [step, perform_build]
  cases b.build with
  | ok p => rfl
  | error fault => rfl

theorem perform_default_of_ok {action : ActionLike} {a : Action} (h : action.toAction = .ok a) :
    (Command.default action).perform b = .ok () { b with default := a } := by
  rw [Command.perform, setDefault, h]

theorem perform_default_of_error {action : ActionLike} {fault : PolicyError}
    (h : action.toAction = .error fault) :
    (Command.default action).perform b = .error fault b := by
  rw [Command.perform, setDefault, h]

theorem step_statement_of_content {c : Action × Option Bound}
    (h : e.content? b.registry name = some c) :
    ∃ s, b.step (.statement name e) = { b with log := b.log ++ [s] } ∧
      b.registry.find? name = some s.call ∧ s.content = c := by
  obtain ⟨s, hs, hcall, hc⟩ := addStatement_of_content h
  exact ⟨s, step_of_ok hs, hcall, hc⟩

theorem step_statement_of_content_eq_none (h : e.content? b.registry name = none) :
    b.step (.statement name e) = b := by
  obtain ⟨fault, hfault⟩ := addStatement_of_content_eq_none h
  exact step_of_error hfault

/-- An entry that has content is added before the rest of a list is, in the same registry. -/
theorem addEntries_cons_of_content (h : (e.content? b.registry name).isSome) (es : List Entry) :
    addEntries name (e :: es) b = addEntries name es (b.step (.statement name e)) ∧
      (b.step (.statement name e)).registry = b.registry := by
  obtain ⟨c, hc⟩ := Option.isSome_iff_exists.mp h
  obtain ⟨s, hs, -, -⟩ := addStatement_of_content hc
  have hstep : b.step (.statement name e) = { b with log := b.log ++ [s] } := step_of_ok hs
  rw [hstep]
  exact ⟨forM_cons_of_ok _ hs es, rfl⟩

theorem addEntries_of_content {es : List Entry}
    (h : ∀ e ∈ es, (e.content? b.registry name).isSome) :
    addEntries name es b = .ok () (b.after (es.map (.statement name))) := by
  -- The registry stays as it is, so that an entry with content at the start has it in its turn.
  induction es generalizing b with
  | nil => rfl
  | cons e es ih =>
    obtain ⟨he, hes⟩ := List.forall_mem_cons.mp h
    obtain ⟨hcons, hregistry⟩ := addEntries_cons_of_content he es
    rw [hcons, ih (by rwa [hregistry])]
    rfl

theorem addEntries_of_content_eq_none {before rest : List Entry}
    (hbefore : ∀ e ∈ before, (e.content? b.registry name).isSome)
    (h : e.content? b.registry name = none) :
    ∃ fault, addEntries name (before ++ e :: rest) b =
      .error fault (b.after (before.map (.statement name))) := by
  induction before generalizing b with
  | nil =>
    obtain ⟨fault, hfault⟩ := addStatement_of_content_eq_none h
    exact ⟨fault, forM_cons_of_error _ hfault rest⟩
  | cons e' before ih =>
    obtain ⟨he', hbefore⟩ := List.forall_mem_cons.mp hbefore
    obtain ⟨hcons, hregistry⟩ := addEntries_cons_of_content he' (before ++ e :: rest)
    obtain ⟨fault, hfault⟩ := ih (by rwa [hregistry]) (by rwa [hregistry])
    exact ⟨fault, by rw [List.cons_append, hcons, hfault]; rfl⟩

/-- Either all entries of a list have content, or there is a first one without. -/
theorem content_or_exists_first (registry : Registry) (name : String) (es : List Entry) :
    (∀ e ∈ es, (e.content? registry name).isSome) ∨
      ∃ before e rest, es = before ++ e :: rest ∧
        (∀ e ∈ before, (e.content? registry name).isSome) ∧ e.content? registry name = none := by
  induction es with
  | nil => exact .inl (by simp)
  | cons e es ih =>
    cases he : e.content? registry name with
    | none => exact .inr ⟨[], e, es, rfl, by simp, he⟩
    | some c =>
      have hsome : (e.content? registry name).isSome := by simp [he]
      rcases ih with hall | ⟨before, e', rest, rfl, hbefore, hnone⟩
      · exact .inl (List.forall_mem_cons.mpr ⟨hsome, hall⟩)
      · exact .inr ⟨e :: before, e', rest, rfl, List.forall_mem_cons.mpr ⟨hsome, hbefore⟩, hnone⟩

/-- Adding a list of entries comes to the same as adding those before the first without content, one
by one. -/
theorem step_entries (b : Builder) (name : String) (es : List Entry) :
    b.step (.entries name es) = b.after
      ((es.takeWhile fun e ↦ (e.content? b.registry name).isSome).map (.statement name)) := by
  rcases content_or_exists_first b.registry name es with hall | ⟨before, e, rest, rfl, hbefore, he⟩
  · rw [List.takeWhile_eq_self_iff.mpr hall]
    exact step_of_ok (addEntries_of_content hall)
  · rw [List.takeWhile_append_of_pos hbefore, List.takeWhile_cons_of_neg (by simp [he]),
      List.append_nil]
    obtain ⟨fault, hfault⟩ := addEntries_of_content_eq_none hbefore he
    exact step_of_error hfault

/-! ## The invariant -/

/-- A builder is what some commands say: the default action is that of the last command that could
set one, and there are the contents that could be added about each name, in order, in statements
about calls of the registry. -/
structure Follows (registry : Registry) (d₀ : Action) (cs : List Command) (b : Builder) : Prop where
  registry_eq : b.registry = registry
  default_eq : b.default = (cs.filterMap (·.default?)).getLastD d₀
  known : ∀ s ∈ b.log, registry.find? s.call.name = some s.call
  content_eq : ∀ name, (b.about name).map Statement.content = cs.flatMap (·.additions registry name)

namespace Follows

variable {registry : Registry} {d₀ : Action} {cs : List Command}

theorem known_here (h : Follows registry d₀ cs b) :
    ∀ s ∈ b.log, b.registry.find? s.call.name = some s.call := by
  rw [h.registry_eq]
  exact h.known

/-- A command that says nothing new leaves the builder as it was. -/
theorem skip (h : Follows registry d₀ cs b) {c : Command} (hdefault : c.default? = none)
    (hadditions : ∀ name, c.additions registry name = []) : Follows registry d₀ (cs ++ [c]) b where
  registry_eq := h.registry_eq
  default_eq := by simpa [List.filterMap_append, hdefault] using h.default_eq
  known := h.known
  content_eq := by simpa [List.flatMap_append, hadditions] using h.content_eq

theorem statement (h : Follows registry d₀ cs b) (name : String) (e : Entry) :
    Follows registry d₀ (cs ++ [.statement name e]) (b.step (.statement name e)) := by
  obtain ⟨rfl, hdefault, hknown, hcontent⟩ := h
  cases he : e.content? b.registry name with
  | none =>
    rw [step_statement_of_content_eq_none he]
    exact skip ⟨rfl, hdefault, hknown, hcontent⟩ rfl (by simp [Command.additions, he])
  | some c =>
    obtain ⟨s, hs, hcall, rfl⟩ := step_statement_of_content he
    have hname : s.call.name = name := Registry.name_of_find? hcall
    rw [hs]
    refine ⟨rfl, ?_, ?_, fun about ↦ ?_⟩
    · simpa [Command.default?] using hdefault
    · intro s' hs'
      rcases List.mem_append.mp hs' with hs' | hs'
      · exact hknown s' hs'
      · rw [List.mem_singleton.mp hs', hname]
        exact hcall
    · have hadded : ([s].filter (·.call.name == about)).map Statement.content =
          (Command.statement name e).additions b.registry about := by
        by_cases ha : name = about
        · subst ha
          simp [Command.additions, he, hname]
        · simp [Command.additions, ha, hname]
      rw [Builder.about, List.filter_append, List.map_append, hadded,
        List.flatMap_append, List.flatMap_singleton, ← hcontent about, Builder.about]

theorem statements (h : Follows registry d₀ cs b) (name : String) (es : List Entry) :
    Follows registry d₀ (cs ++ es.map (.statement name)) (b.after (es.map (.statement name))) := by
  induction es generalizing cs b with
  | nil => simpa using h
  | cons e es ih => simpa using ih (h.statement name e)

/-- What one command preserves. -/
theorem step (h : Follows registry d₀ cs b) (c : Command) :
    Follows registry d₀ (cs ++ [c]) (b.step c) := by
  cases c with
  | default action =>
    cases ha : action.toAction with
    | error fault =>
      have hstep : b.step (.default action) = b := step_of_error (perform_default_of_error ha)
      rw [hstep]
      exact h.skip (by simp [Command.default?, ha, Except.toOption]) fun _ ↦ rfl
    | ok a =>
      have hstep : b.step (.default action) = { b with default := a } :=
        step_of_ok (perform_default_of_ok ha)
      rw [hstep]
      refine ⟨h.registry_eq, ?_, h.known, fun name ↦ ?_⟩
      · simp [Command.default?, ha, Except.toOption]
      · rw [List.flatMap_append, List.flatMap_singleton, Command.additions, List.append_nil]
        exact h.content_eq name
  | statement name e => exact h.statement name e
  | entries name es =>
    -- The commands that the list comes to say the same as the list.
    obtain ⟨hregistry, hdefault, hknown, hcontent⟩ := h.statements name
      (es.takeWhile fun e ↦ (e.content? b.registry name).isSome)
    rw [step_entries]
    refine ⟨hregistry, ?_, hknown, fun about ↦ ?_⟩
    · simpa [Command.default?] using hdefault
    · rw [hcontent about, List.flatMap_append, List.flatMap_append, List.flatMap_singleton,
        h.registry_eq, Command.additions_entries]
  | build =>
    have hstep : b.step .build = b := step_build b
    rw [hstep]
    exact h.skip rfl fun _ ↦ rfl

/-- What a run preserves. -/
theorem after (h : Follows registry d₀ cs b) (cs' : List Command) :
    Follows registry d₀ (cs ++ cs') (b.after cs') := by
  -- What has been done grows by each command that is carried out.
  induction cs' generalizing cs b with
  | nil => simpa using h
  | cons c cs' ih => simpa using ih (h.step c)

end Follows

/-- Where a log is about calls of the registry, a command fails as `Command.FailsWith` says, and in
no other way. -/
theorem perform_eq_error_iff (hknown : ∀ s ∈ b.log, b.registry.find? s.call.name = some s.call)
    (c : Command) (b' : Builder) :
    (∃ fault, c.perform b = .error fault b') ↔ c.FailsWith b.registry b b' := by
  constructor
  · rintro ⟨fault, h⟩
    cases c with
    | default action =>
      cases ha : action.toAction with
      | error fault' =>
        cases (perform_default_of_error ha).symm.trans h
        exact .default (by rw [ha]; rfl)
      | ok a => cases (perform_default_of_ok ha).symm.trans h
    | statement name e =>
      cases he : e.content? b.registry name with
      | none =>
        obtain ⟨fault', hfault⟩ := addStatement_of_content_eq_none he
        cases hfault.symm.trans h
        exact .statement he
      | some c =>
        obtain ⟨s, hs, -⟩ := addStatement_of_content he
        cases hs.symm.trans h
    | entries name es =>
      rcases content_or_exists_first b.registry name es with
        hall | ⟨before, e, rest, rfl, hbefore, he⟩
      · cases (addEntries_of_content hall).symm.trans h
      · obtain ⟨fault', hfault⟩ := addEntries_of_content_eq_none hbefore he
        cases hfault.symm.trans h
        exact .entries hbefore he
    | build =>
      obtain ⟨p, hp, -⟩ := exists_build_of_log hknown
      rw [perform_build, hp] at h
      cases h
  · intro h
    cases h with
    | default ha =>
      next action =>
      cases haction : action.toAction with
      | error fault => exact ⟨fault, perform_default_of_error haction⟩
      | ok a => simp [haction, Except.toOption] at ha
    | statement he => exact addStatement_of_content_eq_none he
    | entries hbefore he => exact addEntries_of_content_eq_none hbefore he

/-- **A builder keeps a log.** From a builder with some registry and some default action, carry out
any commands, whether they succeed or not. The policy can then be built. Its default action is that
of the last command that could set one, and under each name it has the guard due for the contents
that could be added about it, in the order in which they were. A command that fails at this point
leaves the builder as it was, but for the entries of a list before the first without content, and
building leaves no trace at all in what comes after it. -/
theorem build_after {registry : Registry} {initial : Option ActionLike} {d₀ : Action}
    (h : initial.elim (.ok .default) ActionLike.toAction = .ok d₀) :
    ∃ b₀, start registry initial = .ok b₀ ∧ ∀ cs : List Command,
      (∃ p, (b₀.after cs).build = .ok p ∧ p.registry = registry ∧
        p.default = (cs.filterMap (·.default?)).getLastD d₀ ∧
        ∀ name, GuardOf registry name (cs.flatMap (·.additions registry name)) (p.guard? name)) ∧
      (∀ (c : Command) (b : Builder), (∃ fault, c.perform (b₀.after cs) = .error fault b) ↔
        c.FailsWith registry (b₀.after cs) b) ∧
      ∀ cs', b₀.after (cs ++ .build :: cs') = b₀.after (cs ++ cs') := by
  have hstart : start registry initial = .ok { registry, default := d₀ } := by
    cases initial with
    | none =>
      cases h
      rfl
    | some a =>
      have ha : a.toAction = .ok d₀ := h
      rw [start, ha]
      rfl
  refine ⟨_, hstart, fun cs ↦ ?_⟩
  have hempty : Follows registry d₀ [] { registry, default := d₀ } :=
    ⟨rfl, rfl, by simp, fun name ↦ rfl⟩
  have hafter := hempty.after cs
  rw [List.nil_append] at hafter
  refine ⟨?_, fun c b ↦ ?_, fun cs' ↦ ?_⟩
  · obtain ⟨p, hp, hpdefault, hpregistry, hguards⟩ := exists_build_of_log hafter.known_here
    refine ⟨p, hp, hpregistry.trans hafter.registry_eq, hpdefault.trans hafter.default_eq, ?_⟩
    intro name
    have hguard := hguards name
    rwa [hafter.content_eq name, hafter.registry_eq] at hguard
  · rw [perform_eq_error_iff hafter.known_here, hafter.registry_eq]
  · rw [after_append, after_append, after_cons, step_build]

/-- Of three failing commands in a row, on an unknown call, an action that cannot be read, and a
list with such an action in it, what remains is the first entry of the list. -/
theorem build_after_failures :
    ∃ b₀ p, start .default (some (.action .log)) = .ok b₀ ∧
      (b₀.after [.statement "sched_yield" ⟨.absent, .action .kill⟩,
        .statement "no_such_call" ⟨.absent, .action .kill⟩,
        .default (.value .null),
        .entries "sched_yield" [⟨.absent, .action .allow⟩, ⟨.absent, .value .null⟩,
          ⟨.absent, .action .log⟩]]).build = .ok p ∧
      p.default = .log ∧
      GuardOf .default "sched_yield" [(.kill, none), (.allow, none)] (p.guard? "sched_yield") := by
  obtain ⟨b₀, hb₀, hrun⟩ :=
    @build_after .default (some (.action .log)) .log rfl
  obtain ⟨⟨p, hp, -, hdefault, hguards⟩, -⟩ := hrun _
  exact ⟨b₀, p, hb₀, hp, hdefault, hguards "sched_yield"⟩

end Builder

end CallGate.Policy
