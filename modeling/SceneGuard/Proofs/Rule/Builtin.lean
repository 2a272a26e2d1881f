import SceneGuard.Proofs.Pass.Steps
import SceneGuard.Proofs.Results
import SceneGuard.Rule.Catalog

/-!
# What the rules of the library do

Apart from the verdict, the rules of the library can do little: `grid_snap` sends moved and added
entities elsewhere (`Command.Resited`), and `cascade_remove` stages and issues removals when it is
shown one. So a command that removes nothing comes out of its rules as it went in, up to a position,
with nothing staged and nothing issued, and approved only if no rule vetoed it (`judge_quiet`).
Whatever the command, a veto stands, nothing is remembered, and fresh numbers are taken for issued
commands only (`Checklist.run_modest`).
-/

namespace SceneGuard

variable {α μ : Type}

/-! ## Commands sent elsewhere -/

/-- The second command is the first, except for where a moved or added entity is sent. -/
inductive Command.Resited : Command α → Command α → Prop where
  | same (c : Command α) : Resited c c
  | move (h : Header) (id : EntityId) (before after after' : Vec3 α) :
      Resited (.single h (.move id before after)) (.single h (.move id before after'))
  | add (h : Header) (role : Role) (e : Entity α) (position : Vec3 α) :
      Resited (.single h (.add role e)) (.single h (.add role { e with position := position }))

namespace Command.Resited

variable {c d e : Command α}

/-- Sent elsewhere twice is sent elsewhere. -/
theorem trans (h : Resited c d) (h' : Resited d e) : Resited c e := by
  cases h with
  | same => exact h'
  | move h id before after after' =>
    cases h' with
    | same => exact .move ..
    | move => exact .move ..
  | add h role e position =>
    cases h' with
    | same => exact .add ..
    | add _ _ _ position' => exact .add h role e position'

/-- The flags and the number of a command stay. -/
theorem header (h : Resited c d) : d.header = c.header := by
  cases h <;> rfl

theorem kind (h : Resited c d) : d.kind = c.kind := by
  cases h <;> rfl

theorem entityId (h : Resited c d) : d.entityId = c.entityId := by
  cases h <;> rfl

end Command.Resited

/-!
## Answers

Each rule of the catalog is gone through once, and found to be quiet or to be the cascade. What is
said of checklists and of validators rests on that.
-/

/-- An answer that does nothing but judge, and perhaps send the entity elsewhere. -/
structure RuleAnswer.Quiet (c : Command α) (v : Verdict α) (a : RuleAnswer α μ) : Prop where
  resited : c.Resited a.command
  staged : a.staged = []
  issued : a.issued = []
  /-- A veto stands. -/
  vetoes : ∀ v', a.verdict = .ok v' → v'.approved = true → v.approved = true

namespace Rule

variable {ctx : RuleContext α} {ids : IdSource} {memory : μ} {c : Command α} {v : Verdict α}

/-- A rule that only judges is quiet if it approves nothing that was rejected before. -/
theorem quiet_judging {name : String}
    {judge : RuleContext α → Command α → Verdict α → Except (Fault α) (Verdict α)}
    (h : ∀ v', judge ctx c v = .ok v' → v'.approved = true → v.approved = true) :
    ((judging name judge : Rule α μ).process ctx ids memory c v).Quiet c v :=
  ⟨.same c, rfl, rfl, h⟩

theorem approved_reject {action : FailureAction} {note : Note α} :
    ¬(v.reject action note).approved = true := by
  simp [Verdict.reject]

/-- A command that is superseded is rejected, any other is left alone. -/
theorem quiet_dieCheck : ((dieCheck : Rule α μ).process ctx ids memory c v).Quiet c v := by
  refine quiet_judging fun v' hv' happroved => ?_
  simp only [Except.ok.injEq] at hv'
  subst hv'
  split at happroved
  · exact absurd happroved approved_reject
  · exact happroved

variable [Scalar α]

/-- The collision rule takes approvals away and gives none. -/
theorem quiet_collision (action : FailureAction) (rejectTransient : Bool) :
    ((collision action rejectTransient : Rule α μ).process ctx ids memory c v).Quiet c v := by
  refine quiet_judging fun v' hv' happroved => ?_
  obtain ⟨found, _, hv'⟩ := bind_eq_ok.1 hv'
  cases found with
  | none => exact pure_eq_ok.1 hv' ▸ happroved
  | some hits =>
    simp only at hv'
    -- a transient overlap is only reported, any other rejects
    split at hv'
    · have hv' := pure_eq_ok.1 hv'
      subst hv'
      exact happroved
    · have hv' := pure_eq_ok.1 hv'
      subst hv'
      exact absurd happroved approved_reject

/-- The rule approves when the query has an answer,
and finds nothing unless the command is of a drag. -/
theorem collide_of_collision {action : FailureAction} {rejectTransient : Bool} {v' : Verdict α}
    (h : ((collision action rejectTransient : Rule α μ).process ctx ids memory c v).verdict =
      .ok v')
    (happroved : v'.approved = true) :
    ∃ found, ctx.working.collide ctx.scene c ctx.config.collision.options true = .ok found ∧
      (c.header.transient = false → found = none) := by
  obtain ⟨found, hfound, h⟩ := bind_eq_ok.1 h
  refine ⟨found, hfound, fun htransient => ?_⟩
  cases found with
  | none => rfl
  | some hits =>
    simp only [htransient, Bool.false_and, Bool.false_eq_true, if_false] at h
    rw [← pure_eq_ok.1 h] at happroved
    exact absurd happroved approved_reject

/-- The proximity rule remarks, and decides nothing. -/
theorem quiet_proximityWarning (margin : α) :
    ((proximityWarning margin : Rule α μ).process ctx ids memory c v).Quiet c v := by
  refine quiet_judging fun v' hv' happroved => ?_
  obtain ⟨found, _, hv'⟩ := bind_eq_ok.1 hv'
  cases found with
  | none => exact pure_eq_ok.1 hv' ▸ happroved
  | some hits =>
    have hv' := pure_eq_ok.1 hv'
    subst hv'
    exact happroved

/-- The zone rule rejects what would leave the zone, and decides nothing else. -/
theorem quiet_zoneBounds : ((zoneBounds : Rule α μ).process ctx ids memory c v).Quiet c v := by
  refine quiet_judging fun v' hv' happroved => ?_
  -- every early exit hands the verdict on; the one other end is a rejection
  have hpass : (pure v : Except (Fault α) (Verdict α)) = .ok v' → v.approved = true := fun h =>
    pure_eq_ok.1 h ▸ happroved
  split at hv'
  · exact hpass hv'
  · split at hv'
    · exact hpass hv'
    · obtain ⟨zoneBox, _, hv'⟩ := bind_eq_ok.1 hv'
      split at hv'
      · exact hpass hv'
      · obtain ⟨box, _, hv'⟩ := bind_eq_ok.1 hv'
        split at hv'
        · exact hpass hv'
        · split at hv'
          · exact hpass hv'
          · have hv' := pure_eq_ok.1 hv'
            subst hv'
            exact absurd happroved approved_reject

theorem quiet_scaleRange (min max : α) :
    ((scaleRange min max : Rule α μ).process ctx ids memory c v).Quiet c v := by
  refine quiet_judging fun v' hv' happroved => ?_
  split at hv'
  · split at hv'
    · cases hv'
      exact happroved
    · cases hv'
      exact absurd happroved approved_reject
  · cases hv'
    exact happroved

/-- Snapping changes a position and nothing else. -/
theorem resited_snapEdit {step : α} {h : Header} {e e' : Edit α} (he : snapEdit step e = .ok e') :
    Command.Resited (.single h e) (.single h e') := by
  cases e with
  | move id before after =>
    obtain ⟨p, _, he⟩ := bind_eq_ok.1 he
    cases he
    exact .move ..
  | add role e =>
    obtain ⟨p, _, he⟩ := bind_eq_ok.1 he
    cases he
    exact .add ..
  | _ => cases he; exact .same _

/-- The grid rule sends a command elsewhere, and decides nothing. -/
theorem quiet_gridSnap (step : α) :
    ((gridSnap step : Rule α μ).process ctx ids memory c v).Quiet c v := by
  have hpass : ∀ v', (Except.ok v : Except (Fault α) (Verdict α)) = .ok v' → v'.approved = true →
      v.approved = true := fun v' hv' h => by cases hv'; exact h
  cases c with
  | composite => exact ⟨.same _, rfl, rfl, hpass⟩
  | single h e =>
    unfold gridSnap
    simp only
    split
    · exact ⟨.same _, rfl, rfl, hpass⟩
    · cases he : snapEdit step e with
      | error f => exact ⟨.same _, rfl, rfl, fun v' hv' => by simp at hv'⟩
      | ok e' => exact ⟨resited_snapEdit he, rfl, rfl, hpass⟩

/-- Shown anything but a removal, the rule has nothing to do. -/
theorem quiet_cascadeRemove (hc : c.kind.isRemove = false) :
    ((cascadeRemove : Rule α μ).process ctx ids memory c v).Quiet c v := by
  unfold cascadeRemove
  simp only [hc, Bool.false_eq_true, if_false]
  exact ⟨.same c, rfl, rfl, fun v' hv' h => by cases hv'; exact h⟩

variable [NumberText α]

theorem quiet_propertyRange (ranges : List (PropertyRange α)) :
    ((propertyRange ranges : Rule α μ).process ctx ids memory c v).Quiet c v := by
  refine quiet_judging fun v' hv' happroved => ?_
  repeat' split at hv'
  all_goals cases hv'
  all_goals first | exact happroved | exact absurd happroved approved_reject

/-- A rule of this library, with some parameters. -/
def Builtin (r : Rule α μ) : Prop :=
  ∃ params name, (Catalog.builtin : Catalog α μ).rule params name = .ok r

/-- The catalog has eight rules, with parameters for six of them. -/
theorem Builtin.cases {r : Rule α μ} (h : r.Builtin) :
    r = dieCheck ∨ (∃ action rejectTransient, r = collision action rejectTransient) ∨
      (∃ margin, r = proximityWarning margin) ∨ (∃ min max, r = scaleRange min max) ∨
      r = zoneBounds ∨ (∃ step, r = gridSnap step) ∨ (∃ ranges, r = propertyRange ranges) ∨
      r = cascadeRemove := by
  obtain ⟨params, name, h⟩ := h
  simp only [Catalog.rule, Catalog.builtin, Catalog.register, List.zip_cons_cons, List.zip_nil_left,
    List.foldl_cons, List.foldl_nil, Table.get?_insert, Table.get?_empty] at h
  -- the name decides which maker is found, and the maker which rule it is
  split at h
  · next make hmake =>
    cases h
    repeat' split at hmake
    all_goals cases hmake
    · exact .inr (.inr (.inr (.inr (.inr (.inr (.inr rfl))))))
    · exact .inr (.inr (.inr (.inr (.inr (.inr (.inl ⟨_, rfl⟩))))))
    · exact .inr (.inr (.inr (.inr (.inr (.inl ⟨_, rfl⟩)))))
    · exact .inr (.inr (.inr (.inr (.inl rfl))))
    · exact .inr (.inr (.inr (.inl ⟨_, _, rfl⟩)))
    · exact .inr (.inr (.inl ⟨_, rfl⟩))
    · exact .inr (.inl ⟨_, _, rfl⟩)
    · exact .inl rfl
  · cases h

/-- All rules of the library but the one for removals do no more than
judge a command and resite it. -/
theorem Builtin.quiet_or_cascadeRemove {r : Rule α μ} (h : r.Builtin) :
    (∀ (ctx : RuleContext α) ids memory c v, (r.process ctx ids memory c v).Quiet c v) ∨
      r = cascadeRemove := by
  rcases h.cases with rfl | ⟨action, rejectTransient, rfl⟩ | ⟨margin, rfl⟩ | ⟨min, max, rfl⟩ | rfl |
    ⟨step, rfl⟩ | ⟨ranges, rfl⟩ | rfl
  · exact .inl fun _ _ _ _ _ => quiet_dieCheck
  · exact .inl fun _ _ _ _ _ => quiet_collision action rejectTransient
  · exact .inl fun _ _ _ _ _ => quiet_proximityWarning margin
  · exact .inl fun _ _ _ _ _ => quiet_scaleRange min max
  · exact .inl fun _ _ _ _ _ => quiet_zoneBounds
  · exact .inl fun _ _ _ _ _ => quiet_gridSnap step
  · exact .inl fun _ _ _ _ _ => quiet_propertyRange ranges
  · exact .inr rfl

/-- No rule of the library does more with a command that removes nothing
than judge it and resite it. -/
theorem Builtin.quiet {r : Rule α μ} (h : r.Builtin) (hc : c.kind.isRemove = false) :
    (r.process ctx ids memory c v).Quiet c v := by
  rcases h.quiet_or_cascadeRemove with hquiet | rfl
  · exact hquiet ctx ids memory c v
  · exact quiet_cascadeRemove hc

end Rule

/-!
## What holds of removals too

The cascade is not quiet. Less holds of it and of all the others, which is enough where only memory,
vetoes and numbers count.
-/

/-- An answer that remembers nothing, lets vetoes stand,
and takes fresh numbers for what it issues only. -/
structure RuleAnswer.Modest (ids : IdSource) (memory : μ) (v : Verdict α) (a : RuleAnswer α μ) :
    Prop where
  memory : a.memory = memory
  /-- A veto stands. -/
  vetoes : ∀ v', a.verdict = .ok v' → v'.approved = true → v.approved = true
  /-- What is issued has a fresh number and no flags. -/
  issued : ∀ d ∈ a.issued, ∃ id e, d = .single { id := id } e
  ids : ∀ v', a.verdict = .ok v' → a.issued = [] → a.ids = ids

namespace Rule

variable {ctx : RuleContext α} {ids : IdSource} {memory : μ} {c : Command α} {v : Verdict α}

/-- A quiet rule that only judges asks for no numbers. -/
theorem modest_judging {name : String}
    {judge : RuleContext α → Command α → Verdict α → Except (Fault α) (Verdict α)}
    (h : ((judging name judge : Rule α μ).process ctx ids memory c v).Quiet c v) :
    ((judging name judge : Rule α μ).process ctx ids memory c v).Modest ids memory v :=
  ⟨rfl, h.vetoes, by simp [judging], fun _ _ _ => rfl⟩

/-- The grid rule sends a command elsewhere under the number it has. -/
theorem modest_gridSnap [Scalar α] (step : α) :
    ((gridSnap step : Rule α μ).process ctx ids memory c v).Modest ids memory v := by
  have hquiet : ((gridSnap step : Rule α μ).process ctx ids memory c v).Quiet c v :=
    quiet_gridSnap step
  have hsame : ((gridSnap step : Rule α μ).process ctx ids memory c v).memory = memory ∧
      ((gridSnap step : Rule α μ).process ctx ids memory c v).ids = ids := by
    unfold gridSnap
    cases c with
    | composite => exact ⟨rfl, rfl⟩
    | single h e =>
      simp only
      split
      · exact ⟨rfl, rfl⟩
      · cases snapEdit step e <;> exact ⟨rfl, rfl⟩
  exact ⟨hsame.1, hquiet.vetoes, by simp [hquiet.issued], fun _ _ _ => hsame.2⟩

/--
Removals for a list are made exactly where the first entity is live and they are made for the rest:
the first one takes a number, and the others are made with the numbers that are left.
-/
theorem removals_cons_eq_ok {scene : Scene α} {id : EntityId} {rest : List EntityId}
    {issued : List (Command α)} {ids ids' : IdSource} :
    removals scene ids (id :: rest) = (.ok issued, ids') ↔
      ∃ e more, requireLive scene id = .ok e ∧
        removals scene ids.fresh.2 rest = (.ok more, ids') ∧
        issued = .single { id := ids.fresh.1 } (.remove (removalRole e.kind) id) :: more := by
  rw [removals]
  cases requireLive scene id with
  | error f => simp
  | ok e =>
    simp only [Command.ofEdit]
    rcases removals scene ids.fresh.2 rest with ⟨more | more, ids''⟩
    · simp [Except.map]
    · simp [Except.map, and_comm, eq_comm]

/-- The removals that go with a removal have fresh numbers and no flags. -/
theorem issued_removals {scene : Scene α} {children : List EntityId} {issued : List (Command α)}
    {ids ids' : IdSource} (h : removals scene ids children = (.ok issued, ids')) :
    (∀ d ∈ issued, ∃ id e, d = .single { id := id } e) ∧ (issued = [] → ids' = ids) := by
  induction children generalizing ids issued with
  | nil =>
    cases h
    exact ⟨by simp, fun _ => rfl⟩
  | cons id rest ih =>
    obtain ⟨e, more, -, hrest, rfl⟩ := removals_cons_eq_ok.1 h
    refine ⟨fun d hd => ?_, by simp⟩
    rcases List.mem_cons.1 hd with rfl | hd
    · exact ⟨_, _, rfl⟩
    · exact (ih hrest).1 d hd

variable [Scalar α]

/-- The cascade takes a number for each removal it issues, and none for what it stages. -/
theorem modest_cascadeRemove :
    ((cascadeRemove : Rule α μ).process ctx ids memory c v).Modest ids memory v := by
  have hpass : ∀ v', (Except.ok v : Except (Fault α) (Verdict α)) = .ok v' → v'.approved = true →
      v.approved = true := fun v' hv' h => by cases hv'; exact h
  unfold cascadeRemove
  simp only
  split
  · exact ⟨rfl, hpass, by simp, fun _ _ _ => rfl⟩
  · next e _ =>
    -- the removals come first, then the subtree; only a fault of either changes the verdict
    rcases hremovals : removals ctx.scene ids e.children with ⟨issued, ids'⟩
    cases issued with
    | error f => exact ⟨rfl, by simp, by simp, by simp⟩
    | ok issued =>
      obtain ⟨hissued, hids⟩ := issued_removals hremovals
      simp only
      split
      · exact ⟨rfl, by simp, by simp, by simp⟩
      · exact ⟨rfl, hpass, hissued, fun _ _ hnil => hids hnil⟩

variable [NumberText α]

/-- No rule of the library remembers anything, approves what was rejected or wastes a number. -/
theorem Builtin.modest {r : Rule α μ} (h : r.Builtin) :
    (r.process ctx ids memory c v).Modest ids memory v := by
  rcases h.cases with rfl | ⟨action, rejectTransient, rfl⟩ | ⟨margin, rfl⟩ | ⟨min, max, rfl⟩ | rfl |
    ⟨step, rfl⟩ | ⟨ranges, rfl⟩ | rfl
  · exact modest_judging quiet_dieCheck
  · exact modest_judging (quiet_collision action rejectTransient)
  · exact modest_judging (quiet_proximityWarning margin)
  · exact modest_judging (quiet_scaleRange min max)
  · exact modest_judging quiet_zoneBounds
  · exact modest_gridSnap step
  · exact modest_judging (quiet_propertyRange ranges)
  · exact modest_cascadeRemove

end Rule

/-! ## Checklists and validators -/

namespace Checklist

variable {scene : Scene α} {config : Config α} {r : Rule α μ} {rules rules' : List (Rule α μ)}
  {t t' : Trial α μ} {v v' : Verdict α}

/-- A checklist comes to a verdict when its first rule does and the others do behind it. -/
theorem run_cons_eq_ok : run scene config (r :: rules) t v = (t', .ok v') ↔
    ∃ v₁, (r.process ⟨scene, t.changes.working, config⟩ t.ids t.memory t.command v).verdict =
      .ok v₁ ∧
      run scene config rules
        (t.absorb (r.process ⟨scene, t.changes.working, config⟩ t.ids t.memory t.command v))
        { v₁ with severity := v₁.severity.raise v.severity } = (t', .ok v') := by
  rw [run]
  generalize r.process ⟨scene, t.changes.working, config⟩ t.ids t.memory t.command v = a
  cases a.verdict <;> simp

/-- A checklist may be cut in two: the second part goes on where the first part ended. -/
theorem run_append_eq_ok : run scene config (rules ++ rules') t v = (t', .ok v') ↔
    ∃ t₁ v₁, run scene config rules t v = (t₁, .ok v₁) ∧
      run scene config rules' t₁ v₁ = (t', .ok v') := by
  induction rules generalizing t v with
  | nil => simp [run]
  | cons r rules ih =>
    rw [List.cons_append, run_cons_eq_ok]
    simp only [run_cons_eq_ok, ih]
    constructor
    · rintro ⟨v₁, hv₁, t₂, v₂, h₁, h₂⟩
      exact ⟨t₂, v₂, ⟨v₁, hv₁, h₁⟩, h₂⟩
    · rintro ⟨t₂, v₂, ⟨v₁, hv₁, h₁⟩, h₂⟩
      exact ⟨v₁, hv₁, t₂, v₂, h₁, h₂⟩

/-- A rule that only judges leaves the trial as it was. -/
theorem absorb_judging {name : String}
    {judge : RuleContext α → Command α → Verdict α → Except (Fault α) (Verdict α)}
    {ctx : RuleContext α} :
    t.absorb ((Rule.judging name judge).process ctx t.ids t.memory t.command v) = t := by
  simp [Rule.judging, Trial.absorb, Transaction.stageAll]

theorem run_idle (h : r.process ⟨scene, t.changes.working, config⟩ t.ids t.memory t.command v =
    { command := t.command, verdict := .ok v, ids := t.ids, memory := t.memory }) :
    run scene config (r :: rules) t v = run scene config rules t v := by
  have hraise : v.severity.raise v.severity = v.severity := by cases v.severity <;> rfl
  have habsorb :
      t.absorb
        { command := t.command, verdict := .ok v, ids := t.ids, memory := t.memory } = t := by
    simp [Trial.absorb, Transaction.stageAll]
  rw [run, h]
  simp only [hraise]
  rw [habsorb]

theorem run_judging (hrules : ∀ r ∈ rules, ∃ name judge, r = Rule.judging name judge)
    (h : run scene config rules t v = (t', .ok v')) : t' = t := by
  induction rules generalizing v with
  | nil =>
    cases h
    rfl
  | cons r rules ih =>
    obtain ⟨name, judge, rfl⟩ := hrules r List.mem_cons_self
    obtain ⟨v₁, _, h⟩ := run_cons_eq_ok.1 h
    rw [absorb_judging] at h
    exact ih (fun r hr => hrules r (List.mem_cons_of_mem _ hr)) h

end Checklist

variable [Scalar α] [NumberText α]

/-- What a run of rules of the library leaves of a trial on a command that removes nothing. -/
theorem Checklist.run_quiet {scene : Scene α} {config : Config α} {rules : List (Rule α μ)}
    (hrules : ∀ r ∈ rules, r.Builtin) {t t' : Trial α μ} {v : Verdict α}
    {verdict : Except (Fault α) (Verdict α)} (hc : t.command.kind.isRemove = false)
    (h : run scene config rules t v = (t', verdict)) :
    t.command.Resited t'.command ∧ t'.changes = t.changes ∧ t'.issued = t.issued ∧
      ∀ v', verdict = .ok v' → v'.approved = true → v.approved = true := by
  induction rules generalizing t v with
  | nil =>
    cases h
    exact ⟨.same _, rfl, rfl, fun v' hv' happroved => by cases hv'; exact happroved⟩
  | cons r rules ih =>
    -- the first rule is quiet, and the others run on what it leaves
    have hquiet : (r.process ⟨scene, t.changes.working, config⟩ t.ids t.memory t.command v).Quiet
        t.command v := (hrules r List.mem_cons_self).quiet hc
    have hchanges : ∀ a : RuleAnswer α μ, a.Quiet t.command v →
        (t.absorb a).changes = t.changes ∧ (t.absorb a).issued = t.issued := fun a ha => by
      simp [Trial.absorb, ha.staged, ha.issued, Transaction.stageAll]
    unfold run at h
    generalize r.process ⟨scene, t.changes.working, config⟩ t.ids t.memory t.command
      v = a at h hquiet
    obtain ⟨hch, his⟩ := hchanges a hquiet
    simp only at h
    split at h
    · cases h
      exact ⟨hquiet.resited, hch, his, fun v' hv' => by cases hv'⟩
    · next v1 hv1 =>
      have hkind : (t.absorb a).command.kind.isRemove = false := by
        rw [← hc]
        exact congrArg CommandKind.isRemove hquiet.resited.kind
      obtain ⟨hres, hch', his', hveto⟩ :=
        ih (fun r hr => hrules r (List.mem_cons_of_mem _ hr)) hkind h
      refine ⟨hquiet.resited.trans hres, hch'.trans hch, his'.trans his, fun v' hv' happroved => ?_⟩
      exact hquiet.vetoes v1 hv1 (hveto v' hv' happroved)

/-- What a run of rules of the library leaves of a trial, whatever the command. -/
theorem Checklist.run_modest {scene : Scene α} {config : Config α}
    {rules : List (Rule α μ)} (hrules : ∀ r ∈ rules, r.Builtin) {t t' : Trial α μ} {v : Verdict α}
    {verdict : Except (Fault α) (Verdict α)} (h : run scene config rules t v = (t', verdict)) :
    t'.memory = t.memory ∧ (∀ d ∈ t'.issued, d ∈ t.issued ∨ ∃ id e, d = .single { id := id } e) ∧
      ∀ v', verdict = .ok v' → (v'.approved = true → v.approved = true) ∧
        (t'.issued = [] → t.issued = [] ∧ t'.ids = t.ids) := by
  induction rules generalizing t v with
  | nil =>
    cases h
    exact ⟨rfl, fun _ hd => .inl hd, fun v' hv' => by cases hv'; exact ⟨id, fun h => ⟨h, rfl⟩⟩⟩
  | cons r rules ih =>
    have hmodest : (r.process ⟨scene, t.changes.working, config⟩ t.ids t.memory t.command v).Modest
        t.ids t.memory v := (hrules r List.mem_cons_self).modest
    unfold run at h
    -- of the answer only its modesty counts from here
    generalize r.process ⟨scene, t.changes.working, config⟩ t.ids t.memory t.command v =
      a at h hmodest
    have hfirst : ∀ d ∈ (t.absorb a).issued, d ∈ t.issued ∨ ∃ id e, d = .single { id := id } e :=
      fun d hd => (List.mem_append.1 hd).imp_right (hmodest.issued d)
    simp only at h
    split at h
    · cases h
      exact ⟨hmodest.memory, hfirst, fun v' hv' => by cases hv'⟩
    · next v₁ hv₁ =>
      obtain ⟨hmemory, hissued, hverdict⟩ := ih (fun r hr => hrules r (List.mem_cons_of_mem _ hr)) h
      refine ⟨hmemory.trans hmodest.memory,
          fun d hd => (hissued d hd).elim (hfirst d) .inr, fun v' hv' =>
        ⟨fun happroved => ?vetoes, fun hnil => ?numbers⟩⟩
      case vetoes => exact hmodest.vetoes v₁ hv₁ ((hverdict v' hv').1 happroved)
      case numbers =>
        obtain ⟨habsorb, hids⟩ := (hverdict v' hv').2 hnil
        obtain ⟨ht, ha⟩ := List.append_eq_nil_iff.1 habsorb
        exact ⟨ht, hids.trans (hmodest.ids v₁ hv₁ ha)⟩

/--
Where the collision rule stands among rules of the library, before ones that only judge, an approval
says what it said, for the command as it came out.
-/
theorem Checklist.collide_of_run {scene : Scene α} {config : Config α}
    {front back : List (Rule α μ)} {action : FailureAction} {rejectTransient : Bool}
    {t t' : Trial α μ} {v v' : Verdict α} (hfront : ∀ r ∈ front, r.Builtin)
    (hbuiltin : ∀ r ∈ back, r.Builtin)
    (hback : ∀ r ∈ back, ∃ name judge, r = Rule.judging name judge)
    (hc : t.command.kind.isRemove = false)
    (h : run scene config (front ++ .collision action rejectTransient :: back) t v = (t', .ok v'))
    (happroved : v'.approved = true) :
    ∃ found, t.changes.working.collide scene t'.command config.collision.options true = .ok found ∧
      (t'.command.header.transient = false → found = none) := by
  obtain ⟨t₁, v₁, hrun, h⟩ := run_append_eq_ok.1 h
  obtain ⟨hresited, hchanges, _, _⟩ := run_quiet hfront hc hrun
  have hc₁ : t₁.command.kind.isRemove = false := hresited.kind ▸ hc
  obtain ⟨v₂, hv₂, h⟩ := run_cons_eq_ok.1 h
  have habsorb : t₁.absorb ((Rule.collision action rejectTransient).process
      ⟨scene, t₁.changes.working, config⟩ t₁.ids t₁.memory t₁.command v₁) = t₁ := absorb_judging
  rw [habsorb] at h
  obtain ⟨_, _, _, hveto⟩ := run_quiet hbuiltin hc₁ h
  rw [run_judging hback h, ← hchanges]
  exact Rule.collide_of_collision hv₂ (hveto v' rfl happroved)

namespace Validator

/-- All rules are rules of this library, however they are bound. -/
def Builtin (v : Validator α μ) : Prop :=
  ∀ b ∈ v.routing.bindings, ∀ r ∈ b.checklist.rules, r.Builtin

omit [Scalar α] [NumberText α] in
/-- A rule that is put in among others is there with those, in place of one or behind all. -/
theorem mem_replace {r x : Rule α μ} {rules : List (Rule α μ)} (h : x ∈ Checklist.replace r rules) :
    x = r ∨ x ∈ rules := by
  induction rules with
  | nil => exact .inl (by simpa [Checklist.replace] using h)
  | cons q rest ih =>
    unfold Checklist.replace at h
    split at h
    · rcases List.mem_cons.1 h with rfl | h
      · exact .inl rfl
      · exact .inr (List.mem_cons_of_mem _ h)
    · rcases List.mem_cons.1 h with rfl | h
      · exact .inr List.mem_cons_self
      · exact (ih h).imp_right (List.mem_cons_of_mem _)

omit [Scalar α] [NumberText α] in
/-- A checklist has the rules that were added to it, and no others. -/
theorem mem_foldl_add {x : Rule α μ} {rules : List (Rule α μ)} {l : Checklist α μ}
    (h : x ∈ (rules.foldl Checklist.add l).rules) : x ∈ rules ∨ x ∈ l.rules := by
  induction rules generalizing l with
  | nil => exact .inr h
  | cons r rules ih =>
    rcases ih h with hx | hx
    · exact .inl (List.mem_cons_of_mem _ hx)
    · rcases mem_replace hx with rfl | hx
      · exact .inl List.mem_cons_self
      · exact .inr hx

/-- In a validator set up from a configuration, every rule is made with its parameters. -/
theorem rule_of_routing {v : Validator α μ}
    (h : (Catalog.builtin : Catalog α μ).routing v.config = .ok v.routing) {b : Binding α μ}
    (hb : b ∈ v.routing.bindings) {r : Rule α μ} (hr : r ∈ b.checklist.rules) :
    ∃ name, (Catalog.builtin : Catalog α μ).rule v.config.rules name = .ok r := by
  obtain ⟨bindings, hbindings, hrouting⟩ := bind_eq_ok.1 h
  rw [← pure_eq_ok.1 hrouting] at hb
  -- the binding comes from an entry of the configuration, and the rule from a name in that entry
  obtain ⟨entry, _, hentry⟩ := exists_of_mem_mapM hbindings hb
  obtain ⟨kinds, _, hentry⟩ := bind_eq_ok.1 hentry
  dsimp only at hentry
  split at hentry
  · cases hentry
  obtain ⟨checklist, hchecklist, hentry⟩ := bind_eq_ok.1 hentry
  obtain ⟨rules, hrules, hchecklist⟩ := bind_eq_ok.1 hchecklist
  rw [← pure_eq_ok.1 hentry, ← pure_eq_ok.1 hchecklist] at hr
  obtain ⟨name, _, hname⟩ := exists_of_mem_mapM hrules ((mem_foldl_add hr).resolve_right (by simp))
  exact ⟨name, hname⟩

/-- A validator set up from a configuration has rules of this library only. -/
theorem builtin_of_routing {v : Validator α μ}
    (h : (Catalog.builtin : Catalog α μ).routing v.config = .ok v.routing) : v.Builtin := by
  intro b hb r hr
  obtain ⟨name, hname⟩ := rule_of_routing h hb hr
  exact ⟨v.config.rules, name, hname⟩

omit [Scalar α] [NumberText α] in
/-- The checklist of a command belongs to one of the bindings. -/
theorem mem_rules_of_checklistFor? {v : Validator α μ} {c : Command α} {l : Checklist α μ}
    (hl : v.checklistFor? c = some l) {r : Rule α μ} (hr : r ∈ l.rules) :
    ∃ b ∈ v.routing.bindings, r ∈ b.checklist.rules := by
  unfold checklistFor? Routing.checklistFor? at hl
  split at hl
  · cases hl
  · obtain ⟨b, hb, rfl⟩ := Option.map_eq_some_iff.1 hl
    exact ⟨b, List.mem_of_find?_eq_some hb, hr⟩

/-- So in a validator of this library it has rules of this library. -/
theorem Builtin.of_checklistFor? {v : Validator α μ} (hv : v.Builtin) {c : Command α}
    {l : Checklist α μ} (hl : v.checklistFor? c = some l) :
    ∀ r ∈ l.rules, r.Builtin := fun r hr => by
  obtain ⟨b, hb, hr⟩ := mem_rules_of_checklistFor? hl hr
  exact hv b hb r hr

/--
Under rules of the library, a command that removes nothing comes out of its turn as it went in, up
to a position, with nothing staged and nothing issued.
-/
theorem judge_quiet {v : Validator α μ} (hv : v.Builtin) (scene : Scene α) {t : Trial α μ}
    (hc : t.command.kind.isRemove = false) :
    t.command.Resited (v.judge scene t).1.command ∧ (v.judge scene t).1.changes = t.changes ∧
      (v.judge scene t).1.issued = t.issued := by
  unfold judge
  split
  · next l hl =>
    obtain ⟨hres, hch, his, _⟩ := Checklist.run_quiet (hv.of_checklistFor? hl) hc (Prod.ext rfl rfl)
    exact ⟨hres, hch, his⟩
  · exact ⟨.same _, rfl, rfl⟩

/-- Under rules of the library, what is issued is fresh, and only that takes fresh numbers. -/
theorem judge_modest {v : Validator α μ} (hv : v.Builtin) (scene : Scene α) (t : Trial α μ) :
    (v.judge scene t).1.memory = t.memory ∧
      (∀ d ∈ (v.judge scene t).1.issued, d ∈ t.issued ∨ ∃ id e, d = .single { id := id } e) ∧
      ∀ r, (v.judge scene t).2 = .ok r → (v.judge scene t).1.issued = [] →
        (v.judge scene t).1.ids = t.ids := by
  unfold judge
  split
  · next l hl =>
    obtain ⟨hmemory, hissued, hids⟩ :=
      Checklist.run_modest (hv.of_checklistFor? hl) (Prod.ext rfl rfl)
    exact ⟨hmemory, hissued, fun r hr hnil => ((hids r hr).2 hnil).2⟩
  · exact ⟨rfl, fun _ hd => .inl hd, fun _ _ _ => rfl⟩

end Validator

end SceneGuard
