import SceneGuard.Number.Decimal
import SceneGuard.Proofs.Pass.Record
import SceneGuard.Proofs.Rule.Builtin
import SceneGuard.Proofs.Scene.Commands

/-!
# Edits executed word for word

Without a grid, no rule of the library changes a command (`Rule.command_of_withSteps`). So as long
as a pass over an edit that removes nothing has no rejection, what is approved and what still waits
are together the single commands of the edit (`verbatim_step?`), and in the end the outcome is the
edit in other brackets. Main statement:

* `apply_outcome` — an approved outcome does to a scene what the edit does.

A step that is not a number switches snapping on where it should be off, as any step that is not
positive: approved moves then go nowhere (`not_apply_outcome`).
-/

namespace SceneGuard

variable {α μ : Type}

/-! ## Rules that change nothing -/

namespace Rule

variable [Scalar α] [NumberText α] {steps : α → Prop} {r : Rule α μ}

/-- A rule of this library; the one that snaps, if it is that, has a step of the kind. -/
def WithSteps (steps : α → Prop) (r : Rule α μ) : Prop :=
  ∃ params name, (Catalog.builtin : Catalog α μ).rule params name = .ok r ∧
    (name = "grid_snap" → steps params.gridStep)

/-- Rules that snap to certain steps are rules of the library. -/
theorem WithSteps.builtin (h : r.WithSteps steps) : r.Builtin :=
  let ⟨params, name, hr, _⟩ := h
  ⟨params, name, hr⟩

/-- They judge, snap to one of the steps, or cascade. -/
theorem WithSteps.cases (h : r.WithSteps steps) :
    (∃ name judge, r = judging name judge) ∨ (∃ step, steps step ∧ r = gridSnap step) ∨
      r = cascadeRemove := by
  obtain ⟨params, name, hr, hstep⟩ := h
  by_cases hname : name = "grid_snap"
  · subst hname
    cases hr
    exact .inr (.inl ⟨_, hstep rfl, rfl⟩)
  · simp only [Catalog.rule, Catalog.builtin, Catalog.register, List.zip_cons_cons,
      List.zip_nil_left, List.foldl_cons, List.foldl_nil, Table.get?_insert, Table.get?_empty,
      hname, if_false] at hr
    split at hr
    · next make hmake =>
      cases hr
      repeat' split at hmake
      all_goals cases hmake
      all_goals first | exact .inl ⟨_, _, rfl⟩ | exact .inr (.inr rfl)
    · cases hr

/-- Without a grid, every rule of the library leaves the command as it is. -/
theorem command_of_withSteps (h : r.WithSteps (· ≤ 0)) (ctx : RuleContext α)
    (ids : IdSource) (memory : μ) (c : Command α) (v : Verdict α) :
    (r.process ctx ids memory c v).command = c := by
  rcases h.cases with ⟨name, judge, rfl⟩ | ⟨step, hstep, rfl⟩ | rfl
  · rfl
  · -- snapping is off for this step, so the only rule that rewrites commands does not
    cases c with
    | composite => rfl
    | single header e => simp only [gridSnap, if_pos hstep]
  · unfold cascadeRemove
    dsimp only
    split
    · rfl
    · split
      · rfl
      · split <;> rfl

end Rule

/-- With steps that are not positive, no rule changes a command. -/
theorem Checklist.command_run [Scalar α] [NumberText α] {scene : Scene α} {config : Config α}
    {rules : List (Rule α μ)} (hrules : ∀ r ∈ rules, r.WithSteps (· ≤ 0)) (t : Trial α μ)
    (v : Verdict α) : (run scene config rules t v).1.command = t.command := by
  induction rules generalizing t v with
  | nil => rfl
  | cons r rules ih =>
    have hcommand := Rule.command_of_withSteps (hrules r List.mem_cons_self)
      ⟨scene, t.changes.working, config⟩ t.ids t.memory t.command v
    unfold run
    generalize r.process ⟨scene, t.changes.working, config⟩ t.ids t.memory t.command
      v = a at hcommand
    simp only
    split
    · exact hcommand
    · rw [ih fun r hr => hrules r (List.mem_cons_of_mem _ hr)]
      exact hcommand

/-!
## Passes without a rejection

What is approved and what waits behind it are together the edit, at every turn. At the end nothing
waits.
-/

/-- What is approved, and what waits behind it, are the single commands of the edit. -/
structure Pass.Verbatim (edit : Command α) (p : Pass α μ) : Prop where
  issued : p.session.queues.issued = []
  leaves : p.session.queues.approved ++ p.session.queues.pending = edit.leaves

namespace Validator

variable [Scalar α] [NumberText α] {v : Validator α μ} {scene : Scene α} {edit : Command α}
  {p p' : Pass α μ} {session : Session α} {ids : IdSource} {memory : μ}

/-- All rules are rules of this library, and those that snap have a step of the kind. -/
def WithSteps (steps : α → Prop) (v : Validator α μ) : Prop :=
  ∀ b ∈ v.routing.bindings, ∀ r ∈ b.checklist.rules, r.WithSteps steps

/-- A validator with such rules has rules of the library. -/
theorem WithSteps.builtin {steps : α → Prop} (hv : v.WithSteps steps) : v.Builtin :=
  fun b hb r hr => (hv b hb r hr).builtin

/-- In a validator set up from a configuration, the configured step is the only one. -/
theorem withSteps_of_routing {steps : α → Prop}
    (h : (Catalog.builtin : Catalog α μ).routing v.config = .ok v.routing)
    (hstep : steps v.config.rules.gridStep) : v.WithSteps steps := by
  intro b hb r hr
  obtain ⟨name, hname⟩ := rule_of_routing h hb hr
  exact ⟨v.config.rules, name, hname, fun _ => hstep⟩

theorem command_tried (hv : v.WithSteps (· ≤ 0)) (scene : Scene α) (p : Pass α μ) (c : Command α) :
    (v.tried scene p c).command = c := by
  unfold tried judge
  split
  · next l hl =>
    refine Checklist.command_run (fun r hr => ?_) (trial p c) .approval
    obtain ⟨b, hb, hr⟩ := mem_rules_of_checklistFor? hl hr
    exact hv b hb r hr
  · rfl

omit [Scalar α] [NumberText α] in
/-- At the start all of the edit is in line. -/
theorem verbatim_start (v : Validator α μ) (session : Session α) (ids : IdSource) (memory : μ)
    (edit : Command α) : (v.start session ids memory edit).Verbatim edit := by
  constructor <;> rw [queues_start]
  rfl

/-- An approving turn takes a command from the front of one queue to the end of the other. -/
theorem verbatim_step? (hv : v.WithSteps (· ≤ 0))
    (hedit : ∀ c ∈ edit.leaves, c.kind.isRemove = false) (h : p.Verbatim edit)
    (hstep : v.step? scene edit p = some p') (hfailed : p'.failed = false) :
    p'.Verbatim edit := by
  obtain ⟨c, rest, r, hpending, hr, happroved, rfl⟩ := step?_unfailed hstep hfailed
  have hc : c ∈ edit.leaves := by
    rw [← h.leaves, hpending]
    exact List.mem_append_right _ List.mem_cons_self
  have hissued : (v.tried scene p c).issued = [] :=
    (judge_quiet hv.builtin scene (t := trial p c) (hedit c hc)).2.2
  obtain ⟨_, _, _, hsession⟩ := approving_turn edit rest hr happroved
  rw [command_tried hv, hissued, h.issued, List.append_nil, List.append_nil] at hsession
  refine ⟨by rw [hsession], ?_⟩
  rw [hsession, List.append_assoc, ← h.leaves, hpending]
  rfl

/--
**An approved outcome does what the edit does.** Under rules of the library, however they are bound
and ordered, without a grid: when an edit that removes nothing is approved, applying the outcome to
any scene leaves the scene that the edit leaves, and breaks off with the same error if it does.
-/
theorem apply_outcome (hv : v.WithSteps (· ≤ 0))
    (hedit : ∀ c ∈ edit.leaves, c.kind.isRemove = false) {budget : Nat} {result : Validation α μ}
    (h : v.validate budget scene session ids memory edit = some result)
    (happroved : result.outcome.approved = true) (target : Scene α) :
    target.apply result.outcome.command = target.apply edit := by
  cases hchecks : v.checks edit with
  | false =>
    -- nothing is checked, and the outcome is the edit itself
    rw [validate, hchecks] at h
    cases h
    rfl
  | true =>
    obtain ⟨q, header, description, hreach, hpending, hfailed, hcommand⟩ :=
      validate_eq_some hchecks h
    have hfailed : q.failed = false := by simpa [happroved] using hfailed
    have hverbatim : q.Verbatim edit :=
      hreach.invariant_unfailed (verbatim_start v session ids memory edit) hfailed
        fun _ _ => verbatim_step? hv hedit
    have hleaves := hverbatim.leaves
    rw [hpending, List.append_nil] at hleaves
    rw [hcommand, Scene.apply, hleaves, Scene.applyAll_leaves]

/-- Whatever is asked of it, entities may not collide; snapping is bound too, and off. -/
def offGrid : Validator Float Unit where
  routing := { bindings := [.ofKinds [.move, .add .entity, .scale] none
    ⟨[.collision .clearCurrent false, .gridSnap 0, .scaleRange 0.01 100]⟩] }
  config :=
    { Config.standard with
      bindings := [⟨["move_entity", "add_entity", "scale_entity"], none,
        ["collision", "grid_snap", "scale_range"]⟩] }

/-- A superseded move in a group of its own, a forced addition, and a scaling. -/
def rearranging : Command Float :=
  .composite { id := 1, transient := true } "rearrange"
    [.composite { id := 2, dying := true } "aside"
        [.single { id := 3, dying := true } (.move 1 (.splat 0) ⟨0, 0.3, 9⟩)],
      .single { id := 4, forced := true } (.add .entity (Entity.new 3 .model (.splat 1))),
      .single { id := 5 } (.scale 2 ⟨⟨5, 0, 0⟩, .splat 1⟩ ⟨⟨5, 0, 0⟩, .splat 2⟩)]

/-- A superseded move, a forced addition and a scaling are executed as they came. -/
theorem apply_outcome_rearranging : ∃ result : Validation Float Unit,
    offGrid.validate 3 blocks .fresh {} () rearranging = some result ∧
      result.outcome.approved = true ∧
    (blocks.apply result.outcome.command).2 = .ok () ∧
    ∀ target : Scene Float, target.apply result.outcome.command = target.apply rearranging := by
  have hrun :
      ((offGrid.validate 3 blocks .fresh {} () rearranging).any (·.outcome.approved)) = true := by
    decide +kernel
  obtain ⟨result, h, happroved⟩ := (Option.any_eq_true _ _).1 hrun
  have hsteps : offGrid.WithSteps (· ≤ 0) := withSteps_of_routing (by rfl) (by decide)
  have hsame := apply_outcome hsteps (by decide) h happroved
  refine ⟨result, h, happroved, ?_, hsame⟩
  rw [hsame]
  decide +kernel

/-- What no float is equal to, itself apart. -/
def missing : Float := 0.0 / 0.0

/-- What is multiplied with a number that is missing is missing. -/
theorem mul_missing (x : Float) : x * missing = missing := by
  have hunpack : missing.toModel.unpack = .notANumber := by rfl
  have hmul : Float.Model.UnpackedFloat.mul .binary64 x.toModel.unpack .notANumber =
      .notANumber := by
    cases x.toModel.unpack <;> rfl
  show Float.ofModel (.pack (.mul .binary64 x.toModel.unpack missing.toModel.unpack)) = missing
  rw [hunpack, hmul]
  decide

/-- Moves are snapped to a step that is not a number. -/
def noGrid : Validator Float Unit where
  routing := { bindings := [.ofKinds [.move] none ⟨[.gridSnap missing]⟩] }
  config :=
    { Config.standard with
      rules := { RuleParams.standard with gridStep := missing }
      bindings := [⟨["move_entity"], none, ["grid_snap"]⟩] }

/-- The first block is moved. -/
def upward : Command Float := .single { id := 1 } (.move 1 (.splat 0) ⟨0, 0, 9⟩)

/-- The step is not positive, and yet the approved move sends the block elsewhere. -/
theorem not_apply_outcome : ∃ result : Validation Float Unit,
    noGrid.WithSteps (fun step => ¬0 < step) ∧ (∀ c ∈ upward.leaves, c.kind.isRemove = false) ∧
    noGrid.validate 1 blocks .fresh {} () upward = some result ∧ result.outcome.approved = true ∧
    blocks.apply result.outcome.command ≠ blocks.apply upward := by
  refine ⟨_, withSteps_of_routing (by rfl) (by decide), by decide, rfl, rfl, fun hsame => ?_⟩
  have hheight := congrArg (fun r => (r.1.get? 1).map (·.position.z)) hsame
  have hsnapped : some (Scalar.round (9 / missing) * missing) = some (9 : Float) := hheight
  rw [mul_missing] at hsnapped
  exact absurd hsnapped (by decide)

end Validator

end SceneGuard
