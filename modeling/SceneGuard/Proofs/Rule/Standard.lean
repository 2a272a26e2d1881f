import SceneGuard.Proofs.Rule.Builtin
import SceneGuard.Proofs.Speculation.Application

/-!
# The default bindings

A validator goes by the default bindings where its configuration names none (`Validator.Standard`).
They are read off a table of names; here they are read once, so that for each kind of command the
rules it goes through are at hand as a list (`judge_standard`).
-/

namespace SceneGuard

variable {α μ : Type} [Scalar α] [NumberText α]

/-- The rules that a kind of command goes through under the default bindings, in order. -/
def Rule.standard (params : RuleParams α) : CommandKind → List (Rule α μ)
  | .add _ | .move =>
    [.dieCheck, .gridSnap params.gridStep, .zoneBounds,
      .collision params.collisionFailureAction params.rejectTransient,
      .proximityWarning params.proximityMargin]
  | .rotate | .reparent =>
    [.dieCheck, .collision params.collisionFailureAction params.rejectTransient]
  | .scale =>
    [.dieCheck, .scaleRange params.minScale params.maxScale,
      .collision params.collisionFailureAction params.rejectTransient]
  | .remove _ => [.dieCheck, .cascadeRemove]
  | .changeProperty => [.dieCheck, .propertyRange params.propertyRanges]
  | .composite => []

/-- Whether a command is superseded is what is looked at first. -/
theorem Rule.standard_dieCheck (params : RuleParams α) (e : Edit α) :
    ∃ rules : List (Rule α μ), standard params e.kind = .dieCheck :: rules := by
  cases e <;> exact ⟨_, rfl⟩

/-- The routing that the default bindings describe. -/
def Routing.standard (params : RuleParams α) : Routing α μ where
  bindings :=
    [⟨[.add .entity, .add .segment, .add .vertex], none, ⟨Rule.standard params .move⟩⟩,
      ⟨[.move], none, ⟨Rule.standard params .move⟩⟩,
      ⟨[.rotate, .reparent], none, ⟨Rule.standard params .rotate⟩⟩,
      ⟨[.scale], none, ⟨Rule.standard params .scale⟩⟩,
      ⟨[.remove .entity, .remove .segment, .remove .vertex], none,
        ⟨Rule.standard params (.remove .entity)⟩⟩,
      ⟨[.changeProperty], none, ⟨Rule.standard params .changeProperty⟩⟩]

/-- Each kind of command but composites has its rules in one of the bindings. -/
theorem Routing.binding_of_kind (params : RuleParams α) (kind : CommandKind) :
    kind = .composite ∨ ∃ b ∈ (standard params : Routing α μ).bindings,
      b.checklist.rules = Rule.standard params kind := by
  unfold standard
  cases kind with
  | composite => exact .inl rfl
  | add => exact .inr ⟨_, .head _, rfl⟩
  | move => exact .inr ⟨_, .tail _ (.head _), rfl⟩
  | rotate | reparent => exact .inr ⟨_, .tail _ (.tail _ (.head _)), rfl⟩
  | scale => exact .inr ⟨_, .tail _ (.tail _ (.tail _ (.head _))), rfl⟩
  | remove => exact .inr ⟨_, .tail _ (.tail _ (.tail _ (.tail _ (.head _)))), rfl⟩
  | changeProperty => exact .inr ⟨_, .tail _ (.tail _ (.tail _ (.tail _ (.tail _ (.head _))))), rfl⟩

/-- A configuration with the default bindings in force describes the standard routing. -/
theorem Catalog.routing_builtin {config : Config α}
    (h : config.activeBindings = BindingConfig.defaults) :
    (Catalog.builtin : Catalog α μ).routing config = .ok (.standard config.rules) := by
  unfold Catalog.routing
  rw [h]
  rfl

namespace Validator

/-- Rule checking is on, and the bindings in force are the default ones. -/
structure Standard (v : Validator α μ) : Prop where
  checking : v.config.ruleChecking = true
  bound : v.config.activeBindings = BindingConfig.defaults
  routed : (Catalog.builtin : Catalog α μ).routing v.config = .ok v.routing

variable {v : Validator α μ} {scene : Scene α}

/-- A standard validator goes by the standard routing, with its parameters. -/
theorem Standard.routing_eq (hv : v.Standard) : v.routing = .standard v.config.rules := by
  have h := hv.routed
  rw [Catalog.routing_builtin hv.bound, Except.ok.injEq] at h
  exact h.symm

/-- A command that is not forced goes through the rules for its kind, in order. -/
theorem judge_standard (hv : v.Standard) (scene : Scene α) {t : Trial α μ}
    {header : Header} {e : Edit α} (hc : t.command = .single header e)
    (hforced : header.forced = false) :
    v.judge scene t = Checklist.run scene v.config (Rule.standard v.config.rules e.kind) t
      .approval := by
  have hlist : v.checklistFor? t.command = some ⟨Rule.standard v.config.rules e.kind⟩ := by
    unfold checklistFor?
    rw [hc, hv.routing_eq]
    show (if header.forced = true then none else _) = _
    rw [hforced]
    -- the default routing, kind by kind
    cases e with
    | add role e => cases role <;> rfl
    | remove role id => cases role <;> rfl
    | _ => rfl
  unfold judge
  rw [hlist]
  rfl

/-- A standard validator has rules of this library only. -/
theorem Standard.builtin (hv : v.Standard) : v.Builtin := builtin_of_routing hv.routed

end Validator

/-! ## The collision rule -/

/-- A kind of command that places its entity goes through the collision rule. -/
theorem Rule.standard_places (params : RuleParams α) {kind : CommandKind}
    (hkind : kind.places = true) :
    ∃ front back : List (Rule α μ), standard params kind =
      front ++ .collision params.collisionFailureAction params.rejectTransient :: back ∧
      ∀ r ∈ back, ∃ name judge, r = judging name judge := by
  cases kind with
  | add | move =>
    refine ⟨[.dieCheck, .gridSnap params.gridStep, .zoneBounds],
      [.proximityWarning params.proximityMargin], rfl, fun r hr => ?_⟩
    obtain rfl := List.mem_singleton.1 hr
    exact ⟨_, _, rfl⟩
  | rotate | reparent => exact ⟨[.dieCheck], [], rfl, by simp⟩
  | scale => exact ⟨[.dieCheck, .scaleRange params.minScale params.maxScale], [], rfl, by simp⟩
  | remove | changeProperty | composite => cases hkind

namespace Validator

variable {v : Validator α μ} {scene : Scene α}

/-- The rules for each kind of command are rules of this library. -/
theorem Standard.builtin_standard (hv : v.Standard) (kind : CommandKind) :
    ∀ r ∈ (Rule.standard v.config.rules kind : List (Rule α μ)), r.Builtin := by
  have hbuiltin := hv.builtin
  unfold Builtin at hbuiltin
  rw [hv.routing_eq] at hbuiltin
  rcases Routing.binding_of_kind (μ := μ) v.config.rules kind with rfl | ⟨b, hb, hrules⟩
  · simp [Rule.standard]
  · exact hrules ▸ hbuiltin b hb

/-- With no grid and no active zone, an added entity that nothing is near
is approved without a remark. -/
theorem judge_add (hv : v.Standard) (hgrid : v.config.rules.gridStep ≤ 0)
    (hzone : scene.activeZone = none) (p : Pass α μ) {header : Header} {role : Role} {e : Entity α}
    (hforced : header.forced = false) (hdying : header.dying = false)
    (hcollide : p.session.working.collide scene (.single header (.add role e))
      v.config.collision.options true = .ok none)
    (hnear : p.session.working.collide scene (.single header (.add role e))
      { v.config.collision.options with margin := v.config.rules.proximityMargin }
        false = .ok none) :
    v.judge scene (trial p (.single header (.add role e))) =
      (trial p (.single header (.add role e)), .ok .approval) := by
  rw [judge_standard hv scene rfl hforced]
  show Checklist.run scene v.config [.dieCheck, .gridSnap v.config.rules.gridStep, .zoneBounds,
    .collision v.config.rules.collisionFailureAction v.config.rules.rejectTransient,
    .proximityWarning v.config.rules.proximityMargin] _ _ = _
  -- each of the five rules for adds lets it pass, for its own reason
  rw [Checklist.run_idle ?die, Checklist.run_idle ?grid, Checklist.run_idle ?zone,
    Checklist.run_idle ?collision, Checklist.run_idle ?proximity]
  case die => simp [Rule.dieCheck, Rule.judging, trial, Command.header, hdying]
  case grid => simp [Rule.gridSnap, trial, hgrid]
  case zone => simp [Rule.zoneBounds, Rule.judging, hzone, pure, Except.pure]
  case collision =>
    simp [Rule.collision, Rule.judging, trial, hcollide, bind, Except.bind, pure, Except.pure]
  case proximity =>
    simp [Rule.proximityWarning, Rule.judging, trial, hnear, bind, Except.bind, pure, Except.pure]
  rfl

/--
Under the default bindings, a command that places its entity is approved when the collision query
about it, as it came out of its rules, has an answer, and that answer is nothing unless the command
is of a drag.
-/
theorem collide_of_approved (hv : v.Standard) (scene : Scene α) (p : Pass α μ)
    {header : Header} {e : Edit α} (hkind : e.kind.places = true) (hforced : header.forced = false)
    {r : Verdict α} (hr : (v.judge scene (trial p (.single header e))).2 = .ok r)
    (happroved : r.approved = true) :
    ∃ found, p.session.working.collide scene (v.tried scene p (.single header e)).command
        v.config.collision.options true = .ok found ∧
      (header.transient = false → found = none) := by
  have hjudge := judge_standard hv scene (t := trial p (.single header e)) rfl hforced
  have hremove : e.kind.isRemove = false := by
    cases h : e.kind <;> rw [h] at hkind <;> first | rfl | cases hkind
  obtain ⟨front, back, hlist, hback⟩ := Rule.standard_places (μ := μ) v.config.rules hkind
  have hbuiltin := hv.builtin_standard e.kind
  rw [hlist] at hjudge hbuiltin
  -- the list is split at the collision rule, behind which only rules that judge are left
  have hrun :
      Checklist.run scene v.config (front ++ .collision v.config.rules.collisionFailureAction
      v.config.rules.rejectTransient :: back) (trial p (.single header e)) .approval =
      (v.tried scene p (.single header e), .ok r) := by
    rw [← hjudge]
    exact Prod.ext rfl hr
  have hheader : (v.tried scene p (.single header e)).command.header = header :=
    (judge_quiet hv.builtin scene (t := trial p (.single header e)) hremove).1.header
  obtain ⟨found, hfound, hnone⟩ := Checklist.collide_of_run (fun r hr => hbuiltin r (by simp [hr]))
    (fun r hr => hbuiltin r (by simp [hr])) hback
    (show (trial p (.single header e)).command.kind.isRemove = false from hremove) hrun happroved
  rw [hheader] at hnone
  exact ⟨found, hfound, hnone⟩

end Validator

end SceneGuard
