import SceneGuard.Proofs.Pass.Isolation
import SceneGuard.Proofs.Rule.Cascade
import SceneGuard.Proofs.Speculation.Boxes
import SceneGuard.Rule.Scripted

/-!
# Stored boxes during a pass

A query places the boxes that surrogates store, so a box that is out of date would be compared with
the wrong entities, and nobody would notice. Nothing in a pass leaves such a box behind: surrogates
come into the working set when a rule stages them and when a command is approved, and a rule of this
library, or one that a script describes, stages only surrogates whose boxes fit
(`Rule.StagesFitted`). Main statements:

* `Rule.Builtin.stagesFitted`, `Script.stagesFitted` — what such rules stage is fitted, if the
  working set is;
* `Validator.fitted_step?`, `Validator.fitted_of_reaches` — a turn keeps the working set fitted, and
  so it is fitted at every turn of every pass.
-/

namespace SceneGuard

variable {α μ : Type} [Scalar α]

/-!
## What rules stage

A rule could put any surrogate into the working set. Of the rules of this library the cascade is the
only one that stages something, and a script stages what it is told to.
-/

/-- Over fitted surrogates the rule stages fitted ones only. -/
def Rule.StagesFitted (r : Rule α μ) : Prop :=
  ∀ (ctx : RuleContext α) ids memory c v, ctx.working.Fitted →
    ∀ s ∈ (r.process ctx ids memory c v).staged, s.Fitted

/-- A script stages entities, and boxes are built for each. -/
theorem Script.stagesFitted (s : Script α) (place : Nat) : (s.rule place).StagesFitted := by
  intro ctx ids memory c v _ q hq
  unfold Script.rule at hq
  dsimp only at hq
  split at hq
  · cases hq
  · obtain ⟨e, _, rfl⟩ := List.mem_map.1 hq
    exact Surrogate.fitted_ofEntity e

namespace Rule

/-- What the cascade disables was in the working set before, or is built from an entity. -/
theorem fitted_of_mem_disabling {w : WorkingSet α} (hw : w.Fitted)
    {entities : List (EntityId × Entity α)} {s : Surrogate α} (hs : s ∈ disabling w entities) :
    s.Fitted := by
  obtain ⟨x, _, _, rfl⟩ := mem_disabling.1 hs
  refine Surrogate.Fitted.disabled ?_
  cases hq : w.get? x.1 with
  | none => exact Surrogate.fitted_ofEntity x.2
  | some q => exact hw x.1 q hq

/-- The cascade stages what it disables, and nothing else. -/
theorem stagesFitted_cascadeRemove : (cascadeRemove : Rule α μ).StagesFitted := by
  intro ctx ids memory c v hctx s hs
  -- of the ways out of the rule only the last one stages anything
  unfold cascadeRemove at hs
  dsimp only at hs
  split at hs
  · cases hs
  split at hs
  · cases hs
  split at hs
  · cases hs
  · exact fitted_of_mem_disabling hctx hs

/-- All other rules of the library stage nothing. -/
theorem Builtin.stagesFitted [NumberText α] {r : Rule α μ} (h : r.Builtin) : r.StagesFitted := by
  rcases h.quiet_or_cascadeRemove with hquiet | rfl
  · intro ctx ids memory c v _ s hs
    rw [(hquiet ctx ids memory c v).staged] at hs
    cases hs
  · exact stagesFitted_cascadeRemove

end Rule

/-! ## From rule to rule -/

/-- Fitted surrogates may be staged over fitted ones. -/
theorem Transaction.fitted_stageAll {t : Transaction α} {ss : List (Surrogate α)}
    (ht : t.working.Fitted) (hss : ∀ s ∈ ss, s.Fitted) : (t.stageAll ss).working.Fitted := by
  intro id s hs
  rcases get?_stageAll ss t id with hget | ⟨q, hq, _, hget⟩
  · exact ht id s (hget ▸ hs)
  · obtain rfl : q = s := Option.some.inj (hget.symm.trans hs)
    exact hss q hq

/-- The rules of a checklist hand a fitted working set on to each other. -/
theorem Checklist.fitted_run {scene : Scene α} {config : Config α} {rules : List (Rule α μ)}
    (hrules : ∀ r ∈ rules, r.StagesFitted) {t t' : Trial α μ} {v : Verdict α}
    {verdict : Except (Fault α) (Verdict α)} (ht : t.changes.working.Fitted)
    (h : run scene config rules t v = (t', verdict)) : t'.changes.working.Fitted := by
  -- on the rules; each stages over what those before it have staged
  induction rules generalizing t v with
  | nil =>
    cases h
    exact ht
  | cons r rules ih =>
    have hstaged := hrules r List.mem_cons_self ⟨scene, t.changes.working, config⟩ t.ids t.memory
      t.command v ht
    unfold run at h
    generalize r.process ⟨scene, t.changes.working, config⟩ t.ids t.memory t.command v = a
      at h hstaged
    have ha : (t.absorb a).changes.working.Fitted := Transaction.fitted_stageAll ht hstaged
    simp only at h
    split at h
    · cases h
      exact ha
    · exact ih (fun q hq => hrules q (List.mem_cons_of_mem _ hq)) ha h

/-!
## From turn to turn

A turn can end in three ways. An approval keeps what was staged and adds the effect of the command,
a rejection goes back to the surrogates from before the turn, and to clear everything leaves none.
-/

namespace Validator

variable {v : Validator α μ} {scene : Scene α} {edit : Command α} {p p' : Pass α μ}

/-- All rules stage fitted surrogates, however they are bound. -/
def StagesFitted (v : Validator α μ) : Prop :=
  ∀ b ∈ v.routing.bindings, ∀ r ∈ b.checklist.rules, r.StagesFitted

theorem Builtin.stagesFitted [NumberText α] (hv : v.Builtin) : v.StagesFitted :=
  fun b hb r hr => (hv b hb r hr).stagesFitted

theorem fitted_tried (hv : v.StagesFitted) (hp : p.session.working.Fitted) (c : Command α) :
    (v.tried scene p c).changes.working.Fitted := by
  unfold tried judge
  split
  · next l hl =>
    refine Checklist.fitted_run (fun r hr => ?_) hp rfl
    obtain ⟨b, hb, hr⟩ := mem_rules_of_checklistFor? hl hr
    exact hv b hb r hr
  · exact hp

/-- A turn leaves no box out of date: neither in what it keeps, nor in what it goes back to. -/
theorem fitted_step? (hv : v.StagesFitted) (hpocket : p.session.working.pocket = .empty)
    (hp : p.session.working.Fitted) (h : v.step? scene edit p = some p') :
    p'.session.working.Fitted := by
  obtain ⟨c, rest, _, rfl⟩ := step?_eq_some.1 h
  cases haction : (v.turn scene p c).action? with
  | none =>
    -- approved: what the rules staged stays, and the effect of the command joins it
    obtain ⟨r, hr, happroved⟩ := Dispatch.exists_approved haction
    obtain ⟨_, made, hmade, hsession⟩ := approving_turn edit rest hr happroved
    have htried : (v.tried scene p c).changes.working.Fitted := fitted_tried hv hp c
    intro id s hs
    rw [hsession, Transaction.get?_keep_stageIfAny] at hs
    cases made with
    | none => exact htried id s hs
    | some q => exact htried.add (htried.surrogateFor hmade) id s hs
  | some a =>
    by_cases ha : a = .clearAll
    · -- everything is cleared: no surrogate is left whose boxes could be wrong
      subst ha
      rw [(Pass.settle_of_action? _ edit haction).1, Pass.session_rollBack_clearAll]
      intro id s hs
      cases hs
    · rw [working_rejecting_turn edit rest hpocket haction ha]
      exact hp

/--
**No box is ever out of date in a pass.** Under rules that stage fitted surrogates, as those of this
library and of scripts do, every surrogate in the working set has at every turn the boxes that its
size, scale, minimum extent and border call for.
-/
theorem fitted_of_reaches (hv : v.StagesFitted) {session : Session α} {ids : IdSource} {memory : μ}
    (h : v.Reaches scene edit (v.start session ids memory edit) p) : p.session.working.Fitted := by
  refine (h.invariant (P := fun p => p.session.working.pocket = .empty ∧
    p.session.working.Fitted) ⟨WorkingSet.pocket_restoreAll session.working, ?_⟩
    fun a b ⟨hpocket, hfitted⟩ hstep => ?_).2
  · intro id s hs
    cases hs
  · exact ⟨pocket_step? hpocket hstep, fitted_step? hv hpocket hfitted hstep⟩

end Validator

end SceneGuard
