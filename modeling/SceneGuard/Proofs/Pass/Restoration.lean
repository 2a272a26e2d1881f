import SceneGuard.Proofs.Pass.Superseded
import SceneGuard.Proofs.Scene.Aspects

/-!
# What the reset block restores

When a rejection has the scene restored, the reset block of the edit is executed behind what was
approved before. Main statements, for edits that set aspects of entities and are faithful to the
scene:

* `stands_of_kept` — when the block is accepted, it takes back whatever was executed of the edit;
* `accepted_of_kept` — it is accepted when no parent is set;
* `Validator.restores_rejected` — so a rejection restores the scene, up to what is approved after
  it.
-/

namespace SceneGuard

variable {α μ : Type}

/-!
## Edits alike

A rule may send an entity elsewhere than the edit said. So edits are compared by what they set and
not by the values: the block writes those from before in any case.
-/

/-- The edits set the same of the same entity, to whatever values. -/
structure Edit.Alike (e e' : Edit α) : Prop where
  kind : e'.kind = e.kind
  sets : Scene.Sets e' = Scene.Sets e
  entityId : e'.entityId = e.entityId
  stays : e'.stays = e.stays

namespace Edit

theorem Alike.refl (e : Edit α) : e.Alike e := ⟨rfl, rfl, rfl, rfl⟩

theorem alike_reset (e : Edit α) : e.Alike e.reset :=
  ⟨kind_reset e, Scene.sets_reset e, entityId_reset e, stays_reset e⟩

end Edit

/-- A command sent elsewhere has edits like those it had. -/
theorem Command.Resited.edits {c d : Command α} (h : c.Resited d) {e' : Edit α}
    (he' : e' ∈ d.edits) : ∃ e ∈ c.edits, e.Alike e' := by
  cases h with
  | same => exact ⟨e', he', .refl e'⟩
  | move h id before after after' =>
    obtain rfl := List.mem_singleton.1 he'
    exact ⟨_, List.mem_singleton_self _, rfl, rfl, rfl, rfl⟩
  | add h role e position =>
    obtain rfl := List.mem_singleton.1 he'
    exact ⟨_, List.mem_singleton_self _, rfl, rfl, rfl, rfl⟩

/-! ## Faithful edits -/

namespace Scene

variable {s t m : Scene α} {e : Edit α} {es : List (Edit α)}

/-- Faithful edits are about entities of the scene. -/
theorem Faithful.exists_get? (h : s.Faithful es) (hkinds : ∀ e ∈ es, e.kind.isAddOrRemove = false)
    (he : e ∈ es) : ∃ q, s.get? e.entityId = some q := by
  induction es generalizing s with
  | nil => cases he
  | cons e' es ih =>
    obtain ⟨⟨q, hq, _⟩, hrest⟩ := h
    rcases List.mem_cons.1 he with rfl | he
    · exact ⟨q, hq⟩
    · obtain ⟨q', hq'⟩ := ih hrest (fun e he => hkinds e (List.mem_cons_of_mem _ he)) he
      exact (agreesBut_after (hkinds e' List.mem_cons_self) s).symm.exists_get? hq'

end Scene

/-! ## Taking back what was kept of an edit -/

section Kept

variable {scene t : Scene α} {edit : Command α} {kept : List (Command α)} {ids : IdSource}

/-- What was kept of an edit is like some of its edits. -/
theorem Command.alike_of_kept (hkept : ∀ c ∈ kept, ∃ d ∈ edit.leaves, d.Resited c) {e' : Edit α}
    (he' : e' ∈ editsAll kept) : ∃ e ∈ edit.edits, e.Alike e' := by
  induction kept with
  | nil => cases he'
  | cons c kept ih =>
    rw [editsAll_cons] at he'
    rcases List.mem_append.1 he' with he' | he'
    · obtain ⟨d, hd, hresited⟩ := hkept c List.mem_cons_self
      obtain ⟨h, e, rfl⟩ := single_of_mem_leaves hd
      obtain ⟨e₁, he₁, halike⟩ := hresited.edits he'
      obtain rfl := List.mem_singleton.1 he₁
      exact ⟨e₁, List.mem_filterMap.2 ⟨_, hd, rfl⟩, halike⟩
    · exact ih (fun c hc => hkept c (List.mem_cons_of_mem _ hc)) he'

/-- Whatever was executed of the edit, the block takes it back. -/
theorem stands_of_kept (hlive : edit.living? = some edit)
    (hkinds : ∀ e ∈ edit.edits, e.kind.isAddOrRemove = false)
    (hfaithful : scene.Faithful edit.edits) (hkept : ∀ c ∈ kept, ∃ d ∈ edit.leaves, d.Resited c)
    (h : scene.applyAll (kept ++ (edit.resetBlock ids).1) = (t, .ok ())) : t.StandsAs scene := by
  have htakes := Scene.applyAll_eq_ok.1 h
  rw [Command.editsAll_append, Command.edits_block hlive hkinds] at htakes
  obtain ⟨m, hm, hblock⟩ := Scene.takes_append.1 htakes
  -- between the two, only what the edit sets differs from the scene
  have hagrees := hm.agreesBut fun e' he' => by
    obtain ⟨e, he, halike⟩ := Command.alike_of_kept hkept he'
    exact halike.kind ▸ hkinds e he
  refine .revert hfaithful hkinds (hagrees.symm.mono fun id a ⟨e', he', ha⟩ => ?_) hblock
  obtain ⟨e, he, halike⟩ := Command.alike_of_kept hkept he'
  exact .inr ⟨e, he, halike.sets ▸ ha⟩

/-- The scene accepts what was kept and then the reset block,
if all entities stay where they hang. -/
theorem accepted_of_kept (hlive : edit.living? = some edit)
    (hstays : ∀ e ∈ edit.edits, e.stays = true) (hfaithful : scene.Faithful edit.edits)
    (hkept : ∀ c ∈ kept, ∃ d ∈ edit.leaves, d.Resited c) (ids : IdSource) :
    ∃ t, scene.applyAll (kept ++ (edit.resetBlock ids).1) = (t, .ok ()) := by
  have hkinds : ∀ e ∈ edit.edits, e.kind.isAddOrRemove = false :=
    fun e he => Edit.kind_of_stays (hstays e he)
  -- every edit of the queue is alike to one of the batch, in kind and in entity
  have halike : ∀ e' ∈ Command.editsAll kept ++ edit.edits.reverse.map Edit.reset,
      ∃ e ∈ edit.edits, e.Alike e' := fun e' he' => by
    rcases List.mem_append.1 he' with he' | he'
    · exact Command.alike_of_kept hkept he'
    · obtain ⟨e, he, rfl⟩ := List.mem_map.1 he'
      exact ⟨e, List.mem_reverse.1 he, e.alike_reset⟩
  obtain ⟨t, ht⟩ := Scene.exists_takes (s := scene)
    (fun e' he' => by
      obtain ⟨e, he, halike⟩ := halike e' he'
      exact halike.stays.trans (hstays e he))
    (fun e' he' => by
      obtain ⟨e, he, halike⟩ := halike e' he'
      exact halike.entityId ▸ hfaithful.exists_get? hkinds he)
  refine ⟨t, Scene.applyAll_eq_ok.2 ?_⟩
  rwa [Command.editsAll_append, Command.edits_block hlive hkinds]

end Kept

/-!
## The commands of a pass

Without adds and removes the rules of the library issue nothing. So a pass has to do with commands
of the edit only.
-/

/-- The pass has to do with commands of the edit, perhaps sent elsewhere, and with nothing else. -/
structure Pass.OfEdit (edit : Command α) (p : Pass α μ) : Prop where
  issued : p.session.queues.issued = []
  pending : ∀ c ∈ p.session.queues.pending, c ∈ edit.leaves
  history : ∀ d ∈ p.history, d.given ∈ edit.leaves ∧ d.given.Resited d.left

namespace Pass.OfEdit

variable {edit : Command α} {p : Pass α μ}

/-- An approval comes from one of the commands of the edit. -/
theorem of_mem_approvals (h : p.OfEdit edit) {ds : List (Dispatch α)} (hds : ds ⊆ p.history)
    {c : Command α} (hc : c ∈ ds.filterMap Dispatch.approval?) :
    ∃ d ∈ edit.leaves, d.Resited c := by
  obtain ⟨d, hd, hc⟩ := List.mem_filterMap.1 hc
  obtain ⟨hgiven, hresited⟩ := h.history d (hds hd)
  cases ha : d.action? with
  | some a => rw [Dispatch.approval?_eq_none ha] at hc; cases hc
  | none =>
    rw [Dispatch.approval?_of_action? ha] at hc
    cases hc
    exact ⟨d.given, hgiven, hresited⟩

end Pass.OfEdit

namespace Validator

variable [Scalar α] [NumberText α] {v : Validator α μ} {scene : Scene α} {edit : Command α}
  {p p' : Pass α μ} {session : Session α} {ids : IdSource} {memory : μ}

/-- No turn brings in a command that is not one of the edit. -/
theorem ofEdit_step? (hv : v.Builtin) (hedit : ∀ c ∈ edit.leaves, c.kind.isRemove = false)
    (h : p.OfEdit edit) (hstep : v.step? scene edit p = some p') : p'.OfEdit edit := by
  obtain ⟨c, rest, hpending, rfl⟩ := step?_eq_some.1 hstep
  have hc : c ∈ edit.leaves := h.pending c (by rw [hpending]; exact List.mem_cons_self)
  obtain ⟨hresited, _, hissued⟩ := judge_quiet hv scene (t := trial p c) (hedit c hc)
  refine ⟨Pass.issued_settle .., fun d hd => ?_, fun d hd => ?_⟩
  · rcases mem_pending_step? h.issued hd with hd | hd
    · exact h.pending d (by rw [hpending]; exact List.mem_cons_of_mem _ hd)
    · rw [show (v.tried scene p c).issued = [] from hissued] at hd
      cases hd
  · rw [Pass.history_settle] at hd
    rcases List.mem_append.1 hd with hd | hd
    · exact h.history d hd
    · obtain rfl := List.mem_singleton.1 hd
      exact ⟨hc, hresited⟩

/-- So at every point of a pass all commands are those of the edit. -/
theorem ofEdit_of_reaches (hv : v.Builtin) (hedit : ∀ c ∈ edit.leaves, c.kind.isRemove = false)
    (h : v.Reaches scene edit (v.start session ids memory edit) p) : p.OfEdit edit := by
  refine h.invariant ⟨?_, ?_, fun d hd => by cases hd⟩ fun a b => ofEdit_step? hv hedit
  · rw [queues_start]
  · rw [queues_start]
    exact fun c hc => hc

/--
**What a rejection restores.** An edit of moves, turns, scalings, reparentings and property changes,
none of them superseded, that is faithful to the scene: when one of its commands falls with an
action that has the scene restored, what is executed is some of its commands, then the reset block,
then what was approved after such a rejection. When the scene accepts the block, every entity stands
as before at its end, and unless a parent is set, the scene does accept it.
-/
theorem restores_rejected (hv : v.Builtin) (hchecks : v.checks edit = true)
    (hlive : edit.living? = some edit) (hkinds : ∀ e ∈ edit.edits, e.kind.isAddOrRemove = false)
    (hfaithful : scene.Faithful edit.edits) {budget : Nat} {result : Validation α μ}
    (h : v.validate budget scene session ids memory edit = some result)
    (hresets : ∃ d ∈ result.history, d.resets = true) :
    ∃ ids kept later, result.outcome.command.members = kept ++ (edit.resetBlock ids).1 ++ later ∧
      ((∃ d ∈ result.history, d.action? = some .clearAll) → kept = [] ∧ later = []) ∧
      (∀ c ∈ later, ∃ before d after, result.history = before ++ d :: after ∧ d.resets = true ∧
        c ∈ after.filterMap Dispatch.approval?) ∧
      (∀ t, scene.applyAll (kept ++ (edit.resetBlock ids).1) = (t, .ok ()) → t.StandsAs scene) ∧
      ((∀ e ∈ edit.edits, e.stays = true) →
        ∃ t, scene.applyAll (kept ++ (edit.resetBlock ids).1) = (t, .ok ())) := by
  obtain ⟨q, hreach, _, hhistory, _, _, hmembers, _⟩ := pass_of_validate hchecks h
  have hremove : ∀ c ∈ edit.leaves, c.kind.isRemove = false := fun c hc => by
    obtain ⟨header, e, rfl⟩ := Command.single_of_mem_leaves hc
    have hkind := hkinds e (List.mem_filterMap.2 ⟨_, hc, rfl⟩)
    cases e <;> first | rfl | cases hkind
  have hof := ofEdit_of_reaches hv hremove hreach
  rw [hhistory] at hresets ⊢
  rw [hmembers]
  obtain ⟨ids, kept, later, hqueue, hclear, hlater, hkept⟩ : ∃ ids kept later,
      q.session.queues.approved = kept ++ (edit.resetBlock ids).1 ++ later ∧
      ((∃ d ∈ q.history, d.action? = some .clearAll) → kept = [] ∧ later = []) ∧
      (∀ c ∈ later, ∃ before d after, q.history = before ++ d :: after ∧ d.resets = true ∧
        c ∈ after.filterMap Dispatch.approval?) ∧
      ∀ c ∈ kept, ∃ d ∈ edit.leaves, d.Resited c := by
    -- the record of the pass says where the block stands
    rcases recorded_of_reaches hreach with ⟨hgoing, _, hnone⟩ | hcleared
    · cases hgoing with
      | kept hno =>
        obtain ⟨d, hd, hyes⟩ := hresets
        rw [hno d hd] at hyes
        cases hyes
      | restored before d after ids hsplit hd _ _ hqueue =>
        refine ⟨ids, _, _, hqueue, fun ⟨d, hd, hclear⟩ => absurd hclear (hnone d hd),
          fun c hc => ⟨before, d, after, hsplit, hd, hc⟩, fun c => hof.of_mem_approvals ?_⟩
        rw [hsplit]
        exact List.subset_append_left ..
    · obtain ⟨ids, hqueue⟩ := hcleared.approved
      refine ⟨ids, [], [], ?_, fun _ => ⟨rfl, rfl⟩, by simp, by simp⟩
      rw [hqueue, List.nil_append, List.append_nil]
  exact ⟨ids, kept, later, hqueue, hclear, hlater,
    fun t => stands_of_kept hlive hkinds hfaithful hkept,
    fun hstays => accepted_of_kept hlive hstays hfaithful hkept ids⟩

/-- The block is moved, and then made too large. -/
def overgrown : Command Float :=
  .composite { id := 1 } "grow"
    [.single { id := 2 } (.move 1 (.splat 0) ⟨0, 0, 9⟩),
      .single { id := 3 } (.scale 1 ⟨⟨0, 0, 9⟩, .splat 1⟩ ⟨⟨0, 0, 9⟩, .splat 1000⟩)]

/-- The move was approved, the scaling is rejected, and the block is put back to where it was. -/
theorem restores_rejected_overgrown : ∃ (result : Validation Float Unit) (t : Scene Float),
    (plain true).validate 2 lone .fresh {} () overgrown = some result ∧
    result.outcome.approved = false ∧ result.history.map Dispatch.action? =
      [none, some .clearCurrent] ∧
    lone.applyAll result.outcome.command.members = (t, .ok ()) ∧ t.StandsAs lone := by
  have hfaithful : lone.Faithful overgrown.edits := ⟨⟨_, rfl, rfl⟩, ⟨_, rfl, rfl, rfl⟩, trivial⟩
  have hrun : ((plain true).validate 2 lone .fresh {} () overgrown).any (fun r =>
      !r.outcome.approved && r.history.map Dispatch.action? == [none, some .clearCurrent]) =
        true := by
    decide +kernel
  obtain ⟨result, h, hrun⟩ := (Option.any_eq_true _ _).1 hrun
  simp only [Bool.and_eq_true, beq_iff_eq, Bool.not_eq_true'] at hrun
  obtain ⟨happroved, hactions⟩ := hrun
  obtain ⟨first, second, hhistory, hfirst, hsecond⟩ :
      ∃ first second, result.history = [first, second] ∧
      first.action? = none ∧ second.action? = some .clearCurrent := by
    obtain ⟨first, rest, hhistory, hfirst, hrest⟩ := List.map_eq_cons_iff.1 hactions
    obtain ⟨second, rest, rfl, hsecond, hnil⟩ := List.map_eq_cons_iff.1 hrest
    exact ⟨first, second, by rw [hhistory, List.map_eq_nil_iff.1 hnil], hfirst, hsecond⟩
  have hresets : second.resets = true := by rw [Dispatch.resets, hsecond]; rfl
  obtain ⟨ids, kept, later, hmembers, _, hlater, hstands, haccepted⟩ :=
    restores_rejected (standard_plain true).builtin (by rfl) (by rfl) (by decide) hfaithful h
      ⟨second, by simp [hhistory], hresets⟩
  -- the rejection comes last, and nothing is approved after it
  have hnil : later = [] := List.eq_nil_iff_forall_not_mem.2 fun c hc => by
    obtain ⟨before, d, after, hsplit, hd, hc⟩ := hlater c hc
    rw [hhistory] at hsplit
    rcases before with _ | ⟨x, before⟩
    · obtain ⟨rfl, rfl⟩ := List.cons.inj hsplit
      rw [Dispatch.resets, hfirst] at hd
      cases hd
    · obtain ⟨-, hsplit⟩ := List.cons.inj hsplit
      rcases before with _ | ⟨y, before⟩
      · obtain ⟨-, rfl⟩ := List.cons.inj hsplit
        cases hc
      · simp at hsplit
  obtain ⟨t, ht⟩ := haccepted (by decide)
  refine ⟨result, t, h, happroved, hactions, ?_, hstands t ht⟩
  rw [hmembers, hnil, List.append_nil]
  exact ht

/-- The block is made too large, and then moved. -/
def regrown : Command Float :=
  .composite { id := 1 } "grow"
    [.single { id := 2 } (.scale 1 ⟨.splat 0, .splat 1⟩ ⟨.splat 0, .splat 1000⟩),
      .single { id := 3 } (.move 1 (.splat 0) ⟨0, 0, 9⟩)]

/-- What is approved after the rejection runs on the restored scene, and moves the block. -/
theorem not_restores_rejected : ∃ (result : Validation Float Unit) (t : Scene Float),
    (plain true).Standard ∧ lone.LinkConsistent ∧ lone.Acyclic ∧ regrown.living? = some regrown ∧
    (∀ c ∈ regrown.leaves, c.header.forced = false) ∧
    (∀ e ∈ regrown.edits, e.kind.isAddOrRemove = false) ∧ lone.Faithful regrown.edits ∧
    (plain true).validate 2 lone .fresh {} () regrown = some result ∧
    result.history.map Dispatch.action? = [some .clearCurrent, none] ∧
    lone.applyAll result.outcome.command.members = (t, .ok ()) ∧ ¬t.StandsAs lone := by
  have hacyclic : lone.Acyclic :=
    Scene.acyclic_of_rank (show lone.falls UInt64.toNat = true by decide)
  have hfaithful : lone.Faithful regrown.edits := ⟨⟨_, rfl, rfl, rfl⟩, ⟨_, rfl, rfl⟩, trivial⟩
  -- the second command is approved behind the block and moves the entity once more
  have hrun : ((plain true).validate 2 lone .fresh {} () regrown).any (fun r =>
      r.history.map Dispatch.action? == [some .clearCurrent, none] &&
        (lone.applyAll r.outcome.command.members).2 == .ok () &&
        ((lone.applyAll r.outcome.command.members).1.get? 1).any (·.position == ⟨0, 0, 9⟩)) =
          true := by
    decide +kernel
  obtain ⟨result, h, hrun⟩ := (Option.any_eq_true _ _).1 hrun
  simp only [Bool.and_eq_true, beq_iff_eq] at hrun
  obtain ⟨⟨hactions, hok⟩, hmoved⟩ := hrun
  obtain ⟨q, hq, hposition⟩ := (Option.any_eq_true _ _).1 hmoved
  refine ⟨result, _, standard_plain true, by decide, hacyclic, by rfl, by decide,
    by decide, hfaithful, h, hactions, Prod.ext rfl hok, fun hstands => ?_⟩
  have hsame : q.position = .splat 0 :=
    hstands.same hq (show lone.get? 1 = some _ from rfl) .position id
  rw [hsame] at hposition
  exact absurd hposition (by decide)

/-- One table leaves the other, takes it, and gives it back. -/
def rehung : Command Float :=
  batch [.reparent 2 ⟨some 1, .splat 0⟩ ⟨none, .splat 0⟩,
    .reparent 1 ⟨none, .splat 0⟩ ⟨some 2, .splat 0⟩,
    .reparent 1 ⟨some 2, .splat 0⟩ ⟨none, .splat 0⟩]

/-- Where parents are set, the block may be refused: its first command would make a cycle. -/
example : (shelf.applyAll (rehung.resetBlock {}).1).2 = .error (.cycle 1 2) := by decide

end Validator

end SceneGuard
