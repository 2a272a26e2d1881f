import SceneGuard.Proofs.Pass.Effects
import SceneGuard.Proofs.Pass.Tracking

/-!
# Approved edits can be executed

Under the default bindings, and for batches that fit (`Edit.Fits`), what a pass approves is
something the scene accepts: applying the outcome skips nothing (`apply_approved`). The invariant
(`Pass.Executes`) keeps the real scene after the approved commands beside the surrogates, through
the commands of the batch first and the removals issued by the cascade after them.
-/

namespace SceneGuard

variable {α μ : Type}

/-! ## The invariant -/

/-- Of commands that are not forced, each is the edit it makes with a header. -/
theorem Command.edits_leaves {c : Command α} (hforced : ∀ d ∈ c.leaves, d.header.forced = false) :
    List.Forall₂ (fun e d => ∃ h, d = .single h e ∧ h.forced = false) c.edits c.leaves := by
  have hsingle : ∀ d ∈ c.leaves, ∃ h e, d = .single h e ∧ h.forced = false := fun d hd => by
    obtain ⟨h, e, rfl⟩ := single_of_mem_leaves hd
    exact ⟨h, e, rfl, hforced _ hd⟩
  unfold edits
  generalize c.leaves = leaves at hsingle
  induction leaves with
  | nil => exact .nil
  | cons d leaves ih =>
    obtain ⟨h, e, rfl, hh⟩ := hsingle d List.mem_cons_self
    exact .cons ⟨h, rfl, hh⟩ (ih fun d hd => hsingle d (List.mem_cons_of_mem _ hd))

namespace Pass

variable {scene t : Scene α} {done todo : List (Edit α)} {R : List EntityId} {p : Pass α μ}

/--
Where a pass without a rejection stands: the edits `done` were dispatched, those in `todo` are
pending, and behind them removals by the cascade; `R` was removed so far, and `t` is the scene after
what is approved.
-/
structure Executes [Scalar α] (scene : Scene α) (done todo : List (Edit α))
    (R : List EntityId) (t : Scene α) (p : Pass α μ) : Prop where
  pocket : p.session.working.pocket = .empty
  issued : p.session.queues.issued = []
  applied : scene.applyAll p.session.queues.approved = (t, .ok ())
  inBoth : InBoth p.session.working scene t done R
  /-- As long as the batch goes on, its own edits alone have removed anything. -/
  removed : todo ≠ [] → ∀ x ∈ R, ∃ b ∈ done, b.removes? = some x
  pending : ∃ leaves cascade ids, p.session.queues.pending = leaves ++ cascade ∧
    List.Forall₂ (fun e c => ∃ h, c = .single h e ∧ h.forced = false) todo leaves ∧
    List.Forall₂ Command.Removes ids cascade ∧ (∀ x ∈ ids, ∃ e, scene.get? x = some e) ∧
    Apart scene R (todo.filterMap Edit.removes? ++ ids)

end Pass

/-!
## Turns

A turn is about an edit of the batch or about a removal of the cascade. Either way what was pending
is done, and what the cascade issues comes in line behind everything else.
-/

namespace Validator

variable [Scalar α] [NumberText α] {v : Validator α μ} {scene t : Scene α} {edit : Command α}
  {p : Pass α μ} {done done' todo todo' : List (Edit α)} {R : List EntityId} {c : Command α}
  {rest : List (Command α)} {r : Verdict α}

/-- The turn of a removal that is approved: the scene accepts it,
and the cascade is in the working set. -/
theorem removal_turn (edit : Command α) (rest : List (Command α)) (hv : v.Standard)
    (hscene : scene.LinkConsistent) (h : p.Executes scene done todo R t) {id : EntityId}
    (hc : c.Removes id) (hR : id ∉ R) (hchildless : Childless done id)
    (hr : (v.turn scene p c).verdict = .ok r) (happroved : r.approved = true) :
    ∃ t' issued w', ((v.judged scene p c rest).settle edit (v.turn scene p c)).session =
        { working := w'
          queues :=
            { pending := rest ++ issued, approved := p.session.queues.approved ++ [c],
              issued := [] } } ∧
      w'.pocket = .empty ∧ scene.applyAll (p.session.queues.approved ++ [c]) = (t', .ok ()) ∧
      InBoth w' scene t' done (R ++ [id]) ∧
        List.Forall₂ Command.Removes (scene.listed id) issued := by
  obtain ⟨hjudge, made, hmade, hsession⟩ := approving_turn edit rest hr happroved
  obtain ⟨staged, hleft, hchanges, hissued, hstaged⟩ := tried_remove hv hscene hc hjudge
  rw [hchanges, hleft] at hmade
  rw [hchanges, hleft, h.issued, List.nil_append] at hsession
  obtain ⟨hknown, hdisables⟩ := disables_of_removal h.inBoth.1 hc hstaged hmade
  obtain ⟨header, role, rfl, _⟩ := hc
  obtain ⟨t', hedit, hboth⟩ := edit_of_remove role h.inBoth hknown hR hchildless hdisables
  -- what the rule disabled and the effect of the removal itself, staged since one start
  have hsince := ((Transaction.since_start h.pocket).stageAll staged).stageIfAny made
  refine ⟨t', _, _, hsession, hsince.keep_pocket, ?_,
    hboth.congr fun id => (Transaction.get?_keep_stageIfAny _ made id).symm, hissued⟩
  exact Scene.applyAll_append_eq_ok.2 ⟨t, h.applied,
    Scene.applyAll_cons_eq_ok.2 ⟨t', Scene.apply_single_eq_ok.2 hedit, rfl⟩⟩

/-- The turn of any other edit that is approved: the scene accepts what came out of the rules. -/
theorem edit_turn (edit : Command α) (rest : List (Command α)) (hv : v.Standard)
    (huse : v.config.collision.useSurrogates = true) {e : Edit α}
    (h : p.Executes scene done (e :: todo) R t) {header : Header} (hforced : header.forced = false)
    (he : e.removes? = none) (hfits : e.Fits scene done)
    (hr : (v.turn scene p (.single header e)).verdict = .ok r) (happroved : r.approved = true) :
    ∃ t' d w', ((v.judged scene p (.single header e) rest).settle edit
        (v.turn scene p (.single header e))).session =
        { working := w'
          queues :=
            { pending := rest, approved := p.session.queues.approved ++ [d], issued := [] } } ∧
      w'.pocket = .empty ∧ scene.applyAll (p.session.queues.approved ++ [d]) = (t', .ok ()) ∧
      InBoth w' scene t' (done ++ [e]) R := by
  have hkind : e.kind.isRemove = false := by cases e <;> first | rfl | cases he
  obtain ⟨hjudge, made, hmade, hsession⟩ := approving_turn edit rest hr happroved
  have hretains : (Command.single header e).retains = true :=
    Command.retains_iff.2 ⟨header, e, rfl, hkind⟩
  obtain ⟨hleft, hchanges, hissued⟩ := tried_quiet hv.builtin scene p hretains
  have hresited : (Command.single header e).Resited (v.tried scene p (.single header e)).command :=
    (judge_quiet hv.builtin scene (t := trial p (.single header e)) hkind).1
  have hcollide := fun hplaces : e.kind.places = true =>
    collide_of_approved hv scene p hplaces hforced hjudge happroved
  rw [hchanges] at hmade
  rw [hchanges, hissued, h.issued, List.append_nil, List.append_nil] at hsession
  -- the rules may have moved the command; from here only what they left of it counts
  generalize (v.tried scene p (.single header e)).command = d
    at hleft hresited hmade hsession hcollide
  obtain ⟨header', e', rfl, _⟩ := Command.retains_iff.1 hleft
  obtain rfl : header' = header := hresited.header
  obtain ⟨t', hedit, hboth⟩ := accepted_of_fits h.inBoth
    v.config.collision.options huse hresited he hfits
    (h.removed (by simp)) hmade fun hplaces => (hcollide hplaces).imp fun _ hfound => hfound.1
  have hsince := (Transaction.since_start h.pocket).stageIfAny made
  refine ⟨t', _, _, hsession, hsince.keep_pocket, ?_, hboth.congr fun id =>
    (Transaction.get?_keep_stageIfAny { working := p.session.working } made id).symm⟩
  exact Scene.applyAll_append_eq_ok.2 ⟨t, h.applied,
    Scene.applyAll_cons_eq_ok.2 ⟨t', Scene.apply_single_eq_ok.2 hedit, rfl⟩⟩

/--
A turn that approves a removal puts the children's removals behind everything pending. What the
batch has done and has still to do is for the caller to say: the removal is an edit of the batch, or
of the cascade.
-/
theorem executes_removal (edit : Command α) (hv : v.Standard) (hscene : scene.LinkConsistent)
    (hacyclic : scene.Acyclic) (h : p.Executes scene done todo R t) {id : EntityId}
    (hc : c.Removes id) (hchildless : Childless done id) (hr : (v.turn scene p c).verdict = .ok r)
    (happroved : r.approved = true) {leaves cascade : List (Command α)} {ids : List EntityId}
    (hleaves : List.Forall₂ (fun e c => ∃ h, c = .single h e ∧ h.forced = false) todo' leaves)
    (hcascade : List.Forall₂ Command.Removes ids cascade)
    (hlive : ∀ x ∈ ids, ∃ e, scene.get? x = some e)
    (hapart : Apart scene R (id :: (todo'.filterMap Edit.removes? ++ ids)))
    (hsame : ∀ {w' : WorkingSet α} {t'}, InBoth w' scene t' done (R ++ [id]) →
      InBoth w' scene t' done' (R ++ [id]))
    (hremoved : todo' ≠ [] → ∀ x ∈ R ++ [id], ∃ b ∈ done', b.removes? = some x) :
    ∃ t', ((v.judged scene p c (leaves ++ cascade)).settle edit (v.turn scene p c)).Executes
      scene done' todo'
      (R ++ [id]) t' := by
  -- an id that was removed before is not in the line again
  have hR : id ∉ R := fun hx => (List.nodup_append.1 hapart.1).2.2 id hx id List.mem_cons_self rfl
  obtain ⟨t', issued, w', hsession, hpocket, happlied, hboth, hremovals⟩ :=
    removal_turn edit (leaves ++ cascade) hv hscene h hc hR hchildless hr happroved
  have hissued : ∀ x ∈ scene.listed id, ∃ e, scene.get? x = some e := fun x hx =>
    (parentLink_of_listed hscene.linksAgree hx).imp fun _ he => he.1
  have hpending :
      Apart scene (R ++ [id]) (todo'.filterMap Edit.removes? ++ (ids ++ scene.listed id)) := by
    rw [← List.append_assoc]
    exact hapart.remove hscene.linksAgree hacyclic
  refine ⟨t', ?pocket, ?issued, ?applied, ?inBoth, hremoved, leaves, cascade ++ issued,
    ids ++ scene.listed id, ?queue, hleaves, List.rel_append hcascade hremovals,
    List.forall_mem_append.2 ⟨hlive, hissued⟩, hpending⟩ <;> rw [hsession]
  case pocket => exact hpocket
  case applied => exact happlied
  case inBoth => exact hsame hboth
  case queue => exact List.append_assoc ..

/-- A turn that approves another edit leaves the queue behind it as it is. -/
theorem executes_edit (edit : Command α) (hv : v.Standard)
    (huse : v.config.collision.useSurrogates = true) {e : Edit α}
    (h : p.Executes scene done (e :: todo) R t) {header : Header} (hforced : header.forced = false)
    (he : e.removes? = none) (hfits : e.Fits scene done)
    (hr : (v.turn scene p (.single header e)).verdict = .ok r) (happroved : r.approved = true)
    {leaves cascade : List (Command α)} {ids : List EntityId}
    (hleaves : List.Forall₂ (fun e c => ∃ h, c = .single h e ∧ h.forced = false) todo leaves)
    (hcascade : List.Forall₂ Command.Removes ids cascade)
    (hlive : ∀ x ∈ ids, ∃ e, scene.get? x = some e)
    (hapart : Apart scene R (todo.filterMap Edit.removes? ++ ids))
    (hremoved : ∀ x ∈ R, ∃ b ∈ done ++ [e], b.removes? = some x) :
    ∃ t', ((v.judged scene p (.single header e) (leaves ++ cascade)).settle edit
      (v.turn scene p (.single header e))).Executes scene (done ++ [e]) todo R t' := by
  obtain ⟨t', d, w', hsession, hpocket, happlied, hboth⟩ :=
    edit_turn edit (leaves ++ cascade) hv huse h hforced he hfits hr happroved
  refine ⟨t', ?pocket, ?issued, ?applied, ?inBoth, fun _ => hremoved, leaves, cascade, ids,
    ?queue, hleaves, hcascade, hlive, hapart⟩ <;> rw [hsession]
  case pocket => exact hpocket
  case applied => exact happlied
  case inBoth => exact hboth

omit [Scalar α] [NumberText α] in
/-- A batch that fits puts no entity in under a number the scene has. -/
theorem childless_of_fits (hfits : edit.Fits scene) {x : EntityId}
    (hx : ∃ e, scene.get? x = some e) : Childless edit.edits x := by
  intro b hb y hy hyx
  obtain ⟨before, after, hsplit⟩ := List.append_of_mem hb
  exact absurd (.inl (hyx ▸ hx)) ((hfits before b after hsplit).fresh y hy)

/-- A turn that approves keeps the scene after the approved commands in step with the surrogates. -/
theorem executes_step? (hv : v.Standard) (huse : v.config.collision.useSurrogates = true)
    (hscene : scene.LinkConsistent) (hacyclic : scene.Acyclic) (hfits : edit.Fits scene)
    (hes : edit.edits = done ++ todo) (h : p.Executes scene done todo R t) {p' : Pass α μ}
    (hstep : v.step? scene edit p = some p') (hf : p'.failed = false) :
    ∃ done' todo' R' t', edit.edits = done' ++ todo' ∧ p'.Executes scene done' todo' R' t' := by
  obtain ⟨c, rest, r, hpending, hr, happroved, rfl⟩ := step?_unfailed hstep hf
  obtain ⟨leaves, cascade, xs, hqueue, hleaves, hcascade, hlive, hapart⟩ := h.pending
  rw [hqueue] at hpending
  cases todo with
  | nil =>
    -- the batch is through, and the cascade goes on
    cases hleaves
    cases hcascade with
    | nil => simp at hpending
    | @cons x _ xs cascade hc hcascade =>
      obtain ⟨rfl, rfl⟩ : _ = c ∧ cascade = rest := by simpa using hpending
      have hchildless : Childless done x := by
        rw [← List.append_nil done, ← hes]
        exact childless_of_fits hfits (hlive x List.mem_cons_self)
      obtain ⟨t', hnext⟩ := executes_removal edit hv hscene hacyclic h hc hchildless hr happroved
        .nil hcascade (fun y hy => hlive y (List.mem_cons_of_mem _ hy)) hapart id
        (fun hne => absurd rfl hne)
      exact ⟨done, [], R ++ [x], t', hes, hnext⟩
  | cons e todo =>
    cases hleaves with
    | @cons _ c' _ leaves he hleaves =>
    obtain ⟨rfl, rfl⟩ : c' = c ∧ leaves ++ cascade = rest := by simpa using hpending
    obtain ⟨header, rfl, hforced⟩ := he
    have hfit := hfits done e todo hes
    have hes' : edit.edits = done ++ [e] ++ todo := by simp [hes]
    have hremoved : ∀ x ∈ R, ∃ b ∈ done ++ [e], b.removes? = some x := fun x hx =>
      (h.removed (List.cons_ne_nil _ _) x hx).imp fun _ hb => ⟨List.mem_append_left _ hb.1, hb.2⟩
    cases hremoves : e.removes? with
    | none =>
      rw [List.filterMap_cons_none hremoves] at hapart
      obtain ⟨t', hnext⟩ := executes_edit edit hv huse h hforced hremoves hfit hr happroved
        hleaves hcascade
        hlive hapart hremoved
      exact ⟨done ++ [e], todo, R, t', hes', hnext⟩
    | some x =>
      -- a removal of the batch is one of its edits done
      rw [List.filterMap_cons_some hremoves] at hapart
      have hc : (Command.single header e).Removes x := by
        cases e with
        | remove role id => cases hremoves; exact ⟨header, role, rfl, hforced⟩
        | _ => cases hremoves
      have hadds : e.adds? = none := by
        cases e with
        | add => cases hremoves
        | _ => rfl
      have hlast : ∃ b ∈ done ++ [e], b.removes? = some x :=
        ⟨e, List.mem_append_right _ List.mem_cons_self, hremoves⟩
      obtain ⟨t', hnext⟩ :=
        executes_removal edit hv hscene hacyclic h hc (hfit.childless x hremoves) hr
        happroved hleaves hcascade hlive hapart (fun hboth => hboth.same hadds) fun _ =>
        List.forall_mem_append.2 ⟨hremoved, List.forall_mem_singleton.2 hlast⟩
      exact ⟨done ++ [e], todo, R ++ [x], t', hes', hnext⟩

omit [NumberText α] in
/-- A pass over a batch that fits starts with everything still to be made. -/
theorem executes_start (hscene : scene.LinkConsistent) (hacyclic : scene.Acyclic)
    (hforced : ∀ c ∈ edit.leaves, c.header.forced = false) (hfits : edit.Fits scene)
    (session : Session α) (ids : IdSource) (memory : μ) :
    (v.start session ids memory edit).Executes scene [] edit.edits [] scene where
  pocket := WorkingSet.pocket_restoreAll session.working
  issued := by rw [queues_start]
  applied := by
    rw [queues_start]
    rfl
  inBoth := by
    have hskeleton : (v.start session ids memory edit).session.working.skeleton scene =
        scene.skeleton := by
      funext x
      exact Option.map_map _ _ _
    -- nothing is removed yet, so no entity has lost its children
    have hnone : (fun _ => False : EntityId → Prop) = (· ∈ []) := by simp
    refine ⟨WorkingSet.sound_start hscene.keyed fun x => rfl, ?_⟩
    rw [hskeleton, ← hnone]
    exact hscene.follows.weaken fun x _ => trivial
  removed := by simp
  pending := by
    rw [queues_start]
    refine ⟨edit.leaves, [], [], (List.append_nil _).symm, Command.edits_leaves hforced,
      .nil, by simp, ?_⟩
    rw [List.append_nil]
    exact apart_of_fits hacyclic hfits

/--
**Approved edits can be executed.** Under the default bindings, what comes of an edit that is
approved can be run on the scene, as long as the edit fits.
-/
theorem apply_approved (hv : v.Standard) (huse : v.config.collision.useSurrogates = true)
    (hscene : scene.LinkConsistent) (hacyclic : scene.Acyclic) (hedit : edit.header.forced = false)
    (hforced : ∀ c ∈ edit.leaves, c.header.forced = false) (hfits : edit.Fits scene) {budget : Nat}
    {session : Session α} {ids : IdSource} {memory : μ} {result : Validation α μ}
    (h : v.validate budget scene session ids memory edit = some result)
    (happroved : result.outcome.approved = true) :
    (scene.apply result.outcome.command).2 = .ok () := by
  have hchecks : v.checks edit = true := by
    unfold checks
    rw [hv.checking, hedit]
    rfl
  obtain ⟨q, header, description, hreach, _, houtcome, hcommand⟩ := validate_eq_some hchecks h
  rw [houtcome, Bool.not_eq_true'] at happroved
  -- no turn rejected anything, so the invariant went from the start to the end
  have hinv : ∃ done todo R t, edit.edits = done ++ todo ∧ q.Executes scene done todo R t := by
    refine hreach.invariant_unfailed
      (P := fun q => ∃ done todo R t, edit.edits = done ++ todo ∧ q.Executes scene done todo R t)
      ⟨[], edit.edits, [], scene, rfl,
        executes_start hscene hacyclic hforced hfits session ids memory⟩
      happroved ?_
    rintro a b ⟨done, todo, R, t, hes, ha⟩ hstep hb
    exact executes_step? hv huse hscene hacyclic hfits hes ha hstep hb
  obtain ⟨_, _, _, t, _, hexec⟩ := hinv
  rw [hcommand]
  show (scene.applyAll q.session.queues.approved).2 = .ok ()
  rw [hexec.applied]

/-- A validator with nothing set, except that its collision queries may
be told not to use surrogates. -/
def plain (useSurrogates : Bool) : Validator Float Unit where
  routing := .standard .standard
  config := { collision := { epsilon := 0, useSurrogates }, rules := .standard }

/-- The plain validator has the default bindings. -/
theorem standard_plain (useSurrogates : Bool) : (plain useSurrogates).Standard :=
  ⟨rfl, rfl, Catalog.routing_builtin rfl⟩

/-- A scene of the entities. -/
def sceneOf (es : List (Entity Float)) : Scene Float :=
  { entities := .ofList (es.map fun e => (e.id, e)) }

/-- The edits in one command. -/
def batch (es : List (Edit Float)) : Command Float :=
  .composite { id := 1 } "batch" (es.map (.single { id := 0 }))

/-- A shelf with a box and a lid on it, and two tables. -/
def shelf : Scene Float :=
  sceneOf [{ Entity.new 1 .model (.splat 1) with children := [2] },
      { Entity.new 2 .model (.splat 1) with parent := some 1, children := [3] },
      { Entity.new 3 .model (.splat 1) with parent := some 2 },
      { Entity.new 4 .model (.splat 1) with position := ⟨9, 0, 0⟩ },
      { Entity.new 5 .model (.splat 1) with position := ⟨0, 9, 0⟩ }]

/-- The shelf is taken away with everything on it, a vase is put on one table,
and the table on the other. -/
def clearing : Command Float :=
  batch [.remove .entity 1,
      .add .entity { Entity.new 6 .model (.splat 1) with parent := some 4 },
      .reparent 4 ⟨none, ⟨9, 0, 0⟩⟩ ⟨some 5, ⟨0, 0, 9⟩⟩]

theorem fits_clearing : clearing.Fits shelf := by
  have hnew : shelf.get? 6 = none := by rfl
  have hmodel : ∀ x, shelf.get? 4 = some x → x.kind ≠ .zone := fun x hx => by
    cases hx
    decide
  have htop : ¬shelf.Below 4 1 := fun h => by
    obtain ⟨p, ⟨q, hq, hp⟩, _⟩ := Relation.TransGen.head'_iff.1 h
    cases hq
    cases hp
  -- one condition for each edit of the batch, under those before it
  refine forall_splits_cons ?removal (forall_splits_cons ?addition
    (forall_splits_cons ?reparenting fun before _ _ h => by cases before <;> cases h))
  case removal => constructor <;> simp [Edit.adds?]
  case addition =>
    constructor <;>
      simp [Edit.adds?, Edit.removes?, Edit.Names, Edit.parent?, Edit.entityId, Known,
        hnew, Entity.new]
  case reparenting =>
    constructor <;>
      simp [Edit.adds?, Edit.removes?, Edit.Names, Edit.parent?, Edit.entityId, KnownZone,
        Entity.new, htop]
    exact fun x hx hz => absurd hz (hmodel x hx)

/-- The clearing fits: it is approved, and the scene accepts what is to be executed. -/
theorem apply_approved_clearing : ∃ result : Validation Float Unit,
    (plain true).validate 64 shelf .fresh {} () clearing = some result ∧
    result.outcome.approved = true ∧ (shelf.apply result.outcome.command).2 = .ok () := by
  have happroved : ((plain true).validate 64 shelf .fresh {} () clearing).any
      (·.outcome.approved) = true := by decide +kernel
  obtain ⟨result, h, happroved⟩ := (Option.any_eq_true _ _).1 happroved
  exact ⟨result, h, happroved, apply_approved (standard_plain true) rfl (by decide)
    (Scene.acyclic_of_rank (show shelf.falls UInt64.toNat = true by decide)) rfl (by decide)
    fits_clearing h happroved⟩

/-- An entity is put in under the number of the second block. -/
def duplicate : Command Float :=
  .single { id := 1 } (.add .entity { Entity.new 2 .model (.splat 1) with position := ⟨9, 0, 0⟩ })

/-- No rule looks at whether a number is taken, and the scene does. -/
theorem not_apply_approved : ∃ result : Validation Float Unit, (plain true).Standard ∧
    blocks.LinkConsistent ∧ blocks.Acyclic ∧ duplicate.header.forced = false ∧
    (∀ c ∈ duplicate.leaves, c.header.forced = false) ∧
    (plain true).validate 64 blocks .fresh {} () duplicate = some result ∧
    result.outcome.approved = true ∧
    (blocks.apply result.outcome.command).2 = .error (.duplicateEntity 2) := by
  have hrun : ((plain true).validate 64 blocks .fresh {} () duplicate).any (fun r =>
      r.outcome.approved &&
        decide ((blocks.apply r.outcome.command).2 = .error (.duplicateEntity 2))) =
        true := by decide +kernel
  obtain ⟨result, h, hrun⟩ := (Option.any_eq_true _ _).1 hrun
  obtain ⟨happroved, hrefused⟩ := Bool.and_eq_true_iff.1 hrun
  have hacyclic : blocks.Acyclic :=
    Scene.acyclic_of_rank (show blocks.falls UInt64.toNat = true by decide)
  exact ⟨result, standard_plain true, by decide, hacyclic, rfl, by decide, h, happroved,
    of_decide_eq_true hrefused⟩

/-- Batches that do not fit, each in its own way, and one that is checked without surrogates. -/
def misfits : List (Bool × List (Entity Float) × List (Edit Float)) :=
  let one : Entity Float := Entity.new 1 .model (.splat 1)
  let two : Entity Float := { Entity.new 2 .model (.splat 1) with position := ⟨5, 0, 0⟩ }
  let child : Entity Float := { Entity.new 2 .model (.splat 1) with parent := some 1 }
  [ -- the number of the new entity is taken
    (true, [one, two], [.add .entity { two with position := ⟨9, 0, 0⟩ }]),
    -- the parent of a new zone is not there
    (true, [one], [.add .entity { Entity.new 2 .zone (.splat 1) with parent := some 7 }]),
    -- an entity is moved that was removed
    (true, [one, two], [.remove .entity 2, .move 2 ⟨5, 0, 0⟩ ⟨6, 0, 0⟩]),
    -- an entity is removed that goes with its parent
    (true, [{ one with children := [2] }, child], [.remove .entity 2, .remove .entity 1]),
    -- what was put in with a list of children is removed, and they get its parent
    (true, [{ one with children := [2] }, child,
        { Entity.new 3 .model (.splat 1) with position := ⟨50, 0, 0⟩ }],
      [.add .entity { Entity.new 4 .model (.splat 1) with
          position := ⟨8, 0, 0⟩, parent := some 3, children := [2] },
        .remove .entity 4, .reparent 3 ⟨none, ⟨50, 0, 0⟩⟩ ⟨some 2, ⟨70, 0, 0⟩⟩]),
    -- a zone is put under what stands on it
    (true, [{ Entity.new 1 .zone (.splat 1) with children := [2] }, child],
      [.reparent 1 ⟨none, .splat 0⟩ ⟨some 2, .splat 0⟩]),
    -- what goes with a removed entity is put under something that is not there
    (true, [{ one with children := [2] }, child],
      [.remove .entity 1, .reparent 2 ⟨some 1, .splat 0⟩ ⟨some 7, .splat 0⟩]),
    -- two entities are put under each other, and nobody looks at surrogates
    (false, [one, two], [.reparent 1 ⟨none, .splat 0⟩ ⟨some 2, ⟨9, 0, 0⟩⟩,
      .reparent 2 ⟨none, ⟨5, 0, 0⟩⟩ ⟨some 1, ⟨30, 0, 0⟩⟩])]

/-- **What does not fit is approved and then refused.** Each of the conditions of a fitting edit is
needed: without it there is a batch that is approved in a sound scene and that the scene does not
accept. -/
theorem misfits_refused : ∀ m ∈ misfits, (sceneOf m.2.1).LinkConsistent ∧ (sceneOf m.2.1).Acyclic ∧
    ((plain m.1).validate 64 (sceneOf m.2.1) .fresh {} () (batch m.2.2)).any fun r =>
      r.outcome.approved && !((sceneOf m.2.1).apply r.outcome.command).2.toBool := by
  have hlinks : ∀ m ∈ misfits, (sceneOf m.2.1).LinkConsistent := by decide +kernel
  have hfalls : ∀ m ∈ misfits, (sceneOf m.2.1).falls UInt64.toNat = true := by decide +kernel
  have hruns : ∀ m ∈ misfits,
      ((plain m.1).validate 64 (sceneOf m.2.1) .fresh {} () (batch m.2.2)).any (fun r =>
        r.outcome.approved && !((sceneOf m.2.1).apply r.outcome.command).2.toBool) = true := by
    decide +kernel
  exact fun m hm => ⟨hlinks m hm, Scene.acyclic_of_rank (hfalls m hm), hruns m hm⟩

end Validator
end SceneGuard
