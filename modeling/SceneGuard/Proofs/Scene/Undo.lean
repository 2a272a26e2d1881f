import SceneGuard.Proofs.Scene.Aspects
import SceneGuard.Proofs.Scene.ResetBlock
import SceneGuard.Proofs.Scene.WellLinked

/-!
# Reset blocks undo edits

After an edit that went through, its reset block leads back to the scene before, up to the order in
which children are listed (`Scene.SameUpToOrder`). A child that left its parent and comes back is
listed last, so more cannot be said. The lists themselves need no look: where links fit, they are
settled by the parents. Main statements:

* `sameUpToOrder_of_bare` — scenes whose links fit are the same up to that order when their entities
  are, apart from the lists of children (`Scene.bare`);
* `Edit.alter_reset` — an edit turned around takes back what the edit altered in its entity;
* `undo_edit` — what an edit made of a scene accepts the edit turned around;
* `undo_takes` — so do all edits of a run, the last one first;
* `applyAll_resetBlock` — and the reset block of a command is that.
-/

namespace SceneGuard

variable {α : Type}

/-! ## What an edit makes of its entity -/

/-- A property that is set and set back leaves nothing behind. -/
theorem Entity.setProperty_back {q : Entity α} {key : PropertyKey} {before : PropertyValue α}
    (h : q.property key = some before) (after : PropertyValue α) :
    (q.setProperty key after).setProperty key before = q := by
  obtain ⟨sheet, name⟩ := key
  obtain ⟨values, hsheet, hname⟩ := Option.bind_eq_some_iff.1 h
  have hvalues : (values.insert name after).insert name before = values := by
    refine Table.ext_get? fun x => ?_
    rw [Table.get?_insert, Table.get?_insert]
    split
    · next hx => rw [hx, hname]
    · rfl
  -- both tables, the sheet and the table of sheets, are read one key at a time
  have hsheets : ((q.setProperty ⟨sheet, name⟩ after).setProperty ⟨sheet, name⟩ before).properties =
      q.properties := by
    refine Table.ext_get? fun x => ?_
    simp only [setProperty, hsheet, Option.getD_some, Table.get?_insert, if_true, hvalues]
    split
    · next hx => rw [hx, hsheet]
    · rfl
  calc (q.setProperty ⟨sheet, name⟩ after).setProperty ⟨sheet, name⟩ before
      = { q with properties :=
          ((q.setProperty ⟨sheet, name⟩ after).setProperty ⟨sheet, name⟩ before).properties } := rfl
    _ = q := by rw [hsheets]

namespace Edit

/-- Where an edit goes from the values that are there,
turned around it takes back what it altered. -/
theorem alter_reset {e : Edit α} {q : Entity α} (h : e.StartsAt q) :
    e.reset.alter (e.alter q) = q := by
  cases e with
  | add | remove => rfl
  | move | rotate => cases h; rfl
  | scale id before after =>
    obtain ⟨hposition, hscale⟩ : q.position = before.position ∧ q.scale = before.scale := h
    simp only [reset, alter, ← hposition, ← hscale]
  | reparent id before after =>
    obtain ⟨hparent, hposition⟩ : q.parent = before.parent ∧ q.position = before.position := h
    simp only [reset, alter, ← hparent, ← hposition]
  | changeProperty id key before after => exact Entity.setProperty_back h after

end Edit

/-! ## Scenes without lists of children -/

namespace Scene

variable {s t m n : Scene α} {e : Edit α} {es : List (Edit α)} {id : EntityId} {q : Entity α}

/-- The scenes are the same, but for the order in which entities list their children. -/
structure SameUpToOrder (s t : Scene α) : Prop where
  activeZone : s.activeZone = t.activeZone
  entities : ∀ id,
    Option.Rel (fun q q' => q.children.Perm q'.children ∧ q.bare = q'.bare) (s.get? id) (t.get? id)

/-- The skeleton can be seen without the lists of children. -/
theorem skeleton_eq (s : Scene α) : s.skeleton = fun x => (s.bare x).map (·.parent) := by
  funext x
  rw [skeleton, bare, Option.map_map]
  rfl

/-- Where links fit, the parents settle the lists of children up to their order. -/
theorem sameUpToOrder_of_bare (hs : s.LinksAgree) (ht : t.LinksAgree)
    (hzone : s.activeZone = t.activeZone) (h : s.bare = t.bare) : s.SameUpToOrder t := by
  have hlinks : s.skeleton = t.skeleton := by rw [skeleton_eq, skeleton_eq, h]
  -- links that agree list each child once, so the lists are permutations
  have hlisted : ∀ x, (s.listed x).Perm (t.listed x) := fun x => List.perm_iff_count.2 fun c => by
    by_cases hl : s.skeleton.Link c x
    · rw [hs.count_listed hl, ht.count_listed (hlinks ▸ hl)]
    · rw [hs.count_eq_zero hl, ht.count_eq_zero (hlinks ▸ hl)]
  refine ⟨hzone, fun x => ?_⟩
  have hx := congrFun h x
  have hperm := hlisted x
  unfold bare at hx
  unfold listed at hperm
  cases hq : s.get? x with
  | none =>
    rw [hq] at hx
    rw [Option.map_eq_none_iff.1 hx.symm]
    exact .none
  | some q =>
    rw [hq] at hx hperm
    obtain ⟨q', hq', hbare⟩ := Option.map_eq_some_iff.1 hx.symm
    rw [hq'] at hperm ⊢
    exact .some ⟨hperm, hbare.symm⟩

/-! ## One edit and back -/

/-- An edit of something that is there is accepted if the scene admits its parent. -/
theorem exists_edit (hkind : e.kind.isAddOrRemove = false) (hq : ∃ q, s.get? e.entityId = some q)
    (hadmits : s.Admits e.entityId e.parent?) : ∃ t, s.edit e = .ok t := by
  cases e with
  | add | remove => cases hkind
  | reparent id before after =>
    obtain ⟨q, hq⟩ := hq
    exact ⟨_, reparent_of_admits hadmits hq⟩
  | move | rotate | scale | changeProperty => exact ⟨_, update_eq_ok.2 ⟨hq, rfl⟩⟩

/-- Wherever an entity came to hang, it may go back to the parent it had. -/
theorem admits_back (hlinks : s.LinkConsistent) (hacyclic : s.Acyclic) (hq : s.get? id = some q)
    (hlive : ∀ x, (∃ b, s.get? x = some b) → ∃ b, n.get? x = some b)
    {parent : Option (Option EntityId)} (hn : n.skeleton = Function.update s.skeleton id parent) :
    n.Admits id q.parent := by
  intro p hp
  have hl : s.skeleton.Link id p := by rw [Skeleton.Link, skeleton_of_get? hq, hp]
  refine ⟨hlive p (hlinks.exists_parent hl), ?_⟩
  cases hcycle : n.isAncestor id p with
  | false => rfl
  | true =>
    -- a way from that parent to the entity would close a cycle with the link that was there
    obtain ⟨c, hc, hway⟩ := reflTransGen_of_meets hcycle
    cases hc
    exact absurd (.head' hl (Skeleton.way_of_update (hn ▸ hway))) (acyclic_iff.1 hacyclic id)

/-- What an edit made of a scene accepts the edit turned around, and is then what it was. -/
theorem undo_edit (hlinks : s.LinkConsistent) (hacyclic : s.Acyclic)
    (hkind : e.kind.isAddOrRemove = false) (hstart : ∃ q, s.get? e.entityId = some q ∧ e.StartsAt q)
    (h : s.edit e = .ok m) (hn : n.bare = m.bare) :
    ∃ t, n.edit e.reset = .ok t ∧ t.bare = s.bare := by
  obtain ⟨q, hq, hstart⟩ := hstart
  have hbare := fun x => (congrFun hn x).trans (bare_edit hkind h x)
  have hlive : ∀ x, (∃ b, s.get? x = some b) → ∃ b, n.get? x = some b := by
    rintro x ⟨b, hb⟩
    have hx := hbare x
    rw [bare_of_get? hb, Option.map_some] at hx
    exact (Option.map_eq_some_iff.1 hx).imp fun _ h => h.1
  -- only a reparent asks about links, and the old parent is not below the entity
  have hadmits : n.Admits e.entityId e.reset.parent? := by
    cases e with
    | add | remove => cases hkind
    | move | rotate | scale | changeProperty => exact fun p hp => by cases hp
    | reparent id before after =>
      obtain ⟨-, q', hq', rfl⟩ := reparent_eq_ok.1 h
      have hskeleton : n.skeleton = Function.update s.skeleton id (some after.parent) := by
        rw [skeleton_eq, hn, ← skeleton_eq, skeleton_reparented hq']
      have hback := admits_back hlinks hacyclic hq hlive hskeleton
      rwa [show q.parent = before.parent from hstart.1] at hback
  have hkind' : e.reset.kind.isAddOrRemove = false := by rwa [Edit.kind_reset]
  obtain ⟨t, ht⟩ := exists_edit (s := n) hkind' (hlive _ ⟨q, by rwa [Edit.entityId_reset]⟩)
    (by rwa [Edit.entityId_reset])
  refine ⟨t, ht, funext fun x => ?_⟩
  rw [bare_edit hkind' ht, hbare, Edit.entityId_reset, Option.map_map]
  -- the entity named is altered there and back, all others not at all
  by_cases hx : x = e.entityId
  · subst hx
    simp only [bare_of_get? hq, Option.map_some, Function.comp_apply, if_true,
      Edit.alter_reset (Edit.startsAt_bare.2 hstart)]
  · simp only [hx, if_false, Function.comp_def, Option.map_id']

/-! ## Runs and back -/

/-- A run that adds no more than leaves keeps the links. -/
theorem Takes.links (h : s.Takes es t) (hlinks : s.LinkConsistent) (hacyclic : s.Acyclic)
    (hleaf : ∀ e ∈ es, e.AddsLeaf) : t.LinkConsistent ∧ t.Acyclic := by
  induction h with
  | nil => exact ⟨hlinks, hacyclic⟩
  | @cons s m t e es he _ ih =>
    exact ih (hlinks.edit hacyclic (hleaf e List.mem_cons_self) he) (hacyclic.edit hlinks he)
      fun e' he' => hleaf e' (List.mem_cons_of_mem _ he')

/-- Edits that neither add nor remove leave the zone. -/
theorem Takes.activeZone_eq (h : s.Takes es t) (hkinds : ∀ e ∈ es, e.kind.isAddOrRemove = false) :
    t.activeZone = s.activeZone := by
  induction h with
  | nil => rfl
  | @cons s m t e es he _ ih =>
    have hremove : e.kind.isRemove = false := by
      have hkind := hkinds e List.mem_cons_self
      cases e <;> first | rfl | cases hkind
    exact (ih fun e' he' => hkinds e' (List.mem_cons_of_mem _ he')).trans
      (activeZone_edit hremove he)

/-- The edits of a run, turned around, neither add nor remove if the edits of the run do not. -/
theorem kinds_reset (hkinds : ∀ e ∈ es, e.kind.isAddOrRemove = false) :
    ∀ e ∈ es.reverse.map Edit.reset, e.kind.isAddOrRemove = false := by
  intro e he
  obtain ⟨e', he', rfl⟩ := List.mem_map.1 he
  rw [Edit.kind_reset]
  exact hkinds e' (List.mem_reverse.1 he')

/-- After an accepted edit the scene is what it made. -/
theorem after_of_edit (h : s.edit e = .ok m) : s.after e = m := by
  rw [after, apply_single_eq_ok.2 h]

/-- The edits of a run, turned around in reverse, lead from where it ended to where it started. -/
theorem undo_takes (h : s.Takes es t) (hlinks : s.LinkConsistent) (hacyclic : s.Acyclic)
    (hkinds : ∀ e ∈ es, e.kind.isAddOrRemove = false) (hfaithful : s.Faithful es) :
    ∃ u, t.Takes (es.reverse.map Edit.reset) u ∧ u.bare = s.bare := by
  induction h with
  | nil s => exact ⟨s, .nil s, rfl⟩
  | @cons s m t e es he _ ih =>
    have hkind := hkinds e List.mem_cons_self
    obtain ⟨hstart, hrest⟩ := hfaithful
    rw [after_of_edit he] at hrest
    have hleaf : e.AddsLeaf := Edit.addsLeaf_of_kind hkind
    -- all edits but the first are taken back first
    obtain ⟨n, hn, hbare⟩ := ih (hlinks.edit hacyclic hleaf he) (hacyclic.edit hlinks he)
      (fun e' he' => hkinds e' (List.mem_cons_of_mem _ he')) hrest
    obtain ⟨u, hu, hsame⟩ := undo_edit hlinks hacyclic hkind hstart he hbare
    refine ⟨u, ?_, hsame⟩
    rw [List.reverse_cons, List.map_append]
    exact takes_append.2 ⟨n, hn, .cons hu (.nil u)⟩

/--
**The reset block undoes an edit.** After moves, turns, scalings, reparentings and property changes,
however grouped, each from the values that were there, the scene accepts the whole reset block and
is then the scene before the edit, up to the order in which children are listed.
-/
theorem applyAll_resetBlock (hlinks : s.LinkConsistent) (hacyclic : s.Acyclic) {c : Command α}
    (hlive : c.living? = some c) (hkinds : ∀ e ∈ c.edits, e.kind.isAddOrRemove = false)
    (hfaithful : s.Faithful c.edits) (h : s.apply c = (t, .ok ())) (ids : IdSource) :
    ∃ u, t.applyAll (c.resetBlock ids).1 = (u, .ok ()) ∧ u.SameUpToOrder s := by
  have hforth := apply_eq_ok.1 h
  obtain ⟨u, hback, hbare⟩ := undo_takes hforth hlinks hacyclic hkinds hfaithful
  have hkinds' := kinds_reset hkinds
  have hblock : t.applyAll (c.resetBlock ids).1 = (u, .ok ()) := by
    rwa [applyAll_eq_ok, Command.edits_block hlive hkinds]
  -- there and back, the links fit
  obtain ⟨hlinks', hacyclic'⟩ := hforth.links hlinks hacyclic fun e he =>
    Edit.addsLeaf_of_kind (hkinds e he)
  obtain ⟨hlinks'', -⟩ := hback.links hlinks' hacyclic' fun e he =>
    Edit.addsLeaf_of_kind (hkinds' e he)
  have hzone : u.activeZone = s.activeZone :=
    (hback.activeZone_eq hkinds').trans (hforth.activeZone_eq hkinds)
  exact ⟨u, hblock, sameUpToOrder_of_bare hlinks''.linksAgree hlinks.linksAgree hzone hbare⟩

/-- A rack with a box on it, whose height is known, and a lamp. -/
def rack : Scene Float :=
  { entities := .ofList [(1, { Entity.new 1 .model (.splat 1) with children := [2, 3] }),
      (2, { Entity.new 2 .model (.splat 1) with
        parent := some 1
        properties := .ofList [("shape", .ofList [("height", .int 1)])] }),
      (3, { Entity.new 3 .model (.splat 1) with parent := some 1 })] }

/-- The box goes onto the lamp, and is made higher; then the lamp is set apart and made larger. -/
def rearranging : Command Float :=
  .composite { id := 1 } "rearrange"
    [.single { id := 2 } (.reparent 2 ⟨some 1, .splat 0⟩ ⟨some 3, ⟨0, 0, 1⟩⟩),
      .composite { id := 3 } "set apart"
        [.single { id := 4 } (.changeProperty 2 ⟨"shape", "height"⟩ (.int 1) (.int 2)),
          .single { id := 5 } (.move 2 ⟨0, 0, 1⟩ ⟨0, 0, 2⟩),
          .single { id := 6 } (.reparent 3 ⟨some 1, .splat 0⟩ ⟨none, ⟨5, 0, 0⟩⟩)],
      .single { id := 7 } (.scale 3 ⟨⟨5, 0, 0⟩, .splat 1⟩ ⟨⟨5, 0, 0⟩, .splat 2⟩)]

/-- On the way back the lamp comes to the rack before the box, and that is how they are listed. -/
theorem applyAll_resetBlock_rearranging : ∃ t u, rack.LinkConsistent ∧ rack.Acyclic ∧
    rearranging.living? = some rearranging ∧
      (∀ e ∈ rearranging.edits, e.kind.isAddOrRemove = false) ∧
    rack.Faithful rearranging.edits ∧ rack.apply rearranging = (t, .ok ()) ∧
    t.applyAll (rearranging.resetBlock {}).1 = (u, .ok ()) ∧ u.SameUpToOrder rack ∧
      u.listed 1 = [3, 2] := by
  have hlinks : rack.LinkConsistent := by decide
  have hacyclic : rack.Acyclic := acyclic_of_rank (show rack.falls UInt64.toNat = true by decide)
  have hlive : rearranging.living? = some rearranging := by rfl
  have hkinds : ∀ e ∈ rearranging.edits, e.kind.isAddOrRemove = false := by decide
  have hfaithful : rack.Faithful rearranging.edits :=
    ⟨⟨_, rfl, rfl, rfl⟩, ⟨_, rfl, rfl⟩, ⟨_, rfl, rfl⟩, ⟨_, rfl, rfl, rfl⟩,
      ⟨_, rfl, rfl, rfl⟩, trivial⟩
  have happly : rack.apply rearranging = ((rack.apply rearranging).1, .ok ()) :=
    Prod.ext rfl (show (rack.apply rearranging).2 = .ok () by decide)
  obtain ⟨u, hblock, hsame⟩ := applyAll_resetBlock hlinks hacyclic hlive hkinds hfaithful happly {}
  refine ⟨_, u, hlinks, hacyclic, hlive, hkinds, hfaithful, happly, hblock, hsame, ?_⟩
  -- and the order of the children shows that equality is too much to ask
  have horder : ((rack.apply rearranging).1.applyAll (rearranging.resetBlock {}).1).1.listed
      1 = [3, 2] := by
    decide
  rwa [hblock] at horder

end Scene

end SceneGuard
