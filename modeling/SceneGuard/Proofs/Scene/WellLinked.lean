import SceneGuard.Proofs.Scene.Ancestors
import SceneGuard.Proofs.Scene.Commands
import SceneGuard.Proofs.Scene.Edits

/-!
# Scenes stay well linked

A scene is well linked when its entities stand at their own numbers, parents and lists of children
fit together, nobody is above themselves and the active zone is there (`Scene.WellLinked`). Main
statements:

* `LinkConsistent.edit`, `Acyclic.edit` — an accepted edit keeps the links;
* `apply_preserves` — what accepted edits keep is kept by a command, accepted or broken off;
* `wellLinked_of_mem_scanl` — a scene is well linked after every call of a run.
-/

namespace SceneGuard

namespace Skeleton

variable {σ : Skeleton}

/-- Nobody is above themselves. -/
def Acyclic (σ : Skeleton) : Prop := ∀ x, ¬Relation.TransGen σ.Link x x

/-- Up to its first arrival at an entity, a way does not depend on where that hangs. -/
theorem way_of_update {a id : EntityId} {parent : Option (Option EntityId)}
    (h : Relation.ReflTransGen (Link (Function.update σ id parent)) a id) :
    Relation.ReflTransGen σ.Link a id := by
  induction h using Relation.ReflTransGen.head_induction_on with
  | refl => exact .refl
  | @head a b hab _ ih =>
    by_cases ha : a = id
    · exact ha ▸ .refl
    · rw [Link, Function.update_of_ne ha] at hab
      exact .head hab ih

/-- A new parent makes no cycle when no way leads from it back to the entity. -/
theorem Acyclic.update (h : σ.Acyclic) {id : EntityId} {parent : Option EntityId}
    (hback : ∀ p, parent = some p → ¬Relation.ReflTransGen σ.Link p id) :
    Acyclic (Function.update σ id (some parent)) := by
  -- a way that does not pass the entity was there before
  have hways : ∀ {a b}, Relation.TransGen (Link (Function.update σ id (some parent))) a b →
      Relation.TransGen σ.Link a b ∨
        Relation.ReflTransGen (Link (Function.update σ id (some parent))) a id ∧
          Relation.TransGen (Link (Function.update σ id (some parent))) id b := by
    intro a b hab
    induction hab with
    | @single b hl =>
      by_cases ha : a = id
      · subst ha
        exact .inr ⟨.refl, .single hl⟩
      · rw [Link, Function.update_of_ne ha] at hl
        exact .inl (.single hl)
    | @tail b c hab hl ih =>
      by_cases hb : b = id
      · subst hb
        exact .inr ⟨hab.to_reflTransGen, .single hl⟩
      rcases ih with hab | ⟨hup, hdown⟩
      · rw [Link, Function.update_of_ne hb] at hl
        exact .inl (hab.tail hl)
      · exact .inr ⟨hup, hdown.tail hl⟩
  intro x hx
  rcases hways hx with hx | ⟨hup, hdown⟩
  · exact h x hx
  · -- a cycle through the entity comes back to it from its new parent
    obtain ⟨p, hl, hreturn⟩ := Relation.TransGen.head'_iff.1 (hdown.trans_left hup)
    rw [Link, Function.update_self] at hl
    exact hback p (Option.some.inj hl) (way_of_update hreturn)

end Skeleton

namespace Scene

variable {α : Type} {s t : Scene α} {e : Edit α} {id : EntityId} {q : Entity α}

/-- Nobody is above themselves when that holds in the skeleton. -/
theorem acyclic_iff : s.Acyclic ↔ s.skeleton.Acyclic := by
  unfold Acyclic Below Skeleton.Acyclic
  rw [skeleton_link_eq]

/-!
## Cycles after an edit

Only a new parent can close a cycle. The way up from it, as far as it does not pass the entity, is
the same before and after the edit, and the scene has checked that it does not pass it.
-/

/-- Nobody is above themselves after an edit that the scene accepted. -/
theorem Acyclic.edit (hacyclic : s.Acyclic) (hlinks : s.LinkConsistent) (h : s.edit e = .ok t) :
    t.Acyclic := by
  rw [acyclic_iff] at hacyclic ⊢
  cases makes_of_edit h with
  | @insert _ q hnew hparent =>
    rw [skeleton_inserted]
    refine hacyclic.update fun p hp hway => ?_
    -- nothing leads up to a number that nobody has
    have habsent : ∀ x, ¬∃ b, s.get? x = some b ∧ x = q.id := by
      rintro x ⟨b, hb, rfl⟩
      rw [hnew] at hb
      cases hb
    rcases Relation.ReflTransGen.cases_tail hway with hpq | ⟨c, _, hl⟩
    · exact habsent p ((hparent p hp).imp fun _ hb => ⟨hb, hpq.symm⟩)
    · exact habsent q.id ((hlinks.listed (skeleton_link.1 hl)).imp fun _ hb => ⟨hb.1, rfl⟩)
  | @remove _ id q hq =>
    have hfollows := hlinks.follows.remove hq trivial
    intro x hx
    exact hacyclic x (Relation.TransGen.closed (fun _ _ hl => (hfollows.climbs hl).transGen) _ _ hx)
  | @reparent id q before after hadmits hq =>
    rw [skeleton_reparented hq]
    refine hacyclic.update fun p hp hway => ?_
    have hcycle := isAncestor_iff.2 hway
    rw [(hadmits p hp).2] at hcycle
    cases hcycle
  | change _ _ _ hparent =>
    rwa [skeleton_modify hparent]

/-!
## Lists of children after an edit

Of each list that an edit touches it is said what it is afterwards, order included.
-/

/-- An added entity comes last on the list of its parent. -/
theorem listed_inserted_eq (hparent : ∀ p, q.parent = some p → ∃ b, s.get? p = some b)
    {p : EntityId} (hp : p ≠ q.id) (hfree : q.id ∉ s.listed p) :
    (s.inserted q).listed p = s.listed p ++ if q.parent = some p then [q.id] else [] := by
  rw [listed, get?_inserted, if_neg hp]
  split
  · next hqp =>
    obtain ⟨b, hb⟩ := hparent p hqp
    rw [listed_of_get? hb] at hfree ⊢
    simp [hb, enlist, hfree]
  · rw [List.append_nil, listed]

/-- One that moves goes off one list and comes last on the other. -/
theorem listed_reparented_eq (hq : s.get? id = some q) {target : Attachment α}
    (hparent : ∀ p, target.parent = some p → ∃ b, s.get? p = some b)
    (hmoves : q.parent ≠ target.parent) (p : EntityId) :
    (s.reparented id q target).listed p =
      (if q.parent = some p then (s.listed p).filter (· ≠ id) else s.listed p) ++
        if target.parent = some p then [id] else [] := by
  rw [listed, get?_reparented s id p q target hq]
  cases hp : s.get? p with
  | none =>
    have htarget : target.parent ≠ some p := fun h => by
      obtain ⟨b, hb⟩ := hparent p h
      rw [hp] at hb
      cases hb
    simp [listed_of_get?_eq_none hp, htarget]
  | some b =>
    rw [listed_of_get? hp]
    simp only [Option.map_some, Option.getD_some, if_neg hmoves, delist]
    repeat' split
    all_goals simp

/-- One that stays under its parent keeps its place on the list. -/
theorem listed_reparented_same {target : Attachment α} (hstays : q.parent = target.parent)
    (p : EntityId) : (s.reparented id q target).listed p = s.listed p := by
  rw [reparented, if_pos hstays]
  exact listed_modify (f := fun e => { e with position := target.position }) (fun _ => rfl) s id p

/-- The children of a removed entity come last on the list of its parent. -/
theorem listed_removed_eq (hparent : ∀ p, q.parent = some p → ∃ b, s.get? p = some b) {p : EntityId}
    (hp : p ≠ id) :
    (s.removed id q).listed p =
      if q.parent = some p then (s.listed p).filter (· ≠ id) ++ q.children else s.listed p := by
  rw [listed, get?_removed, if_neg hp]
  cases hb : s.get? p with
  | none =>
    have hqp : q.parent ≠ some p := fun h => by
      obtain ⟨b, hb'⟩ := hparent p h
      rw [hb] at hb'
      cases hb'
    simp [listed_of_get?_eq_none hb, hqp]
  | some b =>
    rw [listed_of_get? hb]
    simp only [Option.map_some, Option.getD_some, adopt]
    split <;> split <;> rfl

/-!
## Links after an edit

Links and lists agree when each entity stands once in the list of its parent and in no other. So for
each edit it is counted how often an entity is listed.
-/

/-- To take one off a list does not bear on how often others are on it. -/
theorem count_filter_ne {c : EntityId} (hc : c ≠ id) (l : List EntityId) :
    (l.filter (· ≠ id)).count c = l.count c :=
  List.count_filter (by simpa using hc)

theorem count_ite_of_ne {c : EntityId} (hc : c ≠ id) (P : Prop) [Decidable P] :
    (if P then [id] else []).count c = 0 := by
  split <;> simp [Ne.symm hc]

namespace LinkConsistent

variable (hlinks : s.LinkConsistent)
include hlinks

/-- Whoever has a parent has one that is there. -/
theorem exists_parent {c p : EntityId} (hl : s.skeleton.Link c p) : ∃ b, s.get? p = some b :=
  (hlinks.listed (skeleton_link.1 hl)).imp fun _ h => h.1

/-- The number of an entity that is not there stands in no list. -/
theorem not_mem_listed (hnew : s.get? id = none) (p : EntityId) : id ∉ s.listed p := fun hc => by
  have hl := hlinks.linksAgree.link_of_listed hc
  rw [Skeleton.Link, skeleton, hnew] at hl
  cases hl

/-- Whoever has a parent after an entity was added is listed there once,
whatever the entity lists itself. -/
theorem count_listed_inserted (hnew : s.get? q.id = none)
    (hparent : ∀ p, q.parent = some p → ∃ b, s.get? p = some b) {c p : EntityId}
    (hl : (s.inserted q).skeleton.Link c p) : ((s.inserted q).listed p).count c = 1 := by
  have hlive : ∀ {p b}, s.get? p = some b → p ≠ q.id := by
    rintro p b hb rfl
    rw [hnew] at hb
    cases hb
  have hfree := hlinks.not_mem_listed hnew p
  rw [skeleton_inserted, Skeleton.Link] at hl
  -- the new entity is listed by its parent only; every other link is an old one
  by_cases hc : c = q.id
  · subst hc
    rw [Function.update_self] at hl
    have hqp : q.parent = some p := Option.some.inj hl
    obtain ⟨b, hb⟩ := hparent p hqp
    rw [listed_inserted_eq hparent (hlive hb) hfree, if_pos hqp, List.count_append,
      List.count_eq_zero_of_not_mem hfree, List.count_singleton_self]
  · rw [Function.update_of_ne hc] at hl
    obtain ⟨b, hb⟩ := hlinks.exists_parent hl
    rw [listed_inserted_eq hparent (hlive hb) hfree, List.count_append, count_ite_of_ne hc,
      hlinks.linksAgree.count_listed hl]

/-- After the addition of a leaf links and lists agree. -/
theorem linksAgree_inserted (hnew : s.get? q.id = none)
    (hparent : ∀ p, q.parent = some p → ∃ b, s.get? p = some b) (hleaf : q.children = []) :
    (s.inserted q).LinksAgree := by
  have hunknown : s.skeleton q.id = none := Option.map_eq_none_iff.2 hnew
  refine linksAgree_of (fun c p => ?_) fun c p hl => hlinks.count_listed_inserted hnew hparent hl
  have hfollows : (s.inserted q).Follows _ _ (fun _ => True) :=
    hlinks.follows.insert hunknown fun x _ => by
      by_cases hx : x = q.id
      · exact .inl ⟨hx, hleaf⟩
      · exact .inr ⟨hx, trivial⟩
  exact hfollows.claimed trivial

theorem linksAgree_reparented {target : Attachment α} (hadmits : s.Admits id target.parent)
    (hq : s.get? id = some q) : (s.reparented id q target).LinksAgree := by
  refine linksAgree_of (fun c p => (hlinks.follows.reparent hq target).claimed trivial)
    fun c p hl => ?_
  rw [skeleton_reparented hq, Skeleton.Link] at hl
  by_cases hmoves : q.parent = target.parent
  · rw [listed_reparented_same hmoves]
    refine hlinks.linksAgree.count_listed ?_
    rwa [← hmoves, ← skeleton_of_get? hq, Function.update_eq_self] at hl
  rw [listed_reparented_eq hq (fun p hp => (hadmits p hp).1) hmoves, List.count_append]
  by_cases hc : c = id
  · -- only the new parent lists the entity, and did not before
    subst hc
    rw [Function.update_self] at hl
    have hp : target.parent = some p := Option.some.inj hl
    have hqp : q.parent ≠ some p := fun h => hmoves (h.trans hp.symm)
    have hbefore : (s.listed p).count c = 0 := hlinks.linksAgree.count_eq_zero <| by
      rw [Skeleton.Link, skeleton_of_get? hq]
      exact fun h => hqp (Option.some.inj h)
    rw [if_neg hqp, if_pos hp, hbefore, List.count_singleton_self]
  · rw [Function.update_of_ne hc] at hl
    have hbefore := hlinks.linksAgree.count_listed hl
    rw [count_ite_of_ne hc]
    split
    · rw [count_filter_ne hc, hbefore]
    · rw [hbefore]

theorem linksAgree_removed (hacyclic : s.Acyclic) (hq : s.get? id = some q) :
    (s.removed id q).LinksAgree := by
  have hparent : ∀ p, q.parent = some p → s.skeleton.Link id p := fun p hp => by
    rw [Skeleton.Link, skeleton_of_get? hq, hp]
  have hchild : ∀ {c}, c ∈ q.children ↔ s.skeleton.Link c id := fun {c} => by
    rw [← listed_of_get? hq, hlinks.linksAgree.mem_listed]
  refine linksAgree_of (fun c p => (hlinks.follows.remove hq trivial).claimed trivial)
    fun c p hl => ?_
  rw [skeleton_removed, Skeleton.Link] at hl
  have hlist := fun hp : p ≠ id =>
    listed_removed_eq (s := s) (q := q) (fun p hp => hlinks.exists_parent (hparent p hp)) hp
  split at hl
  · cases hl
  next hcid =>
  obtain ⟨p₀, hp₀, hp⟩ := Option.map_eq_some_iff.1 hl
  split at hp
  · next hc =>
    -- a child of the removed entity comes to its parent, who did not list it before
    have hqp := hparent p hp
    have hpid : p ≠ id := by
      rintro rfl
      exact acyclic_iff.1 hacyclic p (.single hqp)
    have hbefore : (s.listed p).count c = 0 := hlinks.linksAgree.count_eq_zero fun hcp => hpid <| by
      rw [Skeleton.Link, hchild.1 hc] at hcp
      exact (Option.some.inj (Option.some.inj hcp)).symm
    have hcount := hlinks.linksAgree.count_listed (hchild.1 hc)
    rw [listed_of_get? hq] at hcount
    rw [hlist hpid, if_pos hp, List.count_append, count_filter_ne hcid, hbefore, hcount]
  · next hc =>
    have hcp : s.skeleton.Link c p := hp₀.trans (congrArg some hp)
    have hpid : p ≠ id := by
      rintro rfl
      exact hc (hchild.2 hcp)
    have hbefore := hlinks.linksAgree.count_listed hcp
    rw [hlist hpid]
    split
    · rw [List.count_append, count_filter_ne hcid, hbefore, List.count_eq_zero_of_not_mem hc]
    · rw [hbefore]

/-- An accepted edit keeps numbers, parents and lists of children fitting,
if what it adds is a leaf. -/
theorem edit (hacyclic : s.Acyclic) (hleaf : e.AddsLeaf) (h : s.edit e = .ok t) :
    t.LinkConsistent := by
  have hagree : t.LinksAgree := by
    -- one lemma for each way to write the links; any other edit leaves lists and parents alone
    cases makes_of_edit h with
    | insert _ hnew hparent => exact hlinks.linksAgree_inserted hnew hparent (hleaf _ rfl)
    | remove _ hq => exact hlinks.linksAgree_removed hacyclic hq
    | reparent _ hadmits hq => exact hlinks.linksAgree_reparented hadmits hq
    | change _ _ _ hparent hchildren =>
      refine linksAgree_of (fun c p hc => ?_) fun c p hl => ?_
      · rw [listed_modify hchildren] at hc
        rw [skeleton_modify hparent]
        exact hlinks.linksAgree.link_of_listed hc
      · rw [skeleton_modify hparent] at hl
        rw [listed_modify hchildren]
        exact hlinks.linksAgree.count_listed hl
  exact ⟨hlinks.keyed.edit h, hagree.listed, hagree.claimed⟩

end LinkConsistent

/-! ## Well-linked scenes -/

/-- Numbers, parents and lists of children fit together in a forest,
and the active zone is there. -/
structure WellLinked (s : Scene α) : Prop where
  links : s.LinkConsistent
  acyclic : s.Acyclic
  zone : ∀ z, s.activeZone = some z → ∃ q, s.get? z = some q

theorem WellLinked.edit (hs : s.WellLinked) (hleaf : e.AddsLeaf) (h : s.edit e = .ok t) :
    t.WellLinked where
  links := hs.links.edit hs.acyclic hleaf h
  acyclic := hs.acyclic.edit hs.links h
  zone := by
    -- the active zone is an id of the skeleton, and only a removal takes one out
    have hlive : ∀ z, s.activeZone = some z → (s.skeleton z).isSome = true := fun z hz => by
      obtain ⟨q, hq⟩ := hs.zone z hz
      rw [skeleton_of_get? hq]
      rfl
    intro z hz
    rw [← Option.isSome_iff_exists, ← Option.isSome_map (f := Entity.parent)]
    show (t.skeleton z).isSome = true
    cases makes_of_edit h with
    | @insert _ q =>
      rw [activeZone_inserted] at hz
      rw [skeleton_inserted]
      by_cases hzq : z = q.id
      · rw [hzq, Function.update_self]
        rfl
      · rw [Function.update_of_ne hzq]
        exact hlive z hz
    | @remove _ id q =>
      rw [activeZone_removed] at hz
      split at hz
      · cases hz
      · next hzid =>
        have hne : z ≠ id := fun hzi => hzid (hzi ▸ hz)
        simp only [skeleton_removed, if_neg hne, Option.isSome_map]
        exact hlive z hz
    | @reparent id q _ _ _ hq =>
      rw [activeZone_reparented] at hz
      rw [skeleton_reparented hq]
      by_cases hzid : z = id
      · rw [hzid, Function.update_self]
        rfl
      · rw [Function.update_of_ne hzid]
        exact hlive z hz
    | change _ _ _ hparent =>
      rw [skeleton_modify hparent]
      exact hlive z hz

/-!
## Commands that may break off

A command that breaks off has made the edits before the one that failed, and nothing of that one. So
it keeps whatever accepted edits keep.
-/

section Commands

variable {P : Scene α → Prop}

mutual

/-- What the accepted edits of a command keep is kept by the command, also when it breaks off. -/
theorem apply_preserves : ∀ {s : Scene α} (c : Command α), P s →
    (∀ e ∈ c.edits, ∀ {s t : Scene α}, P s → s.edit e = .ok t → P t) → P (s.apply c).1
  | s, .single h e, hs, hkeep => by
    rw [apply]
    cases he : s.edit e with
    | ok t => exact hkeep e (List.mem_singleton_self e) hs he
    | error x => exact hs
  | s, .composite h d ms, hs, hkeep => by
    rw [apply]
    exact applyAll_preserves ms hs hkeep

/-- What accepted edits keep, commands keep, also where one of them is refused. -/
theorem applyAll_preserves : ∀ {s : Scene α} (cs : List (Command α)), P s →
    (∀ e ∈ Command.editsAll cs, ∀ {s t : Scene α}, P s → s.edit e = .ok t → P t) →
      P (s.applyAll cs).1
  | s, [], hs, _ => hs
  | s, c :: cs, hs, hkeep => by
    rw [Command.editsAll_cons] at hkeep
    have hc := apply_preserves c hs fun e he => hkeep e (List.mem_append_left _ he)
    rw [applyAll]
    revert hc
    rcases s.apply c with ⟨m, x | _⟩ <;> intro hc
    · exact hc
    · exact applyAll_preserves cs hc fun e he => hkeep e (List.mem_append_right _ he)

end

end Commands

/-! ## Runs of calls -/

/-- A call on a scene. -/
inductive Call (α : Type) where
  | insert (q : Entity α)
  | remove (id : EntityId)
  | apply (c : Command α)

/-- The scene that a call leaves: a refused insert or remove changes nothing. -/
def call (s : Scene α) : Call α → Scene α
  | .insert q => (s.insert q).toOption.getD s
  | .remove id => ((s.remove id).map Prod.snd).toOption.getD s
  | .apply c => (s.apply c).1

/-- The edits that a call asks for. -/
def Call.edits : Call α → List (Edit α)
  | .insert q => [.add .entity q]
  | .remove id => [.remove .entity id]
  | .apply c => c.edits

theorem WellLinked.call (hs : s.WellLinked) {k : Call α} (hleaf : ∀ e ∈ k.edits, e.AddsLeaf) :
    (s.call k).WellLinked := by
  -- an insert and a remove are the calls of two edits; a failed call returns the scene it had
  cases k with
  | insert q =>
    have hq := hleaf (.add .entity q) (List.mem_singleton_self _)
    rw [Scene.call]
    cases h : s.insert q with
    | ok t => exact hs.edit hq h
    | error x => exact hs
  | remove id =>
    rw [Scene.call]
    cases h : s.remove id with
    | ok r =>
      have hedit : s.edit (.remove .entity id) = .ok r.2 :=
        edit_remove_eq_ok.2 ⟨r.1, remove_eq_ok.1 h⟩
      exact hs.edit (hleaf _ (List.mem_singleton_self _)) hedit
    | error x => exact hs
  | apply c => exact apply_preserves c hs fun e he _ _ hs h => hs.edit (hleaf e he) h

/-- A well-linked scene is well linked after every call of a run, accepted or not. -/
theorem wellLinked_of_mem_scanl (hs : s.WellLinked) {calls : List (Call α)}
    (hleaf : ∀ k ∈ calls, ∀ e ∈ k.edits, e.AddsLeaf) : ∀ t ∈ calls.scanl call s, t.WellLinked := by
  induction calls generalizing s with
  | nil =>
    intro t ht
    obtain rfl := List.mem_singleton.1 ht
    exact hs
  | cons k calls ih =>
    rw [List.scanl_cons]
    refine List.forall_mem_cons.2 ⟨hs, ?_⟩
    exact ih (hs.call (hleaf k List.mem_cons_self)) fun k' hk' =>
      hleaf k' (List.mem_cons_of_mem _ hk')

/-- A room that is being worked on, with a table in it and a vase on the table. -/
def room : Scene Float :=
  { entities := .ofList [(1, { Entity.new 1 .zone (.splat 9) with children := [2] }),
      (2, { Entity.new 2 .model (.splat 1) with parent := some 1, children := [3] }),
      (3, { Entity.new 3 .model (.splat 1) with parent := some 2 })]
    activeZone := some 1 }

/-- A flower is put into the vase, and then the table is to go onto the flower. -/
def overturning : Command Float :=
  .composite { id := 1 } "overturn"
    [.single { id := 2 } (.add .entity { Entity.new 4 .model (.splat 1) with parent := some 3 }),
      .composite { id := 3 } "turn"
        [.single { id := 4 } (.move 2 (.splat 0) (.splat 1)),
          .single { id := 5 } (.reparent 2 ⟨some 1, .splat 0⟩ ⟨some 4, .splat 0⟩)],
      .single { id := 6 } (.remove .entity 3)]

/-- The overturning breaks off, a second vase is refused for its number, and table and room go. -/
def clearance : List (Call Float) :=
  [.apply overturning, .insert (Entity.new 3 .model (.splat 1)), .remove 2, .remove 1]

/-- A room is cleared, with a cycle refused on the way, and at each point it is well linked. -/
theorem wellLinked_of_mem_scanl_clearance : room.WellLinked ∧
    (∀ k ∈ clearance, ∀ e ∈ k.edits, e.AddsLeaf) ∧
      (room.apply overturning).2 = .error (.cycle 2 4) ∧
    ∀ t ∈ clearance.scanl call room, t.WellLinked := by
  have hacyclic : room.Acyclic := acyclic_of_rank (show room.falls UInt64.toNat = true by decide)
  have hzone : ∀ z, room.activeZone = some z → ∃ q, room.get? z = some q := by
    rintro z ⟨⟩
    exact ⟨_, rfl⟩
  have hroom : room.WellLinked := ⟨by decide, hacyclic, hzone⟩
  have hleaf : ∀ k ∈ clearance, ∀ e ∈ k.edits, e.AddsLeaf := by decide
  exact ⟨hroom, hleaf, by decide, wellLinked_of_mem_scanl hroom hleaf⟩

end Scene

end SceneGuard
