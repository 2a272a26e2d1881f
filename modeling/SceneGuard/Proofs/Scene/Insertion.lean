import SceneGuard.Proofs.Scene.InPlace
import SceneGuard.Proofs.Scene.WellLinked

/-!
# Adding an entity with children

An added entity comes with a parent and with a list of children. `Scene.insert` enters it with the
parent and takes the list as it is. So parents stay listed, once each, and what is wrong with the
links afterwards is exactly the list that the entity brought with it (`insert_links`): nobody has
the new entity as a parent, not even a child that it had before it was taken out.
-/

namespace SceneGuard

namespace Scene

variable {α : Type} {s : Scene α} {q : Entity α}

namespace LinkConsistent

variable (hlinks : s.LinkConsistent)
include hlinks

/-- Nobody hangs under an entity that was just added. -/
theorem not_link_inserted (hnew : s.get? q.id = none)
    (hparent : ∀ p, q.parent = some p → ∃ b, s.get? p = some b) (c : EntityId) :
    ¬(s.inserted q).skeleton.Link c q.id := by
  have habsent : ¬∃ b, s.get? q.id = some b := by simp [hnew]
  intro hl
  rw [skeleton_inserted, Skeleton.Link] at hl
  by_cases hc : c = q.id
  · subst hc
    rw [Function.update_self] at hl
    exact habsent (hparent _ (Option.some.inj hl))
  · rw [Function.update_of_ne hc] at hl
    exact habsent (hlinks.exists_parent hl)

/-- After an entity was added, those listed as children hang where they are listed,
unless it lists them. -/
theorem link_inserted_iff (hnew : s.get? q.id = none)
    (hparent : ∀ p, q.parent = some p → ∃ b, s.get? p = some b) {c p : EntityId}
    (hc : c ∈ (s.inserted q).listed p) : (s.inserted q).skeleton.Link c p ↔ p ≠ q.id := by
  constructor
  · rintro hl rfl
    exact hlinks.not_link_inserted hnew hparent c hl
  · intro hp
    rw [skeleton_inserted, Skeleton.Link]
    obtain ⟨heq, -⟩ | ⟨-, hold | ⟨rfl, hqp⟩⟩ := listed_inserted hc
    · exact absurd heq hp
    · have hne : c ≠ q.id := fun heq => hlinks.not_mem_listed hnew p (heq ▸ hold)
      rw [Function.update_of_ne hne]
      exact hlinks.linksAgree.link_of_listed hold
    · rw [Function.update_self, hqp]

/-- The links fit after an entity was added if it lists no children, and only then. -/
theorem linkConsistent_insert_iff {t : Scene α} (h : s.insert q = .ok t) :
    t.LinkConsistent ↔ q.children = [] := by
  obtain ⟨hnew, hparent, rfl⟩ := insert_eq_ok.1 h
  constructor
  · intro ht
    refine List.eq_nil_iff_forall_not_mem.2 fun c hc => ?_
    have hself : (s.inserted q).get? q.id = some q := by rw [get?_inserted, if_pos rfl]
    exact hlinks.not_link_inserted hnew hparent c (skeleton_link.2 (ht.claimed hself hc))
  · intro hleaf
    have hagree := hlinks.linksAgree_inserted hnew hparent hleaf
    exact ⟨hlinks.keyed.edit (e := .add .entity q) h, hagree.listed, hagree.claimed⟩

/--
**What adding an entity does to the links.** It fails and leaves the scene as it was, or every
entity with a parent is listed there once, whoever is listed as a child has that parent unless the
new entity lists it, and the links fit only if the new entity lists nobody.
-/
theorem insert_links (q : Entity α) :
    (∃ x, (InPlace.insert q).run s = .error x s ∧ s.insert q = .error x) ∨
      ∃ t, (InPlace.insert q).run s = .ok () t ∧ s.insert q = .ok t ∧
        (∀ c p, t.ParentLink c p → ∃ b, t.get? p = some b ∧ b.children.count c = 1) ∧
        (∀ p b c, t.get? p = some b → c ∈ b.children → (t.ParentLink c p ↔ p ≠ q.id)) ∧
        (t.LinkConsistent ↔ q.children = []) := by
  rw [InPlace.run_insert]
  cases h : s.insert q with
  | error x => exact .inl ⟨x, rfl, rfl⟩
  | ok t =>
    refine .inr ⟨t, rfl, rfl, fun c p hl => ?_, fun p b c hb hc => ?_,
      hlinks.linkConsistent_insert_iff h⟩
    · -- the scene after the insertion, on both sides of the links
      obtain ⟨hnew, hparent, rfl⟩ := insert_eq_ok.1 h
      have hcount := hlinks.count_listed_inserted hnew hparent (skeleton_link.2 hl)
      cases hb : (s.inserted q).get? p with
      | none => rw [listed_of_get?_eq_none hb] at hcount; cases hcount
      | some b => exact ⟨b, rfl, listed_of_get? hb ▸ hcount⟩
    · obtain ⟨hnew, hparent, rfl⟩ := insert_eq_ok.1 h
      rw [← listed_of_get? hb] at hc
      exact skeleton_link.symm.trans (hlinks.link_inserted_iff hnew hparent hc)

end LinkConsistent

/-- The table of the room, as it stands there. -/
def table : Entity Float :=
  { Entity.new 2 .model (.splat 1) with parent := some 1, children := [3] }

/-- The room after the table was taken out: the vase stands in the room itself. -/
def cleared : Scene Float :=
  { entities := .ofList [(1, { Entity.new 1 .zone (.splat 9) with children := [3] }),
      (3, { Entity.new 3 .model (.splat 1) with parent := some 1 })]
    activeZone := some 1 }

/-- The table is put back as it was taken out. The room lists it and it lists the vase,
which stays where it is. -/
theorem insert_links_putBack : room.remove 2 = .ok (table, cleared) ∧ cleared.LinkConsistent ∧
    ∃ t, cleared.insert table = .ok t ∧ (∃ b, t.get? 1 = some b ∧ b.children.count 2 = 1) ∧
      t.listed 2 = [3] ∧ ¬t.ParentLink 3 2 ∧ ¬t.LinkConsistent := by
  have hlinks : cleared.LinkConsistent := by decide
  refine ⟨by rfl, hlinks, ?_⟩
  obtain ⟨x, -, hrefused⟩ | ⟨t, -, hok, hlisted, hclaimed, hfit⟩ := hlinks.insert_links table
  · cases hrefused
  · obtain ⟨-, -, rfl⟩ := insert_eq_ok.1 hok
    refine ⟨_, hok, hlisted 2 1 ⟨table, by rfl, rfl⟩, by rfl, fun h => ?_, fun h => ?_⟩
    · exact (hclaimed 2 table 3 (by rfl) (List.mem_singleton.2 rfl)).1 h rfl
    · exact List.cons_ne_nil _ _ (hfit.1 h)

/-- A removed entity that is put back breaks the links of a forest. -/
theorem not_insert_links : ∃ (s t : Scene Float) (e : Entity Float), s.LinkConsistent ∧ s.Acyclic ∧
    (∃ r : Scene Float, r.LinkConsistent ∧ r.remove e.id = .ok (e, s)) ∧ s.insert e = .ok t ∧
    ¬∀ p b c, t.get? p = some b → c ∈ b.children → t.ParentLink c p := by
  refine ⟨cleared, cleared.inserted table, table, by decide, ?_, ⟨room, by decide, by rfl⟩,
    by rfl, fun h => ?_⟩
  · exact acyclic_of_rank (show cleared.falls UInt64.toNat = true by decide)
  · obtain ⟨e, he, hp⟩ := h 2 table 3 (by rfl) (List.mem_singleton.2 rfl)
    have hvase : (cleared.inserted table).skeleton 3 = some (some 1) := by rfl
    rw [skeleton_of_get? he, hp] at hvase
    cases hvase

end Scene

end SceneGuard
