import SceneGuard.Speculation.Transaction

/-!
# Staged changes

A transaction has in the pocket, for each entity changed, the snapshot that was there when it was
opened, or else what stood there then (`Transaction.Opened`). One that starts with nothing in the
pocket remembers what stood there at the start (`Transaction.Since`). So keeping its changes leaves
the pocket empty again, and dropping them gives back the working set it started from
(`Since.keep_pocket`, `Since.drop_eq`).
-/

namespace SceneGuard

variable {α : Type}

namespace WorkingSet

variable {w w' : WorkingSet α}

/-- Working sets are told apart by look-ups, their snapshots and the tolerance. -/
theorem ext_get? (hepsilon : w.epsilon = w'.epsilon) (hget : ∀ id, w.get? id = w'.get? id)
    (hpocket : ∀ id, w.pocket.get? id = w'.pocket.get? id) : w = w' := by
  obtain ⟨epsilon, surrogates, pocket⟩ := w
  obtain ⟨epsilon', surrogates', pocket'⟩ := w'
  obtain rfl : epsilon = epsilon' := hepsilon
  obtain rfl : surrogates = surrogates' := Table.ext_get? hget
  obtain rfl : pocket = pocket' := Table.ext_get? hpocket
  rfl

theorem get?_add (w : WorkingSet α) (s : Surrogate α) (id : EntityId) :
    (w.add s).get? id = if id = s.id then some s else w.get? id :=
  Table.get?_insert _ _ _ _

@[simp] theorem get?_stash (w : WorkingSet α) (id x : EntityId) :
    (w.stash id).get? x = w.get? x := by
  unfold stash
  split <;> rfl

@[simp] theorem epsilon_stash (w : WorkingSet α) (id : EntityId) :
    (w.stash id).epsilon = w.epsilon := by
  unfold stash
  split <;> rfl

/-- The working set with the surrogate that a command made, if it made one. -/
def addIfAny (w : WorkingSet α) : Option (Surrogate α) → WorkingSet α
  | none => w
  | some s => w.add s

@[simp] theorem epsilon_addIfAny (w : WorkingSet α) (found : Option (Surrogate α)) :
    (w.addIfAny found).epsilon = w.epsilon := by
  cases found <;> rfl

/-- A snapshot is taken of what is there, unless there is one already. -/
theorem pocket_stash (w : WorkingSet α) (id x : EntityId) :
    (w.stash id).pocket.get? x =
      if x = id then some ((w.pocket.get? id).getD (w.get? id)) else w.pocket.get? x := by
  unfold stash Table.contains
  cases h : w.pocket.get? id with
  | none => simp [Table.get?_insert]
  | some snapshot =>
    by_cases hx : x = id
    · simp [hx, h]
    · simp [hx]

/-- To commit an entity forgets its snapshot. -/
theorem pocket_commit (w : WorkingSet α) (id x : EntityId) :
    (w.commit id).pocket.get? x = if x = id then none else w.pocket.get? x :=
  Table.get?_erase _ _ _

theorem pocket_restore (w : WorkingSet α) (id x : EntityId) :
    (w.restore id).pocket.get? x = if x = id then none else w.pocket.get? x := by
  unfold restore
  cases h : w.pocket.get? id with
  | none =>
    by_cases hx : x = id
    · simp [hx, h]
    · simp [hx]
  | some snapshot =>
    cases snapshot <;> exact Table.get?_erase _ _ _

@[simp] theorem epsilon_restore (w : WorkingSet α) (id : EntityId) :
    (w.restore id).epsilon = w.epsilon := by
  unfold restore
  split
  · rfl
  · split <;> rfl

/-- Restored is what the snapshot has, and where there is none what is there. -/
theorem get?_restore (w : WorkingSet α) (id x : EntityId) :
    (w.restore id).get? x = if x = id then (w.pocket.get? id).getD (w.get? id) else w.get? x := by
  unfold restore
  cases h : w.pocket.get? id with
  | none =>
    by_cases hx : x = id
    · simp [hx]
    · simp [hx]
  | some snapshot =>
    cases snapshot with
    | none => exact (Table.get?_erase _ _ _).trans (by split <;> rfl)
    | some s => exact (Table.get?_insert _ _ _ _).trans (by split <;> rfl)

/-- After several were restored none of them has a snapshot. -/
theorem pocket_foldl_restore (ids : List EntityId) (w : WorkingSet α) (x : EntityId) :
    (ids.foldl restore w).pocket.get? x = if x ∈ ids then none else w.pocket.get? x := by
  induction ids generalizing w with
  | nil => simp
  | cons id ids ih =>
    rw [List.foldl_cons, ih, pocket_restore]
    by_cases hx : x = id
    · simp [hx]
    · simp [hx]

@[simp] theorem epsilon_foldl_restore (ids : List EntityId) (w : WorkingSet α) :
    (ids.foldl restore w).epsilon = w.epsilon := by
  induction ids generalizing w with
  | nil => rfl
  | cons id ids ih => rw [List.foldl_cons, ih, epsilon_restore]

/-- The first time an entity goes back decides; later ones find no snapshot. -/
theorem get?_foldl_restore (ids : List EntityId) (w : WorkingSet α) (x : EntityId) :
    (ids.foldl restore w).get? x =
      if x ∈ ids then (w.pocket.get? x).getD (w.get? x) else w.get? x := by
  induction ids generalizing w with
  | nil => simp
  | cons id ids ih =>
    rw [List.foldl_cons, ih, pocket_restore, get?_restore]
    by_cases hx : x = id
    · subst hx
      simp
    · simp [hx]

/-- After all were restored there are no snapshots. -/
theorem pocket_restoreAll (w : WorkingSet α) : w.restoreAll.pocket = .empty := by
  refine Table.ext_get? fun x => ?_
  unfold restoreAll
  rw [pocket_foldl_restore]
  split
  · rfl
  · next hx =>
    rw [Table.mem_keys_iff, Table.contains] at hx
    simpa using hx

/-- With nothing in the pocket there is nothing to restore. -/
theorem restoreAll_of_pocket (h : w.pocket = .empty) : w.restoreAll = w := by
  unfold restoreAll
  rw [h]
  rfl

/-- Each entity that has a snapshot goes back to it, and the others stay. -/
theorem get?_restoreAll (w : WorkingSet α) (x : EntityId) :
    w.restoreAll.get? x = (w.pocket.get? x).getD (w.get? x) := by
  unfold restoreAll
  rw [get?_foldl_restore]
  split
  · rfl
  · next hx =>
    rw [Table.mem_keys_iff, Table.contains, Bool.not_eq_true, Option.isSome_eq_false_iff,
      Option.isNone_iff_eq_none] at hx
    rw [hx, Option.getD_none]

/-- Without a snapshot there is nothing to put back. -/
theorem restore_of_pocket {id : EntityId} (h : w.pocket.get? id = none) : w.restore id = w := by
  unfold restore
  rw [h]

/-- Without a snapshot there is nothing to forget. -/
theorem commit_of_pocket {id : EntityId} (h : w.pocket.get? id = none) : w.commit id = w := by
  refine ext_get? rfl (fun _ => rfl) fun x => ?_
  rw [pocket_commit]
  split
  · next hx => rw [hx, h]
  · rfl

/-- To commit changes nothing but the pocket. -/
theorem foldl_commit (ids : List EntityId) (w : WorkingSet α) :
    (ids.foldl commit w).surrogates = w.surrogates ∧ (ids.foldl commit w).epsilon = w.epsilon ∧
      ∀ x, (ids.foldl commit w).pocket.get? x = if x ∈ ids then none else w.pocket.get? x := by
  induction ids generalizing w with
  | nil => simp
  | cons id ids ih =>
    obtain ⟨hs, he, hp⟩ := ih (w.commit id)
    refine ⟨hs, he, fun x => ?_⟩
    rw [List.foldl_cons, hp, pocket_commit]
    by_cases hx : x = id
    · simp [hx]
    · simp [hx]

end WorkingSet

namespace Transaction

variable {w : WorkingSet α} {t : Transaction α}

/-- The transaction was opened on `w`, and has in the pocket what `w`
gives for each entity it changed. -/
structure Opened (w : WorkingSet α) (t : Transaction α) : Prop where
  epsilon : t.working.epsilon = w.epsilon
  untouched : ∀ id, id ∉ t.touched → t.working.get? id = w.get? id
  pocket : ∀ id, t.working.pocket.get? id =
    if id ∈ t.touched then some ((w.pocket.get? id).getD (w.get? id)) else w.pocket.get? id

/-- A transaction that has just been opened has changed nothing. -/
theorem opened_start (w : WorkingSet α) : Opened w { working := w } where
  epsilon := rfl
  untouched _ _ := rfl
  pocket _ := (if_neg List.not_mem_nil).symm

/-- What is staged stands in the working set. -/
theorem get?_stage (t : Transaction α) (s : Surrogate α) (id : EntityId) :
    (t.stage s).working.get? id = if id = s.id then some s else t.working.get? id := by
  have hstage : (t.stage s).working = (t.working.stash s.id).add s := rfl
  rw [hstage, WorkingSet.get?_add, WorkingSet.get?_stash]

theorem mem_touched_stage (t : Transaction α) (s : Surrogate α) (id : EntityId) :
    id ∈ (t.stage s).touched ↔ id = s.id ∨ id ∈ t.touched := by
  unfold stage
  by_cases h : t.touched.contains s.id = true
  · simp only [h, if_true]
    constructor
    · exact .inr
    · rintro (rfl | hid)
      · simpa using h
      · exact hid
  · simp only [h, Bool.false_eq_true, if_false, List.mem_append, List.mem_singleton]
    exact or_comm

/-- A transaction has touched what was staged in it, and nothing else. -/
theorem mem_touched_stageAll (ss : List (Surrogate α)) (t : Transaction α) (id : EntityId) :
    id ∈ (t.stageAll ss).touched ↔ id ∈ t.touched ∨ id ∈ ss.map (·.id) := by
  induction ss generalizing t with
  | nil => simp [stageAll]
  | cons s ss ih =>
    have hcons : t.stageAll (s :: ss) = (t.stage s).stageAll ss := rfl
    rw [hcons, ih, mem_touched_stage, List.map_cons, List.mem_cons,
      or_comm (a := id = s.id), or_assoc]

/-- However often an entity is changed, what was there when the transaction
was opened stays in the pocket. -/
theorem Opened.stage (h : Opened w t) (s : Surrogate α) : Opened w (t.stage s) where
  epsilon := (WorkingSet.epsilon_stash _ _).trans h.epsilon
  untouched id hid := by
    rw [mem_touched_stage, not_or] at hid
    rw [get?_stage, if_neg hid.1]
    exact h.untouched id hid.2
  pocket id := by
    have hpocket : (t.stage s).working.pocket.get? id = (t.working.stash s.id).pocket.get? id := rfl
    rw [hpocket, WorkingSet.pocket_stash]
    simp only [mem_touched_stage]
    by_cases hid : id = s.id
    · subst hid
      -- only the first change of an entity finds it as it was
      rw [if_pos rfl, if_pos (Or.inl rfl), h.pocket]
      split
      · rfl
      · next hnew => rw [h.untouched _ hnew]
    · simp [hid, h.pocket]

/-- However much is staged, the transaction was opened where it was. -/
theorem Opened.stageAll (h : Opened w t) (ss : List (Surrogate α)) : Opened w (t.stageAll ss) := by
  induction ss generalizing t with
  | nil => exact h
  | cons s ss ih => exact ih (h.stage s)

/-- To drop a transaction does not touch the tolerance. -/
theorem Opened.epsilon_drop (h : Opened w t) : t.drop.epsilon = w.epsilon := by
  unfold drop
  rw [WorkingSet.epsilon_foldl_restore, h.epsilon]

/-- An entity that was changed goes back to the snapshot there was, or else to what stood there. -/
theorem Opened.get?_drop (h : Opened w t) (id : EntityId) :
    t.drop.get? id = if id ∈ t.touched then (w.pocket.get? id).getD (w.get? id) else w.get? id := by
  unfold drop
  rw [WorkingSet.get?_foldl_restore]
  simp only [List.mem_reverse, h.pocket]
  split
  · rfl
  · next hid => exact h.untouched id hid

/-- The snapshots of what it touched go with it, also those that were there before. -/
theorem Opened.pocket_drop (h : Opened w t) (id : EntityId) :
    t.drop.pocket.get? id = if id ∈ t.touched then none else w.pocket.get? id := by
  unfold drop
  rw [WorkingSet.pocket_foldl_restore]
  simp only [List.mem_reverse, h.pocket]
  split <;> rfl

/-- Nothing is left of the transaction, as long as it changed no entity that had a snapshot. -/
theorem Opened.drop_eq (h : Opened w t) (hnew : ∀ id ∈ t.touched, w.pocket.get? id = none) :
    t.drop = w := by
  refine WorkingSet.ext_get? h.epsilon_drop (fun id => ?_) fun id => ?_
  · rw [h.get?_drop]
    split
    · next hid => rw [hnew id hid, Option.getD_none]
    · rfl
  · rw [h.pocket_drop]
    split
    · next hid => rw [hnew id hid]
    · rfl

/-- The transaction remembers what `w` had at each entity it changed. -/
structure Since (w : WorkingSet α) (t : Transaction α) : Prop where
  epsilon : t.working.epsilon = w.epsilon
  untouched : ∀ id, id ∉ t.touched → t.working.get? id = w.get? id
  pocket : ∀ id, t.working.pocket.get? id = if id ∈ t.touched then some (w.get? id) else none

/-- To remember what was there at the start is to have been opened there
with nothing in the pocket. -/
theorem since_iff : Since w t ↔ Opened { w with pocket := .empty } t :=
  ⟨fun h => ⟨h.epsilon, h.untouched, h.pocket⟩, fun h => ⟨h.epsilon, h.untouched, h.pocket⟩⟩

/-- With nothing in the pocket at first, the two ways to remember the start are one. -/
theorem since_iff_opened (hw : w.pocket = .empty) : Since w t ↔ Opened w t := by
  rw [since_iff, show { w with pocket := .empty } = w from hw ▸ rfl]

/-- A transaction remembers what is there when it is opened. -/
theorem since_start (h : w.pocket = .empty) : Since w { working := w } :=
  (since_iff_opened h).2 (opened_start w)

/-- To stage one more surrogate does not make it forget. -/
theorem Since.stage (h : Since w t) (s : Surrogate α) : Since w (t.stage s) :=
  since_iff.2 ((since_iff.1 h).stage s)

/-- The transaction after the surrogate that a command made, if it made one. -/
def stageIfAny (t : Transaction α) : Option (Surrogate α) → Transaction α
  | none => t
  | some s => t.stage s

theorem Since.stageIfAny (h : Since w t) (made : Option (Surrogate α)) :
    Since w (t.stageIfAny made) := by
  cases made with
  | none => exact h
  | some s => exact h.stage s

theorem Since.stageAll (h : Since w t) (ss : List (Surrogate α)) : Since w (t.stageAll ss) :=
  since_iff.2 ((since_iff.1 h).stageAll ss)

/-- Where something was staged for an entity, one of the surrogates staged stands there. -/
theorem get?_stageAll (ss : List (Surrogate α)) (t : Transaction α) (id : EntityId) :
    (t.stageAll ss).working.get? id = t.working.get? id ∨
      ∃ s ∈ ss, s.id = id ∧ (t.stageAll ss).working.get? id = some s := by
  induction ss generalizing t with
  | nil => exact .inl rfl
  | cons s ss ih =>
    rcases ih (t.stage s) with h | ⟨s', hs', hid, h⟩
    · by_cases hid : id = s.id
      · refine .inr ⟨s, List.mem_cons_self, hid.symm, h.trans ?_⟩
        rw [get?_stage, if_pos hid]
      · refine .inl (h.trans ?_)
        rw [get?_stage, if_neg hid]
    · exact .inr ⟨s', List.mem_cons_of_mem _ hs', hid, h⟩

/-- What is kept is what was staged last. -/
theorem get?_keep (t : Transaction α) (id : EntityId) : t.keep.get? id = t.working.get? id := by
  unfold keep WorkingSet.get?
  rw [(WorkingSet.foldl_commit t.touched t.working).1]

/-- With the effect of a command staged last, what is kept has it. -/
theorem get?_keep_stageIfAny (t : Transaction α) (made : Option (Surrogate α)) (id : EntityId) :
    (t.stageIfAny made).keep.get? id = (t.working.addIfAny made).get? id := by
  rw [get?_keep]
  cases made with
  | none => rfl
  | some s =>
    show (t.stage s).working.get? id = (t.working.add s).get? id
    rw [get?_stage, WorkingSet.get?_add]

/-- Kept or not, the tolerance is the same. -/
theorem Since.keep_epsilon (h : Since w t) : t.keep.epsilon = w.epsilon :=
  (WorkingSet.foldl_commit t.touched t.working).2.1.trans h.epsilon

/-- What is kept has no snapshots any more. -/
theorem Since.keep_pocket (h : Since w t) : t.keep.pocket = .empty := by
  refine Table.ext_get? fun id => ?_
  have hpocket := (WorkingSet.foldl_commit t.touched t.working).2.2 id
  unfold keep
  rw [hpocket, h.pocket]
  split <;> rfl

theorem Since.drop_eq (h : Since w t) (hw : w.pocket = .empty) : t.drop = w :=
  ((since_iff_opened hw).1 h).drop_eq fun id _ => congrArg (·.get? id) hw

end Transaction

end SceneGuard
