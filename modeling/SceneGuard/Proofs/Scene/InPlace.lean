import SceneGuard.Proofs.Scene.Commands

/-!
# Applying commands in place

`Scene.edit` gives a scene or a refusal, so a refused edit has no scene to leave half changed.
`InPlace` spells out the writes of each edit one after the other, with every look-up where it stands
between them, on one scene that keeps what was written before a look-up failed. The two agree
(`run_perform`): every look-up that can fail comes before the first write, or is of an entity that
was found before it. That needs nothing of the scene, whose links may be broken. Command by command
this is `apply_leafwise`.
-/

namespace SceneGuard

/-- A program that changes one scene as it goes, and may fail on the way. -/
abbrev InPlace (α β : Type) := EStateM SceneError (Scene α) β

namespace InPlace

open Scene (enlist adopt delist)

variable {α : Type}

/-! ## The programs -/

/-- The entity at a number that must be there. -/
def require (id : EntityId) : InPlace α (Entity α) := do
  match (← get).get? id with
  | some e => return e
  | none => throw (.entityNotFound id)

/-- Change the entity at a number that must be there. -/
def alter (id : EntityId) (f : Entity α → Entity α) : InPlace α Unit := do
  let _ ← require id
  modify fun s => s.modify id f

/-- Change the entity at a number, if there is one. -/
def amend (id : EntityId) (f : Entity α → Entity α) : InPlace α Unit :=
  modify fun s => s.modify id f

/-- Add an entity: to its parent's list, then to the scene. -/
def insert (e : Entity α) : InPlace α Unit := do
  if (← get).entities.contains e.id then
    throw (.duplicateEntity e.id)
  e.parent.forM fun p => alter p (enlist e.id)
  modify fun s => { s with entities := s.entities.insert e.id e }

/-- Take an entity out, hand its children to its parent,
and leave the zone if it was the active one. -/
def remove (id : EntityId) : InPlace α (Entity α) := do
  let e ← require id
  modify fun s => { s with entities := s.entities.erase id }
  e.parent.forM fun p => amend p (adopt id e.children)
  forM e.children fun c => amend c fun q => { q with parent := e.parent }
  modify fun s => { s with activeZone := if s.activeZone = some id then none else s.activeZone }
  return e

/-- Check a new parent: it is there, and outside of what hangs below the entity. -/
def permit (id p : EntityId) : InPlace α Unit := do
  let _ ← require p
  if (← get).isAncestor id p then
    throw (.cycle id p)

/-- Hang an entity under another parent. The new parent and the entity are looked up again after the
old parent was written. -/
def reparent (id : EntityId) (target : Attachment α) : InPlace α Unit := do
  target.parent.forM fun p => permit id p
  let e ← require id
  if e.parent = target.parent then
    alter id fun e => { e with position := target.position }
  else
    e.parent.forM fun p => amend p (delist id)
    target.parent.forM fun p => alter p fun q => { q with children := q.children ++ [id] }
    alter id fun e => { e with parent := target.parent, position := target.position }

/-- Make one edit. -/
def edit : Edit α → InPlace α Unit
  | .add _ e => insert e
  | .remove _ id => do
    let _ ← remove id
  | .move id _ after => alter id fun e => { e with position := after }
  | .rotate id _ after => alter id fun e => { e with rotation := after }
  | .scale id _ after =>
    alter id fun e => { e with position := after.position, scale := after.scale }
  | .reparent id _ after => reparent id after
  | .changeProperty id key _ after => alter id fun e => e.setProperty key after

mutual

/-- Perform a command, member by member. -/
def perform : Command α → InPlace α Unit
  | .single _ e => edit e
  | .composite _ _ ms => performAll ms

def performAll : List (Command α) → InPlace α Unit
  | [] => return
  | c :: cs => do
    perform c
    performAll cs

end

/-!
## What they leave behind

Program by program it is shown that a failure leaves the scene whole. A reparenting is the one with
a look-up behind a write, and what it looks up there was found before.
-/

/-- The end of a program that changes `s` as a whole or leaves it as it was. -/
def whole (s : Scene α) : Except SceneError (Scene α) → EStateM.Result SceneError (Scene α) Unit
  | .ok t => .ok () t
  | .error x => .error x s

/-- The scene and the answer of an application as the end of a program. -/
def reported : Scene α × Except SceneError Unit → EStateM.Result SceneError (Scene α) Unit
  | (t, .ok ()) => .ok () t
  | (t, .error x) => .error x t

variable (s : Scene α)

/-- To require an entity finds it or fails, and changes nothing. -/
theorem run_require (id : EntityId) :
    (require id).run s = match s.get? id with
      | some e => .ok e s
      | none => .error (.entityNotFound id) s := by
  unfold require
  simp only [EStateM.run_bind, EStateM.run_get]
  cases s.get? id <;> rfl

/-- To alter an entity changes it if it is there, and fails before any change if it is not. -/
theorem run_alter (id : EntityId) (f : Entity α → Entity α) :
    (alter id f).run s = match s.get? id with
      | some _ => .ok () (s.modify id f)
      | none => .error (.entityNotFound id) s := by
  unfold alter
  rw [EStateM.run_bind, run_require]
  cases s.get? id <;> rfl

/-- To amend does nothing where nothing is. -/
theorem run_amend (id : EntityId) (f : Entity α → Entity α) :
    (amend id f).run s = .ok () (s.modify id f) := rfl

/-- With nothing to do for, nothing is done. -/
theorem run_forM_option {β : Type} (o : Option β) (f : β → InPlace α Unit) :
    (o.forM f).run s = match o with
      | some b => (f b).run s
      | none => .ok () s := by
  cases o <;> rfl

/-- To amend several is to amend one after the other. -/
theorem run_amend_all (f : Entity α → Entity α) (cs : List EntityId) :
    (forM cs fun c => amend c f).run s = .ok () (cs.foldl (fun s c => s.modify c f) s) := by
  induction cs generalizing s with
  | nil => rfl
  | cons c cs ih =>
    rw [List.forM_cons, EStateM.run_bind, run_amend, List.foldl_cons]
    exact ih _

/-- The number and the parent are looked at before the parent's list is written. -/
theorem run_insert (e : Entity α) : (insert e).run s = whole s (s.insert e) := by
  unfold insert Scene.insert
  simp only [EStateM.run_bind, EStateM.run_get]
  cases s.entities.contains e.id with
  | true => rfl
  | false =>
    simp only [Bool.false_eq_true, if_false, EStateM.run_bind, run_forM_option]
    cases e.parent with
    | none => rfl
    | some p =>
      simp only [run_alter, Scene.require]
      cases s.get? p <;> rfl

/-- Only the first look-up of a removal can fail. -/
theorem run_remove (id : EntityId) :
    (remove id).run s = match s.remove id with
      | .ok (e, t) => .ok e t
      | .error x => .error x s := by
  unfold remove
  rw [EStateM.run_bind, run_require]
  cases hid : s.get? id with
  | none => simp only [Scene.remove, Scene.require, hid]; rfl
  | some e =>
    rw [Scene.remove_eq_ok.2 ⟨hid, rfl⟩]
    unfold Scene.removed
    simp only [EStateM.run_bind, EStateM.run_modify, run_forM_option]
    cases e.parent <;> simp only [run_amend, run_amend_all] <;> rfl

/-- To permit looks for the parent and for a cycle, and changes nothing. -/
theorem run_permit (id p : EntityId) :
    (permit id p).run s = match s.get? p with
      | some _ => if s.isAncestor id p then .error (.cycle id p) s else .ok () s
      | none => .error (.entityNotFound p) s := by
  unfold permit
  rw [EStateM.run_bind, run_require]
  cases s.get? p with
  | none => rfl
  | some q =>
    simp only [EStateM.run_bind, EStateM.run_get]
    split <;> rfl

/-- Before a reparenting the scene makes the checks of `permit` and looks the entity up. -/
theorem run_permits (id : EntityId) (target : Attachment α) :
    (∃ x, (target.parent.forM fun p => permit id p).run s = .error x s ∧
      s.reparent id target = .error x) ∨
    ((target.parent.forM fun p => permit id p).run s = .ok () s ∧ s.Admits id target.parent ∧
      (s.get? id = none → s.reparent id target = .error (.entityNotFound id))) := by
  rw [run_forM_option]
  unfold Scene.reparent
  -- without a parent nothing is asked; with one it must exist and not lie below the entity
  cases hparent : target.parent with
  | none =>
    refine .inr ⟨rfl, fun p hp => (nomatch hp), fun hid => ?_⟩
    simp only [Scene.require, hid]
    rfl
  | some p =>
    simp only [run_permit, Scene.require]
    cases hp : s.get? p with
    | none => exact .inl ⟨_, rfl, rfl⟩
    | some q =>
      cases hcycle : s.isAncestor id p with
      | true => exact .inl ⟨_, rfl, rfl⟩
      | false =>
        refine .inr ⟨rfl, fun p' hp' => ?_, fun hid => ?_⟩
        · cases hp'
          exact ⟨⟨q, hp⟩, hcycle⟩
        · simp only [hid]
          rfl

variable {s}

theorem isSome_get?_modify {id x : EntityId} (f : Entity α → Entity α) (h : (s.get? x).isSome) :
    ((s.modify id f).get? x).isSome := by
  rw [Scene.get?_modify]
  split
  · next hx => rw [← hx, Option.isSome_map, h]
  · exact h

theorem isSome_get?_loosen {id x : EntityId} (parent : Option EntityId) (h : (s.get? x).isSome) :
    ((s.loosen parent id).get? x).isSome := by
  cases parent with
  | none => exact h
  | some p => exact isSome_get?_modify _ h

theorem isSome_get?_fasten {id x : EntityId} (parent : Option EntityId) (h : (s.get? x).isSome) :
    ((s.fasten parent id).get? x).isSome := by
  cases parent with
  | none => exact h
  | some p => exact isSome_get?_modify _ h

/-- What is known to be there can be altered. -/
theorem run_alter_of_isSome {id : EntityId} (f : Entity α → Entity α) (h : (s.get? id).isSome) :
    (alter id f).run s = .ok () (s.modify id f) := by
  obtain ⟨e, he⟩ := Option.isSome_iff_exists.1 h
  rw [run_alter, he]

/-- To loosen takes the entity off the list of its parent, if it has one. -/
theorem run_loosen (parent : Option EntityId) (id : EntityId) :
    (parent.forM fun p => amend p (delist id)).run s = .ok () (s.loosen parent id) := by
  cases parent <;> rfl

/-- To fasten puts it on the list of its parent, which is there. -/
theorem run_fasten {parent : Option EntityId} (id : EntityId)
    (h : ∀ p, parent = some p → (s.get? p).isSome) :
    (parent.forM fun p => alter p fun q => { q with children := q.children ++ [id] }).run s =
      .ok () (s.fasten parent id) := by
  cases parent with
  | none => rfl
  | some p =>
    rw [run_forM_option]
    exact run_alter_of_isSome _ (h p rfl)

/-- What is found before the first write of a reparenting is found again after it. -/
theorem run_reparent (id : EntityId) (target : Attachment α) :
    (reparent id target).run s = whole s (s.reparent id target) := by
  unfold reparent
  simp only [EStateM.run_bind]
  obtain ⟨x, hrun, hrefused⟩ | ⟨hrun, hadmits, habsent⟩ := run_permits s id target
  · rw [hrun, hrefused]
    rfl
  rw [hrun]
  simp only [run_require]
  cases hid : s.get? id with
  | none =>
    rw [habsent hid]
    rfl
  | some e =>
    rw [Scene.reparent_of_admits hadmits hid]
    unfold Scene.reparented
    have hfound : (s.get? id).isSome := by rw [hid]; rfl
    -- the new parent is there also after the old one has let go
    have hnew : ∀ p, target.parent = some p → ((s.loosen e.parent id).get? p).isSome :=
        fun p hp => by
      obtain ⟨⟨q, hq⟩, -⟩ := hadmits p hp
      exact isSome_get?_loosen _ (by rw [hq]; rfl)
    simp only [whole]
    split
    · exact run_alter_of_isSome _ hfound
    · simp only [EStateM.run_bind, run_loosen, run_fasten id hnew]
      exact run_alter_of_isSome _ (isSome_get?_fasten _ (isSome_get?_loosen _ hfound))

/-- To alter is to update, or to leave the scene whole. -/
theorem run_update (id : EntityId) (f : Entity α → Entity α) :
    (alter id f).run s = whole s (s.update id f) := by
  unfold Scene.update Scene.require
  rw [run_alter]
  cases s.get? id <;> rfl

/-- No edit fails after a write. -/
theorem run_edit (s : Scene α) (e : Edit α) : (edit e).run s = whole s (s.edit e) := by
  cases e with
  | add role e => exact run_insert s e
  | remove role id =>
    simp only [edit, Scene.edit, EStateM.run_bind, run_remove]
    rcases s.remove id with _ | ⟨e, t⟩ <;> rfl
  | move id before after => exact run_update id _
  | rotate id before after => exact run_update id _
  | scale id before after => exact run_update id _
  | reparent id before after => exact run_reparent id after
  | changeProperty id key before after => exact run_update id _

mutual

/-- Performing a command in place ends with the scene and the answer of `Scene.apply`. -/
theorem run_perform : ∀ (s : Scene α) (c : Command α), (perform c).run s = reported (s.apply c)
  | s, .single _ e => by
    unfold perform
    rw [run_edit, Scene.apply_single]
    cases s.edit e <;> rfl
  | s, .composite _ _ ms => run_performAll s ms

/-- Commands are performed as they are applied, and the scene is left where the first one failed. -/
theorem run_performAll : ∀ (s : Scene α) (cs : List (Command α)),
    (performAll cs).run s = reported (s.applyAll cs)
  | _, [] => rfl
  | s, c :: cs => by
    unfold performAll Scene.applyAll
    rw [EStateM.run_bind, run_perform s c]
    rcases s.apply c with ⟨t, x | _⟩
    · rfl
    · exact run_performAll t cs

end

end InPlace

open InPlace in
/-- **A command is its single commands** in depth-first order, up to the first that fails, and one
that fails on its own has written nothing. -/
theorem Scene.apply_leafwise (s : Scene α) (c : Command α) :
    ((perform c).run s = reported (s.apply c) ∧ (perform c).run s = (performAll c.leaves).run s ∧
      s.apply c = s.applyAll c.leaves) ∧
    ∀ (t : Scene α) (h : Header) (e : Edit α),
      (∃ u, (perform (.single h e)).run t = .ok () u ∧ t.apply (.single h e) = (u, .ok ())) ∨
      ∃ x, (perform (.single h e)).run t = .error x t ∧ t.apply (.single h e) = (t, .error x) := by
  have hleaves : s.applyAll c.leaves = s.apply c := applyAll_leaves s c
  refine ⟨⟨run_perform s c, ?_, hleaves.symm⟩, fun t h e => ?_⟩
  · rw [run_perform, run_performAll, hleaves]
  · rw [run_perform, apply_single]
    cases t.edit e with
    | ok u => exact .inl ⟨u, rfl, rfl⟩
    | error x => exact .inr ⟨x, rfl, rfl⟩

end SceneGuard
