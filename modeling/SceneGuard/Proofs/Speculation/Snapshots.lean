import Mathlib.Data.List.Induction
import SceneGuard.Number.Binary
import SceneGuard.Proofs.Results
import SceneGuard.Proofs.Speculation.Staging

/-!
# Snapshots

Surrogates come and go, and snapshots of them are taken, put back and forgotten, one by one or all
at once. What the pocket holds after any such changes is told by their history alone: an entity has
a snapshot when nothing has settled it since it was stashed (`Change.Held`), and of several times
the first one counts (`Change.FirstStashed`). Taking surrogates away, even all of them, leaves the
snapshots as they are. Main statements:

* `pocket_change_of_settles`, `pocket_stash`, `pocket_change_of_ne` — what one change does to a
  snapshot;
* `Remembers.concat`, `remembers_after` — so the pocket goes with the history, change by change;
* `restore_after` — what comes back is what was there before the first stash.
-/

namespace SceneGuard

/-- What is done to a working set. -/
inductive Change (α : Type) where
  | add (s : Surrogate α)
  | remove (id : EntityId)
  | clear
  | stash (id : EntityId)
  | restore (id : EntityId)
  | commit (id : EntityId)
  | restoreAll

namespace WorkingSet

variable {α : Type}

def change (w : WorkingSet α) : Change α → WorkingSet α
  | .add s => w.add s
  | .remove id => w.remove id
  | .clear => w.clear
  | .stash id => w.stash id
  | .restore id => w.restore id
  | .commit id => w.commit id
  | .restoreAll => w.restoreAll

/-- The working set after one change and the other. -/
def after (w : WorkingSet α) (cs : List (Change α)) : WorkingSet α := cs.foldl change w

/-- One more change is made to what the others have left. -/
theorem after_concat (w : WorkingSet α) (cs : List (Change α)) (c : Change α) :
    w.after (cs ++ [c]) = (w.after cs).change c :=
  List.foldl_concat ..

end WorkingSet

/-!
## Histories

What the pocket should hold is told without the pocket, from the list of changes alone. The notions
are taken apart at the end of the list, where the last change stands.
-/

namespace Change

variable {α : Type} {id : EntityId} {past past' cs : List (Change α)} {c : Change α}

/-- An entity that goes back to its snapshot, or is kept as it is, has no snapshot any more. -/
def Settles (id : EntityId) : Change α → Prop
  | .restore x | .commit x => x = id
  | .restoreAll => True
  | .add _ | .remove _ | .clear | .stash _ => False

/-- The entity was stashed after `past`, and nothing has settled it since. -/
def Stashed (id : EntityId) (past cs : List (Change α)) : Prop :=
  ∃ since, cs = past ++ .stash id :: since ∧ ∀ c ∈ since, ¬c.Settles id

/-- Nothing has settled the entity since it was last stashed. -/
def Held (id : EntityId) (cs : List (Change α)) : Prop := ∃ past, Stashed id past cs

/-- The entity was stashed after `past`, for the first time since it was last settled. -/
def FirstStashed (id : EntityId) (past cs : List (Change α)) : Prop :=
  Stashed id past cs ∧ ¬Held id past

/-- A snapshot is the one just taken, or an earlier one that the last change has not settled. -/
theorem stashed_concat :
    Stashed id past (cs ++ [c]) ↔ (c = .stash id ∧ past = cs) ∨
      (¬c.Settles id ∧ Stashed id past cs) := by
  constructor
  · rintro ⟨since, hsplit, hsince⟩
    rcases split_concat hsplit with ⟨rfl, rfl, rfl⟩ | ⟨since', rfl, rfl⟩
    · exact .inl ⟨rfl, rfl⟩
    · obtain ⟨hsince', hc⟩ := List.forall_mem_append.1 hsince
      exact .inr ⟨hc c List.mem_cons_self, since', rfl, hsince'⟩
  · rintro (⟨rfl, rfl⟩ | ⟨hc, since, rfl, hsince⟩)
    · exact ⟨[], rfl, fun _ h => nomatch h⟩
    · refine ⟨since ++ [c], List.append_assoc _ _ _, List.forall_mem_append.2 ⟨hsince, ?_⟩⟩
      exact List.forall_mem_singleton.2 hc

/-- Before the first change nothing is held. -/
theorem not_held_nil : ¬Held (α := α) id [] := by
  rintro ⟨past, since, hsplit, _⟩
  exact List.append_ne_nil_of_right_ne_nil past (List.cons_ne_nil _ since) hsplit.symm

/-- Something is held after a stash, and until a change that settles it. -/
theorem held_concat : Held id (cs ++ [c]) ↔ c = .stash id ∨ (¬c.Settles id ∧ Held id cs) := by
  unfold Held
  simp only [stashed_concat]
  constructor
  · rintro ⟨past, ⟨hc, _⟩ | ⟨hc, hstashed⟩⟩
    · exact .inl hc
    · exact .inr ⟨hc, past, hstashed⟩
  · rintro (hc | ⟨hc, past, hstashed⟩)
    · exact ⟨cs, .inl ⟨hc, rfl⟩⟩
    · exact ⟨past, .inr ⟨hc, hstashed⟩⟩

/-- The first stash counts: one more does not replace a snapshot that is held. -/
theorem firstStashed_concat : FirstStashed id past (cs ++ [c]) ↔
    (c = .stash id ∧ past = cs ∧ ¬Held id cs) ∨ (¬c.Settles id ∧ FirstStashed id past cs) := by
  unfold FirstStashed
  rw [stashed_concat]
  constructor
  · rintro ⟨⟨hc, rfl⟩ | ⟨hc, hstashed⟩, hnew⟩
    · exact .inl ⟨hc, rfl, hnew⟩
    · exact .inr ⟨hc, hstashed, hnew⟩
  · rintro (⟨hc, rfl, hnew⟩ | ⟨hc, hstashed, hnew⟩)
    · exact ⟨.inl ⟨hc, rfl⟩, hnew⟩
    · exact ⟨.inr ⟨hc, hstashed⟩, hnew⟩

theorem FirstStashed.held (h : FirstStashed id past cs) : Held id cs := ⟨past, h.1⟩

/-- An entity in the pocket came there once. -/
theorem FirstStashed.unique (h : FirstStashed id past cs) (h' : FirstStashed id past' cs) :
    past = past' := by
  induction cs using List.reverseRecOn with
  | nil => exact absurd h.held not_held_nil
  | append_singleton cs c ih =>
    rcases firstStashed_concat.1 h with ⟨_, rfl, hnew⟩ | ⟨_, hfirst⟩
    · rcases firstStashed_concat.1 h' with ⟨_, rfl, _⟩ | ⟨_, hfirst'⟩
      · rfl
      · exact absurd hfirst'.held hnew
    · rcases firstStashed_concat.1 h' with ⟨_, rfl, hnew'⟩ | ⟨_, hfirst'⟩
      · exact absurd hfirst.held hnew'
      · exact ih hfirst hfirst'

theorem Held.exists_first (h : Held id cs) : ∃ past, FirstStashed id past cs := by
  induction cs using List.reverseRecOn with
  | nil => exact absurd h not_held_nil
  | append_singleton cs c ih =>
    simp only [firstStashed_concat]
    -- the snapshot was there before, or this change took it
    by_cases hold : Held id cs
    · obtain ⟨past, hfirst⟩ := ih hold
      have hc : ¬c.Settles id := by
        rcases held_concat.1 h with rfl | ⟨hc, _⟩
        · exact False.elim
        · exact hc
      exact ⟨past, .inr ⟨hc, hfirst⟩⟩
    · exact ⟨cs, .inl ⟨(held_concat.1 h).resolve_right fun h => hold h.2, rfl, hold⟩⟩

end Change

namespace WorkingSet

variable {α : Type} {w : WorkingSet α} {id : EntityId} {past cs : List (Change α)} {c : Change α}

/-! ## One change -/

/-- A change that settles an entity takes its snapshot out of the pocket. -/
theorem pocket_change_of_settles (w : WorkingSet α) (hc : c.Settles id) :
    (w.change c).pocket.get? id = none := by
  cases c with
  | restore x =>
    obtain rfl : x = id := hc
    exact (pocket_restore w x x).trans (if_pos rfl)
  | commit x =>
    obtain rfl : x = id := hc
    exact (pocket_commit w x x).trans (if_pos rfl)
  | restoreAll => exact congrArg (·.get? id) (pocket_restoreAll w)
  | add | remove | clear | stash => exact hc.elim

/-- A change that neither stashes an entity nor settles it leaves its snapshot as it is. -/
theorem pocket_change_of_ne (w : WorkingSet α) (hc : ¬c.Settles id) (hne : c ≠ .stash id) :
    (w.change c).pocket.get? id = w.pocket.get? id := by
  cases c with
  | add | remove | clear => rfl
  | stash x =>
    have hid : id ≠ x := fun h => hne (h ▸ rfl)
    exact (pocket_stash w x id).trans (if_neg hid)
  | restore x =>
    have hid : id ≠ x := fun h => hc h.symm
    exact (pocket_restore w x id).trans (if_neg hid)
  | commit x =>
    have hid : id ≠ x := fun h => hc h.symm
    exact (pocket_commit w x id).trans (if_neg hid)
  | restoreAll => exact absurd trivial hc

/-! ## All changes -/

/-- The pocket has for an entity what the history tells. -/
structure Remembers (w : WorkingSet α) (id : EntityId) (cs : List (Change α)) : Prop where
  held : (w.after cs).pocket.contains id = true ↔ Change.Held id cs
  first : ∀ past, Change.FirstStashed id past cs →
    (w.after cs).pocket.get? id = some ((w.after past).get? id)

namespace Remembers

/-- Where nothing is held there is no snapshot. -/
theorem pocket_eq_none (h : w.Remembers id cs) (hnew : ¬Change.Held id cs) :
    (w.after cs).pocket.get? id = none := by
  rw [← h.held, Table.contains, Option.not_isSome_iff_eq_none] at hnew
  exact hnew

/-- A stash takes a snapshot of what stands there, unless there is one. -/
theorem stash (h : w.Remembers id cs) : w.Remembers id (cs ++ [.stash id]) where
  held := by
    rw [after_concat, Change.held_concat, Table.contains, change, pocket_stash, if_pos rfl]
    exact iff_of_true rfl (.inl rfl)
  first past hpast := by
    rw [after_concat, change, pocket_stash, if_pos rfl]
    rcases Change.firstStashed_concat.1 hpast with ⟨_, rfl, hnew⟩ | ⟨_, hfirst⟩
    · rw [h.pocket_eq_none hnew, Option.getD_none]
    · rw [h.first past hfirst, Option.getD_some]

/-- One more change keeps the pocket in line with the history. -/
theorem concat (h : w.Remembers id cs) (c : Change α) : w.Remembers id (cs ++ [c]) := by
  by_cases hstash : c = .stash id
  · exact hstash ▸ h.stash
  -- a change that settles empties the pocket, and any other but a stash leaves it alone
  by_cases hc : c.Settles id
  · have hpocket := (w.after cs).pocket_change_of_settles hc
    rw [← after_concat] at hpocket
    have hnew : ¬Change.Held id (cs ++ [c]) := by
      rw [Change.held_concat]
      exact not_or.2 ⟨hstash, fun h => h.1 hc⟩
    refine ⟨iff_of_false ?_ hnew, fun past hpast => absurd hpast.held hnew⟩
    rw [Table.contains, hpocket]
    exact Bool.false_ne_true
  · have hpocket := (w.after cs).pocket_change_of_ne hc hstash
    rw [← after_concat] at hpocket
    constructor
    · rw [Table.contains, hpocket, ← Table.contains, h.held, Change.held_concat]
      exact ⟨fun hheld => .inr ⟨hc, hheld⟩, fun hheld => (hheld.resolve_left hstash).2⟩
    · intro past hpast
      rw [hpocket]
      rcases Change.firstStashed_concat.1 hpast with ⟨hc', _⟩ | ⟨_, hfirst⟩
      · exact absurd hc' hstash
      · exact h.first past hfirst

end Remembers

/-- Through any changes the pocket has what was there when it was first stashed. -/
theorem remembers_after (hw : w.pocket = .empty) (id : EntityId) (cs : List (Change α)) :
    w.Remembers id cs := by
  induction cs using List.reverseRecOn with
  | nil =>
    refine ⟨iff_of_false ?_ Change.not_held_nil,
      fun past hpast => absurd hpast.held Change.not_held_nil⟩
    rw [after, List.foldl_nil, hw]
    exact Bool.false_ne_true
  | append_singleton cs c ih => exact ih.concat c

/--
After any changes of a working set that started with nothing in the pocket, an entity is in the
pocket when it was stashed after it was last settled. To put it back brings back what was there
right before the first stash since then, and touches no other entity; to put everything back does so
for all of them, and empties the pocket. An entity that is not in the pocket stays as it is.
-/
theorem restore_after (hw : w.pocket = .empty) (cs : List (Change α)) :
    (∀ id, ((w.after cs).pocket.contains id = true ↔ Change.Held id cs) ∧
      (Change.Held id cs ↔ ∃! past, Change.FirstStashed id past cs)) ∧
    (∀ id past, Change.FirstStashed id past cs →
      ((w.after cs).restore id).get? id = (w.after past).get? id ∧
        (w.after cs).restoreAll.get? id = (w.after past).get? id) ∧
    (∀ id x, x ≠ id → ((w.after cs).restore id).get? x = (w.after cs).get? x ∧
      ((w.after cs).restore id).pocket.get? x = (w.after cs).pocket.get? x) ∧
    (w.after cs).restoreAll.pocket = .empty ∧
    ∀ id, ¬Change.Held id cs → (w.after cs).restoreAll.get? id = (w.after cs).get? id ∧
      (w.after cs).restore id = w.after cs ∧ (w.after cs).commit id = w.after cs := by
  -- one invariant of the run says all that the clauses need
  have hremembers := fun id => remembers_after hw id cs
  refine ⟨fun id => ⟨(hremembers id).held, ?_⟩, fun id past hpast => ?_, fun id x hx => ?_,
    pocket_restoreAll _, fun id hnew => ?_⟩
  · constructor
    · intro hheld
      obtain ⟨past, hpast⟩ := hheld.exists_first
      exact ⟨past, hpast, fun _ hpast' => hpast'.unique hpast⟩
    · rintro ⟨past, hpast, _⟩
      exact hpast.held
  · rw [get?_restore, if_pos rfl, get?_restoreAll, (hremembers id).first past hpast,
      Option.getD_some]
    exact ⟨rfl, rfl⟩
  · rw [get?_restore, if_neg hx, pocket_restore, if_neg hx]
    exact ⟨rfl, rfl⟩
  · have hpocket := (hremembers id).pocket_eq_none hnew
    rw [get?_restoreAll, hpocket, Option.getD_none]
    exact ⟨rfl, restore_of_pocket hpocket, commit_of_pocket hpocket⟩

end WorkingSet

/-- A box of size one. -/
def box (id : EntityId) (x : Float) : Surrogate Float :=
  { Surrogate.ofEntity (Entity.new id .model (.splat 1)) with position := ⟨x, 0, 0⟩ }

/-- A yard with one box in it. -/
def yard : WorkingSet Float where
  epsilon := 0
  surrogates := .ofList [(1, box 1 0)]

/-- The box is pushed around, a second one appears on the way, and a third one comes to stay. -/
def pushes : List (Change Float) :=
  [.stash 1, .add (box 1 5), .stash 1, .stash 2, .add (box 2 0), .clear, .stash 3,
    .add (box 3 5), .commit 3]

/-- The first box goes back to where it was, the second one is gone again,
and the third one stays. -/
theorem WorkingSet.restore_after_pushes :
    yard.pocket = .empty ∧
    Change.FirstStashed 1 [] pushes ∧ ((yard.after pushes).restore 1).get? 1 = some (box 1 0) ∧
    Change.FirstStashed 2 (pushes.take 3) pushes ∧ (yard.after pushes).restoreAll.get? 2 = none ∧
    ¬Change.Held 3 pushes ∧ (yard.after pushes).restore 3 = yard.after pushes := by
  have hempty : yard.pocket = .empty := rfl
  obtain ⟨hheld, hback, _, _, hstay⟩ := restore_after hempty pushes
  have hfirst : Change.FirstStashed 1 [] pushes :=
    ⟨⟨pushes.tail, rfl, by simp [pushes, Change.Settles]⟩, Change.not_held_nil⟩
  have hnew : ¬Change.Held 2 (pushes.take 3) := by
    rw [← ((restore_after hempty (pushes.take 3)).1 2).1]
    decide
  have hsecond : Change.FirstStashed 2 (pushes.take 3) pushes :=
    ⟨⟨pushes.drop 4, rfl, by simp [pushes, Change.Settles]⟩, hnew⟩
  have hkept : ¬Change.Held 3 pushes := by
    rw [← (hheld 3).1]
    decide
  have hthere : yard.get? 1 = some (box 1 0) := rfl
  exact ⟨hempty, hfirst, (hback 1 [] hfirst).1.trans hthere, hsecond, (hback 2 _ hsecond).2, hkept,
    (hstay 3 hkept).2.1⟩

end SceneGuard
