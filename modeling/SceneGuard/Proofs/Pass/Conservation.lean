import Mathlib.Algebra.Order.Group.Multiset
import Mathlib.Data.List.Induction
import Mathlib.Tactic.Abel
import SceneGuard.Pass.Queues

/-!
# Queues lose nothing

A run of steps on the queues keeps a ledger of what the queues hand out, what a clearing drops, and
in which order commands become pending (`Queues.Ledger`). Main statements:

* `Queues.exists_remove?`, `Queues.waiting_remove?` — a command that waits is taken out of its queue
  by its number, and nothing else changes;
* `Queues.Ledger.balanced_record`, `Queues.Ledger.balanced_of` — what was put in is what waits, what
  was handed out and what was dropped (`Queues.Ledger.Balanced`);
* `Queues.Ledger.continues_of` — and what is recorded stands;
* `Queues.conserved` — so a command put in once waits in one queue until it is handed out or
  dropped, and pending commands are handed out in the order in which they became pending.
-/

namespace SceneGuard

namespace Queues

variable {α : Type} {q q' : Queues α} {c : Command α} {id : CommandId}

/-- What waits in some queue. -/
def waiting (q : Queues α) : List (Command α) := q.pending ++ q.approved ++ q.issued

/-! ## What is handed out -/

/-- The commands but one stay as they are, in their order. -/
theorem take?_eq_some {l rest : List (Command α)} (h : take? id l = some (c, rest)) :
    c.id = id ∧ ∃ before after, l = before ++ c :: after ∧ rest = before ++ after := by
  induction l generalizing rest with
  | nil => simp [take?] at h
  | cons d l ih =>
    unfold take? at h
    split at h
    case isTrue hd =>
      obtain ⟨rfl, rfl⟩ := Prod.mk.inj (Option.some.inj h)
      exact ⟨hd, [], l, rfl, rfl⟩
    case isFalse =>
      obtain ⟨⟨c', rest'⟩, htake, hpair⟩ := Option.map_eq_some_iff.1 h
      obtain ⟨rfl, rfl⟩ := Prod.mk.inj hpair
      obtain ⟨hid, before, after, hl, hrest⟩ := ih htake
      exact ⟨hid, d :: before, after, by rw [hl, List.cons_append], by rw [hrest, List.cons_append]⟩

/-- Nothing is taken where no command has the number. -/
theorem take?_eq_none {l : List (Command α)} : take? id l = none ↔ ∀ d ∈ l, d.id ≠ id := by
  induction l with
  | nil => simp [take?]
  | cons d l ih =>
    unfold take?
    by_cases hd : d.id = id <;> simp [hd, ih]

/-- What is taken and what is left are what was there. -/
theorem perm_take? {l rest : List (Command α)} (h : take? id l = some (c, rest)) :
    l.Perm (c :: rest) := by
  obtain ⟨-, before, after, rfl, rfl⟩ := take?_eq_some h
  exact List.perm_middle

theorem sublist_take? {l rest : List (Command α)} (h : take? id l = some (c, rest)) :
    rest.Sublist l := by
  obtain ⟨-, before, after, rfl, rfl⟩ := take?_eq_some h
  exact (List.sublist_cons_self c after).append_left before

/-- The next command is the first of those pending. -/
theorem next?_eq_some (h : q.next? = some (c, q')) :
    q = { q' with pending := c :: q'.pending } := by
  unfold next? at h
  split at h
  case h_1 => simp at h
  case h_2 d rest hpending =>
    obtain ⟨rfl, rfl⟩ := Prod.mk.inj (Option.some.inj h)
    simp [← hpending]

/-- The next command comes from the pending ones. -/
theorem issued_next? (h : q.next? = some (c, q')) : q'.issued = q.issued := by
  rw [next?_eq_some h]

/-- The queue that a command is taken out of. -/
theorem remove?_eq_some (h : q.remove? id = some (c, q')) :
    (∃ rest, take? id q.pending = some (c, rest) ∧ q' = { q with pending := rest }) ∨
      (∃ rest, take? id q.approved = some (c, rest) ∧ q' = { q with approved := rest }) ∨
      ∃ rest, take? id q.issued = some (c, rest) ∧ q' = { q with issued := rest } := by
  unfold remove? at h
  split at h
  -- the three queues in the order in which they are searched
  case h_1 d rest hp =>
    obtain ⟨rfl, rfl⟩ := Prod.mk.inj (Option.some.inj h)
    exact .inl ⟨rest, hp, rfl⟩
  case h_2 d rest _ ha =>
    obtain ⟨rfl, rfl⟩ := Prod.mk.inj (Option.some.inj h)
    exact .inr (.inl ⟨rest, ha, rfl⟩)
  case h_3 d rest _ _ hi =>
    obtain ⟨rfl, rfl⟩ := Prod.mk.inj (Option.some.inj h)
    exact .inr (.inr ⟨rest, hi, rfl⟩)
  case h_4 => simp at h

/-- A command that is taken out has waited, and all others go on waiting. -/
theorem waiting_remove? (h : q.remove? id = some (c, q')) : q.waiting.Perm (c :: q'.waiting) := by
  unfold waiting
  obtain ⟨rest, htake, rfl⟩ | ⟨rest, htake, rfl⟩ | ⟨rest, htake, rfl⟩ := remove?_eq_some h
  · exact ((perm_take? htake).append_right _).append_right _
  · calc q.pending ++ q.approved ++ q.issued
      _ = q.pending ++ (q.approved ++ q.issued) := List.append_assoc _ _ _
      List.Perm _ (q.pending ++ (c :: rest ++ q.issued)) :=
        ((perm_take? htake).append_right _).append_left _
      List.Perm _ (c :: (q.pending ++ (rest ++ q.issued))) := List.perm_middle
      _ = c :: (q.pending ++ rest ++ q.issued) := by rw [List.append_assoc]
  · exact ((perm_take? htake).append_left _).trans List.perm_middle

/-- The command that is removed has the number that was asked for. -/
theorem id_of_remove? (h : q.remove? id = some (c, q')) : c.id = id := by
  obtain ⟨rest, htake, -⟩ | ⟨rest, htake, -⟩ | ⟨rest, htake, -⟩ := remove?_eq_some h <;>
    exact (take?_eq_some htake).1

/-- If none is removed, none that waits has the number. -/
theorem remove?_eq_none (h : q.remove? id = none) : ∀ d ∈ q.waiting, d.id ≠ id := by
  unfold remove? at h
  split at h
  case h_4 hp ha hi =>
    intro d hd
    obtain (hd | hd) | hd : (d ∈ q.pending ∨ d ∈ q.approved) ∨ d ∈ q.issued := by
      simpa only [waiting, List.mem_append] using hd
    exacts [take?_eq_none.1 hp d hd, take?_eq_none.1 ha d hd, take?_eq_none.1 hi d hd]
  all_goals simp at h

/-- Where the numbers differ, each command that waits can be taken out by its number. -/
theorem exists_remove? (h : (q.waiting.map Command.id).Nodup) (hc : c ∈ q.waiting) :
    ∃ q', q.remove? c.id = some (c, q') := by
  cases hremove : q.remove? c.id with
  | none => exact absurd rfl (remove?_eq_none hremove c hc)
  | some taken =>
    obtain ⟨d, q'⟩ := taken
    have hd : d ∈ q.waiting := (waiting_remove? hremove).mem_iff.2 List.mem_cons_self
    obtain rfl : d = c := List.inj_on_of_nodup_map h hd hc (id_of_remove? hremove)
    exact ⟨q', rfl⟩

/-- A removal takes no more than one of the pending commands. -/
theorem pending_remove? (h : q.remove? id = some (c, q')) : q'.pending.Sublist q.pending := by
  obtain ⟨rest, htake, rfl⟩ | ⟨rest, -, rfl⟩ | ⟨rest, -, rfl⟩ := remove?_eq_some h
  exacts [sublist_take? htake, .refl _, .refl _]

theorem issued_remove? (h : q.remove? id = some (c, q')) : q'.issued.Sublist q.issued := by
  obtain ⟨rest, -, rfl⟩ | ⟨rest, -, rfl⟩ | ⟨rest, htake, rfl⟩ := remove?_eq_some h
  exacts [.refl _, .refl _, sublist_take? htake]

/-!
## Runs

The ledger is the history of a run, as far as commands go: what was put in, what was handed out and
in which way, and what was dropped. Queues remember none of that.
-/

/-- What can be done to the queues. -/
inductive Step (α : Type) where
  | addPending (c : Command α)
  | addApproved (c : Command α)
  | issue (c : Command α)
  | next
  | remove (id : CommandId)
  | splice
  | clearIssued
  | clear

namespace Step

/-- The command that a step puts into a queue. -/
def inserted? : Step α → Option (Command α)
  | addPending c | addApproved c | issue c => some c
  | _ => none

/-- The command that a step issues. -/
def issued? : Step α → Option (Command α)
  | issue c => some c
  | _ => none

end Step

/-- The queues, and what came of the commands that were put into them. -/
structure Ledger (α : Type) where
  queues : Queues α := {}
  /-- Commands in the order in which they became pending. -/
  entered : List (Command α) := []
  /-- What was next, in the order in which it was handed out. -/
  served : List (Command α) := []
  /-- What was taken out by its number. -/
  removed : List (Command α) := []
  /-- What a clearing dropped. -/
  dropped : List (Command α) := []

namespace Ledger

variable {l : Ledger α} {steps : List (Step α)}

/-- The ledger after one more step. -/
def record (l : Ledger α) : Step α → Ledger α
  | .addPending c => { l with queues := l.queues.addPending c, entered := l.entered ++ [c] }
  | .addApproved c => { l with queues := l.queues.addApproved c }
  | .issue c => { l with queues := l.queues.issue c }
  | .next =>
    match l.queues.next? with
    | some (c, q) => { l with queues := q, served := l.served ++ [c] }
    | none => l
  | .remove id =>
    match l.queues.remove? id with
    | some (c, q) => { l with queues := q, removed := l.removed ++ [c] }
    | none => l
  | .splice => { l with queues := l.queues.splice, entered := l.entered ++ l.queues.issued }
  | .clearIssued =>
    { l with queues := l.queues.clearIssued, dropped := l.dropped ++ l.queues.issued }
  | .clear => { l with queues := l.queues.clear, dropped := l.dropped ++ l.queues.waiting }

/-- The ledger of a run that starts with empty queues. -/
def of (steps : List (Step α)) : Ledger α := steps.foldl record {}

/-- The ledger of one more step is that of the others with this step put down. -/
theorem of_concat (steps : List (Step α)) (step : Step α) :
    of (steps ++ [step]) = (of steps).record step := by
  rw [of, List.foldl_append]
  rfl

/-- What waits no more: it was handed out or dropped. -/
def gone (l : Ledger α) : List (Command α) := l.served ++ l.removed ++ l.dropped

/-- Each command that the steps put in is accounted for once, and orders are kept. -/
structure Balanced (l : Ledger α) (steps : List (Step α)) : Prop where
  /-- What was put in waits or is gone. -/
  kept : (steps.filterMap Step.inserted? : Multiset (Command α)) = l.queues.waiting + l.gone
  /-- What became pending was put in once for it, and what is issued has yet to become pending. -/
  entered : (l.entered + l.queues.issued : Multiset (Command α)) ≤ steps.filterMap Step.inserted?
  /-- What is pending came after what was served. -/
  inOrder : (l.served ++ l.queues.pending).Sublist l.entered
  /-- Issued commands wait in the order in which they were issued. -/
  issueOrder : l.queues.issued.Sublist (steps.filterMap Step.issued?)

theorem filterMap_concat {β : Type} (f : Step α → Option β) (steps : List (Step α))
    (step : Step α) : (steps ++ [step]).filterMap f = steps.filterMap f ++ (f step).toList := by
  rw [List.filterMap_append]
  cases hf : f step <;> simp [hf]

/-- Waiting is what stands in one of the three queues, regardless of the order. -/
theorem coe_waiting (q : Queues α) :
    (q.waiting : Multiset (Command α)) = q.pending + q.approved + q.issued :=
  rfl

/-- Gone is what was served, removed or dropped, regardless of the order. -/
theorem coe_gone (l : Ledger α) :
    (l.gone : Multiset (Command α)) = l.served + l.removed + l.dropped := rfl

/-- What the one ledger has recorded stands in the other, which may have more. -/
structure Continues (l l' : Ledger α) : Prop where
  entered : l.entered <+: l'.entered
  served : l.served <+: l'.served
  removed : l.removed <+: l'.removed
  dropped : l.dropped <+: l'.dropped

namespace Continues

variable {l' l'' : Ledger α}

theorem refl (l : Ledger α) :
    l.Continues l := ⟨List.prefix_rfl, List.prefix_rfl, List.prefix_rfl, List.prefix_rfl⟩

/-- A ledger that continues another continues what that one continues. -/
theorem trans (h : l.Continues l') (h' : l'.Continues l'') : l.Continues l'' :=
  ⟨h.entered.trans h'.entered, h.served.trans h'.served, h.removed.trans h'.removed,
    h.dropped.trans h'.dropped⟩

end Continues

/-!
## What one step does

A step puts a command in, or moves some from one place to another. The balance says that all places
together hold what was put in, so each step is checked for what it moves.
-/

/-- No step takes back what is recorded. -/
theorem continues_record (l : Ledger α) (step : Step α) : l.Continues (l.record step) := by
  -- each operation appends to one account at most and never takes from one
  cases step with
  | addApproved c | issue c =>
    exact ⟨List.prefix_rfl, List.prefix_rfl, List.prefix_rfl, List.prefix_rfl⟩
  | addPending c | splice =>
    exact ⟨List.prefix_append _ _, List.prefix_rfl, List.prefix_rfl, List.prefix_rfl⟩
  | next =>
    cases hnext : l.queues.next? with
    | none =>
      simp only [record, hnext]
      exact .refl l
    | some taken =>
      simp only [record, hnext]
      exact ⟨List.prefix_rfl, List.prefix_append _ _, List.prefix_rfl, List.prefix_rfl⟩
  | remove id =>
    cases hremove : l.queues.remove? id with
    | none =>
      simp only [record, hremove]
      exact .refl l
    | some taken =>
      simp only [record, hremove]
      exact ⟨List.prefix_rfl, List.prefix_rfl, List.prefix_append _ _, List.prefix_rfl⟩
  | clearIssued | clear =>
    exact ⟨List.prefix_rfl, List.prefix_rfl, List.prefix_rfl, List.prefix_append _ _⟩

/-- Further steps continue the ledger of the earlier ones. -/
theorem continues_of (before after : List (Step α)) :
    (of before).Continues (of (before ++ after)) := by
  induction after using List.reverseRecOn with
  | nil =>
    rw [List.append_nil]
    exact .refl _
  | append_singleton after step ih =>
    rw [← List.append_assoc, of_concat]
    exact ih.trans (continues_record _ step)

/-- A step accounts for what it puts in, and moves the rest from one place to another. -/
theorem kept_record (h : l.Balanced steps) (step : Step α) :
    ((steps ++ [step]).filterMap Step.inserted? : Multiset (Command α)) =
      (l.record step).queues.waiting + (l.record step).gone := by
  rw [filterMap_concat, ← Multiset.coe_add, h.kept, coe_gone, coe_gone]
  -- what goes in is added on both sides; what only moves is on the right before and after
  cases step with
  | addPending c | addApproved c | issue c =>
    simp only [record, addPending, addApproved, issue, Step.inserted?,
      Option.toList_some, coe_waiting, ← Multiset.coe_add]
    abel
  | splice | clearIssued | clear =>
    simp only [record, splice, clearIssued, clear, Step.inserted?, Option.toList_none,
      Multiset.coe_nil, coe_waiting, ← Multiset.coe_add]
    abel
  | next =>
    cases hnext : l.queues.next? with
    | none =>
      simp only [record, hnext, Step.inserted?, Option.toList_none, Multiset.coe_nil, add_zero]
    | some taken =>
      obtain ⟨c, q⟩ := taken
      simp only [record, hnext, Step.inserted?, Option.toList_none, coe_waiting, ← Multiset.coe_add,
        Multiset.coe_nil]
      rw [next?_eq_some hnext]
      simp only [← Multiset.cons_coe, ← Multiset.singleton_add]
      abel
  | remove id =>
    cases hremove : l.queues.remove? id with
    | none =>
      simp only [record, hremove, Step.inserted?, Option.toList_none, Multiset.coe_nil, add_zero]
    | some taken =>
      obtain ⟨c, q⟩ := taken
      simp only [record, hremove, Step.inserted?, Option.toList_none, ← Multiset.coe_add,
        Multiset.coe_nil]
      rw [Multiset.coe_eq_coe.2 (waiting_remove? hremove)]
      simp only [← Multiset.cons_coe, ← Multiset.singleton_add]
      abel

/-- A command becomes pending as it is put in, or after it was issued and before it is gone. -/
theorem entered_record (h : l.Balanced steps) (step : Step α) :
    ((l.record step).entered + (l.record step).queues.issued : Multiset (Command α)) ≤
      (steps ++ [step]).filterMap Step.inserted? := by
  rw [filterMap_concat, ← Multiset.coe_add]
  have hentered := h.entered
  cases step with
  | addPending c =>
    simp only [record, addPending, Step.inserted?, Option.toList_some, ← Multiset.coe_add]
    rw [add_right_comm]
    exact add_le_add_left hentered _
  | addApproved c => exact hentered.trans (Multiset.le_add_right _ _)
  | issue c =>
    simp only [record, issue, Step.inserted?, Option.toList_some, ← Multiset.coe_add]
    rw [← add_assoc]
    exact add_le_add_left hentered _
  | next =>
    refine le_trans ?_ (hentered.trans (Multiset.le_add_right _ _))
    cases hnext : l.queues.next? with
    | none => simp only [record, hnext, le_refl]
    | some taken => simp only [record, hnext, issued_next? hnext, le_refl]
  | remove id =>
    refine le_trans ?_ (hentered.trans (Multiset.le_add_right _ _))
    cases hremove : l.queues.remove? id with
    | none => simp only [record, hremove, le_refl]
    | some taken =>
      simp only [record, hremove]
      exact add_le_add_right (Multiset.coe_le.2 (issued_remove? hremove).subperm) _
  | splice =>
    -- the issued commands enter, and nothing is issued any more
    simp only [record, splice, ← Multiset.coe_add, Multiset.coe_nil, add_zero]
    exact hentered.trans (Multiset.le_add_right _ _)
  | clearIssued | clear =>
    exact (add_le_add_right (Multiset.zero_le _) _).trans
      (hentered.trans (Multiset.le_add_right _ _))

/-- What becomes pending goes behind what is pending, and what is next comes from the front. -/
theorem inOrder_record (h : l.Balanced steps) (step : Step α) :
    ((l.record step).served ++ (l.record step).queues.pending).Sublist (l.record step).entered := by
  have hserved := h.inOrder
  cases step with
  | addPending c =>
    simp only [record, addPending, ← List.append_assoc]
    exact hserved.append (.refl _)
  | addApproved c | issue c | clearIssued => exact hserved
  | next =>
    cases hnext : l.queues.next? with
    | none => simpa only [record, hnext] using hserved
    | some taken =>
      -- the first that waits becomes the last that was served
      rw [next?_eq_some hnext] at hserved
      simpa only [record, hnext, List.append_assoc, List.singleton_append] using hserved
  | remove id =>
    cases hremove : l.queues.remove? id with
    | none => simpa only [record, hremove] using hserved
    | some taken =>
      simp only [record, hremove]
      exact ((pending_remove? hremove).append_left _).trans hserved
  | splice =>
    simp only [record, splice, ← List.append_assoc]
    exact hserved.append (.refl _)
  | clear => exact ((List.nil_sublist _).append_left _).trans hserved

/-- What is issued goes behind what is issued. -/
theorem issueOrder_record (h : l.Balanced steps) (step : Step α) :
    (l.record step).queues.issued.Sublist ((steps ++ [step]).filterMap Step.issued?) := by
  rw [filterMap_concat]
  have hissued := h.issueOrder
  -- only an issue adds to the issued, at their end; all else shortens them or leaves them
  cases step with
  | issue c => exact hissued.append (.refl _)
  | addPending c | addApproved c => exact hissued.trans (List.sublist_append_left _ _)
  | next =>
    refine List.Sublist.trans ?_ (hissued.trans (List.sublist_append_left _ _))
    cases hnext : l.queues.next? with
    | none => simp only [record, hnext, List.Sublist.refl]
    | some taken => simp only [record, hnext, issued_next? hnext, List.Sublist.refl]
  | remove id =>
    refine List.Sublist.trans ?_ (hissued.trans (List.sublist_append_left _ _))
    cases hremove : l.queues.remove? id with
    | none => simp only [record, hremove, List.Sublist.refl]
    | some taken =>
      simp only [record, hremove]
      exact issued_remove? hremove
  | splice | clearIssued | clear => exact List.nil_sublist _

/-- One more step keeps the balance: it moves commands from one column to another. -/
theorem balanced_record (h : l.Balanced steps) (step : Step α) :
    (l.record step).Balanced (steps ++ [step]) :=
  ⟨kept_record h step, entered_record h step, inOrder_record h step, issueOrder_record h step⟩

/-- Every run accounts for what it put in. -/
theorem balanced_of (steps : List (Step α)) : (of steps).Balanced steps := by
  induction steps using List.reverseRecOn with
  | nil => exact ⟨rfl, le_refl _, .refl _, .refl _⟩
  | append_singleton steps step ih =>
    rw [of_concat]
    exact balanced_record ih step

end Ledger

/--
**Queues lose nothing and hand out nothing twice.** Let each command that a run puts in have a
number of its own. At the end of the run, and so at every point of it, the commands that wait in the
three queues differ in number. Each command that was put in waits at one place of one queue, or else
was handed out once, or dropped once by a clearing, and stays so; while it waits, it can be taken
out by its number. Pending commands were handed out in the order in which they became pending, as
those still pending will be, the first one next; a splice puts the issued commands behind all that
became pending before it, and they wait in the order in which they were issued.
-/
theorem conserved (steps : List (Step α))
    (hfresh : ((steps.filterMap Step.inserted?).map Command.id).Nodup) :
    let l := Ledger.of steps
    (l.queues.waiting.map Command.id).Nodup ∧
      (steps.filterMap Step.inserted?).Perm (l.queues.waiting ++ l.gone) ∧
      ((l.queues.waiting ++ l.gone).map Command.id).Nodup ∧
      (∀ before after, steps = before ++ after → (Ledger.of before).Continues l) ∧
      (∀ c ∈ l.queues.waiting, ∃ q, l.queues.remove? c.id = some (c, q)) ∧
      (∀ c rest, l.queues.pending = c :: rest → ∃ q, l.queues.next? = some (c, q)) ∧
      (l.entered.map Command.id).Nodup ∧
      (l.served ++ l.queues.pending).Sublist l.entered ∧
      (∀ before after, steps = before ++ Step.splice :: after →
        (Ledger.of before).entered ++ (Ledger.of before).queues.issued <+: l.entered) ∧
      l.queues.issued.Sublist (steps.filterMap Step.issued?) := by
  have hbalanced := Ledger.balanced_of steps
  have hkept : (steps.filterMap Step.inserted?).Perm _ := Multiset.coe_eq_coe.1 hbalanced.kept
  have hall := (hkept.map Command.id).nodup_iff.1 hfresh
  -- what entered the line is part of what was inserted, so its ids differ too
  obtain ⟨entered, hperm, hentered⟩ :
      (Ledger.of steps).entered.Subperm (steps.filterMap Step.inserted?) :=
    Multiset.coe_le.1 ((Multiset.le_add_right _ _).trans hbalanced.entered)
  have hwaiting : ((Ledger.of steps).queues.waiting.map Command.id).Nodup := by
    rw [List.map_append] at hall
    exact hall.of_append_left
  refine ⟨hwaiting, hkept, hall, ?continues, fun c hc => exists_remove? hwaiting hc,
    ?first, ?entered, hbalanced.inOrder, ?spliced, hbalanced.issueOrder⟩
  case continues =>
    rintro before after rfl
    exact Ledger.continues_of before after
  case first =>
    intro c rest hpending
    exact ⟨_, by simp only [next?, hpending]; rfl⟩
  case entered =>
    exact (hperm.map Command.id).nodup_iff.1 (hfresh.sublist (hentered.map Command.id))
  case spliced =>
    rintro before after rfl
    have hlater := (Ledger.continues_of (before ++ [Step.splice]) after).entered
    rw [Ledger.of_concat, List.append_assoc, List.singleton_append] at hlater
    exact hlater

/-- A command with the given number. -/
def numbered (id : CommandId) : Command Nat := .single { id } (.remove .entity 0)

/-- Commands are issued while others are pending, and both clearings find something to drop. -/
def busy : List (Step Nat) :=
  [.addPending (numbered 1), .addPending (numbered 2), .issue (numbered 3), .issue (numbered 4),
    .next, .splice, .remove 3, .next, .addApproved (numbered 5), .issue (numbered 6), .clearIssued,
    .next, .addPending (numbered 7), .remove 5, .clear, .issue (numbered 8)]

/-- Of eight commands one waits, three were next, two were taken out and two were dropped. -/
theorem conserved_busy :
    ((busy.filterMap Step.inserted?).map Command.id).Nodup ∧
      (busy.filterMap Step.inserted?).Perm
        ((Ledger.of busy).queues.waiting ++ (Ledger.of busy).gone) ∧
      (Ledger.of busy).queues.waiting.map Command.id = [8] ∧
      (Ledger.of busy).gone.map Command.id = [1, 2, 4, 3, 5, 6, 7] := by
  have hfresh : ((busy.filterMap Step.inserted?).map Command.id).Nodup := by decide
  exact ⟨hfresh, (conserved busy hfresh).2.1, by decide, by decide⟩

end Queues

end SceneGuard
