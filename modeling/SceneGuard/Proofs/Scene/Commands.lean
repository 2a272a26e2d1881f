import SceneGuard.Proofs.Scene.Links

/-!
# Commands edit by edit

However commands are grouped, the scene takes their edits one after the other and stops at the first
that it refuses (`applyAll_leavesAll`). So a run that is accepted is a chain of accepted edits
(`applyAll_eq_ok`).
-/

namespace SceneGuard

variable {α : Type}

namespace Command

/-- The edit that a single command makes. -/
def edit? : Command α → Option (Edit α)
  | .single _ e => some e
  | .composite .. => none

/-- The edits that a command makes, in order. -/
def edits (c : Command α) : List (Edit α) := c.leaves.filterMap Command.edit?

/-- The edits that the commands of a list make, in order. -/
def editsAll (cs : List (Command α)) : List (Edit α) := (leavesAll cs).filterMap Command.edit?

@[simp] theorem editsAll_nil : editsAll ([] : List (Command α)) = [] := rfl

@[simp] theorem edits_single (h : Header) (e : Edit α) : (Command.single h e).edits = [e] := rfl

/-- The edits of a composite are those of its members. -/
@[simp] theorem edits_composite (h : Header) (d : String) (ms : List (Command α)) :
    (Command.composite h d ms).edits = editsAll ms := rfl

/-- The edits of several commands come in the order of these. -/
theorem editsAll_cons (c : Command α) (cs : List (Command α)) :
    editsAll (c :: cs) = c.edits ++ editsAll cs := by
  simp [editsAll, edits, leavesAll]

theorem editsAll_append (cs ds : List (Command α)) :
    editsAll (cs ++ ds) = editsAll cs ++ editsAll ds := by
  induction cs with
  | nil => rfl
  | cons c cs ih => rw [List.cons_append, editsAll_cons, editsAll_cons, ih, List.append_assoc]

mutual

/-- The leaves of a command are single commands. -/
theorem single_of_mem_leaves : ∀ {d c : Command α}, c ∈ d.leaves → ∃ h e, c = .single h e
  | .single h e, c, hc => ⟨h, e, by simpa [leaves] using hc⟩
  | .composite _ _ _, _, hc => single_of_mem_leavesAll hc

theorem single_of_mem_leavesAll :
    ∀ {ds : List (Command α)} {c : Command α}, c ∈ leavesAll ds → ∃ h e, c = .single h e
  | [], _, hc => by simp [leavesAll] at hc
  | d :: ds, _, hc => by
    rw [leavesAll] at hc
    rcases List.mem_append.1 hc with hc | hc
    · exact single_of_mem_leaves hc
    · exact single_of_mem_leavesAll hc

end

/-- Leaves are collected command by command. -/
theorem leavesAll_eq_flatMap (cs : List (Command α)) : leavesAll cs = cs.flatMap leaves := by
  induction cs with
  | nil => rfl
  | cons c cs ih => rw [leavesAll, ih, List.flatMap_cons]

end Command

namespace Scene

variable {s t : Scene α}

/-- Commands are applied up to the first that is refused, and none after it. -/
theorem applyAll_append (s : Scene α) (cs ds : List (Command α)) :
    s.applyAll (cs ++ ds) =
      match s.applyAll cs with
      | (t, .ok ()) => t.applyAll ds
      | (t, .error x) => (t, .error x) := by
  induction cs generalizing s with
  | nil => rfl
  | cons c cs ih =>
    rw [List.cons_append, applyAll, applyAll]
    rcases s.apply c with ⟨m, _ | _⟩
    · rfl
    · exact ih m

mutual

/-- A command is its single commands, one after the other. -/
theorem applyAll_leaves : ∀ (s : Scene α) (c : Command α), s.applyAll c.leaves = s.apply c
  | s, .single h e => by
    rw [Command.leaves, applyAll]
    rcases s.apply (.single h e) with ⟨t, _ | _⟩ <;> rfl
  | s, .composite h d ms => by
    rw [Command.leaves, applyAll_leavesAll s ms, apply]

/-- It makes no difference to a scene how commands are grouped. -/
theorem applyAll_leavesAll : ∀ (s : Scene α) (cs : List (Command α)),
    s.applyAll (Command.leavesAll cs) = s.applyAll cs
  | _, [] => rfl
  | s, c :: cs => by
    rw [Command.leavesAll, applyAll_append, applyAll_leaves s c, applyAll]
    rcases s.apply c with ⟨m, _ | _⟩
    · rfl
    · exact applyAll_leavesAll m cs

end

/-- The scene accepts the edits one after the other, and ends as `t`. -/
inductive Takes : Scene α → List (Edit α) → Scene α → Prop where
  | nil (s : Scene α) : Takes s [] s
  | cons {s m t : Scene α} {e : Edit α} {es : List (Edit α)} (he : s.edit e = .ok m)
      (hes : Takes m es t) :
      Takes s (e :: es) t

/-- A scene takes edits when it takes the first of them and then the others. -/
theorem takes_append {es fs : List (Edit α)} :
    s.Takes (es ++ fs) t ↔ ∃ m, s.Takes es m ∧ m.Takes fs t := by
  induction es generalizing s with
  | nil =>
    constructor
    · exact fun h => ⟨s, .nil s, h⟩
    · rintro ⟨m, hm, h⟩
      cases hm
      exact h
  | cons e es ih =>
    constructor
    · intro h
      cases h with
      | cons he hes =>
        obtain ⟨m, hm, h⟩ := ih.1 hes
        exact ⟨m, .cons he hm, h⟩
    · rintro ⟨m, hm, h⟩
      cases hm with
      | cons he hes => exact .cons he (ih.2 ⟨m, hes, h⟩)

/-- Commands are accepted when their edits are. -/
theorem applyAll_eq_ok {cs : List (Command α)} :
    s.applyAll cs = (t, .ok ()) ↔ s.Takes (Command.editsAll cs) t := by
  have hsingle : ∀ c ∈ Command.leavesAll cs, ∃ h e, c = .single h e :=
    fun c hc => Command.single_of_mem_leavesAll hc
  rw [← applyAll_leavesAll, Command.editsAll]
  -- on the leaves alone: composites do nothing of their own
  generalize Command.leavesAll cs = leaves at hsingle
  induction leaves generalizing s with
  | nil =>
    constructor
    · intro h
      cases h
      exact .nil _
    · intro h
      cases h
      rfl
  | cons c leaves ih =>
    obtain ⟨h, e, rfl⟩ := hsingle c List.mem_cons_self
    have hrest := fun m => ih (s := m) fun c hc => hsingle c (List.mem_cons_of_mem _ hc)
    have hedits : (Command.single h e :: leaves).filterMap Command.edit? = e :: leaves.filterMap
      Command.edit? := rfl
    rw [applyAll_cons_eq_ok, hedits]
    constructor
    · rintro ⟨m, hm, ht⟩
      exact .cons (apply_single_eq_ok.1 hm) ((hrest m).1 ht)
    · intro ht
      cases ht with
      | @cons _ m _ _ _ he hes => exact ⟨m, apply_single_eq_ok.2 he, (hrest m).2 hes⟩

/-- Commands are carried out up to the first edit that is refused. -/
theorem applyAll_of_refused {cs : List (Command α)} {es fs : List (Edit α)} {e : Edit α}
    {x : SceneError} (hsplit : Command.editsAll cs = es ++ e :: fs) (hes : s.Takes es t)
    (he : t.edit e = .error x) : s.applyAll cs = (t, .error x) := by
  have hsingle : ∀ c ∈ Command.leavesAll cs, ∃ h e, c = .single h e :=
    fun c hc => Command.single_of_mem_leavesAll hc
  rw [Command.editsAll] at hsplit
  rw [← applyAll_leavesAll]
  generalize Command.leavesAll cs = leaves at hsingle hsplit
  induction leaves generalizing s es with
  | nil => exact absurd hsplit.symm (List.append_ne_nil_of_right_ne_nil es (List.cons_ne_nil e fs))
  | cons c leaves ih =>
    obtain ⟨h, e', rfl⟩ := hsingle c List.mem_cons_self
    replace hsplit : e' :: leaves.filterMap Command.edit? = es ++ e :: fs := hsplit
    rw [applyAll]
    -- the refused edit is the first leaf, or the first leaf was taken
    cases hes with
    | nil =>
      obtain ⟨rfl, -⟩ := List.cons.inj hsplit
      rw [apply_single, he]
    | cons hm hes =>
      obtain ⟨rfl, hrest⟩ := List.cons.inj hsplit
      rw [apply_single_eq_ok.2 hm]
      exact ih hes (fun c hc => hsingle c (List.mem_cons_of_mem _ hc)) hrest

/-- A command is accepted when all its edits are, one after the other. -/
theorem apply_eq_ok {c : Command α} : s.apply c = (t, .ok ()) ↔ s.Takes c.edits t := by
  have hedits : c.edits = Command.editsAll [c] := by
    rw [Command.editsAll_cons, Command.editsAll_nil, List.append_nil]
  rw [hedits, ← applyAll_eq_ok, applyAll_cons_eq_ok]
  simp [applyAll]

end Scene

end SceneGuard
