import Mathlib.Data.List.Perm.Subperm
import Mathlib.Logic.Relation
import SceneGuard.Model.Scene

/-!
# Links of a scene

What the entities of a scene agree on (`Scene.Keyed`, `Scene.LinkConsistent`, `Scene.Acyclic`), and
what each edit does to the entity at a number. An edit that is accepted is described by the look-ups
after it, so that nothing below has to open `insert`, `remove`, `reparent` or `update` again.
-/

namespace SceneGuard

namespace Scene

variable {α : Type} {s t : Scene α}

/-! ## Predicates -/

/-- Every entity stands at its own number. -/
def Keyed (s : Scene α) : Prop := ∀ id e, s.get? id = some e → e.id = id

/-- The entity at `c` has the parent `p`. -/
def ParentLink (s : Scene α) (c p : EntityId) : Prop := ∃ e, s.get? c = some e ∧ e.parent = some p

/-- `p` is reached from `c` by one parent link or more. -/
def Below (s : Scene α) (c p : EntityId) : Prop := Relation.TransGen s.ParentLink c p

/-- One of the two is below the other. -/
def Related (s : Scene α) (a b : EntityId) : Prop := s.Below a b ∨ s.Below b a

/-- Numbers, parents and lists of children fit together. -/
structure LinkConsistent (s : Scene α) : Prop where
  keyed : s.Keyed
  /-- A parent is there and lists its child once. -/
  listed : ∀ {c p}, s.ParentLink c p → ∃ q, s.get? p = some q ∧ q.children.count c = 1
  /-- Whoever is listed as a child is there and has that parent. -/
  claimed : ∀ {p q c}, s.get? p = some q → c ∈ q.children → s.ParentLink c p

/-- Parents and lists of children fit together, whatever numbers the entities carry. -/
structure LinksAgree (s : Scene α) : Prop where
  /-- A parent is there and lists its child once. -/
  listed : ∀ {c p}, s.ParentLink c p → ∃ q, s.get? p = some q ∧ q.children.count c = 1
  /-- Whoever is listed as a child is there and has that parent. -/
  claimed : ∀ {p q c}, s.get? p = some q → c ∈ q.children → s.ParentLink c p

/-- In a consistent scene links and lists agree. -/
theorem LinkConsistent.linksAgree (h : s.LinkConsistent) : s.LinksAgree := ⟨h.listed, h.claimed⟩

/-- Nobody is above themselves. -/
def Acyclic (s : Scene α) : Prop := ∀ id, ¬s.Below id id

/-- The entity at `x` is the one at `id`, or below it. -/
def Within (s : Scene α) (x id : EntityId) : Prop := x = id ∨ s.Below x id

/-!
## Deciding the predicates

The predicates speak of all numbers, and yet of nothing but entities. Tested on the entities of a
scene they can be evaluated. For the absence of cycles a rank is given that falls along every link.
-/

/-- Look-up and the entries of a scene say the same. -/
theorem get?_iff_mem {id : EntityId} {e : Entity α} :
    s.get? id = some e ↔ (id, e) ∈ s.entities.entries :=
  Table.get?_eq_some_iff _ _ _

instance (s : Scene α) : Decidable s.Keyed :=
  decidable_of_iff (∀ x ∈ s.entities.entries, x.2.id = x.1)
    ⟨fun h id e he => h (id, e) (get?_iff_mem.1 he), fun h x hx => h x.1 x.2 (get?_iff_mem.2 hx)⟩

/-- What link consistency asks of each entity of a scene, beside its number. -/
def linksFit (s : Scene α) : Bool :=
  s.entities.entries.all fun x =>
    (x.2.parent.all fun p => (s.get? p).any fun q => q.children.count x.1 == 1) &&
      x.2.children.all fun c => (s.get? c).any fun q => q.parent == some x.1

/-- Consistency can be tested: numbers are right, and links fit. -/
theorem linkConsistent_iff : s.LinkConsistent ↔ s.Keyed ∧ s.linksFit = true := by
  unfold linksFit
  simp only [List.all_eq_true, Bool.and_eq_true, Option.all_eq_true, Option.any_eq_true, beq_iff_eq]
  constructor
  · intro h
    refine ⟨h.keyed, fun x hx => ⟨fun p hp => ?_, fun c hc => h.claimed (get?_iff_mem.2 hx) hc⟩⟩
    exact h.listed ⟨x.2, get?_iff_mem.2 hx, hp⟩
  · rintro ⟨hkeyed, hfit⟩
    refine ⟨hkeyed, fun ⟨e, he, hp⟩ => (hfit (_, e) (get?_iff_mem.1 he)).1 _ hp,
      fun {p q c} hq hc => ?_⟩
    exact (hfit (p, q) (get?_iff_mem.1 hq)).2 c hc

instance (s : Scene α) : Decidable s.LinkConsistent := decidable_of_iff' _ linkConsistent_iff

/-- The rank falls along every parent link. -/
def falls (s : Scene α) (rank : EntityId → Nat) : Bool :=
  s.entities.entries.all fun x => x.2.parent.all fun p => rank p < rank x.1

/-- A rank that falls along every parent link is lower above. -/
theorem rank_lt_of_below {rank : EntityId → Nat} (h : s.falls rank = true) {a b : EntityId}
    (hab : s.Below a b) : rank b < rank a := by
  have hlink : ∀ {c p}, s.ParentLink c p → rank p < rank c := by
    rintro c p ⟨e, he, hp⟩
    have hfall := List.all_eq_true.1 h (c, e) (get?_iff_mem.1 he)
    exact of_decide_eq_true ((Option.all_eq_true _ _).1 hfall p hp)
  induction hab with
  | single hl => exact hlink hl
  | tail _ hl ih => exact Nat.lt_trans (hlink hl) ih

/-- A rank that falls along every parent link rules cycles out. -/
theorem acyclic_of_rank {rank : EntityId → Nat} (h : s.falls rank = true) : s.Acyclic :=
  fun _ hid => Nat.lt_irrefl _ (rank_lt_of_below h hid)

theorem ParentLink.parent_unique {c p p' : EntityId} (h : s.ParentLink c p)
    (h' : s.ParentLink c p') : p = p' := by
  obtain ⟨e, he, hp⟩ := h
  obtain ⟨e', he', hp'⟩ := h'
  rw [he] at he'
  cases he'
  exact Option.some.inj (hp.symm.trans hp')

/-- Of different entities there are no more than the scene has. -/
theorem length_le_size {l : List EntityId} (hnodup : l.Nodup)
    (hlive : ∀ x ∈ l, ∃ e, s.get? x = some e) : l.length ≤ s.entities.size := by
  have hkeys : l ⊆ s.entities.keys := fun x hx => by
    obtain ⟨e, he⟩ := hlive x hx
    rw [Table.mem_keys_iff, Table.contains, show s.entities.get? x = some e from he]
    rfl
  have hlength := (List.subperm_of_subset hnodup hkeys).length_le
  rwa [Table.keys, List.length_map] at hlength

/-! ## Look-ups after the helper operations -/

/-- A change is seen at its entity and nowhere else. -/
theorem get?_modify (s : Scene α) (id x : EntityId) (f : Entity α → Entity α) :
    (s.modify id f).get? x = if x = id then (s.get? id).map f else s.get? x :=
  Table.get?_modify _ _ _ _

@[simp] theorem activeZone_modify (s : Scene α) (id : EntityId) (f : Entity α → Entity α) :
    (s.modify id f).activeZone = s.activeZone := rfl

/-- Changing several entities in the same way, when a second change does nothing more. -/
theorem get?_foldl_modify {f : Entity α → Entity α} (hf : ∀ q, f (f q) = f q) (cs : List EntityId)
    (s : Scene α) (x : EntityId) :
    (cs.foldl (fun s c => s.modify c f) s).get? x = if x ∈ cs then (s.get? x).map f
      else s.get? x := by
  induction cs generalizing s with
  | nil => simp
  | cons c cs ih =>
    rw [List.foldl_cons, ih, get?_modify]
    by_cases hx : x = c
    · subst hx
      by_cases hm : x ∈ cs
      · simp only [hm, if_true, List.mem_cons, true_or]
        cases s.get? x <;> simp [hf]
      · simp [hm]
    · simp [hx]

@[simp] theorem activeZone_foldl_modify (f : Entity α → Entity α) (cs : List EntityId)
    (s : Scene α) : (cs.foldl (fun s c => s.modify c f) s).activeZone = s.activeZone := by
  induction cs generalizing s with
  | nil => rfl
  | cons c cs ih => rw [List.foldl_cons, ih, activeZone_modify]

/-!
## Look-ups after an edit

For each edit it is said when it is accepted, which scene it makes, and what stands at each number
there.
-/

/-- An update is accepted when the entity is there. -/
theorem update_eq_ok {id : EntityId} {f : Entity α → Entity α} :
    s.update id f = .ok t ↔ (∃ e, s.get? id = some e) ∧ t = s.modify id f := by
  unfold update
  cases h : s.get? id with
  | none => simp [require, h, bind, Except.bind]
  | some e => simp [require, h, bind, Except.bind, pure, Except.pure, eq_comm]

/-- The parent's entity after a child came to it. -/
def enlist (id : EntityId) (q : Entity α) : Entity α :=
  if q.children.contains id then q else { q with children := q.children ++ [id] }

/-- The scene after an entity was added. -/
def inserted (s : Scene α) (e : Entity α) : Scene α :=
  let s := match e.parent with
    | none => s
    | some p => s.modify p (enlist e.id)
  { s with entities := s.entities.insert e.id e }

/-- A new number and a parent that is there are all that an added entity needs. -/
theorem insert_eq_ok {e : Entity α} :
    s.insert e = .ok t ↔ s.get? e.id = none ∧ (∀ p, e.parent = some p → ∃ q, s.get? p = some q) ∧
      t = s.inserted e := by
  have henlist : (fun q : Entity α =>
      if q.children.contains e.id then q else { q with children := q.children ++ [e.id] }) =
      enlist e.id := rfl
  unfold insert inserted Table.contains
  -- the two checks of the code in its order: the id is free, and the parent exists
  cases hid : s.get? e.id with
  | some q => rw [get?] at hid; simp [hid, bind, Except.bind, throw, throwThe, MonadExceptOf.throw]
  | none =>
    rw [get?] at hid
    cases hp : e.parent with
    | none => simp [hid, bind, Except.bind, pure, Except.pure, eq_comm]
    | some p =>
      cases hq : s.get? p with
      | none => simp [hid, bind, Except.bind, require, hq]
      | some q =>
        rw [henlist]
        simp [hid, bind, Except.bind, pure, Except.pure, require, hq, eq_comm]

/-- After an addition the new entity is there, and its parent lists it. -/
theorem get?_inserted (s : Scene α) (e : Entity α) (x : EntityId) :
    (s.inserted e).get? x =
      if x = e.id then some e
      else if e.parent = some x then (s.get? x).map (enlist e.id) else s.get? x := by
  have h : ∀ s' : Scene α, ({ s' with entities := s'.entities.insert e.id e } : Scene α).get? x =
      if x = e.id then some e else s'.get? x := fun s' => Table.get?_insert _ _ _ _
  unfold inserted
  rw [h]
  cases hp : e.parent with
  | none => simp
  | some p => simp only [get?_modify, Option.some.injEq, eq_comm]; congr 1; split <;> simp_all

/-- An addition does not bear on the zone. -/
@[simp] theorem activeZone_inserted (s : Scene α) (e : Entity α) :
    (s.inserted e).activeZone = s.activeZone := by
  unfold inserted; cases e.parent <;> rfl

/-- The parent's entity after the removal of `id`, whose children it takes over. -/
def adopt (id : EntityId) (children : List EntityId) (q : Entity α) : Entity α :=
  { q with children := q.children.filter (· ≠ id) ++ children }

/-- The scene after the entity `e` at `id` was taken out. -/
def removed (s : Scene α) (id : EntityId) (e : Entity α) : Scene α :=
  let s' : Scene α := { s with entities := s.entities.erase id }
  let s' := match e.parent with
    | none => s'
    | some p => s'.modify p (adopt id e.children)
  let s' :
    Scene α := e.children.foldl (fun s c => s.modify c fun q => { q with parent := e.parent }) s'
  { s' with activeZone := if s'.activeZone = some id then none else s'.activeZone }

/-- With the entity of the active zone goes the zone. -/
@[simp] theorem activeZone_removed (s : Scene α) (id : EntityId) (e : Entity α) :
    (s.removed id e).activeZone = if s.activeZone = some id then none else s.activeZone := by
  unfold removed
  cases e.parent <;> simp only [activeZone_foldl_modify, activeZone_modify]

/-- A removal hands out the entity that was there. -/
theorem remove_eq_ok {id : EntityId} {e : Entity α} :
    s.remove id = .ok (e, t) ↔ s.get? id = some e ∧ t = s.removed id e := by
  unfold remove removed
  cases h : s.get? id with
  | none => simp [require, h, bind, Except.bind]
  | some e' =>
    simp only [require, h, bind, Except.bind, pure, Except.pure, Except.ok.injEq, Prod.mk.injEq,
      Option.some.injEq]
    constructor
    · rintro ⟨rfl, rfl⟩; exact ⟨rfl, rfl⟩
    · rintro ⟨rfl, rfl⟩; exact ⟨rfl, rfl⟩

/-- After a removal the children hang one higher, and the parent lists them. -/
theorem get?_removed (s : Scene α) (id x : EntityId) (e : Entity α) :
    (s.removed id e).get? x =
      if x = id then none
      else (s.get? x).map fun q =>
        let q := if e.parent = some x then adopt id e.children q else q
        if x ∈ e.children then { q with parent := e.parent } else q := by
  have herase : ({ s with entities := s.entities.erase id } : Scene α).get? x =
      if x = id then none else s.get? x := Table.get?_erase _ _ _
  have hzone : ∀ (s' : Scene α) z, ({ s' with activeZone := z } : Scene α).get? x = s'.get? x :=
    fun _ _ => rfl
  have hrelink := get?_foldl_modify (f := fun q : Entity α => { q with parent := e.parent })
    (fun _ => rfl) e.children
  unfold removed
  rw [hzone, hrelink]
  -- the parent is changed before the children, and the entity itself is neither
  cases hp : e.parent with
  | none =>
    simp only [herase]
    by_cases hx : x = id
    · simp [hx]
    · by_cases hc : x ∈ e.children <;> simp [hx, hc]
  | some p =>
    have hcomm : ∀ y, (some p = some y) = (y = p) := fun y => by simp [eq_comm]
    simp only [get?_modify, hcomm]
    by_cases hxp : x = p
    · subst hxp
      simp only [herase, if_true]
      by_cases hx : x = id
      · simp [hx]
      · by_cases hc : x ∈ e.children <;> simp [hx, hc, Option.map_map, Function.comp_def]
    · simp only [hxp, if_false, herase]
      by_cases hx : x = id
      · simp [hx]
      · by_cases hc : x ∈ e.children <;> simp [hx, hc]

/-- The parent's entity after `id` went elsewhere. -/
def delist (id : EntityId) (q : Entity α) : Entity α :=
  { q with children := q.children.filter (· ≠ id) }

/-- The scene in which a parent no longer lists `id`. -/
def loosen (s : Scene α) (parent : Option EntityId) (id : EntityId) : Scene α :=
  match parent with
  | none => s
  | some p => s.modify p (delist id)

/-- The scene in which a parent lists `id` as its last child. -/
def fasten (s : Scene α) (parent : Option EntityId) (id : EntityId) : Scene α :=
  match parent with
  | none => s
  | some p => s.modify p fun q => { q with children := q.children ++ [id] }

/-- The scene after the entity `e` at `id` came to hang under another parent. -/
def reparented (s : Scene α) (id : EntityId) (e : Entity α) (target : Attachment α) : Scene α :=
  if e.parent = target.parent then s.modify id fun e => { e with position := target.position }
  else ((s.loosen e.parent id).fasten target.parent id).modify id
    fun e => { e with parent := target.parent, position := target.position }

/-- A new parent that a scene accepts: it is there, and outside of what hangs below the entity. -/
def Admits (s : Scene α) (id : EntityId) (parent : Option EntityId) : Prop :=
  ∀ p, parent = some p → (∃ q, s.get? p = some q) ∧ s.isAncestor id p = false

/-- A reparenting that the scene admits is carried out. -/
theorem reparent_of_admits {id : EntityId} {e : Entity α} {target : Attachment α}
    (hp : s.Admits id target.parent) (h : s.get? id = some e) :
    s.reparent id target = .ok (s.reparented id e target) := by
  obtain ⟨parent, position⟩ := target
  unfold reparent reparented loosen fasten
  cases parent with
  | none =>
    simp only [require, h, bind, Except.bind, pure, Except.pure]
    -- an unchanged parent leaves every list as it is
    split
    · rfl
    · cases e.parent <;> rfl
  | some p =>
    obtain ⟨⟨q, hq⟩, ha⟩ := hp p rfl
    simp only [require, h, hq, ha, bind, Except.bind, pure, Except.pure,
      Bool.false_eq_true, if_false]
    split
    · rfl
    · cases e.parent <;> rfl

/-- The new parent and the entity are all that the scene looks at. -/
theorem reparent_eq_ok {id : EntityId} {target : Attachment α} :
    s.reparent id target = .ok t ↔
      s.Admits id target.parent ∧ ∃ e, s.get? id = some e ∧ t = s.reparented id e target := by
  constructor
  · intro h
    -- the new parent is looked at first, so its checks are what fails whatever the entity is
    have hp : s.Admits id target.parent := by
      intro p hp
      unfold reparent at h
      rw [hp] at h
      cases hq : s.get? p with
      | none => simp [require, hq, bind, Except.bind] at h
      | some q =>
        refine ⟨⟨q, rfl⟩, ?_⟩
        cases ha : s.isAncestor id p with
        | false => rfl
        | true =>
          simp [require, hq, ha, bind, Except.bind, throw, throwThe, MonadExceptOf.throw] at h
    cases he : s.get? id with
    | some e =>
      rw [reparent_of_admits hp he] at h
      exact ⟨hp, e, rfl, (Except.ok.inj h).symm⟩
    | none =>
      unfold reparent at h
      cases htp : target.parent with
      | none => simp [htp, require, he, bind, Except.bind] at h
      | some p =>
        obtain ⟨⟨q, hq⟩, ha⟩ := hp p htp
        simp [htp, require, he, hq, ha, bind, Except.bind] at h
  · rintro ⟨hp, e, he, rfl⟩
    exact reparent_of_admits hp he

@[simp] theorem activeZone_reparented (s : Scene α) (id : EntityId) (e : Entity α)
    (target : Attachment α) : (s.reparented id e target).activeZone = s.activeZone := by
  unfold reparented loosen fasten
  split
  · rfl
  · cases e.parent <;> cases target.parent <;> rfl

/-- A child's place in the parent's list moves from the old parent to the new one. -/
theorem get?_reparented (s : Scene α) (id x : EntityId) (e : Entity α) (target : Attachment α)
    (h : s.get? id = some e) :
    (s.reparented id e target).get? x = (s.get? x).map fun q =>
      let q := if e.parent = target.parent then q
        else
          let q := if e.parent = some x then delist id q else q
          if target.parent = some x then { q with children := q.children ++ [id] } else q
      if x = id then { q with parent := target.parent, position := target.position } else q := by
  have hmodify : ∀ (s : Scene α) (parent : Option EntityId) (f : Entity α → Entity α),
      (match parent with
        | none => s
        | some p =>
          s.modify p f).get? x = if parent = some x then (s.get? x).map f else s.get? x := by
    intro s parent f
    cases parent with
    | none => simp
    | some p => simp only [get?_modify, Option.some.injEq, eq_comm (a := p)]; split <;> simp_all
  unfold reparented loosen fasten
  -- three changes one after the other: of the old parent, of the new one and of the entity
  by_cases heq : e.parent = target.parent
  · rw [if_pos heq, get?_modify]
    by_cases hx : x = id
    · subst hx
      obtain ⟨parent, position⟩ := target
      simp only at heq
      subst heq
      simp [h]
    · simp [hx, heq]
  · rw [if_neg heq, get?_modify]
    by_cases hx : x = id
    · subst hx
      simp only [hmodify, heq, if_true, if_false]
      split <;> split <;> simp [*]
    · simp only [hmodify, heq, hx, if_false]
      split <;> split <;> simp [Function.comp_def, *]

/-! ## Runs -/

/-- A single command is its edit: refused, it leaves the scene as it was. -/
theorem apply_single (s : Scene α) (h : Header) (e : Edit α) :
    s.apply (.single h e) = match s.edit e with
      | .ok t => (t, .ok ())
      | .error x => (s, .error x) := by
  unfold apply
  rfl

/-- It is refused for the reason that the edit is. -/
theorem apply_single_eq_error {h : Header} {e : Edit α} {x : SceneError} :
    (s.apply (.single h e)).2 = .error x ↔ s.edit e = .error x := by
  rw [apply_single]
  cases s.edit e <;> simp

theorem apply_single_eq_ok {h : Header} {e : Edit α} :
    s.apply (.single h e) = (t, .ok ()) ↔ s.edit e = .ok t := by
  rw [apply_single]
  cases s.edit e <;> simp

/-- Commands are accepted when the first is, and then the others. -/
theorem applyAll_cons_eq_ok {c : Command α} {cs : List (Command α)} :
    s.applyAll (c :: cs) = (t, .ok ()) ↔
      ∃ m, s.apply c = (m, .ok ()) ∧ m.applyAll cs = (t, .ok ()) := by
  rw [applyAll]
  rcases hc : s.apply c with ⟨m, _ | _⟩ <;> simp

theorem applyAll_append_eq_ok {cs ds : List (Command α)} :
    s.applyAll (cs ++ ds) = (t, .ok ()) ↔
      ∃ m, s.applyAll cs = (m, .ok ()) ∧ m.applyAll ds = (t, .ok ()) := by
  induction cs generalizing s with
  | nil => simp [applyAll]
  | cons c cs ih =>
    rw [List.cons_append, applyAll_cons_eq_ok]
    simp only [ih, applyAll_cons_eq_ok]
    constructor
    · rintro ⟨a, ha, b, hb, ht⟩; exact ⟨b, ⟨a, ha, hb⟩, ht⟩
    · rintro ⟨b, ⟨a, ha, hb⟩, ht⟩; exact ⟨a, ha, b, hb, ht⟩

end Scene

end SceneGuard
