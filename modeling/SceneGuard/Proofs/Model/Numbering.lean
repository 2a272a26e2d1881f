import SceneGuard.Codec.Command
import SceneGuard.Model.Reset
import SceneGuard.Number.Decimal

/-!
# Numbers of commands

All that happens to a source of numbers is that it serves requests (`IdSource.Request`): a fresh
number is handed out, or a number that a file gives is noted. Edits, groups and reset blocks come
about in this way, and so does whatever is read from a document, up to where the reading fails
(`served_ofDocument`). The source stays above every number that it has served, except when that is
the last one there is. Main statements:

* `IdSource.lt_next_serveAll` — as long as the last number does not come up, the source stays above
  all;
* `Command.fresh_exceeds` — a fresh number is higher than any handed out or read before.

After the last number was read the next fresh one is the last one again (`not_fresh_exceeds`).
-/

namespace SceneGuard

namespace IdSource

/-- What a source is asked for: a fresh number, or to take note of one that a file gives. -/
inductive Request where
  | fresh
  | given (id : CommandId)
  deriving DecidableEq, Repr

/-- The last number there is. -/
def last : CommandId := 0xFFFFFFFFFFFFFFFF

/-- The number that comes of a request, and the source after it. -/
def serve (s : IdSource) : Request → CommandId × IdSource
  | .fresh => s.fresh
  | .given id => (id, s.reserve id)

/-- The numbers that come of requests one after the other, and the source after them. -/
def serveAll (s : IdSource) : List Request → List CommandId × IdSource
  | [] => ([], s)
  | r :: rs => ((s.serve r).1 :: ((s.serve r).2.serveAll rs).1, ((s.serve r).2.serveAll rs).2)

/-- Requests are served in order: the later ones by the source that the earlier ones left. -/
theorem serveAll_append (s : IdSource) (rs rs' : List Request) :
    s.serveAll (rs ++ rs') =
      ((s.serveAll rs).1 ++ ((s.serveAll rs).2.serveAll rs').1,
        ((s.serveAll rs).2.serveAll rs').2) := by
  induction rs generalizing s with
  | nil => rfl
  | cons r rs ih => rw [List.cons_append, serveAll, serveAll, ih]; rfl

/-- Serving one request moves the source up, and past the number served
unless that is the last one. -/
theorem lt_next_serve {s : IdSource} {r : Request} (h : (s.serve r).1 ≠ last) :
    s.next ≤ (s.serve r).2.next ∧ (s.serve r).1 < (s.serve r).2.next := by
  -- away from the last number, the next one is larger and does not wrap around
  have hsucc : ∀ id : CommandId, id ≠ last → id < id + 1 := fun id hid => by
    have hid : id.toNat ≠ 0xFFFFFFFFFFFFFFFF := fun h => hid (UInt64.toNat_inj.1 h)
    have hlt := id.toNat_lt
    rw [UInt64.lt_iff_toNat_lt, UInt64.toNat_add, UInt64.toNat_one]
    omega
  cases r with
  | fresh => exact ⟨UInt64.le_of_lt (hsucc _ h), hsucc _ h⟩
  | given id =>
    have hafter : after id = id + 1 := if_neg h
    show s.next ≤ (s.reserve id).next ∧ id < (s.reserve id).next
    unfold reserve
    rw [hafter]
    split
    · next hlt => exact ⟨UInt64.le_of_lt hlt, hsucc id h⟩
    · next hlt => exact ⟨UInt64.le_refl _, UInt64.lt_of_lt_of_le (hsucc id h) (UInt64.not_lt.1 hlt)⟩

/-- As long as the last number does not come up, the source is above all that it served. -/
theorem lt_next_serveAll {s : IdSource} {rs : List Request} (h : last ∉ (s.serveAll rs).1) :
    s.next ≤ (s.serveAll rs).2.next ∧ ∀ id ∈ (s.serveAll rs).1, id < (s.serveAll rs).2.next := by
  induction rs generalizing s with
  | nil => exact ⟨UInt64.le_refl _, by simp [serveAll]⟩
  | cons r rs ih =>
    rw [serveAll, List.mem_cons, not_or] at h
    obtain ⟨hnext, hserved⟩ := lt_next_serve (Ne.symm h.1)
    obtain ⟨hrest, hall⟩ := ih h.2
    refine ⟨UInt64.le_trans hnext hrest, fun id hid => ?_⟩
    rcases List.mem_cons.1 hid with rfl | hid
    · exact UInt64.lt_of_lt_of_le hserved hrest
    · exact hall id hid

end IdSource

open IdSource

namespace Command

variable {α : Type}

mutual

/-- The numbers in a command: its own, and those of its members. -/
def numbers : Command α → List CommandId
  | .single h _ => [h.id]
  | .composite h _ ms => h.id :: numbersAll ms

/-- The numbers in a list of commands. -/
def numbersAll : List (Command α) → List CommandId
  | [] => []
  | c :: cs => numbers c ++ numbersAll cs

end

theorem numbersAll_append (cs cs' : List (Command α)) :
    numbersAll (cs ++ cs') = numbersAll cs ++ numbersAll cs' := by
  induction cs with
  | nil => rfl
  | cons c cs ih => rw [List.cons_append, numbersAll, numbersAll, ih, List.append_assoc]

/-- A command that is not there has no numbers. -/
theorem numbersAll_toList (c : Option (Command α)) :
    numbersAll c.toList = (c.map numbers).getD [] := by
  cases c with
  | none => rfl
  | some c => exact List.append_nil _

/-! ## Reset blocks -/

/-- The numbers are those that come of requests for fresh ones only, in some order. -/
def Freshly (s : IdSource) (made : List CommandId × IdSource) : Prop :=
  ∃ count, made.2 = (s.serveAll (List.replicate count .fresh)).2 ∧
    made.1.Perm (s.serveAll (List.replicate count .fresh)).1

/-- To hand out nothing leaves the source as it is. -/
theorem Freshly.none (s : IdSource) : Freshly s ([], s) := ⟨0, rfl, .nil⟩

/-- What is handed out in two runs is fresh all together,
since the second starts behind the first. -/
theorem Freshly.append {s s' s'' : IdSource} {ids ids' : List CommandId} (h : Freshly s (ids, s'))
    (h' : Freshly s' (ids', s'')) : Freshly s (ids ++ ids', s'') := by
  obtain ⟨count, rfl, hids⟩ := h
  obtain ⟨count', rfl, hids'⟩ := h'
  refine ⟨count + count', ?_, ?_⟩
  · rw [← List.replicate_append_replicate, serveAll_append]
  · rw [← List.replicate_append_replicate, serveAll_append]
    exact hids.append hids'

theorem Freshly.one (s : IdSource) : Freshly s ([s.fresh.1], s.fresh.2) := ⟨1, rfl, .refl _⟩

/-- In which order the numbers are listed does not matter. -/
theorem Freshly.perm {s s' : IdSource} {ids ids' : List CommandId} (h : Freshly s (ids, s'))
    (hids : ids'.Perm ids) : Freshly s (ids', s') :=
  let ⟨count, hs, hperm⟩ := h
  ⟨count, hs, hids.trans hperm⟩

mutual

/-- A member of a reset block, and all that is in it, have fresh numbers. -/
theorem freshly_resetMember (s : IdSource) (c : Command α) :
    Freshly s (numbersAll (resetMember s c).1.toList, (resetMember s c).2) := by
  cases c with
  | single h e =>
    unfold resetMember
    split
    · exact .none s
    · exact .one s
  | composite h d ms =>
    have hms := freshly_resetMembers s ms
    unfold resetMember
    split
    · exact .none s
    · generalize resetMembers s ms = block at hms
      obtain ⟨cs, s'⟩ := block
      cases cs with
      | nil => exact hms
      | cons c cs =>
        -- the composite has its number after its members
        refine (hms.append (.one s')).perm ?_
        rw [numbersAll_toList]
        exact (List.perm_append_singleton s'.fresh.1 _).symm

theorem freshly_resetMembers (s : IdSource) (cs : List (Command α)) :
    Freshly s (numbersAll (resetMembers s cs).1, (resetMembers s cs).2) := by
  cases cs with
  | nil => exact .none s
  | cons c cs =>
    unfold resetMembers
    simp only [numbersAll_append]
    exact (freshly_resetMembers s cs).append (freshly_resetMember (resetMembers s cs).2 c)

end

/-- All numbers of a reset block are fresh. -/
theorem freshly_resetBlock (s : IdSource) (c : Command α) :
    Freshly s (numbersAll (resetBlock s c).1, (resetBlock s c).2) := by
  cases c with
  | single h e => exact freshly_resetMember s (.single h e)
  | composite h d ms => exact freshly_resetMembers s ms

/-! ## Reading -/

/-- What the fields of a command ask of the source of numbers. -/
def request (fs : List (String × Document α)) : Request :=
  match (Document.field "id" fs).orElse none fun d => d.asUInt64?.map some with
  | some (some id) => .given id
  | _ => .fresh

mutual

/-- What a command asks of the source of numbers, members included, in the order of reading. -/
def requests : Document α → List Request
  | .record fs =>
    match kindOfFields? fs with
    | some .composite => request fs :: requestsOfFields fs
    | _ => [request fs]
  | _ => []

/-- What the members of a composite ask for. -/
def requestsOfFields : List (String × Document α) → List Request
  | [] => []
  | (name, d) :: rest => if name = "commands" then requestsOfMembers d else requestsOfFields rest

/-- What the commands of a list ask for, when it is one. -/
def requestsOfMembers : Document α → List Request
  | .list items => requestsOfAll items
  | _ => []

/-- What commands ask for, one after the other. -/
def requestsOfAll : List (Document α) → List Request
  | [] => []
  | d :: ds => requests d ++ requestsOfAll ds

end

/-- What was read carries the numbers asked for. Where the reading fails,
it has asked for some of them. -/
def Served {β : Type} (s : IdSource) (rs : List Request) (numbers : β → List CommandId)
    (read : Option β × IdSource) : Prop :=
  match read with
  | (some b, s') => s.serveAll rs = (numbers b, s')
  | (none, s') => ∃ first, first <+: rs ∧ s' = (s.serveAll first).2

/-- The header of a command that is read takes the number it states, or a fresh one. -/
theorem serve_request {s : IdSource} {fs : List (String × Document α)} {h : Header} {s' : IdSource}
    (hread : headerOfFields? s fs = some (h, s')) : s.serve (request fs) = (h.id, s') := by
  obtain ⟨transient, _, hread⟩ := Option.bind_eq_some_iff.1 hread
  obtain ⟨dying, _, hread⟩ := Option.bind_eq_some_iff.1 hread
  obtain ⟨forced, _, hread⟩ := Option.bind_eq_some_iff.1 hread
  obtain ⟨given, hgiven, hread⟩ := Option.bind_eq_some_iff.1 hread
  unfold request
  rw [hgiven]
  cases given <;> (cases hread; rfl)

namespace Served

variable {β γ : Type} {s s' : IdSource} {rs rs' : List Request} {ids : List CommandId}
  {numbers : β → List CommandId} {read : Option β × IdSource}

/-- A reading that fails before it asks for anything. -/
theorem refused (s : IdSource) (rs : List Request) (numbers : β → List CommandId) :
    Served s rs numbers (none, s) := ⟨[], List.nil_prefix, rfl⟩

/-- What was asked for stays asked for when the reading comes to nothing after all. -/
theorem dropped (h : Served s rs numbers read) {numbers' : γ → List CommandId} :
    Served s rs numbers' (none, read.2) := by
  obtain ⟨b, s'⟩ := read
  cases b with
  | none => exact h
  | some b => exact ⟨rs, List.prefix_rfl, (congrArg Prod.snd h).symm⟩

/-- A reading that goes on after the first requests. -/
theorem prepend (hfirst : s.serveAll rs = (ids, s')) (h : Served s' rs' numbers read) :
    Served s (rs ++ rs') (fun b => ids ++ numbers b) read := by
  obtain ⟨b, s''⟩ := read
  cases b with
  | none =>
    obtain ⟨first, hprefix, rfl⟩ := h
    exact ⟨rs ++ first, (List.prefix_append_right_inj rs).2 hprefix, by
      rw [serveAll_append, hfirst]⟩
  | some b =>
    show s.serveAll (rs ++ rs') = _
    rw [serveAll_append, hfirst]
    show (ids ++ (s'.serveAll rs').1, (s'.serveAll rs').2) = _
    rw [show s'.serveAll rs' = (numbers b, s'') from h]

end Served

variable [Scalar α]

mutual

/-- Reading a command asks for the numbers of the command and its members. -/
theorem served_ofDocument (s : IdSource) (d : Document α) :
    Served s (requests d) numbers (ofDocument s d) := by
  cases d with
  | record fs =>
    unfold ofDocument requests
    cases hheader : headerOfFields? s fs with
    | none => exact .refused ..
    | some made =>
      obtain ⟨h, s'⟩ := made
      have hown : s.serveAll [request fs] = ([h.id], s') := by
        rw [serveAll, serve_request hheader]
        rfl
      -- the number of the command itself, and no more
      have hsingle :
          ∀ e : Option (Edit α), Served s [request fs] numbers (e.map (single h), s') := by
        intro e
        cases e with
        | none => exact ⟨_, List.prefix_rfl, (congrArg Prod.snd hown).symm⟩
        | some e => exact hown
      cases hkind : kindOfFields? fs with
      | none => exact hsingle none
      | some kind =>
        cases kind with
        | composite =>
          have hms := Served.prepend hown (served_membersOfFields s' fs)
          simp only
          generalize membersOfFields s' fs = read at hms
          cases descriptionOfFields? fs with
          | none => exact hms.dropped
          | some description =>
            obtain ⟨ms, s''⟩ := read
            cases ms with
            | none => exact hms
            | some ms => exact hms
        | _ => exact hsingle _
  | _ => exact .refused ..

/-- The numbers of members are those that reading their fields asks for. -/
theorem served_membersOfFields (s : IdSource) (fs : List (String × Document α)) :
    Served s (requestsOfFields fs) numbersAll (membersOfFields s fs) := by
  cases fs with
  | nil => exact .refused ..
  | cons f rest =>
    obtain ⟨name, d⟩ := f
    unfold membersOfFields requestsOfFields
    split
    · exact served_membersOfDocument s d
    · exact served_membersOfFields s rest

theorem served_membersOfDocument (s : IdSource) (d : Document α) :
    Served s (requestsOfMembers d) numbersAll (membersOfDocument s d) := by
  cases d with
  | list items => exact served_allOfDocuments s items
  | _ => exact .refused ..

theorem served_allOfDocuments (s : IdSource) (ds : List (Document α)) :
    Served s (requestsOfAll ds) numbersAll (allOfDocuments s ds) := by
  cases ds with
  | nil => rfl
  | cons d ds =>
    have hd := served_ofDocument s d
    unfold allOfDocuments requestsOfAll
    generalize ofDocument s d = read at hd
    obtain ⟨c, s'⟩ := read
    -- reading stops at the first document that fails, and what it had reserved stays reserved
    cases c with
    | none =>
      obtain ⟨first, hprefix, rfl⟩ := hd
      exact ⟨first, hprefix.trans (List.prefix_append ..), rfl⟩
    | some c =>
      have hds := Served.prepend hd (served_allOfDocuments s' ds)
      simp only
      generalize allOfDocuments s' ds = read at hds
      obtain ⟨cs, s''⟩ := read
      cases cs with
      | none => exact hds
      | some cs => exact hds

end

/-! ## Fresh numbers -/

/--
**Fresh numbers are new.** Whatever numbers were handed out and read before, in any order, a fresh
one is higher than each of them, as long as the last number there is was not among them. And the
program asks for numbers in no other way: an edit or a group takes a fresh one, a reset block takes
a fresh one for each command in it, and what is read from a document takes a number for each command
in it, its own or a fresh one.
-/
theorem fresh_exceeds (s : IdSource) :
    (∀ rs, last ∉ (s.serveAll rs).1 → ∀ id ∈ (s.serveAll rs).1, id < (s.serveAll rs).2.fresh.1) ∧
    (∀ e : Edit α, s.serveAll [.fresh] = (numbers (ofEdit s e).1, (ofEdit s e).2)) ∧
    (∀ description, ∀ ms : List (Command α),
      s.serveAll [.fresh] = ([(group s description ms).1.id], (group s description ms).2)) ∧
    (∀ c : Command α, Freshly s (numbersAll (resetBlock s c).1, (resetBlock s c).2)) ∧
    ∀ d : Document α, Served s (requests d) numbers (ofDocument s d) :=
  ⟨fun _ h => (lt_next_serveAll h).2, fun _ => rfl, fun _ _ => rfl, freshly_resetBlock s,
    served_ofDocument s⟩

/-- Some fresh ones, in between one that leaves others out, and one that comes late. -/
def outOfOrder : List Request := [.fresh, .given 5, .fresh, .given 2, .fresh]

/-- Numbers are read out of order, and fresh ones go beyond the greatest so far. -/
theorem fresh_exceeds_outOfOrder :
    (({} : IdSource).serveAll outOfOrder).1 = [1, 5, 6, 2, 7] ∧
    ∀ id ∈ (({} : IdSource).serveAll outOfOrder).1,
      id < (({} : IdSource).serveAll outOfOrder).2.fresh.1 :=
  ⟨by decide, (fresh_exceeds (α := Float) {}).1 outOfOrder (by decide)⟩

/-- The removal of an entity, with a number of its own if there is one. -/
def removal (id : Option CommandId) : Document Float :=
  .record ((id.map fun id => ("id", Document.ofId id)).toList ++
    [("type", .text "remove_entity"), ("entity_id", .int 5)])

/-- The number after the last one is the last one. -/
theorem not_fresh_exceeds : ∃ c c' : Command Float, ∃ s s' : IdSource,
    ofDocument {} (removal (some last)) = (some c, s) ∧
    requests (removal none) = [.fresh] ∧ ofDocument s (removal none) = (some c', s') ∧
      c'.id = c.id :=
  ⟨.single { id := last } (.remove .entity 5), .single { id := last } (.remove .entity 5), ⟨last⟩,
    ⟨0⟩, by rfl, by rfl, by rfl, rfl⟩

end Command

end SceneGuard
