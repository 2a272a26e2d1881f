import Mathlib.Data.List.Induction
import Mathlib.Data.List.Nodup
import SceneGuard.Proofs.Codec.Command
import SceneGuard.Proofs.Results
import SceneGuard.Rule.Catalog

/-!
# What a configuration describes

A configuration names kinds of command and rules, and a catalog makes a routing of it. Main
statements:

* `Checklist.gathers_foldl_add` — of the rules added under one name the last stays, in the place of
  the first (`Checklist.Gathers`);
* `Catalog.binding_eq_error_iff`, `Catalog.routing_eq_error_iff` — which name a catalog stumbles
  over (`Catalog.Stumbles`);
* `Catalog.checklistFor?_of_routing` — a command goes through the checklist of the first binding
  that is for it (`BindingConfig.Covers`);
* `Catalog.routing_exact` — so the configuration decides the routing.
-/

namespace SceneGuard

variable {α μ : Type}

/-! ## Checklists -/

namespace Checklist

/-- The checklist has the given rules: one under each name,
in the order in which the names come up, the last. -/
structure Gathers (l : Checklist α μ) (rules : List (Rule α μ)) : Prop where
  nodup : l.names.Nodup
  names : l.names = (rules.map (·.name)).eraseDups
  last : ∀ r ∈ l.rules, ∃ before after, rules = before ++ r :: after ∧ ∀ q ∈ after, q.name ≠ r.name

/-- A rule that takes the place of its namesake leaves the names as they are;
else its name is the last. -/
theorem map_name_replace (r : Rule α μ) (rules : List (Rule α μ)) :
    (replace r rules).map (·.name) =
      if r.name ∈ rules.map (·.name) then rules.map (·.name)
      else rules.map (·.name) ++ [r.name] := by
  induction rules with
  | nil => rfl
  | cons q rest ih =>
    unfold replace
    by_cases hq : q.name = r.name
    · simp [hq]
    · have hr : r.name ≠ q.name := Ne.symm hq
      simp only [if_neg hq, List.map_cons, ih, List.mem_cons, hr, false_or]
      split <;> rfl

/-- Where names differ, no other rule of its name stays beside the one that is put in. -/
theorem name_ne_of_mem_replace {r x : Rule α μ} {rules : List (Rule α μ)}
    (hnodup : (rules.map (·.name)).Nodup) (h : x ∈ replace r rules) :
    x = r ∨ x ∈ rules ∧ x.name ≠ r.name := by
  induction rules with
  | nil => exact .inl (List.mem_singleton.1 h)
  | cons q rest ih =>
    obtain ⟨hfresh, hrest⟩ := List.nodup_cons.1 hnodup
    unfold replace at h
    split at h
    -- the old rule of that name is gone, and no other has it
    case isTrue hq =>
      refine (List.mem_cons.1 h).imp_right fun hx =>
        ⟨List.mem_cons_of_mem _ hx, fun hname => hfresh ?_⟩
      exact List.mem_map.2 ⟨x, hx, hname.trans hq.symm⟩
    case isFalse hq =>
      rcases List.mem_cons.1 h with rfl | hx
      · exact .inr ⟨List.mem_cons_self, hq⟩
      · exact (ih hrest hx).imp_right fun ⟨hx, hname⟩ => ⟨List.mem_cons_of_mem _ hx, hname⟩

/-- A name that came up before does not come up anew. -/
theorem eraseDups_concat (names : List String) (name : String) :
    (names ++ [name]).eraseDups = if name ∈ names then names.eraseDups
      else names.eraseDups ++ [name] := by
  rw [List.eraseDups_append]
  by_cases h : name ∈ names <;> simp [List.removeAll, List.eraseDups_cons, h]

/-- One more rule is gathered as the others were: it is now the last of its name. -/
theorem Gathers.add {l : Checklist α μ} {rules : List (Rule α μ)} (h : l.Gathers rules)
    (r : Rule α μ) : (l.add r).Gathers (rules ++ [r]) where
  nodup := by
    -- a known name keeps its place, a new one goes to the end
    show ((replace r l.rules).map (·.name)).Nodup
    rw [map_name_replace]
    split
    case isTrue => exact h.nodup
    case isFalse hr => simpa only [List.concat_eq_append] using List.Nodup.concat hr h.nodup
  names := by
    have hnames : l.rules.map (·.name) = (rules.map (·.name)).eraseDups := h.names
    show (replace r l.rules).map (·.name) = _
    rw [map_name_replace, hnames, List.map_append, List.map_singleton, eraseDups_concat]
    simp only [List.mem_eraseDups]
  last := by
    intro x hx
    rcases name_ne_of_mem_replace h.nodup hx with rfl | ⟨hx, hname⟩
    · exact ⟨rules, [], rfl, by simp⟩
    · obtain ⟨before, after, rfl, hafter⟩ := h.last x hx
      refine ⟨before, after ++ [r], by simp, fun q hq => ?_⟩
      rcases List.mem_append.1 hq with hq | hq
      · exact hafter q hq
      · rw [List.mem_singleton.1 hq]
        exact hname.symm

/-- A checklist gathers the rules that were added to it in order. -/
theorem gathers_foldl_add (rules : List (Rule α μ)) :
    (rules.foldl Checklist.add {}).Gathers rules := by
  induction rules using List.reverseRecOn with
  | nil => exact ⟨List.nodup_nil, rfl, by simp⟩
  | append_singleton rules r ih =>
    rw [List.foldl_append]
    exact ih.add r

end Checklist

/-!
## Bindings

A binding is read in a certain order: its kinds, whether there are any, and then its rules. What it
stumbles over is the first thing that is wrong in this order.
-/

/-- A name that some kind of command goes by. -/
def KnownKind (name : String) : Prop := ∃ k : CommandKind, k.name = name

/-- No kind of command is left out of the list of all of them. -/
theorem CommandKind.mem_all (k : CommandKind) : k ∈ CommandKind.all := by
  rcases k with (_ | _ | _) | (_ | _ | _) | _ | _ | _ | _ | _ | _ <;> decide

/-- Kinds of command have names of their own. -/
theorem CommandKind.name_injective : Function.Injective CommandKind.name := fun k k' h =>
  Option.some.inj (by rw [← ofName?_name k, h, ofName?_name])

/-- A binding fits by kind, and by property where both sides name one. -/
theorem Binding.fits_ofKinds {kinds : List CommandKind} {property : Option PropertyKey}
    {l : Checklist α μ} {cmd : Command α} : (Binding.ofKinds kinds property l).fits cmd = true ↔
      cmd.kind ∈ kinds ∧ ∀ wanted ∈ property, ∀ key ∈ cmd.propertyKey, wanted = key := by
  unfold fits ofKinds
  cases property <;> cases cmd.propertyKey <;> simp [CommandKind.mem_all]

namespace BindingConfig

/-- The binding is for a command: it lists its kind, and where both name a property,
it is the same. -/
def Covers (b : BindingConfig) (c : Command α) : Prop :=
  c.kind.name ∈ b.commands ∧ ∀ wanted ∈ b.property, ∀ key ∈ c.propertyKey, wanted = key

instance (b : BindingConfig) (c : Command α) : Decidable (b.Covers c) :=
  inferInstanceAs (Decidable (_ ∧ _))

end BindingConfig

namespace Catalog

open CommandKind

variable {c : Catalog α μ} {params : RuleParams α} {b : BindingConfig} {e : ConfigError}
  {name : String}

/-- Nothing in a binding is unknown, and it is for some kind of command. -/
structure Accepts (c : Catalog α μ) (b : BindingConfig) : Prop where
  commands : b.commands ≠ []
  known : ∀ name ∈ b.commands, KnownKind name
  registered : ∀ name ∈ b.rules, name ∈ c.names

/-- What is found to be wrong with a binding first. -/
inductive Stumbles (c : Catalog α μ) (b : BindingConfig) : ConfigError → Prop where
  | unknownKind {known rest : List String} {name : String}
      (hsplit : b.commands = known ++ name :: rest) (hknown : ∀ n ∈ known, KnownKind n)
      (hname : ¬ KnownKind name) : Stumbles c b (.unknownCommandKind name)
  | noCommands (hcommands : b.commands = []) : Stumbles c b (.noCommands b.rules)
  | unknownRule {registered rest : List String} {name : String}
      (hknown : ∀ n ∈ b.commands, KnownKind n) (hcommands : b.commands ≠ [])
      (hsplit : b.rules = registered ++ name :: rest) (hregistered : ∀ n ∈ registered, n ∈ c.names)
      (hname : name ∉ c.names) :
      Stumbles c b (.unknownRule name)

/-- The rule made under a name, where it is registered. -/
def make? (c : Catalog α μ) (params : RuleParams α) (name : String) : Option (Rule α μ) :=
  (c.makers.get? name).map (· params)

/-- The rules made under the names of a list. -/
def made (c : Catalog α μ) (params : RuleParams α) (names : List String) : List (Rule α μ) :=
  names.filterMap (c.make? params)

/-- A name is read as the kind that goes by it. -/
theorem kind_eq_ok_iff {k : CommandKind} : kind name = .ok k ↔ k.name = name := by
  unfold kind
  constructor
  · intro h
    split at h
    case h_1 k' hk =>
      cases h
      exact eq_of_beq (List.find?_some (p := fun k' => CommandKind.name k' == name) hk)
    case h_2 => cases h
  · rintro rfl
    rw [ofName?_name]

theorem kind_eq_error_iff :
    kind name = .error e ↔ ¬ KnownKind name ∧ e = .unknownCommandKind name := by
  unfold KnownKind
  simp only [← kind_eq_ok_iff]
  unfold kind
  split <;> simp [eq_comm]

/-- A catalog has a rule under a name if there is a maker for it. -/
theorem rule_eq_ok_iff {r : Rule α μ} :
    c.rule params name = .ok r ↔ c.make? params name = some r := by
  unfold rule make?
  cases c.makers.get? name <;> simp

theorem exists_rule_iff (params : RuleParams α) :
    (∃ r, c.rule params name = .ok r) ↔ name ∈ c.names := by
  unfold names
  simp only [rule_eq_ok_iff, make?, Table.mem_keys_iff, Table.contains]
  cases c.makers.get? name <;> simp

/-- A name that is not registered is refused, and nothing else is. -/
theorem rule_eq_error_iff :
    c.rule params name = .error e ↔ name ∉ c.names ∧ e = .unknownRule name := by
  rw [← exists_rule_iff params]
  unfold rule
  split <;> simp [eq_comm]

theorem exists_kind_iff :
    (∃ k, kind name = .ok k) ↔ KnownKind name := exists_congr fun _ => kind_eq_ok_iff

instance (name : String) : Decidable (KnownKind name) :=
  decidable_of_iff ((kind name).isOk = true) <| by
    rw [← exists_kind_iff]
    cases kind name <;> simp [Except.isOk, Except.toBool]

instance (c : Catalog α μ) (b : BindingConfig) : Decidable (c.Accepts b) :=
  decidable_of_iff (b.commands ≠ [] ∧ (∀ name ∈ b.commands, KnownKind name) ∧
    ∀ name ∈ b.rules, name ∈ c.names)
    ⟨fun ⟨hcommands, hknown, hregistered⟩ => ⟨hcommands, hknown, hregistered⟩,
      fun ⟨hcommands, hknown, hregistered⟩ => ⟨hcommands, hknown, hregistered⟩⟩

/-- Where all names are registered, the rules under them are made. -/
theorem mapM_rule_eq_ok {names : List String} {rules : List (Rule α μ)}
    (h : names.mapM (c.rule params) = .ok rules) : rules = c.made params names := by
  have hall := mapM_eq_ok.1 h
  clear h
  induction hall with
  | nil => rfl
  | cons hrule _ ih => rw [made, List.filterMap_cons_some (rule_eq_ok_iff.1 hrule), ih, made]

/-- A checklist that was made gathers the rules under the names, in order. -/
theorem checklist_eq_ok {names : List String} {l : Checklist α μ}
    (h : c.checklist params names = .ok l) : l.Gathers (c.made params names) := by
  obtain ⟨rules, hrules, hl⟩ := bind_eq_ok.1 h
  rw [← pure_eq_ok.1 hl, ← mapM_rule_eq_ok hrules]
  exact Checklist.gathers_foldl_add rules

/-- There is one when all names are registered. -/
theorem exists_checklist_iff (params : RuleParams α) {names : List String} :
    (∃ l, c.checklist params names = .ok l) ↔ ∀ name ∈ names, name ∈ c.names := by
  unfold checklist
  simp only [exists_bind_pure, ← exists_rule_iff params]
  constructor
  · rintro ⟨rules, hrules⟩ name hname
    obtain ⟨r, -, hr⟩ := exists_mem_of_mapM hrules hname
    exact ⟨r, hr⟩
  · exact exists_mapM

/-- Otherwise the first name that is not registered is to blame. -/
theorem checklist_eq_error_iff {names : List String} :
    c.checklist params names = .error e ↔ ∃ registered name rest, names = registered ++
      name :: rest ∧
      (∀ n ∈ registered, n ∈ c.names) ∧ name ∉ c.names ∧ e = .unknownRule name := by
  unfold checklist
  simp only [bind_eq_error, mapM_eq_error, exists_rule_iff, rule_eq_error_iff, pure,
    Except.pure, reduceCtorEq, and_false, exists_false, or_false]

/-- The names that were read are those of the kinds. -/
theorem mapM_kind_eq_ok {names : List String} {kinds : List CommandKind}
    (h : names.mapM kind = .ok kinds) : names = kinds.map CommandKind.name := by
  have hall := mapM_eq_ok.1 h
  clear h
  induction hall with
  | nil => rfl
  | cons hkind _ ih => rw [List.map_cons, kind_eq_ok_iff.1 hkind, ih]

theorem exists_kinds_iff {names : List String} :
    (∃ kinds, names.mapM kind = .ok kinds) ↔ ∀ name ∈ names, KnownKind name := by
  simp only [← exists_kind_iff]
  constructor
  · rintro ⟨kinds, hkinds⟩ name hname
    obtain ⟨k, -, hk⟩ := exists_mem_of_mapM hkinds hname
    exact ⟨k, hk⟩
  · exact exists_mapM

/-- Otherwise the first unknown one is to blame. -/
theorem kinds_eq_error_iff {names : List String} :
    names.mapM kind = .error e ↔ ∃ known name rest, names = known ++ name :: rest ∧
      (∀ n ∈ known, KnownKind n) ∧ ¬ KnownKind name ∧ e = .unknownCommandKind name := by
  simp only [mapM_eq_error, exists_kind_iff, kind_eq_error_iff]

/-- The kinds are read, there has to be one, and then the rules are looked up. -/
theorem binding_eq (c : Catalog α μ) (params : RuleParams α) (b : BindingConfig) :
    c.binding params b = b.commands.mapM kind >>= fun kinds =>
      if kinds = [] then .error (.noCommands b.rules)
      else c.checklist params b.rules >>= fun l => .ok (.ofKinds kinds b.property l) := by
  unfold binding
  congr 1
  funext kinds
  cases kinds <;> rfl

/-- A binding is made of what the catalog accepts. -/
theorem exists_binding_iff (params : RuleParams α) :
    (∃ binding, c.binding params b = .ok binding) ↔ c.Accepts b := by
  rw [binding_eq, exists_bind_eq_ok]
  constructor
  · rintro ⟨kinds, hkinds, binding, hrest⟩
    have hnames := mapM_kind_eq_ok hkinds
    -- a binding without commands is refused before its rules are looked up
    split at hrest
    case isTrue => cases hrest
    case isFalse hkind =>
      obtain ⟨l, hl, -⟩ := bind_eq_ok.1 hrest
      exact ⟨hnames ▸ mt List.map_eq_nil_iff.1 hkind, exists_kinds_iff.1 ⟨kinds, hkinds⟩,
        (exists_checklist_iff params).1 ⟨l, hl⟩⟩
  · rintro ⟨hcommands, hknown, hregistered⟩
    obtain ⟨kinds, hkinds⟩ := exists_kinds_iff.2 hknown
    obtain ⟨l, hl⟩ := (exists_checklist_iff params).2 hregistered
    have hkind : kinds ≠ [] := by
      rintro rfl
      exact hcommands (mapM_kind_eq_ok hkinds)
    exact ⟨kinds, hkinds, .ofKinds kinds b.property l, by rw [if_neg hkind, hl]; rfl⟩

/-- What a binding of a configuration is made into is for the same commands,
and has the rules it names. -/
theorem fits_and_gathers_of_binding {binding : Binding α μ} (h : c.binding params b = .ok binding) :
    (∀ cmd : Command α, binding.fits cmd = true ↔ b.Covers cmd) ∧
      binding.checklist.Gathers (c.made params b.rules) := by
  rw [binding_eq] at h
  obtain ⟨kinds, hkinds, h⟩ := bind_eq_ok.1 h
  split at h
  case isTrue => cases h
  case isFalse =>
    obtain ⟨l, hl, h⟩ := bind_eq_ok.1 h
    cases h
    refine ⟨fun cmd => ?_, checklist_eq_ok hl⟩
    rw [Binding.fits_ofKinds, BindingConfig.Covers, mapM_kind_eq_ok hkinds,
      List.mem_map_of_injective CommandKind.name_injective]

/-- Otherwise the error tells what it stumbles over. -/
theorem binding_eq_error_iff : c.binding params b = .error e ↔ c.Stumbles b e := by
  rw [binding_eq, bind_eq_error]
  constructor
  -- a binding stumbles over its kinds first, then for want of any, and over its rules last
  · rintro (hkinds | ⟨kinds, hkinds, hrest⟩)
    · obtain ⟨known, name, rest, hsplit, hknown, hname, rfl⟩ := kinds_eq_error_iff.1 hkinds
      exact .unknownKind hsplit hknown hname
    · have hnames := mapM_kind_eq_ok hkinds
      split at hrest
      case isTrue hnil =>
        cases hrest
        exact .noCommands (by rw [hnames, hnil]; rfl)
      case isFalse hkind =>
        rcases bind_eq_error.1 hrest with hrules | ⟨l, _, hrest⟩
        · obtain ⟨registered, name, rest, hsplit, hregistered, hname, rfl⟩ :=
            checklist_eq_error_iff.1 hrules
          refine .unknownRule (exists_kinds_iff.1 ⟨kinds, hkinds⟩) ?_ hsplit hregistered hname
          rw [hnames]
          exact mt List.map_eq_nil_iff.1 hkind
        · cases hrest
  · rintro (⟨hsplit, hknown, hname⟩ | hcommands | ⟨hknown, hcommands, hsplit, hregistered, hname⟩)
    · exact .inl (kinds_eq_error_iff.2 ⟨_, _, _, hsplit, hknown, hname, rfl⟩)
    · rw [hcommands]
      exact .inr ⟨[], rfl, rfl⟩
    · obtain ⟨kinds, hkinds⟩ := exists_kinds_iff.2 hknown
      have hkind : kinds ≠ [] := by
        rintro rfl
        exact hcommands (mapM_kind_eq_ok hkinds)
      refine .inr ⟨kinds, hkinds, ?_⟩
      rw [if_neg hkind]
      exact bind_eq_error.2
        (.inl (checklist_eq_error_iff.2 ⟨_, _, _, hsplit, hregistered, hname, rfl⟩))

/-! ## Routings -/

variable {config : Config α} {r : Routing α μ}

/-- A routing is made when every binding in force is accepted. -/
theorem exists_routing_iff :
    (∃ r, c.routing config = .ok r) ↔ ∀ b ∈ config.activeBindings, c.Accepts b := by
  unfold routing
  simp only [exists_bind_pure, ← exists_binding_iff config.rules]
  constructor
  · rintro ⟨bindings, hbindings⟩ b hb
    obtain ⟨binding, -, hbinding⟩ := exists_mem_of_mapM hbindings hb
    exact ⟨binding, hbinding⟩
  · exact exists_mapM

/-- Otherwise the first binding that is not accepted is to blame, with what is wrong in it. -/
theorem routing_eq_error_iff :
    c.routing config = .error e ↔ ∃ before b after, config.activeBindings = before ++ b :: after ∧
      (∀ b' ∈ before, c.Accepts b') ∧ c.Stumbles b e := by
  unfold routing
  simp only [bind_eq_error, mapM_eq_error, exists_binding_iff, binding_eq_error_iff,
    pure, Except.pure, reduceCtorEq, and_false, exists_false, or_false]

/-- The first binding that is for a command is found among what the bindings are made into. -/
theorem checklistFor?_of_routing (h : c.routing config = .ok r) (cmd : Command α) :
    match config.activeBindings.find? fun b => b.Covers cmd with
    | none => r.checklistFor? cmd = none
    | some b => ∃ l, r.checklistFor? cmd = some l ∧ l.Gathers (c.made config.rules b.rules) := by
  obtain ⟨bindings, hbindings, hr⟩ := bind_eq_ok.1 h
  obtain rfl := pure_eq_ok.1 hr
  have hall := mapM_eq_ok.1 hbindings
  clear h hbindings hr
  generalize config.activeBindings = bs at hall ⊢
  unfold Routing.checklistFor?
  -- along the bindings as they were made, each beside the configuration it came from
  induction hall with
  | nil => rfl
  | @cons b binding bs bindings hbinding _ ih =>
    obtain ⟨hfits, hgathers⟩ := fits_and_gathers_of_binding hbinding
    by_cases hb : b.Covers cmd
    · have hfit := (hfits cmd).2 hb
      simp only [List.find?_cons, hb, hfit, decide_true]
      exact ⟨binding.checklist, rfl, hgathers⟩
    · have hfit : binding.fits cmd = false := Bool.eq_false_iff.2 (mt (hfits cmd).1 hb)
      simp only [List.find?_cons, hb, hfit, decide_false]
      exact ih

/-- The bindings a configuration lists are in force, and the default ones when it lists none. -/
theorem activeBindings_eq (config : Config α) : config.activeBindings =
    if config.bindings = [] then BindingConfig.defaults else config.bindings := by
  unfold Config.activeBindings
  cases config.bindings <;> rfl

/--
**The configuration decides the routing.** The bindings are those that the configuration lists, or
the default ones when it lists none. A catalog makes a routing of them exactly when each lists a
command, all of them of known kinds, and registered rules only. Otherwise it names the first binding
where this fails, and the first name in it that it does not know: a kind before anything else, and a
rule only where there is a command. Each command then goes through the checklist of the first
binding that lists its kind and, for a change of a property, does not name another one; the
checklist has one rule for each name that the rules of the binding have, in the order in which these
come up first, and the one that was made last.
-/
theorem routing_exact (c : Catalog α μ) (config : Config α) :
    let bindings := if config.bindings = [] then BindingConfig.defaults else config.bindings
    ((∃ r, c.routing config = .ok r) ↔ ∀ b ∈ bindings, c.Accepts b) ∧
      (∀ e, c.routing config = .error e ↔ ∃ before b after, bindings = before ++ b :: after ∧
        (∀ b' ∈ before, c.Accepts b') ∧ c.Stumbles b e) ∧
      ∀ r, c.routing config = .ok r → ∀ cmd : Command α,
        match bindings.find? fun b => b.Covers cmd with
        | none => r.checklistFor? cmd = none
        | some b =>
          ∃ l, r.checklistFor? cmd = some l ∧ l.Gathers (c.made config.rules b.rules) := by
  rw [← activeBindings_eq]
  exact ⟨exists_routing_iff, fun _ => routing_eq_error_iff, fun _ => checklistFor?_of_routing⟩

/-- Two rules that go by the name of a fence, and one by its own name. -/
def fences : Catalog Nat Unit :=
  let named (name : String) (_ : RuleParams Nat) : Rule Nat Unit := .judging name fun _ _ v => .ok v
  (({} : Catalog Nat Unit).register "fence" (named "fence")).register "strict_fence" (named "fence")
    |>.register "log" (named "log")

/-- Changes of the height are only logged; moves and all other changes go by two fences. -/
def fenced : Config Nat where
  collision := { epsilon := 0 }
  rules := { gridStep := 0, minScale := 0, maxScale := 0, proximityMargin := 0 }
  bindings :=
    [{ commands := ["change_property"]
       property := some ⟨"dimensions", "height"⟩
       rules := ["log"] },
      { commands := ["move_entity", "change_property"], rules := ["fence", "log", "strict_fence"] }]

/--
A change of the width goes through the second checklist, in which one fence has taken the place of
the other. With no bindings listed the default ones are in force. The fences stumble over the first
rule of the first of them; the rules of this library are all there, and a removal finds those of the
last but one.
-/
theorem routing_exact_fenced :
    (∃ r, fences.routing fenced = .ok r ∧ ∃ l,
      r.checklistFor? (.single { id := 1 }
        (.changeProperty 1 ⟨"dimensions", "width"⟩ (.int 1) (.int 2))) = some l ∧
      l.names = ["fence", "log"]) ∧
    fences.routing { fenced with bindings := [] } = .error (.unknownRule "die_check") ∧
    ∃ r, (builtin : Catalog Float Unit).routing .standard = .ok r ∧ ∃ l,
      r.checklistFor? (.single { id := 1 } (.remove .entity 1)) = some l ∧
      l.names = ["die_check", "cascade_remove"] := by
  -- listed bindings, no bindings where the default rules are unknown, and the defaults themselves
  refine ⟨?_, ?_, ?_⟩
  · obtain ⟨hok, -, hchecklists⟩ := routing_exact fences fenced
    obtain ⟨r, hr⟩ := hok.2 (by decide)
    obtain ⟨l, hl, hgathers⟩ := hchecklists r hr (.single { id := 1 }
      (.changeProperty 1 ⟨"dimensions", "width"⟩ (.int 1) (.int 2)))
    exact ⟨r, hr, l, hl, hgathers.names⟩
  · obtain ⟨-, herror, -⟩ := routing_exact fences { fenced with bindings := [] }
    refine (herror _).2 ⟨[], _, _, rfl, by decide, ?_⟩
    exact .unknownRule (by decide) (by decide) (show _ = [] ++ "die_check" :: _ from rfl)
      (by decide) (by decide)
  · obtain ⟨hok, -, hchecklists⟩ := routing_exact (builtin : Catalog Float Unit) .standard
    obtain ⟨r, hr⟩ := hok.2 (by decide)
    obtain ⟨l, hl, hgathers⟩ := hchecklists r hr (.single { id := 1 } (.remove .entity 1))
    exact ⟨r, hr, l, hl, hgathers.names⟩

end Catalog

end SceneGuard
