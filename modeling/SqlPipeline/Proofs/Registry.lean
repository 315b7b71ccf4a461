import Mathlib.Data.List.Induction
import SqlPipeline.Registry

/-!
# Plugins are resolved by their last registration

A registration replaces what was registered earlier under the name of its group and its own name,
whatever the kinds of the two plugins, and leaves all else as it was.  So after any registrations
the last one under two names decides what is found there, and only a group of its kind can use it.
The names that a registry lists are those under which something was registered, and it lists no
group without a name.
-/

namespace SqlPipeline

/-- A plugin with the group and the name that it is registered under. -/
structure Registration {κ : Type} (α : κ → Type) where
  group : PluginGroup κ
  name : String
  plugin : α group.kind

namespace Registration

variable {κ : Type} {α : κ → Type} {registration : Registration α} {group name : String}

/-- The plugin with its kind. -/
def entry (registration : Registration α) : (kind : κ) × α kind :=
  ⟨registration.group.kind, registration.plugin⟩

/-- The registration is made in a group of the one name and under the other name. -/
def IsUnder (registration : Registration α) (group name : String) : Prop :=
  registration.group.name = group ∧ registration.name = name

instance : Decidable (registration.IsUnder group name) :=
  inferInstanceAs (Decidable (registration.group.name = group ∧ registration.name = name))

/-- Of some registrations, this one is the last under two names. -/
def IsLast (registrations : List (Registration α)) (group name : String)
    (last : Registration α) : Prop :=
  ∃ before after, registrations = before ++ last :: after ∧ last.IsUnder group name ∧
    ∀ later ∈ after, ¬later.IsUnder group name

/-- The last registration under two names, if there is any. -/
def last? (registrations : List (Registration α)) (group name : String) :
    Option (Registration α) :=
  registrations.reverse.find? (·.IsUnder group name)

theorem last?_append (registrations : List (Registration α)) (registration : Registration α)
    (group name : String) :
    last? (registrations ++ [registration]) group name =
      if registration.IsUnder group name then some registration
      else last? registrations group name := by
  rw [last?, List.reverse_append, List.reverse_singleton, List.singleton_append, List.find?_cons]
  by_cases under : registration.IsUnder group name
  · simp [under]
  · simp [under, last?]

theorem last?_eq_some_iff {registrations : List (Registration α)} {last : Registration α} :
    last? registrations group name = some last ↔ IsLast registrations group name last := by
  rw [last?, List.find?_eq_some_iff_append]
  simp only [decide_eq_true_eq, Bool.not_eq_true', decide_eq_false_iff_not]
  constructor
  · rintro ⟨under, after, before, parts, others⟩
    refine ⟨before.reverse, after.reverse, ?_, under, fun later member => ?_⟩
    · rw [← List.reverse_reverse registrations, parts]
      simp
    · exact others later (List.mem_reverse.mp member)
  · rintro ⟨before, after, rfl, under, others⟩
    refine ⟨under, after.reverse, before.reverse, by simp, fun later member => ?_⟩
    exact others later (List.mem_reverse.mp member)

theorem last?_eq_none_iff {registrations : List (Registration α)} :
    last? registrations group name = none ↔
      ∀ registration ∈ registrations, ¬registration.IsUnder group name := by
  simp [last?]

end Registration

namespace Registry

variable {κ : Type} {α : κ → Type} {registry : Registry α} {group name : String}
  {registrations : List (Registration α)}

/-! ## One registration -/

/-- A registration decides what is found under its names, and nothing else. -/
theorem entry?_register (registry : Registry α) (registration : Registration α)
    (group name : String) :
    entry? (registry.register registration.group registration.name registration.plugin) group name =
      if registration.IsUnder group name then some registration.entry
      else registry.entry? group name := by
  obtain ⟨registered, key, plugin⟩ := registration
  rw [register, entry?, entry?, NameMap.update, NameMap.get?_insert]
  by_cases sameGroup : group = registered.name
  · subst sameGroup
    rw [if_pos rfl, Option.bind_some, NameMap.get?_insert]
    by_cases sameName : name = key
    · subst sameName
      rw [if_pos rfl, if_pos ⟨rfl, rfl⟩]
      rfl
    · rw [if_neg sameName, if_neg fun under => sameName under.2.symm]
      cases registry.groups.get? registered.name with
      | none => rfl
      | some plugins => rfl
  · rw [if_neg sameGroup, if_neg fun under => sameGroup under.1.symm]

/-- No group is listed without a plugin. -/
def IsOccupied (registry : Registry α) : Prop :=
  ∀ group plugins, registry.groups.get? group = some plugins → plugins.keys ≠ []

theorem isOccupied_empty : (empty : Registry α).IsOccupied := by
  intro group plugins held
  cases held

theorem IsOccupied.register (occupied : registry.IsOccupied) (registered : PluginGroup κ)
    (key : String) (plugin : α registered.kind) :
    (registry.register registered key plugin).IsOccupied := by
  intro group plugins held
  rw [Registry.register, NameMap.update, NameMap.get?_insert] at held
  split at held
  · cases held
    exact List.ne_nil_of_mem (NameMap.mem_keys.mpr ⟨_, NameMap.get?_insert_self _ key _⟩)
  · exact occupied group plugins held

/-! ## Any registrations -/

/-- The registry after some registrations, in their order. -/
def ofRegistrations (registrations : List (Registration α)) : Registry α :=
  registrations.foldl (fun registry registration =>
    registry.register registration.group registration.name registration.plugin) empty

theorem ofRegistrations_append (registrations : List (Registration α))
    (registration : Registration α) :
    ofRegistrations (registrations ++ [registration]) =
      (ofRegistrations registrations).register registration.group registration.name
        registration.plugin :=
  List.foldl_append

theorem entry?_ofRegistrations (registrations : List (Registration α)) (group name : String) :
    entry? (ofRegistrations registrations) group name =
      (Registration.last? registrations group name).map Registration.entry := by
  induction registrations using List.reverseRecOn with
  | nil => rfl
  | append_singleton registrations registration ih =>
    rw [ofRegistrations_append, entry?_register, Registration.last?_append, ih]
    split
    · rfl
    · rfl

theorem isOccupied_ofRegistrations (registrations : List (Registration α)) :
    (ofRegistrations registrations).IsOccupied := by
  induction registrations using List.reverseRecOn with
  | nil => exact isOccupied_empty
  | append_singleton registrations registration ih =>
    rw [ofRegistrations_append]
    exact ih.register _ _ _

/-! ## Listing -/

theorem mem_names_iff :
    name ∈ registry.names group ↔ (registry.entry? group name).isSome = true := by
  rw [names, entry?]
  cases registry.groups.get? group with
  | none => simp
  | some plugins =>
    rw [Option.bind_some, Option.isSome_iff_exists]
    exact NameMap.mem_keys

theorem pairwise_names (registry : Registry α) (group : String) :
    (registry.names group).Pairwise (· < ·) := by
  rw [names]
  cases registry.groups.get? group with
  | none => exact List.Pairwise.nil
  | some plugins => exact List.pairwise_map.mpr plugins.ascending

theorem pairwise_groupNames (registry : Registry α) : registry.groupNames.Pairwise (· < ·) :=
  List.pairwise_map.mpr registry.groups.ascending

theorem IsOccupied.mem_groupNames_iff (occupied : registry.IsOccupied) :
    group ∈ registry.groupNames ↔ registry.names group ≠ [] := by
  rw [groupNames, NameMap.mem_keys, names]
  cases held : registry.groups.get? group with
  | none => simp
  | some plugins => simpa using occupied group plugins held

/-! ## Looking up -/

variable [DecidableEq κ]

theorem get_of_none {registry : Registry α} {group : PluginGroup κ} {name : String}
    (none : registry.entry? group.name name = none) :
    registry.get group name = .error (.notFound group.name name) := by
  rw [get, none]

theorem get_of_entry {group : PluginGroup κ} {registration : Registration α}
    (found : registry.entry? group.name name = some registration.entry) :
    registry.get group name =
      if same : registration.group.kind = group.kind then .ok (same ▸ registration.plugin)
      else .error (.typeMismatch group.name name) := by
  rw [get, found]
  rfl

/-- After any registrations a group finds under a name the plugin that was registered last under
its own name and that name, if the two kinds are the same, and is told so if they are not; nothing
is found just if nothing was registered there.  The names of a group ascend and are those that are
found, and the groups that are listed ascend and are those with a name. -/
theorem resolves_last (registrations : List (Registration α)) :
    (∀ (group : PluginGroup κ) (name : String),
      (∀ plugin : α group.kind, (ofRegistrations registrations).get group name = .ok plugin ↔
        ∃ last, Registration.IsLast registrations group.name name last ∧
          ∃ same : last.group.kind = group.kind, plugin = same ▸ last.plugin) ∧
      ((ofRegistrations registrations).get group name = .error (.typeMismatch group.name name) ↔
        ∃ last, Registration.IsLast registrations group.name name last ∧
          last.group.kind ≠ group.kind) ∧
      ((ofRegistrations registrations).get group name = .error (.notFound group.name name) ↔
        ∀ registration ∈ registrations, ¬registration.IsUnder group.name name) ∧
      (name ∈ (ofRegistrations registrations).names group.name ↔
        (ofRegistrations registrations).get group name ≠
          .error (.notFound group.name name))) ∧
    (∀ group name : String,
      ((ofRegistrations registrations).contains group name = true ↔
        name ∈ (ofRegistrations registrations).names group) ∧
      (name ∈ (ofRegistrations registrations).names group ↔
        ∃ registration ∈ registrations, registration.IsUnder group name)) ∧
    (∀ group : String,
      ((ofRegistrations registrations).names group).Pairwise (· < ·) ∧
      (group ∈ (ofRegistrations registrations).groupNames ↔
        (ofRegistrations registrations).names group ≠ [])) ∧
    (ofRegistrations registrations).groupNames.Pairwise (· < ·) := by
  have entry := entry?_ofRegistrations registrations
  refine ⟨fun group name => ?_, fun group name => ⟨?_, ?_⟩, fun group => ⟨?_, ?_⟩, ?_⟩
  · simp only [mem_names_iff, entry, ← Registration.last?_eq_some_iff,
      ← Registration.last?_eq_none_iff]
    cases found : Registration.last? registrations group.name name with
    | none =>
      have held : entry? (ofRegistrations registrations) group.name name = none := by
        rw [entry, found]
        rfl
      simp [get_of_none held]
    | some last =>
      have held : entry? (ofRegistrations registrations) group.name name =
          some last.entry := by
        rw [entry, found]
        rfl
      have run := get_of_entry held
      by_cases same : last.group.kind = group.kind
      · rw [dif_pos same] at run
        simp [run, same, eq_comm]
      · rw [dif_neg same] at run
        simp [run, same]
  · rw [contains, mem_names_iff]
  · rw [mem_names_iff, entry, Option.isSome_map, Option.isSome_iff_ne_none, ne_eq,
      Registration.last?_eq_none_iff]
    simp
  · exact pairwise_names _ group
  · exact (isOccupied_ofRegistrations registrations).mem_groupNames_iff
  · exact pairwise_groupNames _

end Registry

end SqlPipeline
