import Mathlib.Data.List.Induction
import Mathlib.Data.List.Nodup
import TransactionalRegistry.Transaction.Settings

/-!
# Options and the settings they make

Options are read one after the other, and reading stops at the first that repeats a kind. What comes
out is said here without that loop. Options of different kinds are accepted, in any number that
there are kinds for, and each field of the settings is the one that an option gives, or else the one
that was there before. Options that repeat a kind fall apart in one way: some options of different
kinds, then one of a kind that is among them, which is told in the error, and the rest, which does
not matter.

Acceptance and fields are matters of which options there are, so the order of the options plays no
part in them. It only decides which kind is told when they are refused.

## Main definitions

* `GivenOptions.Collects`: The fields that have been given are those of some options.
* `TransactionSettings.Resolved`: What the fields of settings are, by the options.

## Theorems

* `TransactionOption.nodup_or_repeats`: Options are of different kinds, or one is the first to
  repeat a kind.
* `GivenOptions.addAll_of_nodup`, `GivenOptions.addAll_of_repeats`: What reading makes of the two.
* `TransactionSettings.withOptions_eq_ok_iff`, `TransactionSettings.withOptions_eq_error_iff`: When
  options are accepted, and with which settings; when they are refused, and with which error.
* `TransactionSettings.withOptions_perm`: The order does not matter to the settings.
-/

namespace TransactionalRegistry

variable {options before after : List TransactionOption} {option : TransactionOption}

/-- Options are of different kinds, or one of them is the first to repeat a kind. -/
theorem TransactionOption.nodup_or_repeats (options : List TransactionOption) :
    (options.map (·.kind)).Nodup ∨
      ∃ before option after, options = before ++ option :: after ∧
        (before.map (·.kind)).Nodup ∧ option.kind ∈ before.map (·.kind) := by
  -- From the front, since it is the first repetition that counts.
  induction options using List.reverseRecOn with
  | nil => exact Or.inl List.nodup_nil
  | append_singleton options last ih =>
    -- Without an earlier repetition, it is for the last option to repeat a kind.
    rcases ih with hnodup | ⟨before, option, after, rfl, hnodup, hmem⟩
    · by_cases hlast : last.kind ∈ options.map (·.kind)
      · exact Or.inr ⟨options, last, [], rfl, hnodup, hlast⟩
      · refine Or.inl ?_
        rw [List.map_append, List.map_singleton, ← List.concat_eq_append]
        exact hnodup.concat hlast
    · refine Or.inr ⟨before, option, after ++ [last], ?_, hnodup, hmem⟩
      rw [List.append_assoc, List.cons_append]

namespace GivenOptions

variable {given : GivenOptions}

/-- Whether a field of this kind has been given. -/
def has (given : GivenOptions) : OptionKind → Bool
  | .timeout => given.timeout.isSome
  | .description => given.description.isSome

/-- The fields that have been given are those of the options. -/
structure Collects (given : GivenOptions) (options : List TransactionOption) : Prop where
  timeout : ∀ d, given.timeout = some d ↔ .timeout d ∈ options
  description : ∀ text, given.description = some text ↔ .description text ∈ options

theorem collects_none : none.Collects [] :=
  ⟨by simp [none], by simp [none]⟩

theorem Collects.has_iff (h : given.Collects options) (kind : OptionKind) :
    given.has kind = true ↔ kind ∈ options.map (·.kind) := by
  rw [List.mem_map]
  cases kind with
  | timeout =>
    rw [has, Option.isSome_iff_exists]
    constructor
    · rintro ⟨d, hd⟩
      exact ⟨.timeout d, (h.timeout d).mp hd, rfl⟩
    · rintro ⟨option, hmem, hkind⟩
      cases option with
      | timeout d => exact ⟨d, (h.timeout d).mpr hmem⟩
      | description text => cases hkind
  | description =>
    rw [has, Option.isSome_iff_exists]
    constructor
    · rintro ⟨text, htext⟩
      exact ⟨.description text, (h.description text).mp htext, rfl⟩
    · rintro ⟨option, hmem, hkind⟩
      cases option with
      | timeout d => cases hkind
      | description text => exact ⟨text, (h.description text).mpr hmem⟩

theorem add_of_has (h : given.has option.kind = true) :
    given.add option = .error (.duplicateOption option.kind) := by
  cases option with
  | timeout d => exact if_pos h
  | description text => exact if_pos h

/-- One more option of a kind that is new adds its field. -/
theorem Collects.add (h : given.Collects options) (hnew : option.kind ∉ options.map (·.kind)) :
    ∃ next, given.add option = .ok next ∧ next.Collects (options ++ [option]) := by
  have hhas : ¬ given.has option.kind = true := fun hhas => hnew ((h.has_iff _).mp hhas)
  cases option with
  | timeout d =>
    refine ⟨{ given with timeout := some d }, if_neg hhas, ?_, ?_⟩
    · intro d'
      -- The field is new, so no option has given it another value.
      have hother : .timeout d' ∉ options := fun hmem => hnew (List.mem_map.mpr ⟨_, hmem, rfl⟩)
      simp [hother, eq_comm]
    · intro text
      simp [h.description text]
  | description text =>
    refine ⟨{ given with description := some text }, if_neg hhas, ?_, ?_⟩
    · intro d
      simp [h.timeout d]
    · intro text'
      have hother : .description text' ∉ options :=
        fun hmem => hnew (List.mem_map.mpr ⟨_, hmem, rfl⟩)
      simp [hother, eq_comm]

theorem addAll_append (given : GivenOptions) (before after : List TransactionOption) :
    given.addAll (before ++ after) = (given.addAll before).bind (addAll · after) := by
  induction before generalizing given with
  | nil => rfl
  | cons option before ih =>
    rw [List.cons_append, addAll, addAll]
    cases given.add option with
    | error e => rfl
    | ok next => exact ih next

/-- Options of different kinds are all taken. -/
theorem addAll_of_nodup (h : (options.map (·.kind)).Nodup) :
    ∃ given, none.addAll options = .ok given ∧ given.Collects options := by
  induction options using List.reverseRecOn with
  | nil => exact ⟨none, rfl, collects_none⟩
  | append_singleton options last ih =>
    rw [List.map_append, List.map_singleton, List.nodup_append] at h
    -- What has been collected so far has no field of the kind of the last option.
    obtain ⟨given, hgiven, hcollects⟩ := ih h.1
    have hnew : last.kind ∉ options.map (·.kind) :=
      fun hmem => h.2.2 _ hmem _ (List.mem_singleton.mpr rfl) rfl
    obtain ⟨next, hnext, hall⟩ := hcollects.add hnew
    refine ⟨next, ?_, hall⟩
    rw [addAll_append, hgiven]
    change (given.add last).bind _ = _
    rw [hnext]
    rfl

/-- The first option to repeat a kind is refused, and nothing behind it is read. -/
theorem addAll_of_repeats (hbefore : (before.map (·.kind)).Nodup)
    (hmem : option.kind ∈ before.map (·.kind)) (after : List TransactionOption) :
    none.addAll (before ++ option :: after) = .error (.duplicateOption option.kind) := by
  obtain ⟨given, hgiven, hcollects⟩ := addAll_of_nodup hbefore
  rw [addAll_append, hgiven]
  change (given.add option).bind _ = _
  rw [add_of_has ((hcollects.has_iff _).mpr hmem)]
  rfl

end GivenOptions

namespace TransactionSettings

variable {defaults settings settings' : TransactionSettings} {options' : List TransactionOption}
  {e : TransactionError}

/-- Each field of the settings is the one that an option gives, or else that of the defaults. -/
structure Resolved (defaults : TransactionSettings) (options : List TransactionOption)
    (settings : TransactionSettings) : Prop where
  timeout_given : ∀ d, .timeout d ∈ options → settings.timeout = d
  timeout_default : (∀ d, .timeout d ∉ options) → settings.timeout = defaults.timeout
  description_given : ∀ text, .description text ∈ options → settings.description = some text
  description_default :
    (∀ text, .description text ∉ options) → settings.description = defaults.description

theorem Resolved.unique (h : defaults.Resolved options settings)
    (h' : defaults.Resolved options settings') : settings = settings' := by
  have htimeout : settings.timeout = settings'.timeout := by
    -- An option that is given decides the field; otherwise the defaults do.
    by_cases hgiven : ∃ d, .timeout d ∈ options
    · obtain ⟨d, hd⟩ := hgiven
      rw [h.timeout_given d hd, h'.timeout_given d hd]
    · rw [not_exists] at hgiven
      rw [h.timeout_default hgiven, h'.timeout_default hgiven]
  have hdescription : settings.description = settings'.description := by
    by_cases hgiven : ∃ text, .description text ∈ options
    · obtain ⟨text, htext⟩ := hgiven
      rw [h.description_given text htext, h'.description_given text htext]
    · rw [not_exists] at hgiven
      rw [h.description_default hgiven, h'.description_default hgiven]
  rcases settings with ⟨timeout, description⟩
  rcases settings' with ⟨timeout', description'⟩
  obtain rfl : timeout = timeout' := htimeout
  obtain rfl : description = description' := hdescription
  rfl

theorem resolved_override {given : GivenOptions} (h : given.Collects options)
    (defaults : TransactionSettings) : defaults.Resolved options (defaults.override given) where
  timeout_given d hd := by
    rw [override, (h.timeout d).mpr hd, Option.getD_some]
  timeout_default hnone := by
    have hfield : given.timeout = none :=
      Option.eq_none_iff_forall_ne_some.mpr fun d hd => hnone d ((h.timeout d).mp hd)
    rw [override, hfield, Option.getD_none]
  description_given text htext := by
    rw [override, (h.description text).mpr htext, Option.some_or]
  description_default hnone := by
    have hfield : given.description = none :=
      Option.eq_none_iff_forall_ne_some.mpr fun text htext =>
        hnone text ((h.description text).mp htext)
    rw [override, hfield, Option.none_or]

theorem withOptions_of_nodup (h : (options.map (·.kind)).Nodup)
    (defaults : TransactionSettings) :
    ∃ settings, defaults.withOptions options = .ok settings ∧
      defaults.Resolved options settings := by
  obtain ⟨given, hgiven, hcollects⟩ := GivenOptions.addAll_of_nodup h
  refine ⟨defaults.override given, ?_, resolved_override hcollects defaults⟩
  rw [withOptions, hgiven]
  rfl

theorem withOptions_of_repeats (hbefore : (before.map (·.kind)).Nodup)
    (hmem : option.kind ∈ before.map (·.kind)) (after : List TransactionOption)
    (defaults : TransactionSettings) :
    defaults.withOptions (before ++ option :: after) =
      .error (.duplicateOption option.kind) := by
  rw [withOptions, GivenOptions.addAll_of_repeats hbefore hmem]
  rfl

theorem withOptions_eq_ok_iff : defaults.withOptions options = .ok settings ↔
    (options.map (·.kind)).Nodup ∧ defaults.Resolved options settings := by
  constructor
  · intro hok
    -- Options that repeat a kind are refused, so these do not.
    rcases TransactionOption.nodup_or_repeats options with
      hnodup | ⟨before, option, after, rfl, hbefore, hmem⟩
    · obtain ⟨resolved, hresolves, hresolved⟩ := withOptions_of_nodup hnodup defaults
      rw [hresolves, Except.ok.injEq] at hok
      exact ⟨hnodup, hok ▸ hresolved⟩
    · rw [withOptions_of_repeats hbefore hmem] at hok
      cases hok
  · rintro ⟨hnodup, hresolved⟩
    obtain ⟨resolved, hresolves, hother⟩ := withOptions_of_nodup hnodup defaults
    rw [hresolves, hresolved.unique hother]

theorem withOptions_eq_error_iff : defaults.withOptions options = .error e ↔
    ∃ before option after, options = before ++ option :: after ∧
      (before.map (·.kind)).Nodup ∧ option.kind ∈ before.map (·.kind) ∧
      e = .duplicateOption option.kind := by
  constructor
  · intro herror
    rcases TransactionOption.nodup_or_repeats options with
      hnodup | ⟨before, option, after, rfl, hbefore, hmem⟩
    · obtain ⟨resolved, hresolves, -⟩ := withOptions_of_nodup hnodup defaults
      rw [hresolves] at herror
      cases herror
    · rw [withOptions_of_repeats hbefore hmem, Except.error.injEq] at herror
      exact ⟨before, option, after, rfl, hbefore, hmem, herror.symm⟩
  · rintro ⟨before, option, after, rfl, hbefore, hmem, rfl⟩
    exact withOptions_of_repeats hbefore hmem after defaults

theorem Resolved.perm (hperm : options.Perm options') (h : defaults.Resolved options settings) :
    defaults.Resolved options' settings where
  timeout_given d hd := h.timeout_given d (hperm.mem_iff.mpr hd)
  timeout_default hnone := h.timeout_default fun d hd => hnone d (hperm.mem_iff.mp hd)
  description_given text htext := h.description_given text (hperm.mem_iff.mpr htext)
  description_default hnone :=
    h.description_default fun text htext => hnone text (hperm.mem_iff.mp htext)

/-- Options in another order make the same settings, or none either. -/
theorem withOptions_perm (hperm : options.Perm options') :
    defaults.withOptions options = .ok settings ↔ defaults.withOptions options' = .ok settings := by
  rw [withOptions_eq_ok_iff, withOptions_eq_ok_iff, (hperm.map _).nodup_iff]
  exact and_congr_right fun _ => ⟨Resolved.perm hperm, Resolved.perm hperm.symm⟩

end TransactionSettings

end TransactionalRegistry
