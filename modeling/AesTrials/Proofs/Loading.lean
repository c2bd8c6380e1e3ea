import AesTrials.Settings.Basic
import Mathlib.Data.List.SplitBy

/-!
# Loading settings

The entries of an environment are its keys, each with the last text that is given for it; their
order is open. What an entry makes of the group of settings is a matter of the one setting that it
names, so settings that are entered as a whole only are what is given for them in every order. A
draft is read setting by setting, and what is run is a draft with at least one iteration whose
variants are selectors.
-/

namespace AesTrials

namespace SettingPath

/-- A path without steps is that of the key which is read as it. -/
theorem eq_of_read? {text : List Char} {name : String} (h : read? text = some ⟨name, []⟩) :
    String.ofList text = name := by
  unfold read? at h
  split at h
  · contradiction
  · rename_i front steps cut
    obtain ⟨given, named, rest⟩ := Option.bind_eq_some_iff.mp h
    obtain ⟨read, reads, same⟩ := Option.bind_eq_some_iff.mp rest
    cases same
    -- Reading keeps the number of steps, so there is only the name.
    have none : steps = [] := by
      cases steps with
      | nil => rfl
      | cons step more =>
        rw [List.mapM_cons] at reads
        obtain ⟨_, _, later⟩ := Option.bind_eq_some_iff.mp reads
        obtain ⟨_, _, same⟩ := Option.bind_eq_some_iff.mp later
        cases same
    have whole := List.flatten_splitBy (fun _ next => next != '.' && next != '[') text
    rw [cut, none, List.flatten_cons, List.flatten_nil, List.append_nil] at whole
    rw [readName?] at named
    split at named
    · rw [← whole]
      exact Option.some.inj named
    · contradiction

/-- A key that leads to no place inside its setting is the name of the setting. -/
theorem setting_ofKey {key : String} (whole : (ofKey key).steps = []) :
    (ofKey key).setting = key := by
  unfold ofKey at whole ⊢
  cases read : read? key.toList with
  | none => rfl
  | some path =>
    obtain ⟨name, steps⟩ := path
    rw [read] at whole
    obtain rfl : steps = [] := whole
    have same := eq_of_read? read
    rw [String.ofList_toList] at same
    exact same.symm

end SettingPath

namespace Environment

variable {environment : Environment} {key : String}

/-- The text that the last variable with a key gives for it. -/
def given? (environment : Environment) (key : String) : Option String :=
  (environment.reverse.find? fun given => SettingPath.key? given.1 == some key).map Prod.snd

/-- A variable is entered under its key only. -/
theorem lookup_enter (entries : Entries) (given : String × String) :
    (enter entries given).lookup key =
      if SettingPath.key? given.1 = some key then some given.2 else entries.lookup key := by
  unfold enter
  cases named : SettingPath.key? given.1 with
  | none => rfl
  | some other =>
    by_cases same : key = other
    · subst same
      simp
    · simp [Keyed.lookup_assign_of_ne same, Ne.symm same]

/-- A key has the text that the last of some variables gives for it, or what it had before them. -/
theorem lookup_foldl_enter (start : Entries) :
    (environment.foldl enter start).lookup key =
      (environment.given? key).or (start.lookup key) := by
  induction environment generalizing start with
  | nil => rfl
  | cons given rest ih =>
    rw [List.foldl_cons, ih, lookup_enter]
    simp only [given?, List.reverse_cons, List.find?_append, Option.map_or]
    cases rest.reverse.find? fun given => SettingPath.key? given.1 == some key with
    | some later => rfl
    | none =>
      by_cases named : SettingPath.key? given.1 = some key
      · simp [named]
      · simp [named, List.find?_nil]

/-- A key is entered with the text that is given for it. -/
theorem lookup_entries : environment.entries.lookup key = environment.given? key := by
  rw [entries, lookup_foldl_enter, List.lookup_nil, Option.or_none]

/-- No key is entered twice. -/
theorem nodup_entries : (environment.entries.map Prod.fst).Nodup := by
  have kept (start : Entries) (distinct : (start.map Prod.fst).Nodup) :
      ((environment.foldl enter start).map Prod.fst).Nodup := by
    induction environment generalizing start with
    | nil => exact distinct
    | cons given rest ih =>
      refine ih _ ?_
      unfold enter
      split
      · exact distinct
      · exact Keyed.nodup_assign distinct
  exact kept [] .nil

/-- What a key is entered with does not depend on the order. -/
theorem lookup_of_perm {entries : Entries} (order : entries.Perm environment.entries) :
    entries.lookup key = environment.given? key :=
  (Keyed.lookup_perm nodup_entries order).trans lookup_entries

end Environment

namespace Entries

/-- Whether every entry that has a name for its key, or leads into the setting with that name, is
for the setting as a whole. -/
def Whole (entries : Entries) (name : String) : Prop :=
  ∀ entry ∈ entries, entry.1 = name ∨ (SettingPath.ofKey entry.1).setting = name →
    (SettingPath.ofKey entry.1).steps = []

/-- Whether every entry is for a setting as a whole. -/
def Flat (entries : Entries) : Prop :=
  ∀ entry ∈ entries, (SettingPath.ofKey entry.1).steps = []

/-- Where all entries are for settings as a whole, those for one setting are. -/
theorem Flat.whole {entries : Entries} (flat : entries.Flat) (name : String) :
    entries.Whole name :=
  fun entry member _ => flat entry member

end Entries

namespace Setting

variable {root next : Setting} {entry : String × String} {entries : Entries} {name : String}

/-- Whether two groups of settings have the same settings but for one name. -/
def AgreeBut (name : String) (first second : Setting) : Prop :=
  ∀ other, other ≠ name → first.part? other = second.part? other

/-- An entry makes something of the setting that it names, and leaves the other settings. -/
theorem enter?_eq_some_iff : root.enter? entry = some next ↔
    ∃ inner, give? (ofText entry.2) (SettingPath.ofKey entry.1).steps
        (root.part? (SettingPath.ofKey entry.1).setting) = some inner ∧
      next = .group (Keyed.assign (SettingPath.ofKey entry.1).setting inner
        (parts (some root))) := by
  simp only [enter?, SettingPath.toSteps, give?, part?, Option.bind_eq_bind,
    Option.bind_eq_some_iff, Option.some.injEq, eq_comm (a := next)]

/-- The other settings are kept. -/
theorem agreeBut_enter? (entered : root.enter? entry = some next) :
    AgreeBut (SettingPath.ofKey entry.1).setting next root := by
  intro other differs
  obtain ⟨inner, _, rfl⟩ := enter?_eq_some_iff.mp entered
  exact Keyed.lookup_assign_of_ne differs

/-- A setting that is entered as a whole is what its text is taken for. -/
theorem exists_enter?_of_whole (root : Setting)
    (whole : (SettingPath.ofKey entry.1).steps = []) :
    ∃ next, root.enter? entry = some next ∧ next.part? entry.1 = some (ofText entry.2) := by
  refine ⟨_, enter?_eq_some_iff.mpr ⟨ofText entry.2, by rw [whole]; rfl, rfl⟩, ?_⟩
  rw [SettingPath.setting_ofKey whole]
  exact Keyed.lookup_assign_self

/-- An entry for another setting makes the same of two groups. -/
theorem exists_enter?_of_agreeBut {first second : Setting} (agree : AgreeBut name first second)
    (differs : (SettingPath.ofKey entry.1).setting ≠ name)
    (entered : second.enter? entry = some next) :
    ∃ made, first.enter? entry = some made ∧ AgreeBut name made next := by
  obtain ⟨inner, given, rfl⟩ := enter?_eq_some_iff.mp entered
  refine ⟨_, enter?_eq_some_iff.mpr ⟨inner, (agree _ differs).symm ▸ given, rfl⟩, ?_⟩
  intro other apart
  by_cases mine : other = (SettingPath.ofKey entry.1).setting
  · subst mine
    exact Keyed.lookup_assign_self.trans Keyed.lookup_assign_self.symm
  · exact ((Keyed.lookup_assign_of_ne mine).trans (agree other apart)).trans
      (Keyed.lookup_assign_of_ne mine).symm

/-- A setting that no entry leads into is what the text for it is taken for, or what it was. -/
theorem part?_foldlM (distinct : (entries.map Prod.fst).Nodup) (whole : entries.Whole name)
    (built : entries.foldlM enter? root = some next) :
    next.part? name = ((entries.lookup name).map ofText).or (root.part? name) := by
  induction entries generalizing root with
  | nil =>
    cases built
    rfl
  | cons entry rest ih =>
    obtain ⟨fresh, distinct⟩ := List.nodup_cons.mp distinct
    obtain ⟨first, whole⟩ := List.forall_mem_cons.mp whole
    rw [List.foldlM_cons] at built
    obtain ⟨middle, entered, built⟩ := Option.bind_eq_some_iff.mp built
    rw [ih distinct whole built, List.lookup_cons]
    by_cases same : name = entry.1
    · have absent : rest.lookup name = none := by
        rw [List.lookup_eq_none_iff]
        intro other member
        refine bne_iff_ne.mpr fun equal => fresh ?_
        rw [← same, equal]
        exact List.mem_map_of_mem member
      have steps : (SettingPath.ofKey entry.1).steps = [] := first (.inl same.symm)
      obtain ⟨whole, enters, given⟩ := exists_enter?_of_whole root steps
      cases entered.symm.trans enters
      rw [absent, same, given, beq_self_eq_true]
      rfl
    · have missed : (name == entry.1) = false := beq_eq_false_iff_ne.mpr same
      have other : name ≠ (SettingPath.ofKey entry.1).setting := by
        intro equal
        exact same (equal.trans (SettingPath.setting_ofKey (first (.inr equal.symm))))
      rw [missed, agreeBut_enter? entered name other]

/-- A setting that no entry leads into is what the text for it is taken for. -/
theorem part?_build? (distinct : (entries.map Prod.fst).Nodup) (whole : entries.Whole name)
    (built : build? entries = some root) :
    root.part? name = (entries.lookup name).map ofText := by
  have parts := part?_foldlM distinct whole built
  rwa [show (Setting.group []).part? name = none from rfl, Option.or_none] at parts

/-- Entries for settings as a whole always make a group of settings. -/
theorem exists_build?_of_flat (flat : entries.Flat) : ∃ root, build? entries = some root := by
  unfold build?
  generalize Setting.group [] = start
  induction entries generalizing start with
  | nil => exact ⟨start, rfl⟩
  | cons entry rest ih =>
    obtain ⟨first, later⟩ := List.forall_mem_cons.mp flat
    obtain ⟨middle, entered, _⟩ := exists_enter?_of_whole start first
    obtain ⟨root, built⟩ := ih later middle
    exact ⟨root, by rw [List.foldlM_cons, entered]; exact built⟩

/-- Entries for one setting as a whole, and none else, can be left out without a difference to the
other settings. -/
theorem exists_foldlM_of_filter (whole : entries.Whole name) {first second : Setting}
    (agree : AgreeBut name first second)
    (built : (entries.filter fun entry => entry.1 != name).foldlM enter? second = some root) :
    ∃ full, entries.foldlM enter? first = some full ∧ AgreeBut name full root := by
  induction entries generalizing first second with
  | nil =>
    cases built
    exact ⟨first, rfl, agree⟩
  | cons entry rest ih =>
    obtain ⟨inside, whole⟩ := List.forall_mem_cons.mp whole
    by_cases same : entry.1 = name
    · have steps : (SettingPath.ofKey entry.1).steps = [] := inside (.inl same)
      rw [List.filter_cons_of_neg (by simpa using same)] at built
      obtain ⟨middle, entered, _⟩ := exists_enter?_of_whole first steps
      have kept := agreeBut_enter? entered
      rw [SettingPath.setting_ofKey steps, same] at kept
      rw [List.foldlM_cons, entered]
      exact ih whole (fun other differs => (kept other differs).trans (agree other differs)) built
    · have differs : (SettingPath.ofKey entry.1).setting ≠ name := fun equal =>
        same ((SettingPath.setting_ofKey (inside (.inr equal))).symm.trans equal)
      rw [List.filter_cons_of_pos (by simpa using same), List.foldlM_cons] at built
      obtain ⟨after, entered, built⟩ := Option.bind_eq_some_iff.mp built
      obtain ⟨made, enters, agree⟩ := exists_enter?_of_agreeBut agree differs entered
      rw [List.foldlM_cons, enters]
      exact ih whole agree built

/-- What is loaded without a setting that no entry leads into has the other settings of all
entries. -/
theorem exists_build?_of_filter (whole : entries.Whole name)
    (built : build? (entries.filter fun entry => entry.1 != name) = some root) :
    ∃ full, build? entries = some full ∧ AgreeBut name full root :=
  exists_foldlM_of_filter whole (fun _ _ => rfl) built

end Setting

/-- Whether a draft has what is read of a group of settings for each of them. -/
structure Draft.ReadFrom (draft : Draft) (root : Setting) : Prop where
  payloadSize : root.read? "payload_size" Setting.toNat? Params.standard.payloadSize =
    some draft.payloadSize
  aadSize : root.read? "aad_size" Setting.toNat? Params.standard.aadSize =
    some draft.aadSize
  iterations : root.read? "iterations" Setting.toNat? Params.standard.iterations =
    some draft.iterations
  variantsText : root.read? "variants" (fun s => s.toText?.map some) none =
    some draft.variantsText
  sweepText : root.read? "sweep_variant" Setting.toText? "aes256-gcm" =
    some draft.sweepText
  mode : root.read? "mode" (Setting.choose? Mode.entries) .interactive = some draft.mode
  reportFormat : root.read? "report_format" (Setting.choose? ReportFormat.entries) .table =
    some draft.reportFormat
  warmUp : root.read? "warmup" Setting.toBool? true = some draft.warmUp
  seed : root.read? "seed" (fun s => s.toNat?.map some) none = some draft.seed
  logLevel : root.read? "log_level" Setting.toText? "warn" = some draft.logLevel

/-- A draft is read setting by setting. -/
theorem Draft.read?_eq_some_iff {root : Setting} {draft : Draft} :
    Draft.read? root = some draft ↔ draft.ReadFrom root := by
  simp only [Draft.read?, Option.bind_eq_bind, Option.bind_eq_some_iff, Option.some.injEq]
  constructor
  · rintro ⟨_, payload, _, aad, _, iterations, _, variants, _, sweep, _, mode, _, format, _, warm,
      _, seed, _, level, rfl⟩
    exact ⟨payload, aad, iterations, variants, sweep, mode, format, warm, seed, level⟩
  · rintro ⟨payload, aad, iterations, variants, sweep, mode, format, warm, seed, level⟩
    exact ⟨_, payload, _, aad, _, iterations, _, variants, _, sweep, _, mode, _, format, _, warm,
      _, seed, _, level, rfl⟩

/-- What a draft must be to be run. -/
theorem Draft.validate_eq_ok_iff {draft : Draft} {settings : Settings} :
    draft.validate = .ok settings ↔
      draft.iterations ≠ 0 ∧ draft.selectors = .ok settings.selectors ∧
        draft.sweep = .ok settings.sweep ∧ settings.toDraft = draft := by
  unfold validate
  constructor
  · intro valid
    split at valid
    · contradiction
    · rename_i counted
      cases selectors : draft.selectors with
      | error error =>
        rw [selectors] at valid
        contradiction
      | ok list =>
        cases sweep : draft.sweep with
        | error error =>
          rw [selectors, sweep] at valid
          contradiction
        | ok variant =>
          rw [selectors, sweep] at valid
          cases valid
          exact ⟨counted, rfl, rfl, rfl⟩
  · rintro ⟨counted, selectors, sweep, rfl⟩
    rw [if_neg counted, selectors, sweep]
    rfl

/-- Groups with the same settings give the same draft. -/
theorem Draft.read?_congr {root other : Setting}
    (same : ∀ name, root.part? name = other.part? name) : Draft.read? root = Draft.read? other := by
  have read {α : Type} (name : String) (read : Setting → Option α) (standard : α) :
      root.read? name read standard = other.read? name read standard := by
    rw [Setting.read?, Setting.read?, same]
  simp only [Draft.read?, read]

namespace Settings

variable {entries others : Entries} {settings : Settings}

/-- What a group of settings must be to be run. -/
theorem ofRoot_eq_ok_iff {root : Setting} : ofRoot root = .ok settings ↔
    ∃ draft, Draft.read? root = some draft ∧ draft.validate = .ok settings := by
  unfold ofRoot
  cases Draft.read? root with
  | none => simp
  | some draft => simp

/-- There is a verdict on entries for settings as a whole, and it does not depend on their order. -/
theorem exists_load?_of_flat (flat : entries.Flat) (distinct : (entries.map Prod.fst).Nodup)
    (order : entries.Perm others) :
    ∃ verdict, load? entries = some verdict ∧ load? others = some verdict := by
  have distinct' : (others.map Prod.fst).Nodup := (order.map Prod.fst).nodup_iff.mp distinct
  have flat' : others.Flat := fun entry member => flat entry (order.mem_iff.mpr member)
  obtain ⟨root, built⟩ := Setting.exists_build?_of_flat flat
  obtain ⟨root', built'⟩ := Setting.exists_build?_of_flat flat'
  have same : ofRoot root = ofRoot root' := by
    rw [ofRoot, ofRoot, Draft.read?_congr fun name => ?_]
    rw [Setting.part?_build? distinct (flat.whole name) built,
      Setting.part?_build? distinct' (flat'.whole name) built', Keyed.lookup_perm distinct' order]
  exact ⟨ofRoot root, by rw [load?, built]; rfl, by rw [load?, built', same]; rfl⟩

end Settings

end AesTrials
