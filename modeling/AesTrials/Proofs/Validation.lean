import AesTrials.Program
import AesTrials.Proofs.Listing
import AesTrials.Proofs.Places

/-!
# Which settings are run

Settings are run if every variable has the type of its setting, there is at least one iteration, the
variants are selectors, and so is the variant of the sweep. They are refused over the first of these
checks that fails, and over the first entry in which a list of variants fails. The variants of
settings that have passed are read again as they were. No verdict is reached at all over entries of
which one leads to an item in front of the first or behind the last that a list can have.
-/

namespace AesTrials

namespace Selector

/-- Whether a text is entries with commas between them. -/
def Entered (text : String) (entries : List String) : Prop :=
  (∀ entry ∈ entries, ',' ∉ entry.toList) ∧ text = ",".intercalate entries

/-- Whether a text lists selectors: its entries that are not blank are these, one each. -/
def Lists (text : String) (selectors : List Selector) : Prop :=
  ∃ entries, Entered text entries ∧
    List.Forall₂ (fun entry selector => read entry = .ok selector) (named entries) selectors

/-- Whether an error is that of the first entry of a text that is neither blank nor a selector. -/
def Offends (text : String) (error : SelectorError) : Prop :=
  ∃ entries, Entered text entries ∧ ∃ front entry back, named entries = front ++ entry :: back ∧
    (∀ earlier ∈ front, ∃ selector, read earlier = .ok selector) ∧ read entry = .error error

variable {text : String}

/-- What is read of a text is what it lists. -/
theorem readList_eq_ok_iff {selectors : List Selector} :
    readList text = .ok selectors ↔ Lists text selectors := by
  constructor
  · intro found
    obtain ⟨entries, whole, rfl⟩ := exists_entries text
    rw [readList_intercalate whole, mapM_eq_ok_iff] at found
    exact ⟨entries, ⟨whole, rfl⟩, found⟩
  · rintro ⟨entries, ⟨whole, rfl⟩, listed⟩
    rw [readList_intercalate whole, mapM_eq_ok_iff]
    exact listed

/-- A text is refused over its first entry that offends. -/
theorem readList_eq_error_iff {error : SelectorError} :
    readList text = .error error ↔ Offends text error := by
  constructor
  · intro refused
    obtain ⟨entries, whole, rfl⟩ := exists_entries text
    rw [readList_intercalate whole, mapM_eq_error_iff] at refused
    exact ⟨entries, ⟨whole, rfl⟩, refused⟩
  · rintro ⟨entries, ⟨whole, rfl⟩, offends⟩
    rw [readList_intercalate whole, mapM_eq_error_iff]
    exact offends

end Selector

namespace Draft

/-- The variants that a draft asks for: those of its list, at least one, or the standard suite if it
has none. -/
inductive Asks (draft : Draft) : List Selector → Prop where
  | standard (unset : draft.variantsText = none) : Asks draft Selector.standardSuite
  | listed {text : String} {selectors : List Selector} (given : draft.variantsText = some text)
      (lists : Selector.Lists text selectors) (some : selectors ≠ []) : Asks draft selectors

/-- The check that a draft fails first. -/
inductive Fails (draft : Draft) : SettingsError → Prop where
  | noIterations (none : draft.iterations = 0) : Fails draft .noIterations
  | variants {text : String} {error : SelectorError} (counted : 1 ≤ draft.iterations)
      (given : draft.variantsText = some text) (offends : Selector.Offends text error) :
      Fails draft (.variants error)
  | noVariants {text : String} (counted : 1 ≤ draft.iterations)
      (given : draft.variantsText = some text) (blank : Selector.Lists text []) :
      Fails draft .noVariants
  | sweepVariant {selectors : List Selector} {error : SelectorError}
      (counted : 1 ≤ draft.iterations) (asks : draft.Asks selectors)
      (refused : Selector.read draft.sweepText = .error error) : Fails draft (.sweepVariant error)

variable {draft : Draft}

/-- The standard suite has variants. -/
theorem Asks.ne_nil {selectors : List Selector} (asks : draft.Asks selectors) :
    selectors ≠ [] := by
  cases asks with
  | standard _ => decide
  | listed _ _ some => exact some

/-- The variants of a draft are those that it asks for. -/
theorem selectors_eq_ok_iff {selectors : List Selector} :
    draft.selectors = .ok selectors ↔ draft.Asks selectors := by
  unfold Draft.selectors
  constructor
  · intro found
    split at found
    · rename_i unset
      cases found
      exact .standard unset
    · rename_i text given
      split at found
      · contradiction
      · contradiction
      · rename_i list some listed
        cases found
        exact .listed given (Selector.readList_eq_ok_iff.mp listed) some
  · intro asks
    cases asks with
    | standard unset => rw [unset]
    | listed given lists some =>
      rw [given]
      simp only [Selector.readList_eq_ok_iff.mpr lists]

/-- The sweep of a draft is the selector that its text is. -/
theorem sweep_eq_ok_iff {selector : Selector} :
    draft.sweep = .ok selector ↔ Selector.read draft.sweepText = .ok selector := by
  unfold sweep
  cases Selector.read draft.sweepText with
  | error error => simp
  | ok other => simp

/-- A draft is refused over the check that it fails first. -/
theorem validate_of_fails {error : SettingsError} (fails : draft.Fails error) :
    draft.validate = .error error := by
  unfold validate
  cases fails with
  | noIterations none => rw [if_pos none]
  | @variants text cause counted given offends =>
    have refused : draft.selectors = .error (.variants cause) := by
      simp only [Draft.selectors, given, Selector.readList_eq_error_iff.mpr offends]
    rw [if_neg (by omega), refused]
    rfl
  | noVariants counted given blank =>
    have refused : draft.selectors = .error .noVariants := by
      simp only [Draft.selectors, given, Selector.readList_eq_ok_iff.mpr blank]
    rw [if_neg (by omega), refused]
    rfl
  | @sweepVariant selectors cause counted asks offends =>
    have refused : draft.sweep = .error (.sweepVariant cause) := by
      simp only [sweep, offends]
    rw [if_neg (by omega), selectors_eq_ok_iff.mpr asks, refused]
    rfl

/-- A draft whose variants are refused fails over these. -/
theorem fails_of_selectors {error : SettingsError} (counted : 1 ≤ draft.iterations)
    (refused : draft.selectors = .error error) : draft.Fails error := by
  unfold Draft.selectors at refused
  split at refused
  · contradiction
  · rename_i text given
    split at refused
    · rename_i cause offends
      cases refused
      exact .variants counted given (Selector.readList_eq_error_iff.mp offends)
    · rename_i blank
      cases refused
      exact .noVariants counted given (Selector.readList_eq_ok_iff.mp blank)
    · contradiction

/-- A draft is refused over a check exactly if it fails that check first. -/
theorem validate_eq_error_iff {error : SettingsError} :
    draft.validate = .error error ↔ draft.Fails error := by
  refine ⟨fun refused => ?_, validate_of_fails⟩
  unfold validate at refused
  split at refused
  · rename_i none
    cases refused
    exact .noIterations none
  · rename_i some
    have counted : 1 ≤ draft.iterations := Nat.one_le_iff_ne_zero.mpr some
    cases selectors : draft.selectors with
    | error cause =>
      rw [selectors] at refused
      cases refused
      exact fails_of_selectors counted selectors
    | ok list =>
      have asks := selectors_eq_ok_iff.mp selectors
      rw [selectors] at refused
      cases sweep : Selector.read draft.sweepText with
      | error cause =>
        have offends : draft.sweep = .error (.sweepVariant cause) := by
          simp only [Draft.sweep, sweep]
        rw [offends] at refused
        cases refused
        exact .sweepVariant counted asks sweep
      | ok variant =>
        rw [sweep_eq_ok_iff.mpr sweep] at refused
        contradiction

end Draft

namespace Settings

/-- Whether settings are what a group of settings says and pass every check. -/
structure Sound (settings : Settings) (root : Setting) : Prop where
  read : settings.toDraft.ReadFrom root
  counted : 1 ≤ settings.iterations
  asks : settings.toDraft.Asks settings.selectors
  sweep : Selector.read settings.sweepText = .ok settings.sweep

/-- The first check that what a group of settings says does not pass. -/
inductive Refused (root : Setting) : SettingsError → Prop where
  | unreadable (none : ∀ draft : Draft, ¬ draft.ReadFrom root) : Refused root .unreadable
  | invalid {draft : Draft} {error : SettingsError} (read : draft.ReadFrom root)
      (fails : draft.Fails error) : Refused root error

variable {root : Setting} {entries : Entries}

/-- Settings are run if they are sound. -/
theorem ofRoot_eq_ok_iff_sound {settings : Settings} :
    ofRoot root = .ok settings ↔ settings.Sound root := by
  rw [ofRoot_eq_ok_iff]
  constructor
  · rintro ⟨draft, read, valid⟩
    obtain ⟨counted, selectors, sweep, rfl⟩ := Draft.validate_eq_ok_iff.mp valid
    exact ⟨Draft.read?_eq_some_iff.mp read, Nat.one_le_iff_ne_zero.mpr counted,
      Draft.selectors_eq_ok_iff.mp selectors, Draft.sweep_eq_ok_iff.mp sweep⟩
  · rintro ⟨read, counted, asks, sweep⟩
    refine ⟨settings.toDraft, Draft.read?_eq_some_iff.mpr read, ?_⟩
    rw [Draft.validate_eq_ok_iff]
    exact ⟨Nat.one_le_iff_ne_zero.mp counted, Draft.selectors_eq_ok_iff.mpr asks,
      Draft.sweep_eq_ok_iff.mpr sweep, rfl⟩

/-- A group of settings is refused over a check exactly if it does not pass that check first. -/
theorem ofRoot_eq_error_iff {error : SettingsError} :
    ofRoot root = .error error ↔ Refused root error := by
  unfold ofRoot
  constructor
  · intro refused
    split at refused
    · rename_i unread
      cases refused
      refine .unreadable fun draft read => ?_
      rw [Draft.read?_eq_some_iff.mpr read] at unread
      contradiction
    · rename_i draft read
      exact .invalid (Draft.read?_eq_some_iff.mp read) (Draft.validate_eq_error_iff.mp refused)
  · intro refused
    cases refused with
    | unreadable none =>
      cases read : Draft.read? root with
      | none => rfl
      | some draft => exact absurd (Draft.read?_eq_some_iff.mp read) (none draft)
    | invalid read fails =>
      rw [Draft.read?_eq_some_iff.mpr read]
      exact Draft.validate_eq_error_iff.mpr fails

/-- There is no verdict exactly if an index leads nowhere. -/
theorem load?_eq_none_iff : load? entries = none ↔ entries.Strays := by
  rw [load?, Option.map_eq_none_iff, Entries.build?_eq_none_iff]

/-- Settings are loaded if they are sound for what the entries make. -/
theorem load?_eq_ok_iff_sound {settings : Settings} : load? entries = some (.ok settings) ↔
    ∃ root, Setting.build? entries = some root ∧ settings.Sound root := by
  simp only [load?, Option.map_eq_some_iff, ofRoot_eq_ok_iff_sound]

/-- Entries are refused over the check that what they make does not pass first. -/
theorem load?_eq_error_iff {error : SettingsError} : load? entries = some (.error error) ↔
    ∃ root, Setting.build? entries = some root ∧ Refused root error := by
  simp only [load?, Option.map_eq_some_iff, ofRoot_eq_error_iff]

/-- The entries of an environment, in whatever order they come, are its keys, each with the last
text that is given for it. There is no verdict on them exactly if an index leads nowhere in what the
entries before it make. Otherwise the settings that are loaded are those that the entries make, all
of them checked, and entries are refused over the check that fails first: types, iterations,
variants, sweep. A setting that no entry leads into is what its text is taken for, the last of the
entries stands where its key leads, and where no entry leads into a setting there is a verdict, the
same in every order. The variants and the sweep of loaded settings are read again as they were, and
there is at least one variant. An error over the variants or the sweep names its variable and what
is wrong with the selector. The program ends over an error with that error, and where there is no
verdict it stops. -/
theorem load_verdict (environment : Environment) {entries : Entries}
    (order : entries.Perm environment.entries) :
    (∀ key, entries.lookup key = environment.given? key) ∧
    (load? entries = none ↔ entries.Strays) ∧
    (∀ settings, load? entries = some (.ok settings) ↔
      ∃ root, Setting.build? entries = some root ∧ settings.Sound root) ∧
    (∀ error, load? entries = some (.error error) ↔
      ∃ root, Setting.build? entries = some root ∧ Refused root error) ∧
    (∀ root, Setting.build? entries = some root → ∀ name, entries.Whole name →
      root.part? name = (environment.given? name).map .ofText) ∧
    (∀ front entry root, entries = front ++ [entry] → Setting.build? entries = some root →
      Setting.at? (SettingPath.ofKey entry.1).toSteps (some root) = some (.ofText entry.2)) ∧
    (entries.Flat → ¬ entries.Strays ∧ load? entries = load? environment.entries) ∧
    (∀ settings, load? entries = some (.ok settings) →
      settings.toDraft.selectors = .ok settings.selectors ∧ settings.selectors ≠ [] ∧
        settings.toDraft.sweep = .ok settings.sweep) ∧
    (∀ error, (SettingsError.variants error).message =
        "CIPHERBENCH_VARIANTS is invalid: " ++ error.message ∧
      (SettingsError.sweepVariant error).message =
        "CIPHERBENCH_SWEEP_VARIANT is invalid: " ++ error.message) ∧
    (∀ error, load? entries = some (.error error) →
      Program.setUp environment entries = .error (.ofSettingsError error)) ∧
    (load? entries = none → Program.setUp environment entries = .error .stopped) := by
  have distinct : (entries.map Prod.fst).Nodup :=
    (order.map Prod.fst).nodup_iff.mpr Environment.nodup_entries
  refine ⟨fun _ => Environment.lookup_of_perm order, load?_eq_none_iff,
    fun _ => load?_eq_ok_iff_sound, fun _ => load?_eq_error_iff, ?_, ?_, ?_, ?_, ?_, ?_, ?_⟩
  · intro root built name whole
    rw [← Environment.lookup_of_perm order]
    exact Setting.part?_build? distinct whole built
  · rintro front entry root rfl built
    exact Entries.at?_build? built
  · intro flat
    obtain ⟨verdict, first, second⟩ := exists_load?_of_flat flat distinct order
    exact ⟨flat.not_strays, first.trans second.symm⟩
  · intro settings loaded
    obtain ⟨root, _, _, _, asks, sweep⟩ := load?_eq_ok_iff_sound.mp loaded
    exact ⟨Draft.selectors_eq_ok_iff.mpr asks, asks.ne_nil, Draft.sweep_eq_ok_iff.mpr sweep⟩
  · exact fun error => ⟨rfl, rfl⟩
  · intro error refused
    simp only [Program.setUp, refused]
  · intro silent
    simp only [Program.setUp, silent]

/-- Two entries of the list and the sweep are no selectors; the first entry of the list decides,
though the sweep comes first. -/
theorem load_verdict_first :
    List.Perm [("sweep_variant", "aes"), ("variants", "aes128-cbc, ,nope,aes1-cbc")]
        (Environment.entries [("CIPHERBENCH_VARIANTS", "aes128-cbc, ,nope,aes1-cbc"),
          ("CIPHERBENCH_SWEEP_VARIANT", "aes")]) ∧
      load? [("sweep_variant", "aes"), ("variants", "aes128-cbc, ,nope,aes1-cbc")] =
        some (.error (.variants (.malformed "nope"))) ∧
      Program.setUp [("CIPHERBENCH_VARIANTS", "aes128-cbc, ,nope,aes1-cbc"),
          ("CIPHERBENCH_SWEEP_VARIANT", "aes")]
          [("sweep_variant", "aes"), ("variants", "aes128-cbc, ,nope,aes1-cbc")] =
        .error (.ofSettingsError (.variants (.malformed "nope"))) := by
  have order : List.Perm [("sweep_variant", "aes"), ("variants", "aes128-cbc, ,nope,aes1-cbc")]
      (Environment.entries [("CIPHERBENCH_VARIANTS", "aes128-cbc, ,nope,aes1-cbc"),
        ("CIPHERBENCH_SWEEP_VARIANT", "aes")]) := by
    have entered : Environment.entries [("CIPHERBENCH_VARIANTS", "aes128-cbc, ,nope,aes1-cbc"),
        ("CIPHERBENCH_SWEEP_VARIANT", "aes")] =
        [("variants", "aes128-cbc, ,nope,aes1-cbc"), ("sweep_variant", "aes")] := by decide +kernel
    rw [entered]
    exact .swap ..
  have refused : load? [("sweep_variant", "aes"), ("variants", "aes128-cbc, ,nope,aes1-cbc")] =
      some (.error (.variants (.malformed "nope"))) := by decide +kernel
  obtain ⟨_, _, _, _, _, _, _, _, _, ends, _⟩ := load_verdict _ order
  exact ⟨order, refused, ends _ refused⟩

/-- A seed given as an item in front of the first cannot be read, but no verdict says so. -/
theorem not_load_answers :
    ¬ ∀ (environment : Environment) (entries : Entries), entries.Perm environment.entries →
      ∃ root, (∀ settings, load? entries = some (.ok settings) ↔ settings.Sound root) ∧
        ∀ error, load? entries = some (.error error) ↔ Refused root error := by
  intro answers
  have silent : load? (Environment.entries [("CIPHERBENCH_SEED[-1]", "7")]) = none := by
    decide +kernel
  obtain ⟨root, loads, refuses⟩ := answers [("CIPHERBENCH_SEED[-1]", "7")] _ (.refl _)
  cases verdict : ofRoot root with
  | ok settings =>
    have loaded := (loads settings).mpr (ofRoot_eq_ok_iff_sound.mp verdict)
    rw [silent] at loaded
    cases loaded
  | error error =>
    have refused := (refuses error).mpr (ofRoot_eq_error_iff.mp verdict)
    rw [silent] at refused
    cases refused

end Settings

end AesTrials
