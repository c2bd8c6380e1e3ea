import AesTrials.Proofs.Loading

/-!
# Places inside settings

The steps of a key lead to a place, and what is given for a place stands there. An index leads
nowhere if it is counted from the end of a list that is not that long, or is greater than that of
the last item a list can have. How long the list is depends on what has been entered before, so
whether entries stray depends on their order.
-/

namespace AesTrials

namespace SettingStep

variable {index : Int} {length place : Nat}

/-- The indices that stand for no place. -/
theorem place?_eq_none_iff : place? index length = none ↔
    index < -(length : Int) ∨ (indexLimit : Int) ≤ index := by
  have limit : 0 < indexLimit := by decide
  unfold place?
  split <;> split <;> simp only [reduceCtorEq, false_iff, true_iff] <;> omega

/-- An index stands for the same place in the list that has grown up to that place. -/
theorem place?_max (found : place? index length = some place) :
    place? index (max length (place + 1)) = some place := by
  unfold place? at found ⊢
  split at found
  · rename_i ahead
    rwa [if_pos ahead]
  · rename_i behind
    split at found
    · cases found
      have kept : max length (length - index.natAbs + 1) = length := by omega
      rw [if_neg behind, kept, if_pos (by omega)]
    · contradiction

end SettingStep

namespace Setting

/-- The item at an index, if there is one. -/
def item? (setting : Option Setting) (index : Int) : Option Setting :=
  (SettingStep.place? index (length setting)).bind fun place => (items setting).lookup place

/-- What stands at the end of some steps into a setting, if anything does. -/
def at? : List SettingStep → Option Setting → Option Setting
  | [], setting => setting
  | .part name :: steps, setting => at? steps ((parts setting).lookup name)
  | .item index :: steps, setting => at? steps (item? setting index)

variable {value next : Setting} {steps : List SettingStep} {setting : Option Setting}

/-- What is given for a place stands there. -/
theorem at?_give? (given : give? value steps setting = some next) :
    at? steps (some next) = some value := by
  induction steps generalizing setting next with
  | nil => exact given.symm
  | cons step steps ih =>
    cases step with
    | part name =>
      obtain ⟨inner, inside, same⟩ := Option.bind_eq_some_iff.mp given
      cases same
      rw [at?, parts_group, Keyed.lookup_assign_self]
      exact ih inside
    | item index =>
      obtain ⟨place, found, behind⟩ := Option.bind_eq_some_iff.mp given
      obtain ⟨inner, inside, same⟩ := Option.bind_eq_some_iff.mp behind
      cases same
      rw [at?, item?, length_list, items_list, SettingStep.place?_max found, Option.bind_some,
        Keyed.lookup_assign_self]
      exact ih inside

/-- Whether an index among the steps leads nowhere: in front of the first item of the list that the
steps before it lead to, or behind the last item that a list can have. -/
def Blocked (steps : List SettingStep) (setting : Option Setting) : Prop :=
  ∃ before index after, steps = before ++ .item index :: after ∧
    (index < -(length (at? before setting) : Int) ∨ (SettingStep.indexLimit : Int) ≤ index)

/-- No index leads nowhere where there are no steps. -/
theorem not_blocked_nil : ¬ Blocked [] setting := by
  rintro ⟨before, index, after, cut, _⟩
  exact List.append_ne_nil_of_right_ne_nil before (List.cons_ne_nil _ _) cut.symm

/-- A step by name leads somewhere. -/
theorem blocked_part {name : String} :
    Blocked (.part name :: steps) setting ↔ Blocked steps ((parts setting).lookup name) := by
  constructor
  · rintro ⟨before, index, after, cut, outside⟩
    cases before with
    | nil => cases cut
    | cons step before =>
      obtain ⟨rfl, rest⟩ := List.cons.inj cut
      exact ⟨before, index, after, rest, outside⟩
  · rintro ⟨before, index, after, rfl, outside⟩
    exact ⟨.part name :: before, index, after, rfl, outside⟩

/-- A step by index leads nowhere itself, or the steps behind it do. -/
theorem blocked_item {index : Int} : Blocked (.item index :: steps) setting ↔
    SettingStep.place? index (length setting) = none ∨ Blocked steps (item? setting index) := by
  rw [SettingStep.place?_eq_none_iff]
  constructor
  · rintro ⟨before, found, after, cut, outside⟩
    cases before with
    | nil =>
      cases cut
      exact .inl outside
    | cons step before =>
      obtain ⟨rfl, rest⟩ := List.cons.inj cut
      exact .inr ⟨before, found, after, rest, outside⟩
  · rintro (outside | ⟨before, found, after, rfl, outside⟩)
    · exact ⟨[], index, steps, rfl, outside⟩
    · exact ⟨.item index :: before, found, after, rfl, outside⟩

/-- A value is given for a place unless an index on the way leads nowhere. -/
theorem give?_eq_none_iff : give? value steps setting = none ↔ Blocked steps setting := by
  induction steps generalizing setting with
  | nil => exact iff_of_false (Option.some_ne_none value) not_blocked_nil
  | cons step steps ih =>
    cases step with
    | part name =>
      rw [blocked_part, ← ih, give?]
      cases give? value steps ((parts setting).lookup name) with
      | none => simp
      | some inner => simp
    | item index =>
      rw [blocked_item, ← ih, give?, item?]
      cases SettingStep.place? index (length setting) with
      | none => simp
      | some place =>
        simp only [Option.bind_eq_bind, Option.bind_some, reduceCtorEq, false_or]
        cases give? value steps ((items setting).lookup place) with
        | none => simp
        | some inner => simp

end Setting

namespace Entries

/-- Whether an index in one of the entries leads nowhere in the settings that the entries before it
make. -/
def Strays (entries : Entries) : Prop :=
  ∃ front entry back root, entries = front ++ entry :: back ∧
    Setting.build? front = some root ∧
      Setting.Blocked (SettingPath.ofKey entry.1).toSteps (some root)

/-- A run of entries stops at one that leads nowhere in what those before it make. -/
theorem foldlM_enter?_eq_none_iff {entries : Entries} (start : Setting) :
    entries.foldlM Setting.enter? start = none ↔
      ∃ front entry back root, entries = front ++ entry :: back ∧
        front.foldlM Setting.enter? start = some root ∧
          Setting.Blocked (SettingPath.ofKey entry.1).toSteps (some root) := by
  induction entries generalizing start with
  | nil =>
    refine iff_of_false (Option.some_ne_none start) ?_
    rintro ⟨front, entry, back, root, cut, _⟩
    exact List.append_ne_nil_of_right_ne_nil front (List.cons_ne_nil _ _) cut.symm
  | cons entry rest ih =>
    rw [List.foldlM_cons, Option.bind_eq_bind, Option.bind_eq_none_iff]
    constructor
    · intro stops
      cases entered : start.enter? entry with
      | none => exact ⟨[], entry, rest, start, rfl, rfl, Setting.give?_eq_none_iff.mp entered⟩
      | some middle =>
        obtain ⟨front, other, back, root, rfl, built, blocked⟩ :=
          (ih middle).mp (stops middle entered)
        refine ⟨entry :: front, other, back, root, rfl, ?_, blocked⟩
        rw [List.foldlM_cons, entered]
        exact built
    · rintro ⟨front, other, back, root, cut, built, blocked⟩ middle entered
      cases front with
      | nil =>
        cases cut
        cases built
        rw [Setting.enter?, Setting.give?_eq_none_iff.mpr blocked] at entered
        contradiction
      | cons first front =>
        obtain ⟨rfl, rfl⟩ := List.cons.inj cut
        rw [List.foldlM_cons, entered] at built
        exact (ih middle).mpr ⟨front, other, back, root, rfl, built, blocked⟩

/-- Entries make a group of settings unless they stray. -/
theorem build?_eq_none_iff {entries : Entries} :
    Setting.build? entries = none ↔ Strays entries :=
  foldlM_enter?_eq_none_iff _

/-- The last of the entries stands where its key leads. -/
theorem at?_build? {front : Entries} {entry : String × String} {root : Setting}
    (built : Setting.build? (front ++ [entry]) = some root) :
    Setting.at? (SettingPath.ofKey entry.1).toSteps (some root) = some (.ofText entry.2) := by
  rw [Setting.build?, List.foldlM_append] at built
  obtain ⟨middle, _, last⟩ := Option.bind_eq_some_iff.mp built
  rw [List.foldlM_cons] at last
  obtain ⟨final, entered, same⟩ := Option.bind_eq_some_iff.mp last
  cases same
  exact Setting.at?_give? entered

/-- Only steps by index can stray. -/
theorem Flat.not_strays {entries : Entries} (flat : entries.Flat) : ¬ entries.Strays := by
  obtain ⟨root, built⟩ := Setting.exists_build?_of_flat flat
  rw [← build?_eq_none_iff, built]
  exact Option.some_ne_none root

/-- The last item of a list that has one can be counted from its end, but not before it is there. -/
example : ¬ Strays [("seed[0]", "7"), ("seed[-1]", "8")] ∧
    Strays [("seed[-1]", "8"), ("seed[0]", "7")] := by
  rw [← build?_eq_none_iff, ← build?_eq_none_iff]
  exact ⟨nofun, rfl⟩

end Entries

end AesTrials
