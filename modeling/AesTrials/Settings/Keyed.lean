/-!
# Values under keys

A list of keys and values has one value for each key. A value that is given for a key takes the
place of the one before it.
-/

namespace AesTrials.Keyed

variable {κ α : Type} [BEq κ]

/-- The entries after a value has been given for a key. -/
def assign (key : κ) (value : α) (entries : List (κ × α)) : List (κ × α) :=
  entries.filter (fun entry => entry.1 != key) ++ [(key, value)]

variable [LawfulBEq κ] {key other : κ} {value : α} {entries : List (κ × α)}

/-- Leaving entries of one key out does not change what other keys have. -/
theorem lookup_filter_ne (differs : other ≠ key) :
    (entries.filter fun entry => entry.1 != key).lookup other = entries.lookup other := by
  induction entries with
  | nil => rfl
  | cons entry rest ih =>
    rw [List.filter_cons]
    split
    · rw [List.lookup_cons, List.lookup_cons, ih]
    · rename_i same
      have missed : (other == entry.1) = false := by
        rw [beq_eq_false_iff_ne]
        rintro rfl
        exact same (bne_iff_ne.mpr differs)
      rw [ih, List.lookup_cons, missed]

/-- A key has the value that is given for it. -/
@[simp] theorem lookup_assign_self : (assign key value entries).lookup key = some value := by
  have gone : (entries.filter fun entry => entry.1 != key).lookup key = none := by
    rw [List.lookup_eq_none_iff]
    intro entry member
    have kept := (List.mem_filter.mp member).2
    exact bne_iff_ne.mpr (bne_iff_ne.mp kept).symm
  rw [assign, List.lookup_append, gone, List.lookup_cons_self, Option.none_or]

/-- The other keys have the values that they had. -/
theorem lookup_assign_of_ne (differs : other ≠ key) :
    (assign key value entries).lookup other = entries.lookup other := by
  have missed : (other == key) = false := beq_eq_false_iff_ne.mpr differs
  rw [assign, List.lookup_append, lookup_filter_ne differs]
  simp only [List.lookup_cons, missed, List.lookup_nil, Option.or_none]

/-- No key is entered twice. -/
theorem nodup_assign (distinct : (entries.map Prod.fst).Nodup) :
    ((assign key value entries).map Prod.fst).Nodup := by
  rw [assign, List.map_append, List.nodup_append]
  refine ⟨distinct.sublist (List.filter_sublist.map _), by simp, ?_⟩
  intro first listed last same
  obtain ⟨entry, member, rfl⟩ := List.mem_map.mp listed
  obtain rfl : last = key := by simpa using same
  exact bne_iff_ne.mp (List.mem_filter.mp member).2

/-- What a key has is what is entered under it. -/
theorem mem_iff_lookup (distinct : (entries.map Prod.fst).Nodup) :
    (key, value) ∈ entries ↔ entries.lookup key = some value := by
  induction entries with
  | nil => simp
  | cons entry rest ih =>
    obtain ⟨fresh, later⟩ := List.nodup_cons.mp distinct
    obtain ⟨first, held⟩ := entry
    rw [List.mem_cons, List.lookup_cons]
    by_cases same : key = first
    · subst same
      have absent : (key, value) ∉ rest := fun member =>
        fresh (List.mem_map.mpr ⟨_, member, rfl⟩)
      simp [absent, eq_comm]
    · have missed : (key == first) = false := beq_eq_false_iff_ne.mpr same
      simp [missed, same, ih later]

/-- The order of entries does not matter to what a key has. -/
theorem lookup_perm {others : List (κ × α)} (distinct : (others.map Prod.fst).Nodup)
    (order : entries.Perm others) : entries.lookup key = others.lookup key := by
  have first : (entries.map Prod.fst).Nodup := (order.map Prod.fst).nodup_iff.mpr distinct
  refine Option.ext fun value => ?_
  rw [← mem_iff_lookup first, ← mem_iff_lookup distinct, order.mem_iff]

end AesTrials.Keyed
