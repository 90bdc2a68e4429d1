import FormCheck.Validator.Registry
import Mathlib.Tactic.Common

/-!
# Registries as functions of names

A registry is determined by the validators that its names are bound to.  This
turns questions about the ordered table into questions about look-ups: what a
history of registrations leaves under a name, when two registrations commute,
and which rule names have a validator at all.
-/

namespace FormCheck

namespace Builtin

theorem mem_all (builtin : Builtin) : builtin ∈ all := by
  cases builtin <;> decide

theorem ofName?_eq_none_iff (name : String) :
    ofName? name = none ↔ ∀ builtin : Builtin, builtin.name ≠ name := by
  unfold ofName?
  rw [List.find?_eq_none]
  constructor
  · intro hnone builtin hname
    exact hnone builtin (mem_all builtin) (by simpa using hname)
  · intro hne builtin _ hname
    exact hne builtin (by simpa using hname)

end Builtin

namespace Registry

/-- A rule name has a validator when it was registered or is built in. -/
def Knows (registry : Registry) (name : String) : Prop :=
  name ∈ registry.overrideNames ∨ ∃ builtin : Builtin, builtin.name = name

/-- The registry after a list of registrations. -/
def registerAll
    (registry : Registry) (entries : List (String × Validator)) : Registry :=
  entries.foldl (fun registry entry => registry.register entry.1 entry.2) registry

/-! ## Look-ups among the registered validators -/

theorem lookup_place_self
    (name : String) (validator : Validator) (entries : List (String × Validator)) :
    (place name validator entries).lookup name = some validator := by
  induction entries with
  | nil => simp [place]
  | cons entry rest ih =>
      obtain ⟨entryName, entryValidator⟩ := entry
      by_cases hlt : name < entryName
      · simp [place, hlt]
      · by_cases heq : name = entryName
        · subst entryName
          simp [place]
        · have hbeq : (name == entryName) = false := beq_eq_false_iff_ne.mpr heq
          simp only [place, if_neg hlt, if_neg heq, List.lookup_cons, hbeq]
          exact ih

theorem lookup_place_of_ne
    {name other : String} (hne : other ≠ name) (validator : Validator)
    (entries : List (String × Validator)) :
    (place name validator entries).lookup other = entries.lookup other := by
  have hbeq : (other == name) = false := beq_eq_false_iff_ne.mpr hne
  induction entries with
  | nil => simp [place, List.lookup_cons, hbeq]
  | cons entry rest ih =>
      obtain ⟨entryName, entryValidator⟩ := entry
      by_cases hlt : name < entryName
      · simp [place, hlt, List.lookup_cons, hbeq]
      · by_cases heq : name = entryName
        · -- The entry that is replaced was not the one asked for, either.
          subst entryName
          simp [place, List.lookup_cons, hbeq]
        · simp only [place, if_neg hlt, if_neg heq, List.lookup_cons, ih]

theorem lookup_register
    (registry : Registry) (name other : String) (validator : Validator) :
    (registry.register name validator).overrides.lookup other =
      if other = name then some validator
      else registry.overrides.lookup other := by
  change (place name validator registry.overrides).lookup other = _
  by_cases hother : other = name
  · rw [if_pos hother, hother, lookup_place_self]
  · rw [if_neg hother, lookup_place_of_ne hother]

/-- After a list of registrations the last one of a name is found, and what was
there before if the name is not in the list. -/
theorem lookup_registerAll
    (registry : Registry) (entries : List (String × Validator)) (name : String) :
    (registry.registerAll entries).overrides.lookup name =
      (entries.reverse.lookup name).or (registry.overrides.lookup name) := by
  induction entries generalizing registry with
  | nil => simp [registerAll]
  | cons entry rest ih =>
      obtain ⟨entryName, entryValidator⟩ := entry
      have hrest := ih (registry.register entryName entryValidator)
      unfold registerAll at hrest ⊢
      rw [List.foldl_cons, hrest, lookup_register, List.reverse_cons,
        List.lookup_append, Option.or_assoc]
      congr 1
      by_cases hname : name = entryName
      · simp [hname]
      · have hbeq : (name == entryName) = false := beq_eq_false_iff_ne.mpr hname
        simp [List.lookup_cons, hname, hbeq]

theorem lookup_eq_none_iff (registry : Registry) (name : String) :
    registry.overrides.lookup name = none ↔ name ∉ registry.overrideNames :=
  FieldMap.lookup_eq_none_iff

/-! ## A registry is determined by its look-ups -/

theorem mem_overrides_iff
    (registry : Registry) (name : String) (validator : Validator) :
    (name, validator) ∈ registry.overrides ↔
      registry.overrides.lookup name = some validator := by
  constructor
  · exact FieldMap.lookup_of_mem (registry.sorted.imp Std.ne_of_lt)
  · intro hlookup
    obtain ⟨before, after, hsplit, -⟩ := List.lookup_eq_some_iff.mp hlookup
    rw [hsplit]
    simp

theorem pairwise_overrides (registry : Registry) :
    registry.overrides.Pairwise (fun entry other => entry.1 < other.1) :=
  List.pairwise_map.mp registry.sorted

theorem nodup_overrides (registry : Registry) : registry.overrides.Nodup := by
  apply registry.pairwise_overrides.imp
  intro entry other hlt heq
  exact Std.ne_of_lt hlt (congrArg Prod.fst heq)

theorem ext_lookup
    {registry other : Registry}
    (hlookup : ∀ name,
      registry.overrides.lookup name = other.overrides.lookup name) :
    registry = other := by
  have hperm : registry.overrides.Perm other.overrides := by
    rw [List.perm_ext_iff_of_nodup registry.nodup_overrides other.nodup_overrides]
    rintro ⟨name, validator⟩
    rw [mem_overrides_iff, mem_overrides_iff, hlookup name]
  apply Registry.ext
  apply List.Perm.eq_of_pairwise _ registry.pairwise_overrides
    other.pairwise_overrides hperm
  intro entry next _ _ hlt hgt
  exact absurd (String.lt_trans hlt hgt) (String.lt_irrefl _)

/-- Registrations of different names can be made in either order. -/
theorem register_comm
    (registry : Registry) {name other : String}
    (hne : name ≠ other) (validator otherValidator : Validator) :
    (registry.register name validator).register other otherValidator =
      (registry.register other otherValidator).register name validator := by
  apply ext_lookup
  intro asked
  simp only [lookup_register]
  by_cases hother : asked = other
  · have hname : asked ≠ name := fun h => hne (h ▸ hother)
    simp [hother, hne.symm]
  · simp [hother]

/-! ## Which rule names have a validator -/

theorem resolve?_eq_none_iff (registry : Registry) (name : String) :
    registry.resolve? name = none ↔ ¬ registry.Knows name := by
  unfold resolve? Knows
  cases hlookup : registry.overrides.lookup name with
  | none =>
      have hnames := (lookup_eq_none_iff registry name).mp hlookup
      simp only [Option.map_eq_none_iff, Builtin.ofName?_eq_none_iff, hnames,
        false_or, not_exists, ne_eq]
  | some validator =>
      have hnames : name ∈ registry.overrideNames := by
        by_contra habsent
        rw [(lookup_eq_none_iff registry name).mpr habsent] at hlookup
        simp at hlookup
      simp [hnames]

theorem knows_iff_resolve? (registry : Registry) (name : String) :
    registry.Knows name ↔ ∃ validator, registry.resolve? name = some validator := by
  rw [← Option.ne_none_iff_exists', ne_eq, resolve?_eq_none_iff, not_not]

theorem contains_iff_knows (registry : Registry) (name : String) :
    registry.contains name = true ↔ registry.Knows name := by
  have hbuiltin :
      (Builtin.ofName? name).isSome = true ↔
        ∃ builtin : Builtin, builtin.name = name := by
    rw [Option.isSome_iff_ne_none, ne_eq, Builtin.ofName?_eq_none_iff]
    simp only [ne_eq, not_forall, not_not]
  unfold contains Knows
  rw [Bool.or_eq_true, List.contains_iff_mem, hbuiltin]

instance (registry : Registry) (name : String) : Decidable (registry.Knows name) :=
  decidable_of_iff _ (registry.contains_iff_knows name)

end Registry

end FormCheck
