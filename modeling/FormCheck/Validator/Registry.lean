import FormCheck.Validator.Builtin

/-!
# Registries

A registry finds the validator of a rule name.  Validators that were registered
are consulted first and the built-in ones after them.  The registered ones are
kept in ascending order of their names, each name once, so that two registries
with the same validators under the same names are the same registry.
-/

namespace FormCheck

@[ext] structure Registry where
  overrides : List (String × Validator)
  sorted : (overrides.map Prod.fst).Pairwise (· < ·)

namespace Registry

def builtins : Registry where
  overrides := []
  sorted := List.Pairwise.nil

instance : Inhabited Registry := ⟨builtins⟩

/-- Puts a validator at the place of its name, instead of an earlier one of that name. -/
def place (name : String) (validator : Validator) :
    List (String × Validator) → List (String × Validator)
  | [] => [(name, validator)]
  | entry :: rest =>
    if name < entry.1 then (name, validator) :: entry :: rest
    else if name = entry.1 then (name, validator) :: rest
    else entry :: place name validator rest

theorem mem_names_place {name other : String} {validator : Validator}
    {entries : List (String × Validator)} :
    other ∈ (place name validator entries).map Prod.fst ↔
      other = name ∨ other ∈ entries.map Prod.fst := by
  induction entries with
  | nil => simp [place]
  | cons entry rest ih =>
    simp only [place]
    split
    · simp
    · split
      · next heq =>
        subst heq
        simp
      · simp only [List.map_cons, List.mem_cons, ih]
        exact or_left_comm

theorem sorted_place (name : String) (validator : Validator) {entries : List (String × Validator)}
    (hsorted : (entries.map Prod.fst).Pairwise (· < ·)) :
    ((place name validator entries).map Prod.fst).Pairwise (· < ·) := by
  induction entries with
  | nil => simp [place]
  | cons entry rest ih =>
    rw [List.map_cons, List.pairwise_cons] at hsorted
    by_cases hlt : name < entry.1
    · simp only [place, if_pos hlt, List.map_cons, List.pairwise_cons]
      refine ⟨?_, hsorted⟩
      intro other hmem
      rcases List.mem_cons.mp hmem with rfl | hrest
      · exact hlt
      · exact String.lt_trans hlt (hsorted.1 other hrest)
    · by_cases heq : name = entry.1
      · simp only [place, if_neg hlt, if_pos heq, List.map_cons, List.pairwise_cons]
        exact ⟨heq ▸ hsorted.1, hsorted.2⟩
      · simp only [place, if_neg hlt, if_neg heq, List.map_cons, List.pairwise_cons]
        refine ⟨?_, ih hsorted.2⟩
        intro other hmem
        rcases mem_names_place.mp hmem with rfl | hrest
        · exact Std.lt_of_le_of_ne (String.not_lt.mp hlt) fun h => heq h.symm
        · exact hsorted.1 other hrest

def register (registry : Registry) (name : String) (validator : Validator) : Registry where
  overrides := place name validator registry.overrides
  sorted := sorted_place name validator registry.sorted

def ofList (entries : List (String × Validator)) : Registry :=
  entries.foldl (fun registry entry => registry.register entry.1 entry.2) builtins

def overrideNames (registry : Registry) : List String :=
  registry.overrides.map Prod.fst

/-- The validator of a rule name: a registered one, else a built-in one. -/
def resolve? (registry : Registry) (name : String) : Option Validator :=
  match registry.overrides.lookup name with
  | some validator => some validator
  | none => (Builtin.ofName? name).map Builtin.validator

def contains (registry : Registry) (name : String) : Bool :=
  registry.overrideNames.contains name || (Builtin.ofName? name).isSome

end Registry

end FormCheck
