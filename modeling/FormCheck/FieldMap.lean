/-!
# Ordered maps from field keys

Rules and submitted values are kept by field key, and the order of the fields
is part of every answer.  A field map is a list of entries without repeated
keys.  Inserting under a key that is already there keeps the position of the
key and replaces its value; a new key goes to the end.
-/

namespace FormCheck

universe u v

/-- Entries in order, each key once. -/
@[ext] structure FieldMap (α : Type u) where
  entries : List (String × α)
  keys_nodup : (entries.map Prod.fst).Nodup

namespace FieldMap

variable {α : Type u} {β : Type v}

def empty : FieldMap α where
  entries := []
  keys_nodup := List.nodup_nil

instance : Inhabited (FieldMap α) := ⟨empty⟩

def keys (m : FieldMap α) : List String :=
  m.entries.map Prod.fst

def size (m : FieldMap α) : Nat :=
  m.entries.length

def get? (m : FieldMap α) (key : String) : Option α :=
  m.entries.lookup key

def contains (m : FieldMap α) (key : String) : Bool :=
  m.keys.contains key

/-- Replaces the value under a key, or puts a new entry at the end. -/
def insertEntry (key : String) (value : α) : List (String × α) → List (String × α)
  | [] => [(key, value)]
  | entry :: rest =>
    if entry.1 = key then (key, value) :: rest else entry :: insertEntry key value rest

theorem keys_insertEntry (key : String) (value : α) (entries : List (String × α)) :
    (insertEntry key value entries).map Prod.fst =
      if key ∈ entries.map Prod.fst then entries.map Prod.fst
      else entries.map Prod.fst ++ [key] := by
  induction entries with
  | nil => simp [insertEntry]
  | cons entry rest ih =>
    by_cases hkey : entry.1 = key
    · simp [insertEntry, hkey]
    · have hkey' : ¬ key = entry.1 := fun h => hkey h.symm
      simp only [insertEntry, if_neg hkey, List.map_cons, ih, List.mem_cons, hkey', false_or]
      split <;> simp

theorem nodup_insertEntry (key : String) (value : α) {entries : List (String × α)}
    (hnodup : (entries.map Prod.fst).Nodup) :
    ((insertEntry key value entries).map Prod.fst).Nodup := by
  rw [keys_insertEntry]
  split
  · exact hnodup
  · next hkey =>
    refine List.nodup_append.mpr ⟨hnodup, by simp, ?_⟩
    intro a ha b hb hab
    rw [List.mem_singleton] at hb
    exact hkey (hb ▸ hab ▸ ha)

def insert (m : FieldMap α) (key : String) (value : α) : FieldMap α where
  entries := insertEntry key value m.entries
  keys_nodup := nodup_insertEntry key value m.keys_nodup

def ofList (entries : List (String × α)) : FieldMap α :=
  entries.foldl (fun m entry => m.insert entry.1 entry.2) empty

def map (f : α → β) (m : FieldMap α) : FieldMap β where
  entries := m.entries.map fun entry => (entry.1, f entry.2)
  keys_nodup := by
    simpa [Function.comp_def] using m.keys_nodup

@[simp] theorem entries_empty : (empty : FieldMap α).entries = [] := rfl

@[simp] theorem entries_map (f : α → β) (m : FieldMap α) :
    (m.map f).entries = m.entries.map fun entry => (entry.1, f entry.2) := rfl

@[simp] theorem entries_insert (m : FieldMap α) (key : String) (value : α) :
    (m.insert key value).entries = insertEntry key value m.entries := rfl

theorem keys_insert (m : FieldMap α) (key : String) (value : α) :
    (m.insert key value).keys = if key ∈ m.keys then m.keys else m.keys ++ [key] :=
  keys_insertEntry key value m.entries

theorem lookup_insertEntry (key other : String) (value : α) (entries : List (String × α)) :
    (insertEntry key value entries).lookup other =
      if other = key then some value else entries.lookup other := by
  have hbeq (a b : String) : (a == b) = decide (a = b) := rfl
  induction entries with
  | nil => by_cases hother : other = key <;> simp [insertEntry, List.lookup_cons, hbeq, hother]
  | cons entry rest ih =>
    obtain ⟨entryKey, entryValue⟩ := entry
    by_cases hkey : entryKey = key
    · subst hkey
      by_cases hother : other = entryKey <;>
        simp [insertEntry, List.lookup_cons, hbeq, hother]
    · by_cases hother : other = entryKey
      · subst hother
        simp [insertEntry, hkey]
      · simp [insertEntry, hkey, List.lookup_cons, hbeq, hother, ih]

theorem lookup_of_mem {entries : List (String × α)} {key : String} {value : α}
    (hnodup : (entries.map Prod.fst).Nodup) (hmem : (key, value) ∈ entries) :
    entries.lookup key = some value := by
  induction entries with
  | nil => simp at hmem
  | cons entry rest ih =>
    rw [List.map_cons, List.nodup_cons] at hnodup
    rcases List.mem_cons.mp hmem with rfl | hrest
    · simp
    · have hkey : (key == entry.1) = false := by
        rw [beq_eq_false_iff_ne]
        rintro rfl
        exact hnodup.1 (List.mem_map.mpr ⟨(entry.1, value), hrest, rfl⟩)
      rw [List.lookup_cons, hkey]
      exact ih hnodup.2 hrest

theorem lookup_eq_none_iff {entries : List (String × α)} {key : String} :
    entries.lookup key = none ↔ key ∉ entries.map Prod.fst := by
  rw [List.lookup_eq_none_iff]
  simp only [List.mem_map, not_exists, not_and, bne_iff_ne]
  constructor
  · intro hnone entry hmem hkey
    exact hnone entry hmem hkey.symm
  · intro hnone entry hmem hkey
    exact hnone entry hmem hkey.symm

theorem get?_eq_some_iff (m : FieldMap α) (key : String) (value : α) :
    m.get? key = some value ↔ (key, value) ∈ m.entries := by
  constructor
  · intro hget
    obtain ⟨before, after, hsplit, -⟩ := List.lookup_eq_some_iff.mp hget
    simp [hsplit]
  · exact lookup_of_mem m.keys_nodup

theorem get?_insert (m : FieldMap α) (key other : String) (value : α) :
    (m.insert key value).get? other = if other = key then some value else m.get? other :=
  lookup_insertEntry key other value m.entries

theorem get?_eq_of_perm {m other : FieldMap α} (hperm : other.entries.Perm m.entries)
    (key : String) : other.get? key = m.get? key := by
  apply Option.ext
  intro value
  rw [get?_eq_some_iff, get?_eq_some_iff, hperm.mem_iff]

end FieldMap

end FormCheck
