import FormCheck.Check.Inspection
import FormCheck.Proofs.RegistryLookup
import Mathlib.Logic.Relation

/-!
# Registries and their histories

The entries of a registry may be kept in a table that enumerates them in any order.  A
registration copies the table, puts the new entry into the copy, and leaves the table as
it was; the copy may come in yet another order.  This file follows all registries that
are held at one time, each with its table and with the registrations it goes back to.
What a registry shows is decided by the last validator that its history has for each
name, and neither the order of a table nor anything that is registered elsewhere has a
part in it.
-/

namespace FormCheck.Registry

/-! ## Tables in any order -/

/-- Validators by name, in the order in which a table happens to enumerate them. -/
abbrev Table := FieldMap Validator

namespace Table

variable {table : Table} {registry : Registry}

def SameEntries (table other : Table) : Prop :=
  table.entries.Perm other.entries

def resolve? (table : Table) (name : String) : Option Validator :=
  (table.get? name).or ((Builtin.ofName? name).map Builtin.validator)

def knows (table : Table) (name : String) : Bool :=
  table.contains name || (Builtin.ofName? name).isSome

def inOrder (name other : String) : Bool :=
  decide (name ≤ other)

/-- The names of a table, sorted after they were enumerated. -/
def names (table : Table) : List String :=
  table.keys.mergeSort inOrder

def inspect (table : Table) : String :=
  inspectRecord "ValidatorRegistry" [("overrides", inspectTexts table.names)]

/-- Whatever a registry is asked, its table gives the same answer. -/
structure Shows (table : Table) (registry : Registry) : Prop where
  resolve?_eq : ∀ name, table.resolve? name = registry.resolve? name
  knows_eq : ∀ name, table.knows name = registry.contains name
  names_eq : table.names = registry.overrideNames
  inspect_eq : table.inspect = registry.inspect

/-- The names of a table are the names of a registry with the same look-ups, in any order. -/
theorem perm_keys
    (hlookup : ∀ name, table.get? name = registry.overrides.lookup name) :
    table.keys.Perm registry.overrideNames := by
  have hnodup : registry.overrideNames.Nodup := registry.sorted.imp Std.ne_of_lt
  refine (List.perm_ext_iff_of_nodup table.keys_nodup hnodup).mpr ?_
  intro name
  rw [← not_iff_not, ← lookup_eq_none_iff, ← hlookup]
  exact FieldMap.lookup_eq_none_iff.symm

theorem inOrder_trans (name other last : String) (hfirst : inOrder name other = true)
    (hsecond : inOrder other last = true) : inOrder name last = true :=
  decide_eq_true (String.le_trans (of_decide_eq_true hfirst) (of_decide_eq_true hsecond))

theorem inOrder_total (name other : String) :
    (inOrder name other || inOrder other name) = true := by
  simpa [inOrder] using String.le_total name other

theorem names_eq_overrideNames
    (hlookup : ∀ name, table.get? name = registry.overrides.lookup name) :
    table.names = registry.overrideNames := by
  have hperm : table.names.Perm registry.overrideNames :=
    (List.mergeSort_perm _ _).trans (perm_keys hlookup)
  have hsorted : table.names.Pairwise (inOrder · ·) :=
    List.pairwise_mergeSort inOrder_trans inOrder_total _
  have hascending : registry.overrideNames.Pairwise (inOrder · ·) :=
    registry.sorted.imp fun hlt => decide_eq_true (Std.le_of_lt hlt)
  refine hperm.eq_of_pairwise ?_ hsorted hascending
  intro name other _ _ hle hge
  exact String.le_antisymm (of_decide_eq_true hle) (of_decide_eq_true hge)

theorem shows_of_lookup
    (hlookup : ∀ name, table.get? name = registry.overrides.lookup name) :
    table.Shows registry := by
  have hnames := names_eq_overrideNames hlookup
  refine ⟨?_, ?_, hnames, ?_⟩
  · intro name
    rw [Table.resolve?, Registry.resolve?, hlookup]
    cases registry.overrides.lookup name <;> rfl
  · intro name
    have hmem := (perm_keys hlookup).mem_iff (a := name)
    rw [Table.knows, Registry.contains, FieldMap.contains, List.contains_eq_mem,
      List.contains_eq_mem]
    simp only [hmem]
  · rw [Table.inspect, Registry.inspect, hnames]

end Table

/-! ## Registries that are held together -/

/-- A registry with the table that keeps its entries, and the registrations it goes back to. -/
structure Kept where
  table : Table
  registry : Registry
  history : List (String × Validator)

/-- One more registry is made: from given validators, or from a held registry by a registration.
The table of the new one enumerates its entries in any order. -/
inductive Step : List Kept → List Kept → Prop
  | start {held : List Kept} {given table : Table} (htable : table.SameEntries given) :
      Step held (held ++ [⟨table, ofList given.entries, given.entries⟩])
  | register {held : List Kept} {source : Kept} {table : Table} (hsource : source ∈ held)
      (name : String) (validator : Validator)
      (htable : table.SameEntries (source.table.insert name validator)) :
      Step held (held ++ [⟨table, source.registry.register name validator,
        source.history ++ [(name, validator)]⟩])

abbrev Reaches : List Kept → List Kept → Prop :=
  Relation.ReflTransGen Step

/-- What a registry answers when a list of registrations was made. -/
structure Answers (registry : Registry) (history : List (String × Validator)) : Prop where
  resolve?_eq : ∀ name, registry.resolve? name =
    (history.reverse.lookup name).or ((Builtin.ofName? name).map Builtin.validator)
  contains_iff : ∀ name, registry.contains name = true ↔
    ∃ validator, registry.resolve? name = some validator
  ascending : registry.overrideNames.Pairwise (· < ·)
  nodup : registry.overrideNames.Nodup
  mem_overrideNames_iff : ∀ name, name ∈ registry.overrideNames ↔
    ∃ validator, (name, validator) ∈ history

namespace Kept

/-- Table and registry find the last validator that the history has for a name. -/
structure Tracked (kept : Kept) : Prop where
  table : ∀ name, kept.table.get? name = kept.history.reverse.lookup name
  registry : ∀ name, kept.registry.overrides.lookup name = kept.history.reverse.lookup name

/-- Each name comes once in a table, so it makes no difference from which end it is looked up. -/
theorem lookup_reverse_entries (given : Table) (name : String) :
    given.entries.reverse.lookup name = given.get? name := by
  let reversed : Table := {
    entries := given.entries.reverse
    keys_nodup := by
      rw [List.map_reverse]
      exact (List.reverse_perm _).nodup_iff.mpr given.keys_nodup }
  have hperm : reversed.entries.Perm given.entries := List.reverse_perm _
  exact FieldMap.get?_eq_of_perm hperm name

theorem lookup_reverse_concat
    (history : List (String × Validator)) (name asked : String) (validator : Validator) :
    (history ++ [(name, validator)]).reverse.lookup asked =
      if asked = name then some validator else history.reverse.lookup asked := by
  rw [List.reverse_append, List.reverse_singleton, List.singleton_append, List.lookup_cons]
  by_cases hname : asked = name
  · simp [hname]
  · simp [hname, beq_eq_false_iff_ne.mpr hname]

theorem tracked_start {given table : Table} (htable : table.SameEntries given) :
    Tracked ⟨table, ofList given.entries, given.entries⟩ := by
  constructor
  · intro name
    exact (FieldMap.get?_eq_of_perm htable name).trans (lookup_reverse_entries given name).symm
  · intro name
    have hlookup := lookup_registerAll builtins given.entries name
    rw [show builtins.overrides.lookup name = none from rfl, Option.or_none] at hlookup
    exact hlookup

theorem Tracked.register
    {source : Kept} (hsource : source.Tracked) {table : Table} {name : String}
    {validator : Validator} (htable : table.SameEntries (source.table.insert name validator)) :
    Tracked ⟨table, source.registry.register name validator,
      source.history ++ [(name, validator)]⟩ := by
  constructor
  · intro asked
    rw [lookup_reverse_concat, ← hsource.table, ← FieldMap.get?_insert]
    exact FieldMap.get?_eq_of_perm htable asked
  · intro asked
    rw [lookup_reverse_concat, ← hsource.registry, ← lookup_register]

theorem tracked_step
    {held next : List Kept} (hheld : ∀ kept ∈ held, kept.Tracked) (hstep : Step held next) :
    ∀ kept ∈ next, kept.Tracked := by
  intro kept hkept
  cases hstep with
  | start htable =>
      rcases List.mem_append.mp hkept with hold | hnew
      · exact hheld kept hold
      · rw [List.mem_singleton.mp hnew]
        exact tracked_start htable
  | register hsource name validator htable =>
      rcases List.mem_append.mp hkept with hold | hnew
      · exact hheld kept hold
      · rw [List.mem_singleton.mp hnew]
        exact (hheld _ hsource).register htable

theorem tracked_of_reaches {held : List Kept} (hheld : Reaches [] held) :
    ∀ kept ∈ held, kept.Tracked := by
  induction hheld with
  | refl => simp
  | tail _ hstep ih => exact tracked_step ih hstep

namespace Tracked

variable {kept other : Kept}

theorem shows (htracked : kept.Tracked) : kept.table.Shows kept.registry :=
  Table.shows_of_lookup fun name => (htracked.table name).trans (htracked.registry name).symm

theorem answers (htracked : kept.Tracked) : kept.registry.Answers kept.history where
  resolve?_eq name := by
    rw [resolve?, htracked.registry]
    cases kept.history.reverse.lookup name <;> rfl
  contains_iff name := (contains_iff_knows _ name).trans (knows_iff_resolve? _ name)
  ascending := kept.registry.sorted
  nodup := kept.registry.sorted.imp Std.ne_of_lt
  mem_overrideNames_iff name := by
    have hnames :
        name ∈ kept.registry.overrideNames ↔ name ∈ kept.history.reverse.map Prod.fst := by
      rw [← not_iff_not, ← lookup_eq_none_iff, htracked.registry, FieldMap.lookup_eq_none_iff]
    rw [hnames, List.map_reverse, List.mem_reverse, List.mem_map]
    constructor
    · rintro ⟨entry, hentry, rfl⟩
      exact ⟨entry.2, hentry⟩
    · rintro ⟨validator, hentry⟩
      exact ⟨(name, validator), hentry, rfl⟩

/-- Histories with the same last validators end in the same registry. -/
theorem registry_eq (htracked : kept.Tracked) (hother : other.Tracked)
    (hlast : ∀ name, kept.history.reverse.lookup name = other.history.reverse.lookup name) :
    kept.registry = other.registry := by
  apply ext_lookup
  intro name
  rw [htracked.registry, hother.registry, hlast]

end Tracked

end Kept

theorem prefix_of_reaches {held later : List Kept} (hlater : Reaches held later) :
    held <+: later := by
  induction hlater with
  | refl => exact List.prefix_rfl
  | tail _ hstep ih =>
      cases hstep with
      | start => exact ih.trans (List.prefix_append _ _)
      | register => exact ih.trans (List.prefix_append _ _)

/-- A registry that is held stays as it is whatever is registered later, and answers by the last
validators of its history, as its table does.  Registries whose histories have the same last
validators are shown alike, in whatever order their tables enumerate the entries. -/
theorem shown_by_last_registrations :
    (∀ held later : List Kept, Reaches [] held → Reaches held later →
      ∀ (place : ℕ) (kept : Kept), held[place]? = some kept →
        later[place]? = some kept ∧
        kept.registry.Answers kept.history ∧ kept.table.Shows kept.registry) ∧
    ∀ held others : List Kept, Reaches [] held → Reaches [] others →
      ∀ kept ∈ held, ∀ other ∈ others,
        (∀ name, kept.history.reverse.lookup name = other.history.reverse.lookup name) →
        kept.registry = other.registry ∧
        (∀ name, kept.table.resolve? name = other.table.resolve? name) ∧
        kept.table.names = other.table.names ∧ kept.table.inspect = other.table.inspect := by
  constructor
  · intro held later hheld hlater place kept hkept
    have htracked := Kept.tracked_of_reaches hheld kept (List.mem_of_getElem? hkept)
    refine ⟨?_, htracked.answers, htracked.shows⟩
    obtain ⟨added, rfl⟩ := prefix_of_reaches hlater
    rw [List.getElem?_append_left (List.getElem?_eq_some_iff.mp hkept).1, hkept]
  · intro held others hheld hothers kept hkept other hother hlast
    have htracked := Kept.tracked_of_reaches hheld kept hkept
    have htrackedOther := Kept.tracked_of_reaches hothers other hother
    have hsame := htracked.registry_eq htrackedOther hlast
    refine ⟨hsame, ?_, ?_, ?_⟩
    · intro name
      rw [htracked.shows.resolve?_eq, hsame, htrackedOther.shows.resolve?_eq]
    · rw [htracked.shows.names_eq, hsame, htrackedOther.shows.names_eq]
    · rw [htracked.shows.inspect_eq, hsame, htrackedOther.shows.inspect_eq]

def plainFlag : Table where
  entries := [("unique", Builtin.validator .required), ("flag", Builtin.validator .isTrue)]
  keys_nodup := by decide

def numberFlag : Table where
  entries := [("flag", Builtin.validator .isNumber), ("unique", Builtin.validator .required)]
  keys_nodup := by decide

/-- A flag that is registered anew is shown as one that was given at once, though the tables
enumerate their entries the other way round, and the first registry keeps its own. -/
theorem flag_shown_as_given_at_once :
    let plain : Kept := ⟨plainFlag, ofList plainFlag.entries, plainFlag.entries⟩
    let flag := Builtin.validator .isNumber
    let table := plainFlag.insert "flag" flag
    let extended : Kept :=
      ⟨table, plain.registry.register "flag" flag, plain.history ++ [("flag", flag)]⟩
    let given : Kept := ⟨numberFlag, ofList numberFlag.entries, numberFlag.entries⟩
    Reaches [] [plain] ∧ Reaches [plain] [plain, extended] ∧ Reaches [] [given] ∧
    extended.table.keys = ["unique", "flag"] ∧ given.table.keys = ["flag", "unique"] ∧
    [plain, extended][0]? = some plain ∧ plain.registry.Answers plain.history ∧
    extended.registry = given.registry ∧ extended.table.names = given.table.names := by
  intro plain flag table extended given
  have hplain : Reaches [] [plain] := .single (.start (.refl _))
  have hextended : Reaches [plain] [plain, extended] :=
    .single (.register List.mem_cons_self "flag" flag (.refl _))
  have hgiven : Reaches [] [given] := .single (.start (.refl _))
  have hlast : ∀ name,
      extended.history.reverse.lookup name = given.history.reverse.lookup name := by
    intro name
    rw [Kept.lookup_reverse_concat, Kept.lookup_reverse_entries, Kept.lookup_reverse_entries]
    by_cases hflag : name = "flag"
    · subst name
      rfl
    · have hbeq : (name == "flag") = false := beq_eq_false_iff_ne.mpr hflag
      simp [hflag, FieldMap.get?, plainFlag, numberFlag, List.lookup_cons, hbeq]
  obtain ⟨hkept, hanswers, -⟩ :=
    shown_by_last_registrations.1 _ _ hplain hextended 0 plain rfl
  obtain ⟨hregistry, -, hnames, -⟩ :=
    shown_by_last_registrations.2 _ _ (hplain.trans hextended) hgiven extended
      (List.mem_cons_of_mem _ List.mem_cons_self) given List.mem_cons_self hlast
  exact ⟨hplain, hextended, hgiven, by decide, by decide, hkept, hanswers, hregistry, hnames⟩

end FormCheck.Registry
