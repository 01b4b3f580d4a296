import Mathlib.Data.List.Basic
import Mathlib.Data.List.Induction
import Mathlib.Tactic.SplitIfs
import SicAssembler.OrderedMap

/-!
Ordered maps as the list of what was inserted in them. The keys stand in the order of their first
insertion (`keys_ofList`), and each has the value of its last one (`get?_ofList`). Inserting into a
map that has keys already leaves these where they are (`keys_insertAll`, `get?_insertAll`). A map is
known by its keys and their values (`eq_of_keys_of_get?`), so putting the insertions of a map into
another is the same as putting the map itself (`insertAll_entries_ofList`). The same insertions under
other keys and values give the same places (`entries_ofList_map`). The order of the keys has no part
in their values (`get?_of_perm`).
-/

namespace SicAssembler.OrderedMap

variable {κ ν : Type} [DecidableEq κ]

theorem get?_isSome_iff (m : OrderedMap κ ν) (key : κ) :
    (m.get? key).isSome = true ↔ key ∈ m.keys := by
  simp [get?, keys]

theorem contains_iff (m : OrderedMap κ ν) (key : κ) : m.contains key = true ↔ key ∈ m.keys :=
  m.get?_isSome_iff key

theorem get?_eq_none_iff (m : OrderedMap κ ν) {key : κ} : m.get? key = none ↔ key ∉ m.keys := by
  rw [← m.get?_isSome_iff, Option.not_isSome_iff_eq_none]

theorem get?_eq_some_iff (m : OrderedMap κ ν) (key : κ) (value : ν) :
    m.get? key = some value ↔ (key, value) ∈ m.entries := by
  obtain ⟨entries, nodup⟩ := m
  change entries.lookup key = some value ↔ (key, value) ∈ entries
  induction entries with
  | nil => simp
  | cons entry rest ih =>
    obtain ⟨first, kept⟩ := entry
    rw [List.map_cons, List.nodup_cons] at nodup
    rw [List.lookup_cons, List.mem_cons, ← ih nodup.2]
    by_cases same : key = first
    · subst same
      have fresh : rest.lookup key ≠ some value := by
        intro found
        have member := (ih nodup.2).mp found
        exact nodup.1 (List.mem_map.mpr ⟨_, member, rfl⟩)
      simp [fresh, eq_comm]
    · simp [beq_false_of_ne same, same]

theorem get?_of_perm {m m' : OrderedMap κ ν} (same : m.entries.Perm m'.entries) (key : κ) :
    m.get? key = m'.get? key := by
  apply Option.ext
  intro value
  rw [m.get?_eq_some_iff, m'.get?_eq_some_iff, same.mem_iff]

theorem ofList_concat (entries : List (κ × ν)) (key : κ) (value : ν) :
    ofList (entries ++ [(key, value)]) = (ofList entries).insert key value :=
  insertAll_append empty entries [(key, value)]

/-- A key stands where it was first inserted. -/
theorem keys_ofList (entries : List (κ × ν)) :
    (ofList entries).keys = (entries.map Prod.fst).eraseDups := by
  induction entries using List.reverseRecOn with
  | nil => rfl
  | append_singleton entries entry ih =>
    rw [ofList_concat, keys_insert, ih, List.map_append, List.eraseDups_append]
    by_cases known : entry.1 ∈ entries.map Prod.fst
    · have none : [entry.1].removeAll (entries.map Prod.fst) = [] :=
        List.filter_eq_nil_iff.mpr (by simpa using known)
      rw [if_pos (List.mem_eraseDups.mpr known), List.map_singleton, none]
      simp
    · have fresh : [entry.1].removeAll (entries.map Prod.fst) = [entry.1] :=
        List.filter_eq_self.mpr (by simpa using known)
      rw [if_neg (fun member => known (List.mem_eraseDups.mp member)), List.map_singleton, fresh]
      simp [List.eraseDups_cons]

/-- A key has the value of its last insertion. -/
theorem get?_ofList (entries : List (κ × ν)) (key : κ) :
    (ofList entries).get? key =
      (entries.filter fun entry => entry.1 = key).getLast?.map Prod.snd := by
  induction entries using List.reverseRecOn with
  | nil => rfl
  | append_singleton entries entry ih =>
    rw [ofList_concat, get?_insert, ih, List.filter_append]
    by_cases same : key = entry.1
    · simp [same]
    · simp [same, Ne.symm same]

theorem mem_putEntry {key : κ} {value : ν} {entries : List (κ × ν)} {entry : κ × ν}
    (member : entry ∈ putEntry key value entries) : entry = (key, value) ∨ entry ∈ entries := by
  induction entries with
  | nil => exact .inl (List.mem_singleton.mp member)
  | cons first rest ih =>
    rw [putEntry] at member
    split_ifs at member
    · rcases List.mem_cons.mp member with same | later
      · exact .inl same
      · exact .inr (List.mem_cons_of_mem _ later)
    · rcases List.mem_cons.mp member with same | later
      · exact .inr (same ▸ List.mem_cons_self)
      · exact (ih later).imp_right (List.mem_cons_of_mem _)

theorem mem_of_mem_ofList {entries : List (κ × ν)} {entry : κ × ν}
    (member : entry ∈ (ofList entries).entries) : entry ∈ entries := by
  induction entries using List.reverseRecOn with
  | nil => cases member
  | append_singleton entries last ih =>
    rw [ofList_concat] at member
    rcases mem_putEntry member with rfl | earlier
    · exact List.mem_append_right _ List.mem_cons_self
    · exact List.mem_append_left _ (ih earlier)

theorem insertAll_concat (m : OrderedMap κ ν) (entries : List (κ × ν)) (key : κ) (value : ν) :
    m.insertAll (entries ++ [(key, value)]) = (m.insertAll entries).insert key value :=
  insertAll_append m entries [(key, value)]

/-- The keys of a map keep their places; new ones follow in the order of their first insertion. -/
theorem keys_insertAll (m : OrderedMap κ ν) (entries : List (κ × ν)) :
    (m.insertAll entries).keys = m.keys ++ (ofList entries).keys.filter (· ∉ m.keys) := by
  induction entries using List.reverseRecOn with
  | nil => simp [insertAll, ofList, empty, keys]
  | append_singleton entries entry ih =>
    rw [insertAll_concat, ofList_concat, keys_insert, keys_insert, ih]
    by_cases old : entry.1 ∈ m.keys <;> by_cases known : entry.1 ∈ (ofList entries).keys
    all_goals simp [old, known]

/-- What is inserted counts before what was there. -/
theorem get?_insertAll (m : OrderedMap κ ν) (entries : List (κ × ν)) (key : κ) :
    (m.insertAll entries).get? key = ((ofList entries).get? key).or (m.get? key) := by
  induction entries using List.reverseRecOn with
  | nil => simp [insertAll, ofList, empty, get?]
  | append_singleton entries entry ih =>
    rw [insertAll_concat, ofList_concat, get?_insert, get?_insert, ih]
    split_ifs <;> rfl

/-! ### Maps put into maps -/

theorem get?_of_mem (m : OrderedMap κ ν) {entry : κ × ν} (member : entry ∈ m.entries) :
    m.get? entry.1 = some entry.2 :=
  (m.get?_eq_some_iff entry.1 entry.2).mpr member

/-- A map is its keys in order, each with its value. -/
theorem entries_eq_filterMap (m : OrderedMap κ ν) :
    m.entries = m.keys.filterMap fun key => (m.get? key).map (Prod.mk key) := by
  have values : ∀ entry ∈ m.entries,
      (m.get? entry.1).map (Prod.mk entry.1) = some entry := by
    intro entry member
    rw [m.get?_of_mem member, Option.map_some]
  rw [keys, List.filterMap_map, Function.comp_def, List.filterMap_congr values, List.filterMap_some]

theorem eq_of_keys_of_get? {m m' : OrderedMap κ ν} (keys : m.keys = m'.keys)
    (values : ∀ key, m.get? key = m'.get? key) : m = m' := by
  apply OrderedMap.ext
  rw [m.entries_eq_filterMap, m'.entries_eq_filterMap, keys]
  simp only [values]

theorem putEntry_of_not_mem {key : κ} {entries : List (κ × ν)} (fresh : key ∉ entries.map Prod.fst)
    (value : ν) : putEntry key value entries = entries ++ [(key, value)] := by
  induction entries with
  | nil => rfl
  | cons entry rest ih =>
    rw [List.map_cons, List.mem_cons, not_or] at fresh
    rw [putEntry, if_neg (Ne.symm fresh.1), ih fresh.2, List.cons_append]

theorem entries_ofList_of_nodup {entries : List (κ × ν)}
    (distinct : (entries.map Prod.fst).Nodup) : (ofList entries).entries = entries := by
  induction entries using List.reverseRecOn with
  | nil => rfl
  | append_singleton entries entry ih =>
    rw [List.map_append, List.map_singleton, List.nodup_append] at distinct
    obtain ⟨earlier, _, apart⟩ := distinct
    have fresh : entry.1 ∉ entries.map Prod.fst := fun member =>
      apart entry.1 member entry.1 List.mem_cons_self rfl
    rw [ofList_concat]
    change putEntry entry.1 entry.2 (ofList entries).entries = _
    rw [ih earlier, putEntry_of_not_mem fresh]

/-- A map is rebuilt from its entries. -/
theorem ofList_entries (m : OrderedMap κ ν) : ofList m.entries = m :=
  OrderedMap.ext (entries_ofList_of_nodup m.nodup)

/-- Only what is left of repeated insertions counts when a map is put into another. -/
theorem insertAll_entries_ofList (m : OrderedMap κ ν) (entries : List (κ × ν)) :
    m.insertAll (ofList entries).entries = m.insertAll entries := by
  apply eq_of_keys_of_get?
  · rw [keys_insertAll, keys_insertAll, ofList_entries]
  · intro key
    rw [get?_insertAll, get?_insertAll, ofList_entries]

/-- A map updated by another: its keys keep their places and take the values of the other where it
has one, and the other's new keys follow in their order. -/
theorem entries_insertAll_entries (m other : OrderedMap κ ν) :
    (m.insertAll other.entries).entries =
      m.entries.map (fun entry => (entry.1, (other.get? entry.1).getD entry.2)) ++
        other.entries.filter fun entry => entry.1 ∉ m.keys := by
  rw [entries_eq_filterMap, keys_insertAll, ofList_entries, List.filterMap_append]
  simp only [get?_insertAll, ofList_entries]
  congr 1
  · rw [keys, List.filterMap_map, List.filterMap_eq_map_iff_forall_eq_some]
    intro entry member
    rw [Function.comp_apply, m.get?_of_mem member]
    cases other.get? entry.1 <;> rfl
  · change ((other.entries.map Prod.fst).filter _).filterMap _ = _
    rw [List.filter_map, List.filterMap_map]
    refine (List.filterMap_congr ?_).trans List.filterMap_some
    intro entry member
    rw [Function.comp_apply, other.get?_of_mem (List.mem_of_mem_filter member)]
    rfl

/-! ### Other keys and other values -/

section Mapped

variable {κ' ν' : Type} [DecidableEq κ'] {f : κ → κ'}

theorem map_putEntry (distinct : Function.Injective f) (g : ν → ν') (key : κ) (value : ν)
    (entries : List (κ × ν)) :
    (putEntry key value entries).map (Prod.map f g) =
      putEntry (f key) (g value) (entries.map (Prod.map f g)) := by
  induction entries with
  | nil => rfl
  | cons entry rest ih =>
    have same : f entry.1 = f key ↔ entry.1 = key := distinct.eq_iff
    simp only [putEntry, List.map_cons, Prod.map_fst, same]
    split_ifs
    · rfl
    · rw [List.map_cons, ih]

/-- A map of the same insertions under other keys and values has the same places. -/
theorem entries_ofList_map (distinct : Function.Injective f) (g : ν → ν') (entries : List (κ × ν)) :
    (ofList (entries.map (Prod.map f g))).entries = (ofList entries).entries.map (Prod.map f g) := by
  induction entries using List.reverseRecOn with
  | nil => rfl
  | append_singleton entries entry ih =>
    rw [List.map_append, List.map_singleton, ofList_concat]
    change putEntry (f entry.1) (g entry.2) _ =
      (ofList (entries ++ [(entry.1, entry.2)])).entries.map _
    rw [ofList_concat, ih, insert, map_putEntry distinct]

theorem get?_of_entries_map (distinct : Function.Injective f) (g : ν → ν') {m : OrderedMap κ ν}
    {m' : OrderedMap κ' ν'} (mapped : m'.entries = m.entries.map (Prod.map f g)) (key : κ) :
    m'.get? (f key) = (m.get? key).map g := by
  rw [get?, mapped, get?]
  induction m.entries with
  | nil => rfl
  | cons entry rest ih =>
    rw [List.map_cons, List.lookup_cons, List.lookup_cons, ih, Prod.map_fst]
    by_cases same : key = entry.1
    · simp [same]
    · simp [beq_false_of_ne same, beq_false_of_ne (distinct.ne same)]

end Mapped

end SicAssembler.OrderedMap
